/-
Zitadel's grants, as a listing reports them and as the grant index stores them.

A grant has one id for life, and Zitadel lists its grants in a fixed order: a grant may be
put in anywhere, changed where it stands or taken out, and the others keep their order.
-/

import Mathlib.Data.List.Nodup

namespace Syndra.Observe

open List

structure UserGrant where
  id : String
  userId : String
  projectId : String
  roleKeys : List String
deriving DecidableEq

structure ObservedGrant where
  grantId : String
  userId : String
  projectId : String
  roleKeys : List String
deriving DecidableEq

def observedToUserGrants (observed : List ObservedGrant) : List UserGrant :=
  observed.map fun grant =>
    { id := grant.grantId
      userId := grant.userId
      projectId := grant.projectId
      roleKeys := grant.roleKeys }

structure Directory where
  grants : List UserGrant
  idsDistinct : (grants.map UserGrant.id).Nodup
  named : ∀ grant ∈ grants, grant.id ≠ "" ∧ grant.userId ≠ "" ∧ grant.projectId ≠ ""

namespace Directory

def create (directory : Directory) (place : Nat) (grant : UserGrant) : Option Directory :=
  if acceptable : grant.id ∉ directory.grants.map UserGrant.id ∧
      (grant.id ≠ "" ∧ grant.userId ≠ "" ∧ grant.projectId ≠ "") then
    some
      { grants := directory.grants.take place ++ grant :: directory.grants.drop place
        idsDistinct := by
          have same : (directory.grants.take place ++ grant :: directory.grants.drop place).Perm
              (grant :: directory.grants) := by
            refine perm_middle.trans ?_
            rw [take_append_drop]
          refine (same.map UserGrant.id).nodup_iff.mpr ?_
          exact nodup_cons.mpr ⟨acceptable.1,directory.idsDistinct⟩
        named := by
          intro other member
          rcases mem_append.mp member with before | after
          · exact directory.named other (mem_of_mem_take before)
          · rcases mem_cons.mp after with rfl | later
            · exact acceptable.2
            · exact directory.named other (mem_of_mem_drop later) }
  else none

def change (directory : Directory) (id : String) (roleKeys : List String) : Directory :=
  { grants := directory.grants.map fun grant =>
      if grant.id = id then { grant with roleKeys := roleKeys } else grant
    idsDistinct := by
      rw [map_map]
      refine (congrArg Nodup (map_congr_left ?_)).mp directory.idsDistinct
      intro grant _member
      change grant.id = (if grant.id = id then { grant with roleKeys := roleKeys } else grant).id
      split <;> rfl
    named := by
      intro other member
      obtain ⟨grant,before,rfl⟩ := mem_map.mp member
      split
      · exact directory.named grant before
      · exact directory.named grant before }

def delete (directory : Directory) (id : String) : Directory :=
  { grants := directory.grants.filter fun grant => grant.id ≠ id
    idsDistinct := (filter_sublist.map UserGrant.id).nodup directory.idsDistinct
    named := fun grant member => directory.named grant (mem_of_mem_filter member) }

theorem create_perm {directory next : Directory} {place : Nat} {grant : UserGrant}
    (created : directory.create place grant = some next) :
    next.grants.Perm (grant :: directory.grants) := by
  unfold create at created
  split at created
  · cases created
    refine perm_middle.trans ?_
    rw [take_append_drop]
  · cases created

end Directory

/-- `ON CONFLICT grant_id DO UPDATE`. -/
def upsertRow (index : List ObservedGrant) (grant : ObservedGrant) : List ObservedGrant :=
  if index.any fun row => row.grantId = grant.grantId then
    index.map fun row => if row.grantId = grant.grantId then grant else row
  else index ++ [grant]

def upsertSeen (index : List ObservedGrant) (grant : ObservedGrant) : List ObservedGrant :=
  if grant.grantId = "" || grant.userId = "" || grant.projectId = "" then index
  else upsertRow index grant

def upsertObserved (index grants : List ObservedGrant) : List ObservedGrant :=
  grants.foldl upsertSeen index

variable {grant row : ObservedGrant} {index grants : List ObservedGrant}

theorem mem_upsertRow_of_ne (mem : row ∈ index) (other : row.grantId ≠ grant.grantId) :
    row ∈ upsertRow index grant := by
  unfold upsertRow
  split
  · exact mem_map.mpr ⟨row,mem,if_neg other⟩
  · exact mem_append_left _ mem

theorem mem_upsertRow : grant ∈ upsertRow index grant := by
  unfold upsertRow
  split
  · next present =>
    obtain ⟨row,mem,same⟩ := any_eq_true.mp present
    exact mem_map.mpr ⟨row,mem,if_pos (of_decide_eq_true same)⟩
  · exact mem_append_right _ mem_cons_self

theorem mem_upsertObserved_of_unseen (mem : row ∈ index)
    (unseen : ∀ grant ∈ grants, row.grantId ≠ grant.grantId) :
    row ∈ upsertObserved index grants := by
  induction grants generalizing index with
  | nil => exact mem
  | cons grant _ ih =>
    apply ih
    · unfold upsertSeen
      split
      · exact mem
      · exact mem_upsertRow_of_ne mem (unseen grant mem_cons_self)
    · exact fun other later => unseen other (mem_cons_of_mem grant later)

variable {id : String}

private theorem id_mem_upsertSeen (held : ∃ row ∈ index, row.grantId = id) :
    ∃ row ∈ upsertSeen index grant, row.grantId = id := by
  obtain ⟨row,mem,rfl⟩ := held
  unfold upsertSeen
  split
  · exact ⟨row,mem,rfl⟩
  by_cases same : row.grantId = grant.grantId
  · exact ⟨grant,mem_upsertRow,same.symm⟩
  · exact ⟨row,mem_upsertRow_of_ne mem same,rfl⟩

private theorem id_mem_upsertObserved (held : ∃ row ∈ index, row.grantId = id) :
    ∃ row ∈ upsertObserved index grants, row.grantId = id := by
  induction grants generalizing index with
  | nil => exact held
  | cons _ _ ih => exact ih (id_mem_upsertSeen held)

theorem seen_mem_upsertObserved (seen : grant ∈ grants)
    (named : grant.grantId ≠ "" ∧ grant.userId ≠ "" ∧ grant.projectId ≠ "") :
    ∃ row ∈ upsertObserved index grants, row.grantId = grant.grantId := by
  induction grants generalizing index with
  | nil => cases seen
  | cons _ rest ih =>
    rcases mem_cons.mp seen with rfl | later
    · change ∃ row ∈ upsertObserved (upsertSeen index grant) rest, _
      apply id_mem_upsertObserved
      refine ⟨grant,?_,rfl⟩
      unfold upsertSeen
      rw [if_neg (by simp [named])]
      exact mem_upsertRow
    · exact ih later

theorem mem_upsertRow_iff :
    row ∈ upsertRow index grant ↔ row = grant ∨ (row ∈ index ∧ row.grantId ≠ grant.grantId) := by
  constructor
  · intro mem
    unfold upsertRow at mem
    split at mem
    · obtain ⟨old,present,rfl⟩ := mem_map.mp mem
      by_cases same : old.grantId = grant.grantId
      · exact .inl (if_pos same)
      · rw [if_neg same]
        exact .inr ⟨present,same⟩
    · next absent =>
      rcases mem_append.mp mem with old | added
      · exact .inr ⟨old,fun same => absent (any_eq_true.mpr ⟨row,old,decide_eq_true same⟩)⟩
      · exact .inl (mem_singleton.mp added)
  · rintro (rfl | ⟨present,other⟩)
    · exact mem_upsertRow
    · exact mem_upsertRow_of_ne present other

theorem mem_upsertObserved (mem : row ∈ upsertObserved index grants) :
    row ∈ index ∨ row ∈ grants := by
  induction grants generalizing index with
  | nil => exact .inl mem
  | cons grant _ ih =>
    rcases ih mem with before | later
    · unfold upsertSeen at before
      split at before
      · exact .inl before
      rcases mem_upsertRow_iff.mp before with rfl | ⟨present,_⟩
      · exact .inr mem_cons_self
      · exact .inl present
    · exact .inr (mem_cons_of_mem grant later)

theorem upsertObserved_mono {first second : List ObservedGrant}
    (within : ∀ row ∈ first, row ∈ second) :
    ∀ row ∈ upsertObserved first grants, row ∈ upsertObserved second grants := by
  induction grants generalizing first second with
  | nil => exact within
  | cons grant _ ih =>
    refine ih fun row mem => ?_
    unfold upsertSeen at mem ⊢
    by_cases unnamed : (grant.grantId = "" || grant.userId = "" || grant.projectId = "") = true
    · rw [if_pos unnamed] at mem ⊢
      exact within row mem
    rw [if_neg unnamed] at mem ⊢
    rcases mem_upsertRow_iff.mp mem with same | ⟨present,other⟩
    · exact mem_upsertRow_iff.mpr (.inl same)
    · exact mem_upsertRow_iff.mpr (.inr ⟨within row present,other⟩)

end Syndra.Observe
