/-
What Syndra records, and what a person holds by it.

Direct grants with an optional end, bundles with published versions and one level of
includes, assignments pinned to a version, and the active mapping rules.
-/

import Mathlib.Data.Prod.Lex
import Mathlib.Data.String.Basic
import Syndra.Propagation.Queue

namespace Syndra.Ledger

open Access Propagation List

structure DirectGrant where
  id : Nat
  userId : String
  projectId : String
  roleKey : String
  expiresAt : Option Time
  source : Source
  sourceRef : String
deriving DecidableEq

def DirectGrant.role (grant : DirectGrant) : Role :=
  { projectId := grant.projectId
    roleKey := grant.roleKey }

def DirectGrant.lapsed (now : Time) (grant : DirectGrant) : Bool :=
  match grant.expiresAt with
  | none => false
  | some ending => ending ≤ now

structure Include where
  bundleId : String
  versionId : String
deriving DecidableEq

structure Bundle where
  id : String
  retired : Bool
  includes : List Include
deriving DecidableEq

structure BundleVersion where
  id : String
  bundleId : String
  version : Nat
  roles : List Role
  includes : List Include
deriving DecidableEq

structure Assignment where
  userId : String
  bundleId : String
  versionId : String
deriving DecidableEq

structure Records where
  grants : List DirectGrant
  nextGrant : Nat
  bundles : List Bundle
  versions : List BundleVersion
  assignments : List Assignment
  rules : List MappingRule
  /-- The people of the grant index, which the rule cascades also visit. -/
  indexedUsers : List String
  grantsDistinct : (grants.map DirectGrant.id).Nodup
  grantsNumbered : ∀ grant ∈ grants, grant.id < nextGrant
  assignmentsDistinct :
    (assignments.map fun held => (held.userId, held.bundleId)).Nodup
  rulesDistinct : (rules.map MappingRule.id).Nodup

namespace Records

def empty : Records :=
  { grants := [], nextGrant := 0, bundles := [], versions := [], assignments := [], rules := []
    indexedUsers := [], grantsDistinct := List.nodup_nil, grantsNumbered := nofun
    assignmentsDistinct := List.nodup_nil, rulesDistinct := List.nodup_nil }

def getDirectGrantsForUser (records : Records) (now : Time) (userId : String)
    (includeExpired : Bool) : List DirectGrant :=
  records.grants.filter fun grant =>
    grant.userId = userId && (includeExpired || !grant.lapsed now)

/-- The view `bundle_version_effective_roles`: a version's own roles and those of
each version it includes. -/
def effectiveRoles (records : Records) (versionId : String) : List Role :=
  (records.versions.filter fun version => version.id = versionId).flatMap fun version =>
    version.roles ++ version.includes.flatMap fun child =>
      (records.versions.filter fun other => other.id = child.versionId).flatMap
        BundleVersion.roles

def bundleRolesFor (records : Records) (userId : String) : List (String × List Role) :=
  (records.assignments.filter fun held => held.userId = userId).map fun held =>
    (held.bundleId, records.effectiveRoles held.versionId)

def latestVersion (records : Records) (bundleId : String) : Option BundleVersion :=
  (records.versions.filter fun version => version.bundleId = bundleId).foldl
    (fun found version =>
      match found with
      | none => some version
      | some best => if best.version < version.version then some version else some best) none

def getUsersForBundle (records : Records) (bundleId : String) : List String :=
  (records.assignments.filter fun held => held.bundleId = bundleId).map Assignment.userId

def getAllKnownUserIds (records : Records) : List String :=
  (records.grants.map DirectGrant.userId ++ records.assignments.map Assignment.userId ++
    records.indexedUsers).dedup

/-- Some bundle in force includes this one in its working copy, its latest
version or a version somebody holds. -/
def retireBlocked (records : Records) (childId : String) : Bool :=
  records.bundles.any fun bundle =>
    bundle.id ≠ childId && !bundle.retired &&
      (bundle.includes.any (fun child => child.bundleId = childId) ||
        records.versions.any fun version =>
          version.bundleId = bundle.id &&
            version.includes.any (fun child => child.bundleId = childId) &&
              ((records.latestVersion bundle.id).any (fun latest =>
                  latest.version = version.version) ||
                records.assignments.any fun held => held.versionId = version.id))

end Records

structure PersonAccess where
  direct : List DirectGrant
  byBundle : List (String × List Role)
  revoking : List Role
deriving DecidableEq

/-- `none` is the source's empty string, which excludes no bundle. -/
def baseFrom (p : PersonAccess) (excludeBundleId : Option String) : List Role :=
  (p.direct.map DirectGrant.role ++
    (p.byBundle.filter fun held => some held.1 ≠ excludeBundleId).flatMap Prod.snd).filter
      fun role => role ∉ p.revoking

/-- The roles an unresolved revoke names, and the direct grants an unresolved
replace of their project leaves out. -/
def queuedRevocationsFor (outbox : Outbox) (grants : List DirectGrant)
    (userId : String) : List Role :=
  ((outbox.rows.filter fun row =>
      row.userId = userId && row.opType = .revoke && decide row.Unresolved &&
        row.projectId ≠ "").flatMap fun row => row.roleKeys.map (Role.mk row.projectId)) ++
  (outbox.rows.filter fun row =>
      row.userId = userId && row.opType = .replace && decide row.Unresolved &&
        row.projectId ≠ "").flatMap fun row =>
    (grants.filter fun grant =>
      grant.userId = row.userId && grant.projectId = row.projectId &&
        grant.source = .direct && grant.roleKey ∉ row.roleKeys).map DirectGrant.role

def effectiveClosure (base : List Role) (rules : List MappingRule) : List Role :=
  closure Role.mk base rules

def roleKeyBefore (a b : Role) : Bool :=
  if a.projectId ≠ b.projectId then a.projectId < b.projectId else a.roleKey < b.roleKey

def sortRoleKeys (roles : List Role) : List Role :=
  roles.insertionSort fun a b => !roleKeyBefore b a

def closureDelta (before after : List Role) : List Role × List Role :=
  (sortRoleKeys (after.filter fun role => role ∉ before),
    sortRoleKeys (before.filter fun role => role ∉ after))

def roleWrite (opType : OpType) (userId : String) (source : Source) (sourceRef : String)
    (role : Role) : EnqueueParams :=
  { userId := userId
    projectId := role.projectId
    roleKeys := [role.roleKey]
    expiresAt := none
    source := some source
    sourceRef := sourceRef
    opType := opType
    noPropagation := false
    endRule := .kept
    waitReason := none }

def deltaWrites (userId : String) (delta : List Role × List Role) (source : Source)
    (sourceRef : String) : List EnqueueParams :=
  delta.1.map (roleWrite .add userId source sourceRef) ++
    delta.2.map (roleWrite .revoke userId source sourceRef)

def Records.holdings (records : Records) (now : Time) (userId : String) : List Role :=
  (records.getDirectGrantsForUser now userId false).map DirectGrant.role ++
    (records.bundleRolesFor userId).flatMap Prod.snd

theorem mem_baseFrom (p : PersonAccess) (excludeBundleId : Option String) (role : Role) :
    role ∈ baseFrom p excludeBundleId ↔ ((∃ grant ∈ p.direct, grant.role = role) ∨
        ∃ held ∈ p.byBundle, some held.1 ≠ excludeBundleId ∧ role ∈ held.2) ∧
          role ∉ p.revoking := by
  unfold baseFrom
  simp only [mem_filter,mem_append,mem_map,mem_flatMap,decide_eq_true_eq, and_assoc]

variable {rules : List MappingRule} {delta : List Role × List Role} {source : Source}
  {sourceRef : String}

variable {role : Role} {roles : List Role} {row : OutboxRow}

theorem mem_effectiveClosure {base : List Role} :
    role ∈ effectiveClosure base rules ↔ ∃ start ∈ base, Reaches Role.mk rules start role :=
  mem_closure_iff

theorem effectiveClosure_mono {small large : List Role} (rules : List MappingRule)
    (contained : small ⊆ large) : effectiveClosure small rules ⊆ effectiveClosure large rules := by
  intro _ held
  rw [mem_effectiveClosure] at held ⊢
  obtain ⟨start,mem,reached⟩ := held
  exact ⟨start,contained mem,reached⟩

variable {first second after before : List Role} {p : EnqueueParams} {userId : String}
  {outbox : Outbox}

theorem effectiveClosure_subset (contained : first ⊆ effectiveClosure second rules) :
    effectiveClosure first rules ⊆ effectiveClosure second rules := by
  intro _ held
  rw [mem_effectiveClosure] at held
  obtain ⟨_,mem,reached⟩ := held
  obtain ⟨start,based,leads⟩ := mem_effectiveClosure.mp (contained mem)
  exact mem_effectiveClosure.mpr ⟨start,based,leads.trans reached⟩

theorem mem_effectiveClosure_congr (same : ∀ role, role ∈ first ↔ role ∈ second) (role : Role) :
    role ∈ effectiveClosure first rules ↔ role ∈ effectiveClosure second rules :=
  ⟨fun held => effectiveClosure_mono rules (fun other => (same other).mp) held,
    fun held => effectiveClosure_mono rules (fun other => (same other).mpr) held⟩

theorem mem_sortRoleKeys : role ∈ sortRoleKeys roles ↔ role ∈ roles:=
  (perm_insertionSort _ roles).mem_iff

theorem mem_adds (before after : List Role) (role : Role) :
    role ∈ (closureDelta before after).1 ↔ role ∈ after ∧ role ∉ before := by
  unfold closureDelta
  rw [mem_sortRoleKeys,mem_filter,decide_eq_true_eq]

theorem mem_revokes :
    role ∈ (closureDelta before after).2 ↔ role ∈ before ∧ role ∉ after := by
  unfold closureDelta
  rw [mem_sortRoleKeys,mem_filter,decide_eq_true_eq]

theorem closureDelta_nodup (beforeNodup : before.Nodup) (afterNodup : after.Nodup) :
    ((closureDelta before after).1 ++ (closureDelta before after).2).Nodup := by
  have sorted (roles : List Role) (distinct : roles.Nodup) : (sortRoleKeys roles).Nodup :=
    (perm_insertionSort _ roles).nodup_iff.mpr distinct
  rw [nodup_append]
  refine ⟨sorted _ (afterNodup.filter _),sorted _ (beforeNodup.filter _),?_⟩
  intro added inAdds _ inRevokes same
  subst same
  exact ((mem_adds before after added).mp inAdds).2 (mem_revokes.mp inRevokes).1

def heldBy (userId : String) (role : Role) : HeldRole :=
  { userId := userId
    projectId := role.projectId
    roleKey := role.roleKey }

theorem heldBy_injective {first second : String} {other : Role}
    (same : heldBy first role = heldBy second other) : first = second ∧ role = other := by
  cases role
  cases other
  simp only [heldBy,HeldRole.mk.injEq] at same
  exact ⟨same.1,by rw [Role.mk.injEq]; exact same.2⟩

theorem mem_deltaWrites : p ∈ deltaWrites userId delta source sourceRef ↔
      (∃ role ∈ delta.1, roleWrite .add userId source sourceRef role = p) ∨
      (∃ role ∈ delta.2, roleWrite .revoke userId source sourceRef role = p) := by
  unfold deltaWrites
  rw [mem_append,mem_map,mem_map]

theorem single_of_mem_deltaWrites (mem : p ∈ deltaWrites userId delta source sourceRef) :
    p.Single := by
  rcases mem_deltaWrites.mp mem with ⟨_,-,rfl⟩ | ⟨_,-,rfl⟩
  · exact ⟨rfl,.inl rfl⟩
  · exact ⟨rfl,.inr rfl⟩

theorem keys_deltaWrites : (deltaWrites userId delta source sourceRef).map EnqueueParams.key =
      (delta.1 ++ delta.2).map (heldBy userId) := by
  unfold deltaWrites
  rw [map_append,map_map,map_map,map_append]
  rfl

def roleRank (role : Role) : Lex (String × String) := toLex (role.projectId, role.roleKey)

theorem roleRank_injective {first second : Role} (same : roleRank first = roleRank second) :
    first = second := by
  cases first
  cases second
  have parts := Prod.mk.inj (toLex.injective same)
  rw [Role.mk.injEq]
  exact parts

theorem notBefore_iff {first second : Role} :
    (!roleKeyBefore second first) = true ↔ roleRank first ≤ roleRank second := by
  unfold roleRank
  rw [Bool.not_eq_true',Prod.Lex.toLex_le_toLex]
  unfold roleKeyBefore
  by_cases project : second.projectId = first.projectId
  · rw [if_neg (not_not.mpr project),decide_eq_false_iff_not,not_lt]
    simp [project]
  rw [if_pos project,decide_eq_false_iff_not]
  constructor
  · intro le
    exact .inl (lt_of_le_of_ne le (Ne.symm project))
  rintro (less | ⟨same,-⟩)
  · exact le_of_lt less
  · exact absurd same.symm project

theorem sortRoleKeys_pairwise :
    (sortRoleKeys roles).Pairwise fun first second => roleRank first ≤ roleRank second := by
  have total : Std.Total fun first second : Role => (!roleKeyBefore second first) = true := by
    refine ⟨fun first second => ?_⟩
    rw [notBefore_iff,notBefore_iff]
    exact le_total _ _
  have transitive : IsTrans Role fun first second => (!roleKeyBefore second first) = true := by
    refine ⟨fun first second third => ?_⟩
    rw [notBefore_iff,notBefore_iff,notBefore_iff]
    exact le_trans
  refine (pairwise_insertionSort _ roles).imp ?_
  intro first second
  exact notBefore_iff.mp

theorem sortRoleKeys_congr (firstNodup : first.Nodup) (secondNodup : second.Nodup)
    (same : ∀ role, role ∈ first ↔ role ∈ second) :
    sortRoleKeys first = sortRoleKeys second := by
  have perm : (sortRoleKeys first).Perm (sortRoleKeys second) :=
    ((perm_insertionSort _ first).trans
      ((perm_ext_iff_of_nodup firstNodup secondNodup).mpr same)).trans
        (perm_insertionSort _ second).symm
  refine Perm.eq_of_pairwise ?_ sortRoleKeys_pairwise
    sortRoleKeys_pairwise perm
  intro _ _ _ _ le ge
  exact roleRank_injective (le_antisymm le ge)

theorem closureDelta_congr {before' after' : List Role} (distinct : before.Nodup)
    (distinct' : before'.Nodup) (afterDistinct : after.Nodup) (afterDistinct' : after'.Nodup)
    (same : ∀ role, role ∈ before ↔ role ∈ before')
    (sameAfter : ∀ role, role ∈ after ↔ role ∈ after') :
    closureDelta before after = closureDelta before' after' := by
  unfold closureDelta
  rw [sortRoleKeys_congr (afterDistinct.filter _)
      (afterDistinct'.filter fun role => role ∉ before'),
    sortRoleKeys_congr (distinct.filter _) (distinct'.filter fun role => role ∉ after')]
  · intro role
    simp only [mem_filter,same,sameAfter]
  · intro _
    simp only [mem_filter,same,sameAfter]

theorem closureDelta_same (same : ∀ role, role ∈ before ↔ role ∈ after) :
    closureDelta before after = ([], []) := by
  apply Prod.ext
  · apply eq_nil_iff_forall_not_mem.mpr
    intro role gained
    obtain ⟨has,new⟩ := (mem_adds _ _ _).mp gained
    exact new ((same role).mpr has)
  · apply eq_nil_iff_forall_not_mem.mpr
    intro role lost
    obtain ⟨had,gone⟩ := mem_revokes.mp lost
    exact gone ((same role).mp had)

/-- An unresolved row that takes a role of the person away: a revoke that lists it, or a
replace of its project that does not. A row without a project takes nothing. -/
def Takes (userId : String) (role : Role) (row : OutboxRow) : Prop :=
  row.userId = userId ∧ row.Unresolved ∧ role.projectId ≠ "" ∧ row.projectId = role.projectId ∧
    (row.opType = .revoke ∧ role.roleKey ∈ row.roleKeys ∨
      row.opType = .replace ∧ role.roleKey ∉ row.roleKeys)
deriving Decidable

theorem mem_queuedRevocationsFor {grants : List DirectGrant} :
    role ∈ queuedRevocationsFor outbox grants userId ↔ ∃ row ∈ outbox.rows, Takes userId role row ∧
        (row.opType = .replace →
          ∃ grant ∈ grants, grant.userId = userId ∧ grant.role = role ∧ grant.source = .direct) := by
  unfold queuedRevocationsFor
  simp only [mem_append,mem_flatMap,mem_filter,mem_map,Bool.and_eq_true, decide_eq_true_eq]
  constructor
  · rintro (⟨row,⟨listed,⟨⟨person,op⟩,waits⟩,project⟩,_,named,rfl⟩ |
      ⟨row,⟨listed,⟨⟨person,op⟩,waits⟩,project⟩,grant,⟨recorded,fits⟩,rfl⟩)
    · refine ⟨row,listed,⟨person,waits,project,rfl,.inl ⟨op,named⟩⟩,fun replace => ?_⟩
      rw [op] at replace
      cases replace
    obtain ⟨⟨⟨user,same⟩,direct⟩,leftOut⟩ := fits
    refine ⟨row,listed,⟨person,waits,?_,same.symm,.inr ⟨op,leftOut⟩⟩,fun _ =>
      ⟨grant,recorded,user.trans person,rfl,direct⟩⟩
    change grant.projectId ≠ ""
    rw [same]
    exact project
  · rintro ⟨row,listed,⟨person,waits,project,same,⟨op,named⟩ | ⟨op,leftOut⟩⟩,grants⟩
    · refine .inl ⟨row,⟨listed,⟨⟨person,op⟩,waits⟩,?_⟩,role.roleKey,named,?_⟩
      · rw [same]
        exact project
      · rw [same]
    obtain ⟨grant,recorded,user,isRole,direct⟩ := grants op
    subst isRole
    refine .inr ⟨row,⟨listed,⟨⟨person,op⟩,waits⟩,?_⟩,grant,
      ⟨recorded,⟨⟨user.trans person.symm,same.symm⟩,direct⟩,leftOut⟩,rfl⟩
    rw [same]
    exact project

theorem takes_after_add {named : Bool} {after : Outbox} {inserted : List OutboxRow}
    (wrote : Wrote named outbox p after inserted) (single : p.Single) (op : p.opType = .add)
    :
    row ∈ after.rows ∧ Takes userId role row ↔ (row ∈ outbox.rows ∧ Takes userId role row) ∧
        ¬ (row.opType = .revoke ∧ row.waitsFor p.key = true) := by
  rw [wrote.rows]
  constructor
  · rintro ⟨listed,takes⟩
    rcases mem_append.mp listed with old | fresh
    · obtain ⟨before,present,same⟩ := mem_map.mp old
      have unresolved := decide_eq_true takes.2.1
      rw [← same,unresolved_afterWrite,Bool.and_eq_true,Bool.not_eq_true'] at unresolved
      have unchanged : before.afterWrite p = before := by
        unfold OutboxRow.afterWrite
        rw [unresolved.2,if_neg Bool.false_ne_true]
      rw [unchanged] at same
      subst same
      refine ⟨⟨present,takes⟩,?_⟩
      rintro ⟨revokes,waits⟩
      have answered := (single.answers_add op waits).mpr revokes
      rw [waits,answered] at unresolved
      cases unresolved.2
    · have isAdd : row.opType = .add := by
        rw [wrote.eq_fresh row fresh]
        exact op
      rcases takes.2.2.2.2 with ⟨revokes,-⟩ | ⟨replaces,-⟩
      · rw [isAdd] at revokes
        cases revokes
      · rw [isAdd] at replaces
        cases replaces
  · rintro ⟨⟨listed,takes⟩,kept⟩
    refine ⟨mem_append_left _ (mem_map.mpr ⟨row,listed,?_⟩),takes⟩
    unfold OutboxRow.afterWrite
    rw [if_neg]
    intro answered
    obtain ⟨waits,answers⟩ := (Bool.and_eq_true _ _).mp answered
    exact kept ⟨(single.answers_add op waits).mp answers,waits⟩

theorem takes_after_adds {after : Outbox} {writes : List (Bool × EnqueueParams)}
    (enqueued : Enqueued outbox writes after) (adds : ∀ write ∈ writes, write.2.opType = .add)
    (userId : String) (role : Role) (row : OutboxRow) :
    row ∈ after.rows ∧ Takes userId role row ↔ (row ∈ outbox.rows ∧ Takes userId role row) ∧
        ∀ write ∈ writes, ¬ (row.opType = .revoke ∧ row.waitsFor write.2.key = true) := by
  induction enqueued with
  | nil => simp
  | cons single wrote _ ih =>
    rw [ih fun write mem => adds write (mem_cons_of_mem _ mem),
      takes_after_add wrote single (adds _ mem_cons_self),forall_mem_cons,and_assoc]

theorem Takes.revokes_of_waits {key : HeldRole}
    (takes : Takes userId role row) (waits : row.waitsFor key = true) :
    (row.opType = .revoke ↔ key = heldBy userId role) := by
  obtain ⟨-,-,person,project,roles⟩ := (row.waitsFor_iff key).mp waits
  obtain ⟨mine,-,-,same,how⟩ := takes
  constructor
  · intro revokes
    rcases how with ⟨-,listed⟩ | ⟨replaces,-⟩
    · rw [roles,mem_singleton] at listed
      cases key
      simp only [heldBy,HeldRole.mk.injEq]
      exact ⟨person.symm.trans mine,project.symm.trans same,listed.symm⟩
    · rw [revokes] at replaces
      cases replaces
  · rintro rfl
    rcases how with ⟨revokes,-⟩ | ⟨-,leftOut⟩
    · exact revokes
    · rw [roles] at leftOut
      exact absurd (mem_singleton.mpr rfl) leftOut

end Syndra.Ledger
