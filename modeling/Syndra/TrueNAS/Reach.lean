/-
What a group opens.

Places are read from the access lists of each share's root and first-level folders. A folder
is reached through its share's root, so whoever cannot traverse the root reaches nothing
there.
-/

import Mathlib.Data.List.Sort

namespace Syndra.TrueNAS

open List

inductive AclTag where
  | everyone
  | group
  | owningGroup
  | other (tag : String)
deriving DecidableEq

structure AclEntry where
  tag : AclTag
  id : Int
  allows : Bool
  perms : List String
  flags : List String
deriving DecidableEq

/-- A folder as read; the empty folder is the share's root. -/
structure AclPlace where
  share : String
  folder : String
  path : String
  dataset : String
  ownerGid : Int
  acl : List AclEntry
deriving DecidableEq

abbrev Principals := List Int

inductive Access where
  | none
  | read
  | change
deriving DecidableEq

def accessRank : Access → Nat
  | .change => 2
  | .read => 1
  | .none => 0

namespace AclPlace

def allowed (p : AclPlace) (who : Principals) (perm : String) : Bool :=
  match p.acl.find? fun e => "INHERIT_ONLY" ∉ e.flags && perm ∈ e.perms &&
    (e.tag = .everyone || e.tag = .group && e.id ∈ who ||
      e.tag = .owningGroup && p.ownerGid ∈ who) with
  | some e => e.allows
  | none => false

def access (p : AclPlace) (who : Principals) : Access :=
  if !p.allowed who "READ_DATA" then .none
  else if p.allowed who "WRITE_DATA" then .change
  else .read

end AclPlace

structure Place where
  share : String
  folder : String
  path : String
  access : Access
  dataset : String
  home : Bool
deriving DecidableEq

def placeLess (a b : Place) : Bool :=
  if a.home ≠ b.home then a.home
  else if a.share ≠ b.share then a.share < b.share
  else a.folder < b.folder

def sortPlaces (places : List Place) : List Place :=
  places.insertionSort fun a b => !placeLess b a

/-- The root of a share: the last one read, or a place that lets nobody in. -/
def rootOf (read : List AclPlace) (share : String) : AclPlace :=
  ((read.filter fun p => p.folder = "" && p.share = share).getLast?).getD
    ⟨"","","","",0,[]⟩

def placeAt (p : AclPlace) (access : Access) : Place :=
  ⟨p.share,p.folder,p.path,access,p.dataset,false⟩

def floorAt (read : List AclPlace) (who : Principals) (beyond : Option Principals)
    (p : AclPlace) : Nat :=
  let base := match beyond with
    | some others => accessRank (p.access others)
    | none => 0
  if p.folder ≠ "" then max base (accessRank ((rootOf read p.share).access who)) else base

/-- Everywhere `who` can connect, above what the baseline opens where there is one. -/
def placesFor (read : List AclPlace) (who : Principals) (beyond : Option Principals) : List Place :=
  sortPlaces (read.filterMap fun p =>
    if p.folder ≠ "" && !(rootOf read p.share).allowed who "EXECUTE" then none
    else if accessRank (p.access who) ≤ floorAt read who beyond p then none
    else some (placeAt p (p.access who)))

/-- What a set of groups gets at a place; a folder is reached through its root. -/
def reach (read : List AclPlace) (who : Principals) (p : AclPlace) : Access :=
  if p.folder ≠ "" && !(rootOf read p.share).allowed who "EXECUTE" then .none else p.access who

def reachBeyond (read : List AclPlace) (beyond : Option Principals) (p : AclPlace) : Access :=
  match beyond with
  | some others => reach read others p
  | none => .none

def Credited (read : List AclPlace) (who : Principals) (beyond : Option Principals)
    (p : AclPlace) : Prop :=
  accessRank (reachBeyond read beyond p) < accessRank (reach read who p) ∧ (p.folder ≠ "" →
      accessRank ((rootOf read p.share).access who) < accessRank (reach read who p))

instance (read : List AclPlace) (who : Principals) (beyond : Option Principals) :
    DecidablePred (Credited read who beyond) :=
  fun _ => inferInstanceAs (Decidable (_ ∧ _))

def credit (read : List AclPlace) (who : Principals) (beyond : Option Principals) : List Place :=
  (read.filter fun p => Credited read who beyond p).map fun p => placeAt p (reach read who p)

/-- At a folder only `who` gets to, and gets more at than at its root, the baseline's own
entries give less. -/
def NoneBehind (read : List AclPlace) (who : Principals) (beyond : Option Principals) : Prop :=
  ∀ p ∈ read, ∀ others, beyond = some others → p.folder ≠ "" →
    (rootOf read p.share).allowed who "EXECUTE" = true →
    (rootOf read p.share).allowed others "EXECUTE" = false →
    accessRank ((rootOf read p.share).access who) < accessRank (p.access who) →
    accessRank (p.access others) < accessRank (p.access who)

variable {read : List AclPlace} {who others : Principals} {beyond : Option Principals}
  {p : AclPlace}

/-- The test a place passes to be listed: the baseline's own entries stand for its reach. -/
def Listed (read : List AclPlace) (who : Principals) (beyond : Option Principals)
    (p : AclPlace) : Prop :=
  Credited read who beyond p ∧
    ∀ others ∈ beyond, accessRank (p.access others) < accessRank (p.access who)

instance (read : List AclPlace) (who : Principals) (beyond : Option Principals) :
    DecidablePred (Listed read who beyond) :=
  fun _ => inferInstanceAs (Decidable (_ ∧ _))

theorem reach_of_traverse (traverses : p.folder ≠ "" →
    (rootOf read p.share).allowed who "EXECUTE" = true) : reach read who p = p.access who := by
  unfold reach
  rw [if_neg]
  simpa using traverses

theorem reach_behind (inside : p.folder ≠ "")
    (stopped : (rootOf read p.share).allowed who "EXECUTE" = false) : reach read who p = .none := by
  unfold reach
  rw [if_pos (by simp [inside,stopped])]

theorem traverses_of_credited (credited : Credited read who beyond p) (inside : p.folder ≠ "") :
    (rootOf read p.share).allowed who "EXECUTE" = true := by
  by_contra stopped
  have nothing := credited.1
  rw [reach_behind inside (Bool.eq_false_of_not_eq_true stopped)] at nothing
  exact Nat.not_lt_zero _ nothing

variable (read p) in
theorem reach_le (others : Principals) : accessRank (reach read others p) ≤
    accessRank (p.access others) := by
  unfold reach
  split
  · exact Nat.zero_le _
  · exact Nat.le_refl _

theorem listed_iff (gets : p.folder ≠ "" → (rootOf read p.share).allowed who "EXECUTE" = true) :
    Listed read who beyond p ↔ ¬ accessRank (p.access who) ≤ floorAt read who beyond p := by
  have nobody : accessRank (reachBeyond read none p) = 0 := rfl
  have lower (others : Principals) := reach_le read p others
  unfold Listed Credited floorAt
  rw [reach_of_traverse gets]
  by_cases inside : p.folder = ""
  · cases beyond with
    | none => simp [inside,nobody,Nat.pos_iff_ne_zero]
    | some others =>
      have := lower others
      simp [inside,reachBeyond]
      omega
  · cases beyond with
    | none =>
      simp [inside]
      omega
    | some others =>
      have := lower others
      simp [inside,reachBeyond]
      omega

theorem placesFor_perm : (placesFor read who beyond).Perm
    ((read.filter fun p => Listed read who beyond p).map fun p => placeAt p (reach read who p)) := by
  refine (perm_insertionSort _ _).trans (Perm.of_eq ?_)
  rw [← filterMap_eq_map,filterMap_filter]
  refine filterMap_congr fun p _ => ?_
  by_cases gets : p.folder ≠ "" → (rootOf read p.share).allowed who "EXECUTE" = true
  · rw [if_neg (by simpa using gets)]
    simp only [listed_iff gets,reach_of_traverse gets,decide_eq_true_eq,ite_not,Function.comp]
  · obtain ⟨inside,stopped⟩ := Classical.not_imp.mp gets
    rw [if_pos (by simp [inside,stopped]),if_neg]
    intro listed
    exact stopped (traverses_of_credited (of_decide_eq_true listed).1 inside)

/-- A set of groups is credited with exactly what it opens, where the baseline is stopped at
no root in front of a folder its own entries would open. -/
theorem placesFor_credit_iff (read : List AclPlace) (who : Principals)
    (beyond : Option Principals) :
    (placesFor read who beyond).Perm (credit read who beyond) ↔ NoneBehind read who beyond := by
  have fewer : (read.filter (Listed read who beyond)).Sublist
      (read.filter (Credited read who beyond)) :=
    monotone_filter_right read fun p listed => by
      simp only [decide_eq_true_eq] at listed ⊢
      exact listed.1
  constructor
  · intro same p mem others isBeyond inside gets stopped more
    have sizes := (placesFor_perm.symm.trans same).length_eq
    unfold credit at sizes
    rw [length_map,length_map] at sizes
    have credited : Credited read who beyond p := by
      refine ⟨?_,fun _ => ?_⟩
      · rw [isBeyond,reachBeyond,reach_behind inside stopped,reach_of_traverse fun _ => gets]
        exact Nat.zero_lt_of_lt more
      · rw [reach_of_traverse fun _ => gets]
        exact more
    have listed : p ∈ read.filter fun p => Credited read who beyond p :=
      mem_filter.mpr ⟨mem,decide_eq_true credited⟩
    rw [← fewer.eq_of_length sizes] at listed
    exact (of_decide_eq_true (mem_filter.mp listed).2).2 others isBeyond
  · intro behind
    refine placesFor_perm.trans (Perm.of_eq ?_)
    congr 1
    refine filter_congr fun p mem => decide_eq_decide.mpr ⟨And.left,fun credited => ?_⟩
    refine ⟨credited,fun others isBeyond => ?_⟩
    have more := credited.1
    have isReach := reach_of_traverse (traverses_of_credited credited)
    rw [isBeyond,reachBeyond,isReach] at more
    by_cases gets : p.folder ≠ "" → (rootOf read p.share).allowed others "EXECUTE" = true
    · rwa [reach_of_traverse gets] at more
    · obtain ⟨inside,stopped⟩ := Classical.not_imp.mp gets
      exact behind p mem others isBeyond inside (traverses_of_credited credited inside)
        (Bool.eq_false_of_not_eq_true stopped) (isReach ▸ credited.2 inside)

def behindRoot : List AclPlace :=
  [⟨"lab","","/mnt/lab","tank/lab",0,[⟨.group,10,true,["EXECUTE"],[]⟩]⟩,
    ⟨"lab","cnc","/mnt/lab/cnc","tank/lab",0,[⟨.everyone,0,true,["READ_DATA"],[]⟩]⟩]

theorem behindRoot_uncredited : placesFor behindRoot [10] (some []) = [] ∧
    credit behindRoot [10] (some []) = [⟨"lab","cnc","/mnt/lab/cnc",.read,"tank/lab",false⟩] := by
  decide +kernel

end Syndra.TrueNAS
