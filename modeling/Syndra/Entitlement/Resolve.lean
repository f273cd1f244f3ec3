/-
What somebody is entitled to on one target.

Values are what the mappings of their roles say, without the denied ones; a value set for
one person then replaces a field's values, and is not looked up among the denials.
-/

import Syndra.Planner.Plan

namespace Syndra.Entitlement

open Access List

structure RoleMapping where
  target : String
  role : Role
  field : String
  value : String
deriving DecidableEq

inductive Direction where
  | deny
  | set
  | other (name : String)
deriving DecidableEq

structure Allowance where
  id : String
  field : String
  value : String
  direction : Direction
  actorId : String
  reason : String
  createdAt : Time
deriving DecidableEq

structure SuppressedEntitlement where
  field : String
  value : String
  allowanceId : String
  actorId : String
  reason : String
  since : Time
deriving DecidableEq

structure LifecycleState where
  enabled : Bool
  smbEnabled : Bool
  notAMember : Bool
  reason : String
deriving DecidableEq

structure EntitlementSet where
  fields : String → Option (List String)
  suppressed : List SuppressedEntitlement
  lifecycle : LifecycleState

def isLifecycleField (field : String) : Bool := field = "enabled" || field = "smb_enabled"

def mappingsForRoles (mappings : List RoleMapping) (target : String) (held : List Role) :
    List RoleMapping :=
  mappings.filter fun m => m.target = target && m.role ∈ held

def denied (allowances : List Allowance) (field value : String) : Option Allowance :=
  (allowances.filter fun a => a.direction = .deny &&
    a.field ++ "\x00" ++ a.value = field ++ "\x00" ++ value).getLast?

/-- The value set for one person: the latest, the first of those made at once. -/
def override (allowances : List Allowance) (field : String) : Option Allowance :=
  (allowances.filter fun a => a.direction = .set && a.field = field).foldl (fun kept a =>
    match kept with
    | some prev => if prev.createdAt < a.createdAt then some a else some prev
    | none => some a) none

def Allowance.suppresses (a : Allowance) (field value : String) : SuppressedEntitlement :=
  ⟨field,value,a.id,a.actorId,a.reason,a.createdAt⟩

def suppressedLess (a b : SuppressedEntitlement) : Bool :=
  if a.field ≠ b.field then a.field < b.field else a.value < b.value

def resolveLifecycle (mappedAny : Bool) (allowances : List Allowance) :
    LifecycleState × List SuppressedEntitlement :=
  let account := denied allowances "enabled" "true"
  let smb := denied allowances "smb_enabled" "true"
  ({ enabled := mappedAny && account.isNone
     smbEnabled := mappedAny && account.isNone && smb.isNone
     notAMember := false
     reason := "" },
    (account.map (·.suppresses "enabled" "true")).toList ++
      (smb.map (·.suppresses "smb_enabled" "true")).toList)

/-- Only a positive report that somebody has gone disables anything. -/
def applyDirectoryStanding (status : Option String) (state : LifecycleState) : LifecycleState :=
  match status with
  | none => state
  | some status =>
    if Planner.left status then
      { enabled := false
        smbEnabled := false
        notAMember := true
        reason := "the directory reports this person as " ++
          Foundation.Text.toLower (Foundation.Text.trimSpace status) }
    else state

def reaching (mappings : List RoleMapping) (target : String) (held : List Role) :
    List RoleMapping :=
  (mappingsForRoles mappings target held).filter fun m => !isLifecycleField m.field

def roleValues (mapped : List RoleMapping) (allowances : List Allowance) (field : String) :
    List String :=
  ((mapped.filter fun m =>
    (denied allowances m.field m.value).isNone && m.field = field).map
      RoleMapping.value).dedup.insertionSort (· ≤ ·)

/-- `status` is the directory's answer, none where it failed or knows nobody. -/
def resolveEntitlements (mappings : List RoleMapping) (target : String) (held : List Role)
    (allowances : List Allowance) (status : Option String) : EntitlementSet :=
  let mapped := reaching mappings target held
  let (state, forbidden) := resolveLifecycle (!mapped.isEmpty) allowances
  { fields := fun field =>
      match if !mapped.isEmpty && !isLifecycleField field then override allowances field else none with
      | some a => some [a.value]
      | none =>
        if mapped.any fun m => m.field = field then some (roleValues mapped allowances field)
        else none
    suppressed :=
      ((mapped.filterMap fun m =>
        (denied allowances m.field m.value).map (·.suppresses m.field m.value)) ++
        forbidden).insertionSort fun a b => !suppressedLess b a
    lifecycle := applyDirectoryStanding status state }

inductive FieldValue where
  | texts (values : List String)
  | flag (holds : Bool)
deriving DecidableEq

def EntitlementSet.desired (set : EntitlementSet) (field : String) : Option FieldValue :=
  if field = "enabled" then some (.flag set.lifecycle.enabled)
  else if field = "smb_enabled" then some (.flag set.lifecycle.smbEnabled)
  else (set.fields field).map .texts

section Denials

variable (mappings : List RoleMapping) (target : String) (held : List Role)
  (allowances : List Allowance) (status : Option String)

def Denies (field value : String) : Prop :=
  ∃ a ∈ allowances, a.direction = .deny ∧ a.field = field ∧ a.value = value

def Reaches : Prop :=
  ∃ m ∈ mappings, m.target = target ∧ m.role ∈ held ∧ isLifecycleField m.field = false

structure DenialWins (set : EntitlementSet) : Prop where
  values : ∀ field values, isLifecycleField field = false → set.fields field = some values →
    ∀ value ∈ values, ¬ Denies allowances field value
  enabled : set.lifecycle.enabled = true ↔ Reaches mappings target held ∧
    ¬ Denies allowances "enabled" "true" ∧ ∀ gone ∈ status, Planner.left gone = false
  smb : set.lifecycle.smbEnabled = true → set.lifecycle.enabled = true
  mapped : ∀ m ∈ mappings, m.target = target → m.role ∈ held → isLifecycleField m.field = false →
    ∃ values, set.desired m.field = some (.texts values)

/-- No value set for the person, where a role reaches the target, is a denied one. -/
def SetApart : Prop :=
  Reaches mappings target held → ∀ field a, isLifecycleField field = false →
    override allowances field = some a → ¬ Denies allowances field a.value

end Denials

variable {mappings : List RoleMapping} {target field value : String} {held : List Role}
  {allowances : List Allowance} {status : Option String}

theorem isSome_denied (denies : Denies allowances field value) :
    (denied allowances field value).isSome = true := by
  obtain ⟨a,mem,isDeny,rfl,rfl⟩ := denies
  rw [denied,getLast?_isSome,ne_eq,filter_eq_nil_iff]
  intro none
  exact none a mem (by simp [isDeny])

theorem denies_enabled (isDenied : (denied allowances "enabled" "true").isSome = true) :
    Denies allowances "enabled" "true" := by
  obtain ⟨a,last⟩ := Option.isSome_iff_exists.mp isDenied
  obtain ⟨mem,named⟩ := mem_filter.mp (mem_of_getLast? last)
  simp only [Bool.and_eq_true,decide_eq_true_eq] at named
  obtain ⟨isDeny,key⟩ := named
  have chars : a.field.toList ++ '\x00' :: a.value.toList =
      "enabled".toList ++ '\x00' :: "true".toList := by
    simpa using congrArg String.toList key
  have once := congrArg (count '\x00') chars
  rw [count_append,count_cons_self] at once
  have alone : count '\x00' a.field.toList = 0 := by
    have total : count '\x00' ("enabled".toList ++ '\x00' :: "true".toList) = 1 := by decide
    omega
  obtain ⟨sameField,sameValue⟩ := Foundation.Framing.append_mark_inj
    (count_eq_zero.mp alone) (by decide) chars
  exact ⟨a,mem,isDeny,String.toList_inj.mp sameField,String.toList_inj.mp sameValue⟩

theorem mem_reaching {m : RoleMapping} : m ∈ reaching mappings target held ↔
    m ∈ mappings ∧ m.target = target ∧ m.role ∈ held ∧ isLifecycleField m.field = false := by
  simp only [reaching,mappingsForRoles,mem_filter,Bool.and_eq_true,decide_eq_true_eq,
    Bool.not_eq_true',and_assoc]

theorem reaches_iff :
    Reaches mappings target held ↔ (!(reaching mappings target held).isEmpty) = true := by
  rw [Bool.not_eq_true',isEmpty_eq_false_iff_exists_mem]
  simp only [mem_reaching,Reaches]

theorem not_denies_roleValues {mapped : List RoleMapping}
    (mem : value ∈ roleValues mapped allowances field) : ¬ Denies allowances field value := by
  intro denies
  rw [roleValues,mem_insertionSort,mem_dedup] at mem
  obtain ⟨_,inMapped,rfl⟩ := mem_map.mp mem
  obtain ⟨_,given⟩ := mem_filter.mp inMapped
  simp only [Bool.and_eq_true,decide_eq_true_eq] at given
  obtain ⟨free,rfl⟩ := given
  have isDenied := isSome_denied denies
  rw [Option.isNone_iff_eq_none.mp free] at isDenied
  cases isDenied

theorem lifecycle_enabled :
    (resolveEntitlements mappings target held allowances status).lifecycle.enabled = true ↔
      Reaches mappings target held ∧ ¬ Denies allowances "enabled" "true" ∧
        ∀ gone ∈ status, Planner.left gone = false := by
  have account : (denied allowances "enabled" "true").isNone = true ↔
      ¬ Denies allowances "enabled" "true" := by
    rw [Option.isNone_iff_eq_none,← Option.not_isSome_iff_eq_none,not_iff_not]
    exact ⟨denies_enabled,isSome_denied⟩
  rw [reaches_iff,← account]
  unfold resolveEntitlements resolveLifecycle applyDirectoryStanding
  cases status with
  | none => simp
  | some =>
    dsimp only
    split
    · next gone => simp [gone]
    · next stays => simp [stays]

theorem smb_enabled (smb : (resolveEntitlements mappings target held allowances
    status).lifecycle.smbEnabled = true) :
    (resolveEntitlements mappings target held allowances status).lifecycle.enabled = true := by
  unfold resolveEntitlements applyDirectoryStanding at *
  cases status with
  | none => exact (Bool.and_eq_true_iff.mp smb).1
  | some =>
    dsimp only at *
    split at smb
    · cases smb
    · next stays =>
      rw [if_neg stays]
      exact (Bool.and_eq_true_iff.mp smb).1

/-- A denial always wins exactly where no value set for the person is a denied one. -/
theorem denialWins_iff (mappings : List RoleMapping) (target : String) (held : List Role)
    (allowances : List Allowance) (status : Option String) :
    DenialWins mappings target held allowances status
        (resolveEntitlements mappings target held allowances status) ↔
      SetApart mappings target held allowances := by
  constructor
  · intro wins reaches field a ordinary isSet
    refine wins.values field [a.value] ordinary ?_ a.value mem_cons_self
    simp [resolveEntitlements,reaches_iff.mp reaches,ordinary,isSet]
  · intro apart
    refine ⟨?_,lifecycle_enabled,smb_enabled,?_⟩
    · intro field _ ordinary isField _ mem
      unfold resolveEntitlements at isField
      dsimp only at isField
      split at isField
      · next a isSet =>
        cases isField
        split at isSet
        · next both =>
          rw [mem_singleton.mp mem]
          exact apart (reaches_iff.mpr (Bool.and_eq_true_iff.mp both).1) field a ordinary isSet
        · cases isSet
      · split at isField
        · cases isField
          exact not_denies_roleValues mem
        · cases isField
    · intro m mem onTarget isHeld ordinary
      have inMapped := mem_reaching.mpr ⟨mem,onTarget,isHeld,ordinary⟩
      simp only [isLifecycleField,Bool.or_eq_false_iff,decide_eq_false_iff_not] at ordinary
      unfold EntitlementSet.desired
      rw [if_neg ordinary.1,if_neg ordinary.2]
      unfold resolveEntitlements
      dsimp only
      split
      · exact ⟨_,rfl⟩
      · rw [if_pos (any_eq_true.mpr ⟨m,inMapped,by simp⟩)]
        exact ⟨_,rfl⟩

/-- A limit denied to somebody, and then set for them. -/
theorem denied_limit_set :
    let mappings : List RoleMapping :=
      [⟨"nas",Role.mk "lab" "laser","home_quota","10737418240"⟩]
    let allowances : List Allowance :=
      [⟨"a1","home_quota","53687091200",.deny,"op","too much",1⟩,
        ⟨"a2","home_quota","53687091200",.set,"op","a project",2⟩]
    ¬ DenialWins mappings "nas" [Role.mk "lab" "laser"] allowances (some "active")
      (resolveEntitlements mappings "nas" [Role.mk "lab" "laser"] allowances (some "active")) := by
  intro mappings allowances wins
  exact wins.values "home_quota" ["53687091200"] (by decide) (by decide +kernel) "53687091200"
    mem_cons_self ⟨_,mem_cons_self,rfl,rfl,rfl⟩

end Syndra.Entitlement
