/-
Writes of a project role.

Syndra's record is written first, then Zitadel is called, and on an error the role is read
back before anything is undone.
-/

import Mathlib.Data.List.Nodup

namespace Syndra.Roles

open List Bool

structure ProjectRole where
  key : String
  displayName : String
  group : String
deriving DecidableEq

structure Project where
  roles : List ProjectRole
  distinct : (roles.map ProjectRole.key).Nodup

namespace Project

def has (project : Project) (key : String) : Bool :=
  project.roles.any fun role => role.key = key

theorem has_iff {project : Project} {key : String} :
    project.has key = true ↔ ∃ role ∈ project.roles, role.key = key := by
  simp [has]

def add (project : Project) (place : Nat) (role : ProjectRole)
    (absent : ¬project.has role.key = true) : Project :=
  { roles := project.roles.take place ++ role :: project.roles.drop place
    distinct := by
      have moved : (project.roles.take place ++ role :: project.roles.drop place).Perm
          (role :: project.roles) := by
        refine perm_middle.trans ?_
        rw [take_append_drop]
      refine (moved.map _).nodup_iff.mpr (nodup_cons.mpr ⟨?_,project.distinct⟩)
      intro listed
      obtain ⟨other,member,same⟩ := mem_map.mp listed
      exact absent (has_iff.mpr ⟨other,member,same⟩) }

def rename (project : Project) (key displayName group : String) : Project :=
  { roles := project.roles.map fun role => if role.key = key then ⟨key,displayName,group⟩ else role
    distinct := by
      rw [map_map]
      refine (congrArg Nodup (map_congr_left fun role _ => ?_)).mp project.distinct
      by_cases same : role.key = key
      · simp [same]
      · simp [same] }

def remove (project : Project) (key : String) : Project :=
  { roles := project.roles.filter fun role => role.key ≠ key
    distinct := (filter_sublist.map ProjectRole.key).nodup project.distinct }

end Project

structure RoleRecord where
  displayName : String
  description : String
  group : String
  createdBy : String
  clonedFromProject : String
  clonedFromRole : String
deriving DecidableEq

inductive RoleChange where
  | create (asked : RoleRecord)
  | update (displayName group : String)
  | delete
deriving DecidableEq

namespace RoleChange

def recorded (change : RoleChange) (record : Option RoleRecord) : Option (Option RoleRecord) :=
  match change with
  | .create asked => if record.isNone then some (some asked) else none
  | .update displayName group =>
    some (record.map fun old => { old with displayName := displayName, group := group })
  | .delete => some none

def undo (change : RoleChange) (before now : Option RoleRecord) : Option (Option RoleRecord) :=
  match change with
  | .create _ => some none
  | .update _ _ =>
    match before with
    | none => some now
    | some old =>
      some (now.map fun record =>
        { record with displayName := old.displayName, group := old.group })
  | .delete =>
    match before with
    | none => some now
    | some old => if now.isNone then some (some old) else none

def handle (change : RoleChange) (key : String) (place : Nat) (project : Project) :
    Project × Bool :=
  match change with
  | .create asked =>
    if present : project.has key = true then (project, false)
    else (project.add place ⟨key,asked.displayName,asked.group⟩ present, true)
  | .update displayName group => (project.rename key displayName group, project.has key)
  | .delete => (project.remove key, project.has key)

def wanted : RoleChange → Option (String × String)
  | .create asked => some (asked.displayName, asked.group)
  | .update displayName group => some (displayName, group)
  | .delete => none

def landed (change : RoleChange) (found : Option ProjectRole) : Bool :=
  match change.wanted with
  | some (displayName, group) =>
    found.any fun role => role.displayName = displayName && role.group = group
  | none => found.isNone

end RoleChange

open Project

open RoleChange

/-- What becomes of the call besides what Zitadel makes of it; `reread` is whether the
read-back of a create whose answer was lost gets through. -/
inductive CallFate where
  | answered
  | refused
  | lost (made reread : Bool)
deriving DecidableEq

structure Failures where
  traceFails : Bool
  call : CallFate
  readFails : Bool
  undoFails : Bool

inductive Sent where
  | done
  | final
  | answerLost
deriving DecidableEq

def defaultSearchLimit : Nat := 500

def roleExistsLimit : Nat := 1000

def roleExists (project : Project) (key : String) : Bool :=
  decide (project.roles.length ≤ roleExistsLimit) && project.has key

def send (change : RoleChange) (key : String) (place : Nat) (project : Project)
    (fate : CallFate) : Project × Sent :=
  match fate with
  | .answered =>
    let handled := change.handle key place project
    (handled.1, if handled.2 then .done else .final)
  | .refused => (project, .final)
  | .lost made reread =>
    let after := if made then (change.handle key place project).1 else project
    match change with
    | .create _ => (after, if reread && roleExists after key then .done else .answerLost)
    | _ => (after, .answerLost)

def readBackRole (project : Project) (key : String) : Option ProjectRole :=
  (project.roles.take defaultSearchLimit).find? fun role => role.key = key

structure World where
  record : Option RoleRecord
  project : Project

inductive Outcome where
  | done
  | notTraced
  | notChangedInZitadel
  | changeUnknown
  | recordNotRestored
deriving DecidableEq

def writeRole (client : Bool) (change : RoleChange) (key : String) (place : Nat)
    (failures : Failures) (world : World) : World × Outcome :=
  match if failures.traceFails then none else change.recorded world.record with
  | none => (world, .notTraced)
  | some record =>
    if !client then ({ world with record := record }, .done)
    else
      let sent := send change key place world.project failures.call
      let after : World := { record := record, project := sent.1 }
      if sent.2 = .done then (after, .done)
      else if !failures.readFails && change.landed (readBackRole sent.1 key) then (after, .done)
      else if failures.readFails && sent.2 = .answerLost then (after, .changeUnknown)
      else
        match if failures.undoFails then none else change.undo world.record record with
        | none => (after, .recordNotRestored)
        | some restored => ({ after with record := restored }, .notChangedInZitadel)

def RoleChange.AsAsked (change : RoleChange) (key : String) (project : Project) : Prop :=
  match change.wanted with
  | some (displayName, group) => ⟨key,displayName,group⟩ ∈ project.roles
  | none => project.has key = false

/-- A nil is for both as asked, a refusal for both as before, and so is a write that left no
trace; the other two outcomes promise nothing. -/
def Agrees (change : RoleChange) (key : String) (before after : World) (outcome : Outcome) : Prop :=
  match outcome with
  | .done => change.recorded before.record = some after.record ∧ change.AsAsked key after.project
  | .notTraced => after = before
  | .notChangedInZitadel => after = before
  | .changeUnknown => True
  | .recordNotRestored => True

def Within (project : Project) (key : String) : Prop :=
  project.has key = true → ∃ role ∈ project.roles.take defaultSearchLimit, role.key = key

def RoleChange.Seen (change : RoleChange) (key : String) (place : Nat) (project : Project) : Prop :=
  match change with
  | .create _ =>
    (project.has key = false ∧
      (place < defaultSearchLimit ∨ project.roles.length < defaultSearchLimit)) ∨
    (project.has key = true ∧ roleExistsLimit < project.roles.length)
  | _ => Within project key

section Calls

variable {change : RoleChange} {key : String} {place : Nat} {project : Project}

theorem Project.eq_of_roles {first second : Project} (same : first.roles = second.roles) :
    first = second := by
  cases first
  cases second
  cases same
  rfl

theorem not_has_iff : project.has key = false ↔ ∀ role ∈ project.roles, role.key ≠ key := by
  simp [has]

theorem undo_recorded {before now : Option RoleRecord}
    (recorded : change.recorded before = some now) : change.undo before now = some before := by
  cases change with
  | create =>
    cases before with
    | none => rfl
    | some => cases recorded
  | update =>
    cases before with
    | none => exact recorded.symm
    | some =>
      cases recorded
      rfl
  | delete =>
    cases recorded
    cases before with
    | none | some => rfl

theorem handle_asAsked (taken : (change.handle key place project).2 = true) :
    change.AsAsked key (change.handle key place project).1 := by
  cases change with
  | create =>
    unfold handle at taken ⊢
    dsimp only at taken ⊢
    split at taken
    · cases taken
    rename_i absent
    rw [dif_neg absent]
    exact mem_append_right _ mem_cons_self
  | update =>
    obtain ⟨role,mem,same⟩ := has_iff.mp taken
    exact mem_map.mpr ⟨role,mem,if_pos same⟩
  | delete =>
    refine not_has_iff.mpr fun role mem => ?_
    exact of_decide_eq_true (mem_filter.mp mem).2

theorem rename_same {displayName group : String}
    (same : ∀ role ∈ project.roles, role.key = key → role = ⟨key,displayName,group⟩) :
    project.rename key displayName group = project := by
  refine eq_of_roles ?_
  conv_rhs => rw [← map_id project.roles]
  refine map_congr_left fun role mem => ?_
  by_cases here : role.key = key
  · rw [if_pos here]
    exact (same role mem here).symm
  · exact if_neg here

theorem handle_refused (refused : (change.handle key place project).2 = false) :
    (change.handle key place project).1 = project := by
  cases change with
  | create =>
    unfold handle at refused ⊢
    dsimp only at refused ⊢
    split at refused
    · next present => rw [dif_pos present]
    · cases refused
  | update =>
    exact rename_same fun role mem here => absurd here (not_has_iff.mp refused role mem)
  | delete =>
    refine eq_of_roles (filter_eq_self.mpr fun role mem => ?_)
    exact decide_eq_true (not_has_iff.mp refused role mem)

theorem readBackRole_of_page {role : ProjectRole}
    (mem : role ∈ project.roles.take defaultSearchLimit) (same : role.key = key) :
    readBackRole project key = some role := by
  unfold readBackRole
  cases found : (project.roles.take defaultSearchLimit).find? fun other => other.key = key with
  | none =>
    have none_ := find?_eq_none.mp found role mem
    exact absurd (decide_eq_true same) none_
  | some =>
    have fits := find?_some found
    simp only [decide_eq_true_eq] at fits
    have present := mem_of_mem_take (mem_of_find?_eq_some found)
    rw [inj_on_of_nodup_map project.distinct present (mem_of_mem_take mem) (fits.trans same.symm)]

theorem asAsked_of_landed (sure : change.wanted = none → Within project key)
    (landed : change.landed (readBackRole project key) = true) : change.AsAsked key project := by
  unfold RoleChange.landed at landed
  unfold RoleChange.AsAsked
  cases asked : change.wanted with
  | none =>
    rw [asked] at landed
    refine eq_false_iff.mpr fun present => ?_
    obtain ⟨_,mem,same⟩ := sure asked present
    rw [readBackRole_of_page mem same] at landed
    cases landed
  | some pair =>
    obtain ⟨_,_⟩ := pair
    rw [asked] at landed
    cases found : readBackRole project key with
    | none =>
      rw [found] at landed
      cases landed
    | some =>
      rw [found] at landed
      dsimp only at landed ⊢
      rw [Option.any_some,and_eq_true] at landed
      have same := find?_some found
      simp only [decide_eq_true_eq] at landed same
      obtain ⟨rfl,rfl⟩ := landed
      subst same
      exact mem_of_mem_take (mem_of_find?_eq_some found)

theorem handle_unlanded
    (known : change.AsAsked key project ∨ change.Seen key place project)
    (unseen : change.landed (readBackRole (change.handle key place project).1 key) = false) :
    (change.handle key place project).1 = project := by
  cases taken : (change.handle key place project).2 with
  | false => exact handle_refused taken
  | true =>
    cases change with
    | create asked =>
      exfalso
      unfold handle at taken unseen
      dsimp only at taken unseen
      split at taken
      · cases taken
      rename_i absent
      rw [dif_neg absent] at unseen
      have near : place < defaultSearchLimit ∨
          project.roles.length < defaultSearchLimit := by
        rcases known with asked | (⟨-,near⟩ | ⟨present,-⟩)
        · exact absurd (has_iff.mpr ⟨_,asked,rfl⟩) absent
        · exact near
        · exact absurd present absent
      have listed : (⟨key,asked.displayName,asked.group⟩ : ProjectRole) ∈
          (project.add place ⟨key,asked.displayName,asked.group⟩ absent).roles.take
            defaultSearchLimit := by
        change _ ∈ (project.roles.take place ++ _ :: project.roles.drop place).take _
        rw [take_append]
        refine mem_append_right _ ?_
        have room : 0 < defaultSearchLimit - (project.roles.take place).length := by
          rw [length_take]
          omega
        obtain ⟨left,split⟩ := Nat.exists_eq_succ_of_ne_zero (Nat.pos_iff_ne_zero.mp room)
        rw [split]
        exact mem_cons_self
      rw [readBackRole_of_page listed rfl] at unseen
      simp [RoleChange.landed,wanted] at unseen
    | update displayName group =>
      rcases known with asked | within
      · refine rename_same fun role mem same => ?_
        exact inj_on_of_nodup_map project.distinct mem asked same
      exfalso
      obtain ⟨role,mem,same⟩ := within taken
      have listed : (⟨key,displayName,group⟩ : ProjectRole) ∈
          (project.rename key displayName group).roles.take defaultSearchLimit := by
        change _ ∈ (project.roles.map _).take _
        rw [← map_take]
        exact mem_map.mpr ⟨role,mem,if_pos same⟩
      change RoleChange.landed _ (readBackRole (project.rename key displayName group) key) =
        false at unseen
      rw [readBackRole_of_page listed rfl] at unseen
      simp [RoleChange.landed,wanted] at unseen
    | delete =>
      exfalso
      cases found : readBackRole (project.remove key) key with
      | none =>
        change (readBackRole (project.remove key) key).isNone = false at unseen
        rw [found] at unseen
        cases unseen
      | some =>
        have gone := mem_of_mem_take (mem_of_find?_eq_some found)
        have same := find?_some found
        exact of_decide_eq_true (mem_filter.mp gone).2 (of_decide_eq_true same)

theorem lost_done : ∀ listed : Bool,
    (if listed then Sent.done else Sent.answerLost) = .done → listed = true := by
  decide

theorem lost_unfinal : ∀ listed : Bool,
    (if listed then Sent.done else Sent.answerLost) ≠ .final := by
  decide

theorem send_lost (made reread : Bool) :
    (send change key place project (.lost made reread)).1 =
      if made then (change.handle key place project).1 else project := by
  cases change with
  | create | update | delete => rfl

variable {fate : CallFate}

section

variable (known : change.AsAsked key project ∨ change.Seen key place project)
include known

theorem send_asAsked
    (done : (send change key place project fate).2 = .done) :
    change.AsAsked key (send change key place project fate).1 := by
  cases fate with
  | answered =>
    refine handle_asAsked ?_
    by_contra refused
    simp [send,refused] at done
  | refused => cases done
  | lost made reread =>
    cases change with
    | update | delete => cases done
    | create asked =>
      have listed := lost_done _ done
      rw [← send_lost made reread,and_eq_true,roleExists,and_eq_true] at listed
      have short := of_decide_eq_true listed.2.1
      have present := listed.2.2
      have before : project.has key = true → project.roles.length ≤ roleExistsLimit →
          (create asked).AsAsked key project := by
        intro had _
        rcases known with asAsked | (⟨absent,-⟩ | ⟨-,_⟩)
        · exact asAsked
        · rw [absent] at had
          cases had
        · omega
      rw [send_lost] at short present ⊢
      cases made with
      | false => exact before present short
      | true =>
        cases taken : ((create asked).handle key place project).2 with
        | true => exact handle_asAsked taken
        | false =>
          rw [handle_refused taken] at short present ⊢
          exact before present short

theorem send_same
    (unsure : (send change key place project fate).2 ≠ .done)
    (settled : (send change key place project fate).2 = .final ∨
      change.landed (readBackRole (send change key place project fate).1 key) = false) :
    (send change key place project fate).1 = project := by
  cases fate with
  | answered =>
    refine handle_refused (eq_false_iff.mpr fun taken => unsure ?_)
    simp [send,taken]
  | refused => rfl
  | lost made =>
    rw [send_lost] at settled ⊢
    cases made with
    | false => rfl
    | true =>
      refine handle_unlanded known (settled.resolve_left fun final => ?_)
      cases change with
      | update | delete => cases final
      | create => exact lost_unfinal _ final

theorem within_send
    (removal : change.wanted = none) :
    Within (send change key place project fate).1 key := by
  cases change with
  | create | update => cases removal
  | delete =>
    have kept : Within project key := by
      intro present
      rcases known with gone | within
      · rw [show project.has key = false from gone] at present
        cases present
      · exact within present
    have removed : Within (project.remove key) key := by
      intro present
      obtain ⟨_,mem,same⟩ := has_iff.mp present
      exact absurd same (of_decide_eq_true (mem_filter.mp mem).2)
    cases fate with
    | answered => exact removed
    | refused => exact kept
    | lost made =>
      cases made with
      | false => exact kept
      | true => exact removed

end

end Calls

section Writes

variable {client : Bool} {change : RoleChange} {key : String} {place : Nat} {world : World}

theorem agrees_of_known (known : change.AsAsked key world.project ∨
      (client = true ∧ change.Seen key place world.project)) {failures : Failures} :
    Agrees change key world (writeRole client change key place failures world).1
      (writeRole client change key place failures world).2 := by
  unfold writeRole
  cases traced : (if failures.traceFails then none else change.recorded world.record) with
  | none => exact rfl
  | some record =>
    have recorded : change.recorded world.record = some record := by
      cases fails : failures.traceFails with
      | true =>
        rw [fails] at traced
        cases traced
      | false =>
        rw [fails] at traced
        exact traced
    dsimp only
    cases client with
    | false => exact ⟨recorded,known.resolve_right fun both => by cases both.1⟩
    | true =>
      have sure : change.AsAsked key world.project ∨ change.Seen key place world.project :=
        known.imp_right And.right
      by_cases done : (send change key place world.project failures.call).2 = .done
      · rw [if_pos done]
        exact ⟨recorded,send_asAsked sure done⟩
      rw [if_neg done]
      by_cases landed : (!failures.readFails && change.landed (readBackRole
          (send change key place world.project failures.call).1 key)) = true
      · rw [if_pos landed]
        rw [and_eq_true] at landed
        exact ⟨recorded,asAsked_of_landed (within_send sure) landed.2⟩
      rw [if_neg landed]
      by_cases unknown : (failures.readFails &&
          (send change key place world.project failures.call).2 = .answerLost) = true
      · rw [if_pos unknown]
        trivial
      rw [if_neg unknown]
      cases failures.undoFails with
      | true => trivial
      | false =>
        rw [undo_recorded recorded]
        have same := send_same sure done (by
          cases read : failures.readFails with
          | false =>
            rw [read,Bool.not_false] at landed
            exact .inr (eq_false_iff.mpr landed)
          | true =>
            rw [read,Bool.true_and,decide_eq_true_eq] at unknown
            cases sent : (send change key place world.project failures.call).2 with
            | done => exact absurd sent done
            | final => exact .inl rfl
            | answerLost => exact absurd sent unknown)
        change (⟨world.record,_⟩ : World) = world
        rw [same]

def calm (call : CallFate) : Failures :=
  { traceFails := false
    call := call
    readFails := false
    undoFails := false }

theorem readBackRole_none {project : Project}
    (unlisted : ∀ role ∈ project.roles.take defaultSearchLimit, role.key ≠ key) :
    readBackRole project key = none :=
  find?_eq_none.mpr fun role mem => by simpa using unlisted role mem

variable {record : Option RoleRecord}

theorem asAsked_of_made (agrees : ∀ failures, Agrees change key world
      (writeRole true change key place failures world).1
      (writeRole true change key place failures world).2)
    (recorded : change.recorded world.record = some record)
    (taken : (change.handle key place world.project).2 = true) (asks : change.wanted ≠ none)
    (unlisted : ∀ role ∈ (change.handle key place world.project).1.roles.take defaultSearchLimit,
      role.key ≠ key) : change.AsAsked key world.project := by
  have lost : send change key place world.project (.lost true false) =
      ((change.handle key place world.project).1, .answerLost) := by
    cases change with
    | create | update | delete => rfl
  have unseen : change.landed (readBackRole (change.handle key place world.project).1 key) =
      false := by
    rw [readBackRole_none unlisted]
    unfold RoleChange.landed
    cases asked : change.wanted with
    | none => exact absurd asked asks
    | some => rfl
  have outcome := agrees (calm (.lost true false))
  have undone := undo_recorded recorded
  simp only [writeRole,calm,lost,unseen,recorded,undone,Bool.not_false,Bool.not_true,
    Bool.true_and,Bool.false_and,Bool.false_eq_true,if_false,reduceCtorEq,Agrees] at outcome
  have same : (change.handle key place world.project).1 = world.project :=
    congrArg World.project outcome
  exact same ▸ handle_asAsked taken

theorem seen_of_agrees (agrees : ∀ failures, Agrees change key world
      (writeRole true change key place failures world).1
      (writeRole true change key place failures world).2)
    (recorded : change.recorded world.record = some record)
    (unlike : ¬change.AsAsked key world.project) : change.Seen key place world.project := by
  cases change with
  | create asked =>
    cases present : world.project.has key with
    | true =>
      refine .inr ⟨present,?_⟩
      by_contra few
      have outcome := agrees (calm (.lost false true))
      have listed : roleExists world.project key = true := by
        simp [roleExists,present,Nat.not_lt.mp few]
      simp only [writeRole,calm,send,listed,recorded,Bool.not_true,Bool.true_and,
        Bool.false_eq_true,if_false,if_true,Agrees] at outcome
      exact unlike outcome.2
    | false =>
      refine .inl ⟨present,?_⟩
      by_contra far
      have absent : ¬world.project.has key = true := by
        rw [present]
        exact false_ne_true
      have added : (create asked).handle key place world.project =
          (world.project.add place ⟨key,asked.displayName,asked.group⟩ absent, true) :=
        dif_neg absent
      refine unlike (asAsked_of_made agrees recorded (congrArg Prod.snd added) (by simp [wanted]) ?_)
      rw [added]
      intro role mem same
      change role ∈ (world.project.roles.take place ++ _).take defaultSearchLimit at mem
      rw [take_append_of_le_length (by rw [length_take]; omega)] at mem
      exact absent (has_iff.mpr ⟨role,mem_of_mem_take (mem_of_mem_take mem),same⟩)
  | update =>
    intro present
    by_contra unlisted
    refine unlike (asAsked_of_made agrees recorded present (by simp [wanted]) ?_)
    intro role mem same
    change role ∈ (world.project.roles.map _).take defaultSearchLimit at mem
    rw [← map_take] at mem
    obtain ⟨old,listed,rfl⟩ := mem_map.mp mem
    by_cases here : old.key = key
    · exact unlisted ⟨old,listed,here⟩
    · rw [if_neg here] at same
      exact here same
  | delete =>
    intro _
    by_contra unlisted
    have nothing : readBackRole world.project key = none :=
      readBackRole_none fun role mem same => unlisted ⟨role,mem,same⟩
    have outcome := agrees (calm .refused)
    have landed : delete.landed none = true := rfl
    simp only [writeRole,calm,send,nothing,landed,recorded,Bool.not_true,Bool.not_false,
      Bool.true_and,Bool.false_eq_true,if_false,if_true,reduceCtorEq,Agrees] at outcome
    exact unlike outcome.2

end Writes

/-- Whatever fails, a role write ends in agreement or says otherwise, exactly where Syndra
refuses to record it, Zitadel is as asked already, or there is a client and neither read-back
can mislead. -/
theorem writeRole_agrees_iff (client : Bool) (change : RoleChange) (key : String) (place : Nat)
    (world : World) :
    (∀ failures, Agrees change key world (writeRole client change key place failures world).1
        (writeRole client change key place failures world).2) ↔
      change.recorded world.record = none ∨ change.AsAsked key world.project ∨
        (client = true ∧ change.Seen key place world.project) := by
  constructor
  · intro agrees
    cases recorded : change.recorded world.record with
    | none => exact .inl rfl
    | some =>
      refine .inr ?_
      by_cases asked : change.AsAsked key world.project
      · exact .inl asked
      cases client with
      | true => exact .inr ⟨rfl,seen_of_agrees agrees recorded asked⟩
      | false =>
        have outcome := agrees (calm .answered)
        simp only [writeRole,calm,recorded,Bool.not_false,Bool.false_eq_true,if_false,
          if_true,Agrees] at outcome
        exact absurd outcome.2 asked
  · rintro (refused | known) failures
    · have untraced : (if failures.traceFails then none else change.recorded world.record) =
          none := by
        rw [refused,ite_self]
      unfold writeRole
      rw [untraced]
      exact rfl
    · exact agrees_of_known known

namespace SecondPage

def name (number : Nat) : String := String.ofList (replicate number 'r')

def crowd (size : Nat) : Project :=
  { roles := (range size).map fun number => ⟨name number,"",""⟩
    distinct := by
      rw [map_map]
      refine nodup_range.map fun first second same => ?_
      have lengths := congrArg String.length same
      simpa [name] using lengths }

variable {number size : Nat}

theorem crowd_has (below : number < size) : (crowd size).has (name number) = true:=
  has_iff.mpr ⟨_,mem_map_of_mem (mem_range.mpr below),rfl⟩

theorem crowd_unlisted (beyond : defaultSearchLimit ≤ number) :
    readBackRole (crowd size) (name number) = none := by
  refine readBackRole_none fun role listed same => ?_
  unfold crowd at listed
  rw [← map_take,take_range] at listed
  obtain ⟨_,below,rfl⟩ := mem_map.mp listed
  have lengths := congrArg String.length same
  simp only [name,String.length_ofList,length_replicate] at lengths
  have page := mem_range.mp below
  omega

def member : RoleRecord := ⟨"","","","ada","",""⟩

/-- The last of 501 roles is deleted, Zitadel refuses, and the write says it was done. -/
theorem delete_beyond_page :
    (writeRole true .delete (name 500) 0 (calm .refused) ⟨some member,crowd 501⟩).2 = .done ∧
      (writeRole true .delete (name 500) 0 (calm .refused)
        ⟨some member,crowd 501⟩).1.project.has (name 500) = true := by
  have unlisted : readBackRole (crowd 501) (name 500) = none := crowd_unlisted (Nat.le_refl _)
  have landed : RoleChange.delete.landed none = true := rfl
  simp only [writeRole,calm,send,unlisted,landed,RoleChange.recorded,Bool.not_true,
    Bool.not_false,Bool.true_and,Bool.false_eq_true,if_false,if_true,reduceCtorEq]
  exact ⟨trivial,crowd_has (by decide)⟩

end SecondPage

end Syndra.Roles
