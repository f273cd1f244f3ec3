/-
Passwords that were superseded.

A member sets a password on a target several times at once. Each set is a record, a claim,
and a request that the target applies when it gets to it.
-/

import Syndra.Foundation.Runs
import Syndra.Operate.Records

namespace Syndra.Operate

open Foundation.Runs List

structure PasswordState where
  table : Table
  now : Nat
  underway : List Nat
  applied : List AddonOperation

inductive PasswordMove where
  | begin (id : Nat) (retryOf : Option Nat)
  | claim (id : Nat)
  | apply (id : Nat)
  | lose (id : Nat)
  | settle (id : Nat) (status : Status)
  | supersede (id : Nat)
  | tick
deriving DecidableEq

section Step

variable (params : AddonOperationParams)

def passwordStep (state : PasswordState) : PasswordMove → Option PasswordState
  | .begin id retryOf =>
    match insertAddonOperation state.table state.now id { params with retryOf := retryOf } with
    | .ok table => some { state with table := table }
    | .error _ => none
  | .claim id =>
    match claimAddonOperation state.table state.now id params.call with
    | .ok table => some { state with table := table, underway := id :: state.underway }
    | .error _ => none
  | .apply id =>
    match state.table.rows.find? fun row => row.id = id with
    | some row =>
      if id ∈ state.underway then
        some { state with
          underway := state.underway.erase id
          applied := row :: state.applied }
      else none
    | none => none
  | .lose id => some { state with underway := state.underway.erase id }
  | .settle id status =>
    if status = .succeeded ∧ ∀ row ∈ state.applied, row.id ≠ id then none
    else
      match settleAddonOperation state.table state.now id status with
      | .ok table => some { state with table := table }
      | .error _ => none
  | .supersede id =>
    (supersedeAddonOperations state.table state.now id).map fun table =>
      { state with table := table }
  | .tick => some { state with now := state.now + 1 }

end Step

def PasswordState.inForce (state : PasswordState) : Option Nat := state.applied.head?.map (·.id)

/-- Once no request is underway, no superseded record's password is in force. -/
def Moot (state : PasswordState) : Prop :=
  state.underway = [] → ∀ row ∈ state.table.rows, row.supersededBy.isSome = true →
    state.inForce ≠ some row.id

/-- The condition on one move: the target applies the requests in the order of their
records. -/
def InOrder (state : PasswordState) (move : PasswordMove) : Prop :=
  ∀ row ∈ state.table.rows, move = .apply row.id →
    ∀ other ∈ state.applied, other.id ≠ row.id → other.createdAt < row.createdAt
deriving Decidable

/-- A row comes from one of the same id and time. Its mark is old unless `marks` allows it,
and so is its confirmation unless `confirms` names it. -/
structure Stems (marks : AddonOperation → Nat → Prop) (confirms : Option Nat)
    (row next : AddonOperation) : Prop where
  id : next.id = row.id
  created : next.createdAt = row.createdAt
  marked : ∀ later, next.supersededBy = some later → row.supersededBy = some later ∨ marks row later
  confirmed : next.status = .succeeded → row.status = .succeeded ∨ confirms = some row.id

def Table.StemsFrom (marks : AddonOperation → Nat → Prop) (confirms : Option Nat)
    (table after : Table) : Prop :=
  (∀ next ∈ after.rows, ∃ row ∈ table.rows, Stems marks confirms row next) ∧
    ∀ row ∈ table.rows, ∃ next ∈ after.rows, Stems marks confirms row next

section Statements

variable {table after : Table} {marks : AddonOperation → Nat → Prop} {confirms : Option Nat}

theorem stems_of_update {guard : AddonOperation → Bool} {set : AddonOperation → AddonOperation}
    (updated : table.update guard set = some after)
    (stems : ∀ row, guard row = true → Stems marks confirms row (set row)) :
    table.StemsFrom marks confirms after := by
  have changed : ∀ row, Stems marks confirms row (if guard row then set row else row) := by
    intro row
    split
    · next guarded => exact stems row guarded
    · exact ⟨rfl,rfl,fun _ => .inl,.inl⟩
  have rows := rows_of_write updated
  refine ⟨fun next mem => ?_,fun row mem => ⟨_,?_,changed row⟩⟩
  · rw [rows] at mem
    obtain ⟨row,present,rfl⟩ := mem_map.mp mem
    exact ⟨row,present,changed row⟩
  · rw [rows]
    exact mem_map_of_mem mem

variable {now : Nat}

theorem stems_of_claim {id : Nat} {call : CallKey}
    (claimed : claimAddonOperation table now id call = .ok after) :
    table.StemsFrom (fun _ _ => False) none after :=
  stems_of_update (updateFound_ok claimed).2 fun _ _ => ⟨rfl,rfl,fun _ => .inl,.inl⟩

theorem stems_of_settle {id : Nat} {status : Status}
    (settled : settleAddonOperation table now id status = .ok after) :
    table.StemsFrom (fun _ _ => False) (if status = .succeeded then some id else none) after := by
  refine stems_of_update (updateFound_ok settled).2 fun row guarded => ?_
  simp only [Bool.and_eq_true,decide_eq_true_eq] at guarded
  obtain ⟨⟨rfl,-⟩,-⟩ := guarded
  exact ⟨rfl,rfl,fun _ => .inl,fun done => .inr (if_pos done)⟩

def Supersedes (table : Table) (row : AddonOperation) (later : Nat) : Prop :=
  ∃ by_ ∈ table.rows, by_.id = later ∧ by_.status = .succeeded ∧ by_.id ≠ row.id ∧
    row.createdAt ≤ by_.createdAt

theorem stems_of_supersede {confirmed : Nat}
    (superseded : supersedeAddonOperations table now confirmed = some after) :
    table.StemsFrom (Supersedes table) none after := by
  unfold supersedeAddonOperations at superseded
  split at superseded
  · cases superseded
    have same : ∀ row : AddonOperation, Stems (Supersedes table) none row row :=
      fun row => ⟨rfl,rfl,fun _ => .inl,.inl⟩
    exact ⟨fun row mem => ⟨row,mem,same row⟩,fun row mem => ⟨row,mem,same row⟩⟩
  rename_i later found
  refine stems_of_update superseded fun row guarded => ?_
  simp only [AddonOperation.supersededOpen,Bool.and_eq_true,decide_eq_true_eq] at guarded
  obtain ⟨⟨⟨⟨⟨⟨done,-⟩,other⟩,earlier⟩,-⟩,-⟩,-⟩ := guarded
  refine ⟨rfl,rfl,fun mark marked => .inr ?_,.inl⟩
  exact ⟨later,mem_of_find?_eq_some found,Option.some.inj marked,done,other.symm, earlier⟩

end Statements

/-- What was superseded, confirmed and applied, against the order of application. -/
structure Kept (state : PasswordState) : Prop where
  confirmed : ∀ row ∈ state.table.rows, row.status = .succeeded →
    ∃ done ∈ state.applied, done.id = row.id
  known : ∀ done ∈ state.applied, ∃ row ∈ state.table.rows, row.id = done.id ∧
    row.createdAt = done.createdAt
  superseded : ∀ row ∈ state.table.rows, ∀ later, row.supersededBy = some later →
    ∃ done ∈ state.applied, done.id ≠ row.id ∧ row.createdAt ≤ done.createdAt
  last : ∀ done rest, state.applied = done :: rest → ∀ other ∈ rest, other.id ≠ done.id →
    other.createdAt < done.createdAt

section Steps

variable {params : AddonOperationParams} {state next : PasswordState}

variable {after : Table}

theorem Kept.stemsFrom (kept : Kept state) {marks : AddonOperation → Nat → Prop}
    {confirms : Option Nat} (stems : state.table.StemsFrom marks confirms after)
    (confirming : ∀ id, confirms = some id → ∃ done ∈ state.applied, done.id = id)
    (marking : ∀ row ∈ state.table.rows, ∀ later, marks row later →
      ∃ done ∈ state.applied, done.id ≠ row.id ∧ row.createdAt ≤ done.createdAt)
    (underway : List Nat) : Kept { state with table := after, underway := underway } := by
  refine ⟨fun new mem done => ?_,fun done mem => ?_,fun new mem later marked => ?_, kept.last⟩
  · obtain ⟨row,present,from_⟩ := stems.1 new mem
    rw [from_.id]
    rcases from_.confirmed done with old | confirmed
    · exact kept.confirmed row present old
    · exact confirming row.id confirmed
  · obtain ⟨row,present,sameId,sameTime⟩ := kept.known done mem
    obtain ⟨new,there,from_⟩ := stems.2 row present
    exact ⟨new,there,from_.id.trans sameId,from_.created.trans sameTime⟩
  obtain ⟨row,present,from_⟩ := stems.1 new mem
  rw [from_.id,from_.created]
  rcases from_.marked later marked with old | marks
  · exact kept.superseded row present later old
  · exact marking row present later marks

theorem Kept.begin (kept : Kept state) {id : Nat} {p : AddonOperationParams}
    (inserted : insertAddonOperation state.table state.now id p = .ok after) :
    Kept { state with table := after } := by
  obtain ⟨row,-,-,waiting,unanswered,-,-,rows⟩ := insertAddonOperation_ok inserted
  have unmarked : row.supersededBy = none := by
    have checked := after.constraints.2.2 row (by rw [rows]; simp)
    have none_ := checked.2.2.2.2.2.not
    rw [unanswered] at none_
    simpa using none_
  refine ⟨fun new mem done => ?_,fun done mem => ?_,fun new mem later marked => ?_, kept.last⟩
  · rw [rows] at mem
    rcases mem_append.mp mem with old | added
    · exact kept.confirmed new old done
    · rw [mem_singleton.mp added,waiting] at done
      cases done
  · obtain ⟨old,present,same⟩ := kept.known done mem
    refine ⟨old,?_,same⟩
    rw [rows]
    exact mem_append_left _ present
  · rw [rows] at mem
    rcases mem_append.mp mem with old | added
    · exact kept.superseded new old later marked
    · rw [mem_singleton.mp added,unmarked] at marked
      cases marked

theorem Kept.apply (kept : Kept state) {row : AddonOperation} (mem : row ∈ state.table.rows)
    (inOrder : InOrder state (.apply row.id)) (underway : List Nat) :
    Kept { state with underway := underway, applied := row :: state.applied } := by
  refine ⟨fun other present done => ?_,fun done applied => ?_,fun other present later marked => ?_,
    fun done rest split => ?_⟩
  · obtain ⟨found,among,same⟩ := kept.confirmed other present done
    exact ⟨found,mem_cons_of_mem row among,same⟩
  · rcases mem_cons.mp applied with rfl | old
    · exact ⟨done,mem,rfl,rfl⟩
    · exact kept.known done old
  · obtain ⟨found,among,rest⟩ := kept.superseded other present later marked
    exact ⟨found,mem_cons_of_mem row among,rest⟩
  · cases split
    exact inOrder row mem rfl

theorem Kept.step {move : PasswordMove} (kept : Kept state) (inOrder : InOrder state move)
    (stepped : passwordStep params state move = some next) : Kept next := by
  cases move with
  | begin =>
    simp only [passwordStep] at stepped
    split at stepped
    · next table inserted =>
      cases stepped
      exact kept.begin inserted
    · cases stepped
  | claim =>
    simp only [passwordStep] at stepped
    split at stepped
    · next table claimed =>
      cases stepped
      exact kept.stemsFrom (stems_of_claim claimed) nofun
        (fun _ _ _ => False.elim) _
    · cases stepped
  | apply =>
    simp only [passwordStep] at stepped
    split at stepped
    · next row found =>
      split at stepped
      · cases stepped
        have same := find?_some found
        simp only [decide_eq_true_eq] at same
        subst same
        exact kept.apply (mem_of_find?_eq_some found) inOrder _
      · cases stepped
    · cases stepped
  | lose | tick =>
    cases stepped
    exact ⟨kept.confirmed,kept.known,kept.superseded,kept.last⟩
  | settle =>
    simp only [passwordStep] at stepped
    split at stepped
    · cases stepped
    rename_i applied
    split at stepped
    · next table settled =>
      cases stepped
      refine kept.stemsFrom (stems_of_settle settled) (fun other confirms => ?_)
        (fun _ _ _ => False.elim) state.underway
      split at confirms
      · next done =>
        cases confirms
        by_contra unapplied
        exact applied ⟨done,fun row mem same => unapplied ⟨row,mem,same⟩⟩
      · cases confirms
    · cases stepped
  | supersede =>
    obtain ⟨table,superseded,rfl⟩ := Option.map_eq_some_iff.mp stepped
    refine kept.stemsFrom (stems_of_supersede superseded)
      nofun (fun row present later marks => ?_) state.underway
    obtain ⟨by_,there,-,confirmed,other,earlier⟩ := marks
    obtain ⟨done,applied,same⟩ := kept.confirmed by_ there confirmed
    obtain ⟨known,listed,sameId,sameTime⟩ := kept.known done applied
    have one : known = by_ := state.table.eq_of_id listed there (sameId.trans same)
    refine ⟨done,applied,same ▸ other,?_⟩
    rw [← sameTime,one]
    exact earlier

theorem Kept.moot (kept : Kept state) : Moot state := by
  intro _quiet row mem marked inForce
  obtain ⟨later,superseded⟩ := Option.isSome_iff_exists.mp marked
  obtain ⟨done,applied,other,_⟩ := kept.superseded row mem later superseded
  unfold PasswordState.inForce at inForce
  cases order : state.applied with
  | nil =>
    rw [order] at applied
    cases applied
  | cons last rest =>
    rw [order] at inForce applied
    have lastIs : last.id = row.id := Option.some.inj inForce
    rcases mem_cons.mp applied with rfl | before
    · exact other lastIs
    have later := kept.last last rest order done before (lastIs ▸ other)
    obtain ⟨_,listed,sameId,sameTime⟩ := kept.known last (order ▸ mem_cons_self)
    rw [state.table.eq_of_id listed mem (sameId.trans lastIs)] at sameTime
    omega

end Steps

def PasswordState.start : PasswordState :=
  { table := Table.empty
    now := 0
    underway := []
    applied := [] }

theorem Kept.start : Kept PasswordState.start := by
  refine ⟨fun _ impossible => ?_,fun _ impossible => ?_,fun _ impossible => ?_,
    fun _ _ impossible => ?_⟩
  all_goals cases impossible

/-- In every run in which the target applies the requests in the order of their records, no
superseded password is in force. -/
theorem superseded_password_moot (params : AddonOperationParams) (moves : List PasswordMove)
    (final : PasswordState)
    (inOrder : Throughout (passwordStep params) InOrder PasswordState.start moves)
    (reached : run (passwordStep params) PasswordState.start moves = some final) : Moot final := by
  have kept : Kept final :=
    run_invariant Kept Kept.step Kept.start inOrder reached
  exact kept.moot

namespace TwoTabs

def setPassword : AddonOperationParams :=
  { target := "nas"
    operation := "password.set"
    actorId := "ada"
    subjectId := "ada"
    about := ""
    retryOf := none }

def oneByOne : List PasswordMove :=
  [.begin 1 none,.claim 1,.apply 1,.settle 1 .indeterminate,.tick,
    .begin 2 none,.claim 2,.apply 2,.settle 2 .succeeded,.supersede 2]

def settled : PasswordState :=
  (run (passwordStep setPassword) PasswordState.start oneByOne).getD PasswordState.start

theorem superseded_password_moot_one_by_one :
    (∃ row ∈ settled.table.rows, row.id = 1 ∧ row.supersededBy = some 2) ∧ Moot settled :=
  ⟨by decide +kernel,superseded_password_moot setPassword oneByOne settled (by decide +kernel) rfl⟩

/-- Both are underway; the second is applied, confirmed and supersedes the first, which the
target applies after it. -/
def overtaken : List PasswordMove :=
  [.begin 1 none,.claim 1,.tick,.begin 2 none,.claim 2,.apply 2,.settle 2 .succeeded,
    .supersede 2,.apply 1,.settle 1 .succeeded]

def crossed : PasswordState :=
  (run (passwordStep setPassword) PasswordState.start overtaken).getD PasswordState.start

theorem superseded_password_in_force :
    run (passwordStep setPassword) PasswordState.start overtaken = some crossed ∧
      ¬Moot crossed := by
  refine ⟨rfl,fun moot => ?_⟩
  have found : ∃ row ∈ crossed.table.rows, row.supersededBy.isSome = true ∧
      crossed.inForce = some row.id := by decide +kernel
  obtain ⟨row,mem,marked,inForce⟩ := found
  exact moot (by decide +kernel) row mem marked inForce

end TwoTabs

end Syndra.Operate
