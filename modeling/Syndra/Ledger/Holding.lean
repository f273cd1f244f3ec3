/-
What a person has of a role they ask for.

A request is answered from the direct grant, the observed grants and the queue. The queue is
asked two questions apart: does some row take the role away, and does some row give it.
-/

import Syndra.Ledger.Records
import Syndra.Observe.Index

namespace Syndra.Ledger

open Access Propagation Observe List Bool

inductive HoldingKind where
  | none
  | until_
  | forGood
deriving DecidableEq

structure RequestHolding where
  kind : HoldingKind
  until_ : Option Time
  waiting : Bool
deriving DecidableEq

section Request

variable (outbox : Outbox) (grants : List DirectGrant) (index : List ObservedGrant)
  (userId : String) (role : Role)

def queuedOf : List OutboxRow :=
  outbox.rows.filter fun row =>
    row.target = zitadelTarget && decide row.Unresolved && row.userId = userId &&
      row.projectId = role.projectId

def leaving : Bool :=
  (queuedOf outbox userId role).any fun row =>
    row.opType = .revoke && role.roleKey ∈ row.roleKeys ||
      row.opType = .replace && role.roleKey ∉ row.roleKeys

def arriving : Bool :=
  (queuedOf outbox userId role).any fun row =>
    (row.opType = .add || row.opType = .replace) && role.roleKey ∈ row.roleKeys

def recordedGrant : Option DirectGrant :=
  grants.find? fun grant => grant.userId = userId && grant.role = role

def observedHeld : Bool :=
  index.any fun grant =>
    grant.userId = userId && grant.projectId = role.projectId && role.roleKey ∈ grant.roleKeys

def requestHolding : RequestHolding :=
  let ending := (recordedGrant grants userId role).bind DirectGrant.expiresAt
  let granted := (recordedGrant grants userId role).isSome && !leaving outbox userId role
  let observed := observedHeld index userId role && !leaving outbox userId role
  let waiting := arriving outbox userId role
  if granted && ending.isSome then { kind := .until_, until_ := ending, waiting := waiting }
  else if granted || observed || waiting then
    { kind := .forGood, until_ := none, waiting := waiting }
  else { kind := .none, until_ := none, waiting := false }

def word (row : OutboxRow) : Option Bool :=
  match row.opType with
  | .revoke => if role.roleKey ∈ row.roleKeys then some false else none
  | .replace => some (decide (role.roleKey ∈ row.roleKeys))
  | .add => if role.roleKey ∈ row.roleKeys then some true else none
  | .apply => none

def deciding : Option OutboxRow :=
  ((queuedOf outbox userId role).filter fun row => (word role row).isSome).getLast?

/-- What the queue will leave: nothing, the role with the end recorded for it, or what the
ledger and the index have. -/
def awaited : RequestHolding :=
  let ending := (recordedGrant grants userId role).bind DirectGrant.expiresAt
  match (deciding outbox userId role).bind (word role) with
  | some false => { kind := .none, until_ := none, waiting := false }
  | some true =>
    if ending.isSome then { kind := .until_, until_ := ending, waiting := true }
    else { kind := .forGood, until_ := none, waiting := true }
  | none =>
    if ending.isSome then { kind := .until_, until_ := ending, waiting := false }
    else if (recordedGrant grants userId role).isSome || observedHeld index userId role then
      { kind := .forGood, until_ := none, waiting := false }
    else { kind := .none, until_ := none, waiting := false }

/-- The rows that speak of the role say the same, or the last gives it and no end is
recorded. -/
def OneWay : Prop :=
  (∀ first ∈ queuedOf outbox userId role, ∀ second ∈ queuedOf outbox userId role,
    word role first = some false → word role second ≠ some true) ∨
  ((deciding outbox userId role).bind (word role) = some true ∧
    (recordedGrant grants userId role).bind DirectGrant.expiresAt = none)

end Request

section Proofs

variable {outbox : Outbox} {grants : List DirectGrant} {index : List ObservedGrant}
  {userId : String} {role : Role}

variable {row : OutboxRow}

theorem word_takes_iff : word role row = some false ↔
      (row.opType = .revoke ∧ role.roleKey ∈ row.roleKeys ∨
        row.opType = .replace ∧ role.roleKey ∉ row.roleKeys) := by
  unfold word
  cases row.opType <;> simp

theorem word_gives_iff : word role row = some true ↔
      (row.opType = .add ∨ row.opType = .replace) ∧ role.roleKey ∈ row.roleKeys := by
  unfold word
  cases row.opType <;> simp

theorem leaving_iff : leaving outbox userId role = true ↔
      ∃ row ∈ queuedOf outbox userId role, word role row = some false := by
  unfold leaving
  simp only [any_eq_true,word_takes_iff,or_eq_true,and_eq_true, decide_eq_true_eq]

theorem arriving_iff : arriving outbox userId role = true ↔
      ∃ row ∈ queuedOf outbox userId role, word role row = some true := by
  unfold arriving
  simp only [any_eq_true,word_gives_iff,or_eq_true,and_eq_true, decide_eq_true_eq]

theorem deciding_mem (decides : deciding outbox userId role = some row) :
    row ∈ queuedOf outbox userId role ∧ (word role row).isSome = true :=
  mem_filter.mp (mem_of_getLast? decides)

theorem word_of_undecided (undecided : deciding outbox userId role = none) :
    ∀ row ∈ queuedOf outbox userId role, word role row = none := by
  intro row queued
  have silent := filter_eq_nil_iff.mp (getLast?_eq_none_iff.mp undecided) row queued
  simpa using silent

theorem decided_cases (outbox : Outbox) (userId : String) (role : Role) :
    ((deciding outbox userId role).bind (word role) = none ∧
        leaving outbox userId role = false ∧ arriving outbox userId role = false) ∨
      ((deciding outbox userId role).bind (word role) = some false ∧
        leaving outbox userId role = true) ∨
      ((deciding outbox userId role).bind (word role) = some true ∧
        arriving outbox userId role = true) := by
  cases decides : deciding outbox userId role with
  | none =>
    have silent := word_of_undecided decides
    refine .inl ⟨rfl,eq_false_iff.mpr fun takes => ?_,eq_false_iff.mpr fun gives => ?_⟩
    · obtain ⟨row,queued,spoken⟩ := leaving_iff.mp takes
      rw [silent row queued] at spoken
      cases spoken
    · obtain ⟨row,queued,spoken⟩ := arriving_iff.mp gives
      rw [silent row queued] at spoken
      cases spoken
  | some row =>
    obtain ⟨queued,speaks⟩ := deciding_mem decides
    obtain ⟨value,spoken⟩ := Option.isSome_iff_exists.mp speaks
    rw [Option.bind_some,spoken]
    cases value with
    | false => exact .inr (.inl ⟨rfl,leaving_iff.mpr ⟨row,queued,spoken⟩⟩)
    | true => exact .inr (.inr ⟨rfl,arriving_iff.mpr ⟨row,queued,spoken⟩⟩)

theorem oneWay_iff : OneWay outbox grants userId role ↔
      (leaving outbox userId role = false ∨ arriving outbox userId role = false) ∨
        ((deciding outbox userId role).bind (word role) = some true ∧
          (recordedGrant grants userId role).bind DirectGrant.expiresAt = none) := by
  refine or_congr_left ?_
  constructor
  · intro same
    by_cases takes : leaving outbox userId role = true
    · refine .inr (eq_false_iff.mpr fun gives => ?_)
      obtain ⟨first,queued,saysFalse⟩ := leaving_iff.mp takes
      obtain ⟨second,alsoQueued,saysTrue⟩ := arriving_iff.mp gives
      exact same first queued second alsoQueued saysFalse saysTrue
    · exact .inl (eq_false_iff.mpr takes)
  · rintro (none | none) first queued second alsoQueued saysFalse saysTrue
    · rw [leaving_iff.mpr ⟨first,queued,saysFalse⟩] at none
      cases none
    · rw [arriving_iff.mpr ⟨second,alsoQueued,saysTrue⟩] at none
      cases none

end Proofs

/-- The answer is what the queue will leave, unless it both gives the role and takes it away
and the last word is not an add of a role without an end. -/
theorem requestHolding_awaited_iff (outbox : Outbox) (grants : List DirectGrant)
    (index : List ObservedGrant) (userId : String) (role : Role) :
    requestHolding outbox grants index userId role = awaited outbox grants index userId role ↔
      OneWay outbox grants userId role := by
  rw [oneWay_iff]
  unfold requestHolding awaited
  cases ending : (recordedGrant grants userId role).bind DirectGrant.expiresAt with
  | none =>
    rcases decided_cases outbox userId role with
      ⟨spoken,takes,gives⟩ | ⟨spoken,takes⟩ | ⟨spoken,gives⟩
    · simp [spoken,takes,gives]
    · simp [spoken,takes]
    · simp [spoken,gives]
  | some =>
    have recorded : (recordedGrant grants userId role).isSome = true := by
      cases found : recordedGrant grants userId role with
      | none => rw [found] at ending; cases ending
      | some => rfl
    rcases decided_cases outbox userId role with
      ⟨spoken,takes,gives⟩ | ⟨spoken,takes⟩ | ⟨spoken,gives⟩
    · simp [spoken,takes,gives,recorded]
    · simp [spoken,takes]
    · cases takes : leaving outbox userId role <;> simp [spoken,gives,recorded]

namespace Behind

def row (status : Status) (opType : OpType) (seq : Nat) : OutboxRow :=
  { target := zitadelTarget, opType := opType, userId := "ada", projectId := "lab"
    roleKeys := ["member"], source := .direct, sourceRef := "", withdrawsOnly := false
    status := status, attempts := 0, waitReason := none, notBefore := none, id := seq
    intentSeq := seq }

def outbox (first second : OpType) : Outbox :=
  { rows := [row .inFlight first 1,row .pending second 2], nextSeq := 3
    ordered := by cases first <;> cases second <;> decide
    idsDistinct := by cases first <;> cases second <;> decide
    numbered := by cases first <;> cases second <;> decide
    started := by decide }

def member : Role :=
  { projectId := "lab", roleKey := "member" }

def ending : DirectGrant :=
  { id := 1, userId := "ada", projectId := "lab", roleKey := "member", expiresAt := some 30
    source := .direct, sourceRef := "" }

/-- A removal behind an add is answered as a role held for good. An add behind a removal
loses the end of the grant. -/
theorem requestHolding_unordered :
    (deciding (outbox .add .revoke) "ada" member).bind (word member) = some false ∧
      requestHolding (outbox .add .revoke) [] [] "ada" member =
        { kind := .forGood, until_ := none, waiting := true } ∧
      (deciding (outbox .revoke .add) "ada" member).bind (word member) = some true ∧
      (recordedGrant [ending] "ada" member).bind DirectGrant.expiresAt = some 30 ∧
      requestHolding (outbox .revoke .add) [ending] [] "ada" member =
        { kind := .forGood, until_ := none, waiting := true } := by
  decide +kernel

end Behind

end Syndra.Ledger
