/-
What becomes of one claimed row.

Two dispatchers take a claimed row: one sends it to Zitadel, reconciles the ledger and the
memory of what landed, and settles the row; the other sends an approved desired state to an
add-on and settles the row.
-/

import Syndra.Drift.Memory
import Syndra.Entitlement.Drains
import Syndra.Ledger.Changes
import Syndra.Propagation.Dispatch

namespace Syndra.Drain

open Access Propagation Remote Ledger Drift Entitlement List Option

def rowOf (outbox : Outbox) (id : Nat) : Option OutboxRow :=
  outbox.rows.find? fun row => row.id = id

inductive Ending where
  | superseded
  | abandoned
deriving DecidableEq

def Ending.status : Ending → Status
  | .superseded => .superseded
  | .abandoned => .abandoned

def endElsewhere (id : Nat) (ended : Option Ending) (outbox : Outbox) : Outbox :=
  match ended with
  | none => outbox
  | some how => outbox.update fun row =>
    if row.id = id && decide row.Unresolved then { row.toDelivery with status := how.status }
    else row.toDelivery

inductive Counted where
  | applied
  | failed (exhausted : Bool)
  | requeued
  | errored
  | abandoned
deriving DecidableEq

def tally (res : DrainResult) : Counted → DrainResult
  | .applied => { res with applied := res.applied + 1 }
  | .failed exhausted =>
    { res with
      failed := res.failed + 1
      exhausted := if exhausted then res.exhausted + 1 else res.exhausted }
  | .requeued => { res with requeued := res.requeued + 1 }
  | .errored => { res with errored := res.errored + 1 }
  | .abandoned => { res with abandoned := res.abandoned + 1 }

inductive Effect where
  | reconciled
  | settled (status : Status)
deriving DecidableEq

/-- What fails in one dispatch besides the calls to Zitadel, and what happens to the row
meanwhile. -/
structure Faults where
  reconcileFails : Bool
  saveFails : String → Bool
  forgetFails : Bool
  settleFails : Bool
  ended : Option Ending
  now : Time
  wait : Time

structure DrainState where
  line : Line GrantStore
  outbox : Outbox
  records : Records
  landed : FieldMemory
  res : DrainResult
  refused : List (Nat × String)
  trace : List Effect

def threeDigits : List Char → Option Nat
  | first :: second :: third :: _ =>
    if first.isDigit && second.isDigit && third.isDigit then
      some (100 * (first.toNat - 48) + 10 * (second.toNat - 48) + (third.toNat - 48))
    else none
  | _ => none

def zitadelApi : List Char := "zitadel api ".toList

def zitadelStatus : List Char → Option Nat
  | [] => none
  | char :: rest =>
    let here :=
      if (char :: rest).take zitadelApi.length = zitadelApi then
        threeDigits ((char :: rest).drop zitadelApi.length)
      else none
    match here with
    | some code => some code
    | none => zitadelStatus rest

def refusalCause (errMsg : String) : String :=
  match zitadelStatus errMsg.toList with
  | none => "other"
  | some code =>
    if code = 401 || code = 403 then "not_allowed"
    else if code = 404 || code = 410 then "not_found"
    else if code = 400 || code = 412 || code = 422 then "invalid"
    else "other"

namespace DrainState

def persistErr (state : DrainState) (faults : Faults) (row : OutboxRow) : DrainState :=
  { state with
    outbox := endElsewhere row.id faults.ended state.outbox
    res := tally state.res .errored }

def settle (state : DrainState) (faults : Faults) (row : OutboxRow)
    (write : Outbox → Option Outbox) (status : Status) (counted : Counted)
    (refused : List (Nat × String)) : DrainState :=
  if faults.settleFails then state.persistErr faults row
  else
    let outbox := endElsewhere row.id faults.ended state.outbox
    match write outbox with
    | none => { state with outbox := outbox, res := tally state.res .abandoned }
    | some after =>
      { state with
        outbox := after
        res := tally state.res counted
        refused := refused ++ state.refused
        trace := state.trace ++ [.settled status] }

end DrainState

def takesAway (row : OutboxRow) : Bool :=
  row.opType = .revoke || row.opType = .replace

def reconcile (row : OutboxRow) (state : DrainState) : DrainState :=
  if takesAway row then
    { state with
      records := reconcileLedgerOnApplied state.records state.outbox row
      trace := state.trace ++ [.reconciled] }
  else state

def remember (faults : Faults) (row : OutboxRow) (state : DrainState) : DrainState :=
  { state with
    landed := rememberPropagation faults.saveFails faults.forgetFails state.landed row.toIntent }

/-- The ledger first, then the memory, then the row: what fails leaves the row in flight. -/
def applyRow (faults : Faults) (row : OutboxRow) (state : DrainState) : DrainState :=
  if takesAway row && faults.reconcileFails then state.persistErr faults row
  else
    let remembered := remember faults row (reconcile row state)
    if takesAway row && faults.forgetFails then remembered.persistErr faults row
    else
      remembered.settle faults row (fun outbox => markPropagationApplied outbox row.id) .applied
        .applied []

def processRow (maxRetries : Nat) (wire : Wire) (faults : Faults) (row : OutboxRow)
    (state : DrainState) : DrainState :=
  let checked := alreadyExists wire row state.line
  if checked.2 then applyRow faults row { state with line := checked.1 }
  else
    let called := classifyDispatch wire row checked.1
    let state := { state with line := called.1 }
    match called.2.1 with
    | .applied => applyRow faults row state
    | .failed =>
      let cause := refusalCause called.2.2
      state.settle faults row (fun outbox => markPropagationRefused outbox row.id cause) .failed
        (.failed false) [(row.id, cause)]
    | .transient =>
      if maxRetries ≤ row.attempts then
        state.settle faults row (fun outbox => markPropagationFailed outbox row.id) .failed
          (.failed true) []
      else
        state.settle faults row
          (fun outbox => requeuePropagation outbox row.id faults.now faults.wait) .pending
          .requeued []

structure AddonCalls where
  readFails : Bool
  /-- The approved desired state is absent or cannot be parsed. -/
  unreadable : Bool
  answer : PlanAnswer
  resp : ApplyResponse
  settleFails : Bool
  ended : Option Ending
  wait : Time

def endInStore (id : Nat) (ended : Option Ending) (store : Store) : Store :=
  match ended with
  | none => store
  | some how => store.complete (fun row => row.id = id && decide row.Unresolved) how.status

def prepareRow (store : Store) (row : OutboxRow) (calls : AddonCalls) : Prepared :=
  if row.opType ≠ .apply then .fail
  else if calls.readFails then .leave
  else
    match readEntitlementIntent store row.id with
    | none => .fail
    | some intent =>
      if calls.unreadable then .fail
      else if intent.fingerprint = "" then .fail
      else fingerprintFor intent calls.answer

def dispatchEntitlement (maxRetries : Nat) (calls : AddonCalls) (row : OutboxRow) (store : Store)
    (res : DrainResult) : Store × DrainResult :=
  let meanwhile := endInStore row.id calls.ended store
  let lands := !calls.settleFails
  match prepareRow store row calls with
  | .leave => (meanwhile, tally res .errored)
  | .fail =>
    let settled := settleRow meanwhile row.id .failed lands res
    (settled.1, settled.2.1)
  | .send _ _ =>
    match settleFor maxRetries row calls.resp calls.wait with
    | none => (meanwhile, tally res .errored)
    | some how =>
      let settled := settleRow meanwhile row.id how lands res
      (settled.1, if settled.2.2 && exhausts maxRetries row calls.resp then
          { settled.2.1 with exhausted := settled.2.1.exhausted + 1 }
        else settled.2.1)

def Stands (outbox : Outbox) (row : OutboxRow) (status : Status) : Prop :=
  (rowOf outbox row.id).map (fun found => found.status) = some status

def ClaimableLater (outbox : Outbox) (row : OutboxRow) : Prop :=
  ∀ setting : Setting, row.target ∈ setting.activeTargets →
    ∃ found ∈ outbox.rows, found.id = row.id ∧ claimable setting row.target found = true

def Left (row : OutboxRow) (ended : Option Ending) (after : Outbox) : Counted → Prop
  | .applied => Stands after row .applied
  | .failed _ => Stands after row .failed
  | .requeued => Stands after row .pending
  | .errored =>
    match ended with
    | none => Stands after row .inFlight ∧ ClaimableLater after row
    | some how => Stands after row how.status
  | .abandoned => ∃ how, ended = some how ∧ Stands after row how.status

def Accounted (row : OutboxRow) (ended : Option Ending) (after : Outbox) (res next : DrainResult) :
    Prop :=
  ∃ counted, next = tally res counted ∧ Left row ended after counted

def ReconciledFirst (row : OutboxRow) (before after : List Effect) : Prop :=
  ∃ earlier, after = before ++ earlier ++ [.settled .applied] ∧
    (takesAway row = true → Effect.reconciled ∈ earlier)

section Rows

variable {outbox : Outbox} {row : OutboxRow}

private theorem rowOf_of_mem (mem : row ∈ outbox.rows) : rowOf outbox row.id = some row := by
  unfold rowOf
  cases found : outbox.rows.find? fun other => other.id = row.id with
  | none => exact absurd (decide_eq_true rfl) (find?_eq_none.mp found row mem)
  | some other =>
    have same : other.id = row.id := by simpa using find?_some found
    rw [outbox.eq_of_id_eq (mem_of_find?_eq_some found) mem same]

private theorem rowOf_update {change : OutboxRow → Delivery} {id : Nat} :
    rowOf (outbox.update change) id =
      (rowOf outbox id).map fun found => found.withDelivery (change found) := by
  unfold rowOf
  rw [Outbox.rows_update,find?_map]
  rfl

variable {found : OutboxRow}

private theorem stands_of_rowOf (there : rowOf outbox row.id = some found) :
    Stands outbox row found.status := by
  unfold Stands
  rw [there]
  rfl

private theorem claimableLater_of_rowOf (there : rowOf outbox row.id = some row)
    (claimed : row.status = .inFlight) : ClaimableLater outbox row := by
  intro _ active
  refine ⟨row,mem_of_find?_eq_some there,rfl,?_⟩
  have unresolved : row.Unresolved := .inr claimed
  simp [claimable,unresolved,active]

def endedRow (row : OutboxRow) : Option Ending → OutboxRow
  | none => row
  | some how => row.withDelivery { row.toDelivery with status := how.status }

private theorem rowOf_endElsewhere (there : rowOf outbox row.id = some row)
    (claimed : row.status = .inFlight)
    (ended : Option Ending) :
    rowOf (endElsewhere row.id ended outbox) row.id = some (endedRow row ended) := by
  cases ended with
  | none => exact there
  | some =>
    have unresolved : row.Unresolved := .inr claimed
    unfold endElsewhere
    rw [rowOf_update,there]
    simp [unresolved,endedRow]

private theorem left_errored (there : rowOf outbox row.id = some row)
    (claimed : row.status = .inFlight)
    {ended : Option Ending} : Left row ended (endElsewhere row.id ended outbox) .errored := by
  have left := rowOf_endElsewhere there claimed ended
  cases ended with
  | none => exact ⟨claimed ▸ stands_of_rowOf left,claimableLater_of_rowOf left claimed⟩
  | some => exact stands_of_rowOf left

private theorem settleOne_rowOf {id : Nat} (there : rowOf outbox id = some found)
    (change : OutboxRow → Delivery) :
    (found.status = .inFlight ∧ ∃ after, settleOne outbox id change = some after ∧
        rowOf after id = some (found.withDelivery (change found))) ∨
      (found.status ≠ .inFlight ∧ settleOne outbox id change = none) := by
  have named : found.id = id := by simpa using find?_some there
  by_cases claimed : found.status = .inFlight
  · have some : (outbox.rows.any fun other => other.id = id && other.status = .inFlight) = true :=
      any_eq_true.mpr ⟨found,mem_of_find?_eq_some there,by simp [named,claimed]⟩
    refine .inl ⟨claimed,_,if_pos some,?_⟩
    rw [rowOf_update,there,map_some,if_pos ⟨named,claimed⟩]
  refine .inr ⟨claimed,if_neg fun some => ?_⟩
  obtain ⟨_,mem,same⟩ := any_eq_true.mp some
  simp only [Bool.and_eq_true,decide_eq_true_eq] at same
  have equal := outbox.eq_of_id_eq mem (mem_of_find?_eq_some there)
    (same.1.trans named.symm)
  exact claimed (equal ▸ same.2)

private theorem settleOne_ended (there : rowOf outbox row.id = some row)
    (claimed : row.status = .inFlight)
    (ended : Option Ending) (change : OutboxRow → Delivery) :
    (∃ after, settleOne (endElsewhere row.id ended outbox) row.id change = some after ∧
        Stands after row (change row).status) ∨
      (settleOne (endElsewhere row.id ended outbox) row.id change = none ∧
        Left row ended (endElsewhere row.id ended outbox) .abandoned) := by
  have left := rowOf_endElsewhere there claimed ended
  cases ended with
  | none =>
    rcases settleOne_rowOf left change with ⟨_,after,settled,found⟩ | ⟨other,_⟩
    · exact .inl ⟨after,settled,stands_of_rowOf found⟩
    · exact absurd claimed other
  | some how =>
    rcases settleOne_rowOf left change with ⟨impossible,_⟩ | ⟨_,none⟩
    · cases how <;> cases impossible
    · exact .inr ⟨none,how,rfl,stands_of_rowOf left⟩

end Rows

section Zitadel

variable {state : DrainState} {faults : Faults} {row : OutboxRow}

private theorem persistErr_accounted (there : rowOf state.outbox row.id = some row)
    (claimed : row.status = .inFlight) :
    Accounted row faults.ended (state.persistErr faults row).outbox state.res
      (state.persistErr faults row).res :=
  ⟨.errored,rfl,left_errored there claimed⟩

variable {change : OutboxRow → Delivery}

private theorem settle_accounted (faults : Faults) (there : rowOf state.outbox row.id = some row)
    (claimed : row.status = .inFlight) (write : Outbox → Option Outbox)
    (settles : ∀ outbox, write outbox = settleOne outbox row.id change)
    (status : Status) (counted : Counted)
    (tells : ∀ outbox, Stands outbox row (change row).status → Left row faults.ended outbox counted)
    (refused : List (Nat × String)) :
    Accounted row faults.ended (state.settle faults row write status counted refused).outbox state.res
        (state.settle faults row write status counted refused).res ∧
      ((state.settle faults row write status counted refused).res.applied = state.res.applied + 1 →
        counted = .applied ∧ (state.settle faults row write status counted refused).trace =
            state.trace ++ [.settled status]) := by
  unfold DrainState.settle
  by_cases fails : faults.settleFails = true
  · rw [if_pos fails]
    exact ⟨persistErr_accounted there claimed,fun impossible => by
      simp [DrainState.persistErr,tally] at impossible⟩
  rw [if_neg fails]
  dsimp only
  rw [settles]
  rcases settleOne_ended there claimed faults.ended change with ⟨after,settled,stands⟩ | ⟨none,left⟩
  · rw [settled]
    refine ⟨⟨counted,rfl,tells after stands⟩,fun moved => ⟨?_,rfl⟩⟩
    cases counted with
    | applied => rfl
    | failed | requeued | errored | abandoned => simp [tally] at moved
  · rw [none]
    exact ⟨⟨.abandoned,rfl,left⟩,fun impossible => by simp [tally] at impossible⟩

def Settled (faults : Faults) (row : OutboxRow) (state after : DrainState) : Prop :=
  Accounted row faults.ended after.outbox state.res after.res ∧
    (after.res.applied = state.res.applied + 1 → ReconciledFirst row state.trace after.trace)

private theorem applyRow_settled (there : rowOf state.outbox row.id = some row)
    (claimed : row.status = .inFlight) : Settled faults row state (applyRow faults row state) := by
  have unapplied : ∀ {here : DrainState}, here.res = state.res →
      (here.persistErr faults row).res.applied ≠ state.res.applied + 1 := by
    intro _ same
    simp [DrainState.persistErr,tally,same]
  have outbox : (remember faults row (reconcile row state)).outbox = state.outbox := by
    unfold reconcile
    split <;> rfl
  have res : (remember faults row (reconcile row state)).res = state.res := by
    unfold reconcile
    split <;> rfl
  unfold applyRow
  by_cases fails : (takesAway row && faults.reconcileFails) = true
  · rw [if_pos fails]
    exact ⟨persistErr_accounted there claimed,fun counted => absurd counted (unapplied rfl)⟩
  rw [if_neg fails]
  rw [← outbox] at there
  by_cases forgets : (takesAway row && faults.forgetFails) = true
  · rw [if_pos forgets]
    unfold Settled
    rw [← res]
    exact ⟨persistErr_accounted there claimed,fun counted =>
      absurd (res ▸ counted) (unapplied res)⟩
  · rw [if_neg forgets]
    obtain ⟨accounted,traced⟩ := settle_accounted faults there claimed
      (fun outbox => markPropagationApplied outbox row.id) (fun outbox => rfl) .applied .applied
      (fun outbox stands => stands) []
    rw [res] at accounted traced
    refine ⟨accounted,fun counted => ?_⟩
    rw [(traced counted).2]
    unfold remember reconcile
    split
    · exact ⟨[.reconciled],rfl,fun _ => mem_singleton.mpr rfl⟩
    · next keeps => exact ⟨[],by simp,fun takes => absurd takes keeps⟩

private theorem settle_settled (faults : Faults) (there : rowOf state.outbox row.id = some row)
    (claimed : row.status = .inFlight) (write : Outbox → Option Outbox)
    (settles : ∀ outbox, write outbox = settleOne outbox row.id change)
    (status : Status) (counted : Counted) (other : counted ≠ .applied)
    (tells : ∀ outbox, Stands outbox row (change row).status → Left row faults.ended outbox counted)
    (refused : List (Nat × String)) :
    Settled faults row state (state.settle faults row write status counted refused) := by
  obtain ⟨accounted,moved⟩ :=
    settle_accounted faults there claimed write settles status counted tells refused
  exact ⟨accounted,fun applied => absurd (moved applied).1 other⟩

private theorem processRow_settled (maxRetries : Nat) (wire : Wire) (faults : Faults)
    (there : rowOf state.outbox row.id = some row) (claimed : row.status = .inFlight) :
    Settled faults row state (processRow maxRetries wire faults row state) := by
  unfold processRow
  by_cases exists_ : (alreadyExists wire row state.line).2 = true
  · rw [if_pos exists_]
    exact applyRow_settled there claimed
  rw [if_neg exists_]
  generalize classifyDispatch wire row (alreadyExists wire row state.line).1 = called
  obtain ⟨line,ack,errMsg⟩ := called
  have found : rowOf ({ state with line := line } : DrainState).outbox row.id = some row := there
  cases ack with
  | applied => exact applyRow_settled there claimed
  | failed =>
    exact settle_settled faults found claimed
      (fun outbox => markPropagationRefused outbox row.id (refusalCause errMsg))
      (fun outbox => rfl) .failed (.failed false) (by decide) (fun outbox stands => stands)
      [(row.id, refusalCause errMsg)]
  | transient =>
    split
    · exact settle_settled faults found claimed
        (fun outbox => markPropagationFailed outbox row.id) (fun outbox => rfl) .failed
        (.failed true) (by decide) (fun outbox stands => stands) []
    · exact settle_settled faults found claimed
        (fun outbox => requeuePropagation outbox row.id faults.now faults.wait)
        (fun outbox => rfl) .pending .requeued (by decide) (fun outbox stands => stands) []

end Zitadel

section Addon

variable {store : Store} {row : OutboxRow} {res : DrainResult}

variable {ended : Option Ending} {maxRetries : Nat}

private theorem outbox_endInStore {id : Nat} :
    (endInStore id ended store).outbox = endElsewhere id ended store.outbox := by
  cases ended <;> rfl

def settling (store : Store) : Settle → OutboxRow → Delivery
  | .applied, row => { row.toDelivery with status := .applied }
  | .failed, row => { row.toDelivery with status := .failed }
  | .requeued wait, row =>
    { row.toDelivery with
      status := .pending
      attempts := row.attempts + 1
      notBefore := some (store.setting.now + wait) }
  | .released, row => { row.toDelivery with status := .pending }

private theorem settle_outbox (store : Store) (id : Nat) (how : Settle) :
    (store.settle id how).map Store.outbox = settleOne store.outbox id (settling store how) := by
  cases how with
  | applied | failed | requeued => exact (Option.map_map ..).trans (congrFun Option.map_id _)
  | released => exact (Option.map_map ..).trans (congrFun Option.map_id _)

def countedAs (exhausted : Bool) : Settle → Counted
  | .applied => .applied
  | .failed => .failed exhausted
  | .requeued _ => .requeued
  | .released => .requeued

private theorem left_countedAs {outbox : Outbox} {how : Settle} {exhausted : Bool}
    (stands : Stands outbox row (settling store how row).status) :
    Left row ended outbox (countedAs exhausted how) := by
  cases how <;> exact stands

private theorem settleRow_accounted (res : DrainResult)
    (there : rowOf store.outbox row.id = some row)
    (claimed : row.status = .inFlight) (ended : Option Ending) (how : Settle)
    (lands exhausts : Bool)
    (only : exhausts = true → how = .failed) :
    let settled := settleRow (endInStore row.id ended store) row.id how lands res
    Accounted row ended settled.1.outbox res
      (if settled.2.2 && exhausts then
        { settled.2.1 with exhausted := settled.2.1.exhausted + 1 }
      else settled.2.1) := by
  have settles := settle_outbox (endInStore row.id ended store) row.id how
  rw [outbox_endInStore] at settles
  unfold settleRow
  cases lands with
  | false =>
    refine ⟨.errored,rfl,?_⟩
    simp only [Bool.false_eq_true,if_false]
    rw [outbox_endInStore]
    exact left_errored there claimed
  | true =>
    simp only [if_true]
    rcases settleOne_ended there claimed ended (settling (endInStore row.id ended store) how) with
      ⟨after,settled,stands⟩ | ⟨none,left⟩
    · rw [settled] at settles
      obtain ⟨_,written,same⟩ := map_eq_some_iff.mp settles
      rw [written]
      refine ⟨countedAs exhausts how,?_,same ▸ left_countedAs stands⟩
      cases exhausts with
      | false => cases how <;> rfl
      | true =>
        cases only rfl
        rfl
    · rw [none] at settles
      rw [map_eq_none_iff.mp settles]
      refine ⟨.abandoned,rfl,?_⟩
      rw [outbox_endInStore]
      exact left

private theorem settleFor_exhausted {resp : ApplyResponse} {wait : Time}
    (spent : exhausts maxRetries row resp = true) :
    settleFor maxRetries row resp wait = some .failed := by
  unfold exhausts at spent
  simp only [Bool.and_eq_true,Bool.not_eq_true',decide_eq_true_eq] at spent
  obtain ⟨⟨unreached,accepts⟩,budget⟩ := spent
  simp [settleFor,unreached,accepts,budget]

private theorem dispatchEntitlement_accounted {calls : AddonCalls}
    (there : rowOf store.outbox row.id = some row) (claimed : row.status = .inFlight) :
    Accounted row calls.ended (dispatchEntitlement maxRetries calls row store res).1.outbox res
      (dispatchEntitlement maxRetries calls row store res).2 := by
  have unsettled : Accounted row calls.ended (endInStore row.id calls.ended store).outbox res
      (tally res .errored) := by
    refine ⟨.errored,rfl,?_⟩
    rw [outbox_endInStore]
    exact left_errored there claimed
  unfold dispatchEntitlement
  cases prepareRow store row calls with
  | leave => exact unsettled
  | fail =>
    have accounted := settleRow_accounted res there claimed calls.ended .failed
      (!calls.settleFails) false nofun
    simpa only [Bool.and_false,Bool.false_eq_true,if_false] using accounted
  | send =>
    cases how : settleFor maxRetries row calls.resp calls.wait with
    | none => exact unsettled
    | some settle =>
      refine settleRow_accounted res there claimed calls.ended settle (!calls.settleFails)
        (exhausts maxRetries row calls.resp) (fun spent => ?_)
      exact some.inj (how.symm.trans (settleFor_exhausted spent))

end Addon

/-- Each dispatcher moves one counter for a claimed row, and an exhausted row is a failed one.
An applied row is marked so, after its ledger. A row that is not counted applied, failed or
requeued is in flight, unless it was ended elsewhere. -/
theorem one_row_one_outcome :
    (∀ (maxRetries : Nat) (wire : Wire) (faults : Faults) (row : OutboxRow) (state : DrainState),
      row ∈ state.outbox.rows → row.status = .inFlight →
        Settled faults row state (processRow maxRetries wire faults row state)) ∧
    ∀ (maxRetries : Nat) (calls : AddonCalls) (row : OutboxRow) (store : Store) (res : DrainResult),
      row ∈ store.outbox.rows → row.status = .inFlight →
        Accounted row calls.ended (dispatchEntitlement maxRetries calls row store res).1.outbox res
          (dispatchEntitlement maxRetries calls row store res).2 :=
  ⟨fun maxRetries wire faults _ _ mem claimed =>
      processRow_settled maxRetries wire faults (rowOf_of_mem mem) claimed,
    fun _ _ _ _ _ mem claimed =>
      dispatchEntitlement_accounted (rowOf_of_mem mem) claimed⟩

namespace Deregistered

variable (target : String) (opType : OpType) (projectId : String) (roleKeys : List String)

def row : OutboxRow :=
  { target := target, opType := opType, userId := "ada", projectId := projectId
    roleKeys := roleKeys, source := .direct, sourceRef := "", withdrawsOnly := false
    status := .inFlight, attempts := 0, waitReason := none, notBefore := none, id := 1, intentSeq := 1 }

def outbox : Outbox :=
  { rows := [row target opType projectId roleKeys]
    nextSeq := 2
    ordered := pairwise_singleton _ _
    idsDistinct := nodup_singleton _
    numbered := by
      intro other member
      cases mem_singleton.mp member
      exact ⟨Nat.one_pos,Nat.one_lt_two,Nat.one_lt_two⟩
    started := Nat.two_pos }

def store : Store :=
  { setting := { activeTargets := ["nas",zitadelTarget], roleWaits := [], now := 0 }
    disabledTargets := []
    snapshots :=
      [{ id := 1, subjectId := "ada", target := "nas", version := 1
         stateJson := [("locked", "true")], createdBy := "op" }]
    plans :=
      [{ id := 1, target := "nas", surface := "entitlements", createdBy := "op", createdAt := 0
         expiresAt := none, provisional := false, stateReadAt := some 0, appliedAt := some 0
         requestFingerprint := "request" }]
    planSubjects :=
      [{ id := 1, planId := 1, subjectId := "ada", snapshotId := some 1, fingerprint := "state"
         effect := .apply }]
    outbox := outbox "nas" .apply "" []
    planSubjectId := fun _ => some 1
    completedAt := fun _ => none
    nextId := 2 }

def lost (ended : Option Ending) : AddonCalls :=
  { readFails := false
    unreadable := false
    answer := ⟨false,[],false,false⟩
    resp := ⟨.indeterminate,false,false⟩
    settleFails := false
    ended := ended
    wait := 60 }

def idle : DrainState :=
  { line := { server := Twice.lab, sent := 0 }
    outbox := outbox zitadelTarget .revoke "lab" ["member"]
    records := .empty
    landed := ∅
    res := .zero
    refused := []
    trace := [] }

def unreconciled : Faults :=
  { reconcileFails := true, saveFails := fun _ => false, forgetFails := false
    settleFails := false, ended := none, now := 0, wait := 60 }

theorem one_row_one_outcome_claimed :
    let revoke := row zitadelTarget .revoke "lab" ["member"]
    let apply := row "nas" .apply "" []
    (processRow 5 clearWire unreconciled revoke idle).res = tally .zero .errored ∧
      Settled unreconciled revoke idle (processRow 5 clearWire unreconciled revoke idle) ∧
      Accounted apply none (dispatchEntitlement 5 (lost none) apply store .zero).1.outbox .zero
        (dispatchEntitlement 5 (lost none) apply store .zero).2 :=
  ⟨by decide +kernel,
    one_row_one_outcome.1 5 clearWire unreconciled _ idle (mem_singleton.mpr rfl) rfl,
    one_row_one_outcome.2 5 (lost none) _ store .zero (mem_singleton.mpr rfl) rfl⟩

/-- The target was deregistered while the answer was lost: the row is counted errored and
nothing else, and it is not in flight. -/
theorem errored_row_ended :
    let after := dispatchEntitlement 5 (lost (some .abandoned)) (row "nas" .apply "" []) store
      .zero
    after.2 = tally .zero .errored ∧
      (rowOf after.1.outbox 1).map (fun found => found.status) = some .abandoned := by
  decide +kernel

end Deregistered

end Syndra.Drain
