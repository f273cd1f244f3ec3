/-
The retry budget.

Drains hold one lock, claim rows and settle each by the attempt count the claim read. Beside
them rows are written, stamped, cancelled, superseded, abandoned and scheduled by sends that
halted.
-/

import Syndra.Foundation.Runs
import Syndra.Propagation.Withdraw

namespace Syndra.Propagation

open Access Foundation.Runs List

def Status.Terminal (status : Status) : Prop := status ≠ .pending ∧ status ≠ .inFlight

def terminateSuperseded (target : String) (overtaken : OutboxRow → Bool) (outbox : Outbox) :
    Outbox :=
  outbox.update fun row =>
    if row.target = target ∧ row.Unresolved ∧ overtaken row then
      { row.toDelivery with status := .superseded }
    else row.toDelivery

def abandonQueuedWork (target : String) (outbox : Outbox) : Outbox :=
  outbox.update fun row =>
    if row.target = target ∧ row.Unresolved then { row.toDelivery with status := .abandoned }
    else row.toDelivery

def setWaitReason (ids : List Nat) (reason : WaitReason) (outbox : Outbox) : Outbox :=
  outbox.update fun row =>
    if row.id ∈ ids ∧ row.status = .pending then { row.toDelivery with waitReason := some reason }
    else row.toDelivery

inductive Reply where
  | applied
  | refused (cause : String)
  | failed
  | transient (wait : Time)
  | released
  | unsettled

/-- What a drain writes for the row it was handed; a row that ended meanwhile is left. -/
def settleReply (maxRetries : Nat) (now : Time) (outbox : Outbox) (row : OutboxRow) (reply : Reply) :
    Outbox :=
  match reply with
  | .applied => (markPropagationApplied outbox row.id).getD outbox
  | .refused cause => (markPropagationRefused outbox row.id cause).getD outbox
  | .failed => (markPropagationFailed outbox row.id).getD outbox
  | .transient wait =>
    if maxRetries ≤ row.attempts then (markPropagationFailed outbox row.id).getD outbox
    else (requeuePropagation outbox row.id now wait).getD outbox
  | .released => (releasePropagation outbox row.id).getD outbox
  | .unsettled => outbox

structure RetryState where
  outbox : Outbox
  setting : Setting
  session : List OutboxRow

inductive RetryMove where
  | insert (intent : Intent) (waitReason : Option WaitReason)
  | write (gate : Option CancelGate) (named : Bool) (p : EnqueueParams)
  | stamp (ids : List Nat) (reason : WaitReason)
  | supersede (target : String) (overtaken : OutboxRow → Bool)
  | abandon (target : String)
  | haltSend (ids : List Nat) (wait : Time)
  | claim (kind : ClaimKind) (target : String)
  | settle (reply : Reply)
  | leave
  | environment (setting : Setting)

def retryStep (maxRetries : Nat) (state : RetryState) : RetryMove → Option RetryState
  | .insert intent waitReason =>
    some { state with outbox := state.outbox.insert intent waitReason }
  | .write gate named p =>
    match enqueueRow gate named state.outbox p with
    | .ok (after, _) => some { state with outbox := after }
    | .error _ => none
  | .stamp ids reason => some { state with outbox := setWaitReason ids reason state.outbox }
  | .supersede target overtaken =>
    some { state with outbox := terminateSuperseded target overtaken state.outbox }
  | .abandon target => some { state with outbox := abandonQueuedWork target state.outbox }
  | .haltSend ids wait =>
    some { state with outbox := scheduleRetry state.outbox ids state.setting.now wait }
  | .claim kind target =>
    if kind.fits state.session then
      let rows := kind.rows state.setting target state.outbox
      some { state with
        outbox := state.outbox.claim (rows.map OutboxRow.id)
        session := state.session ++ rows }
    else none
  | .settle reply =>
    match state.session with
    | [] => none
    | row :: rest =>
      some { state with
        outbox := settleReply maxRetries state.setting.now state.outbox row reply
        session := rest }
  | .leave => some { state with session := [] }
  | .environment setting => some { state with setting := setting }

inductive Turn (maxRetries : Nat) (settled : Option Nat) (row : OutboxRow) : Delivery → Prop
  | same : Turn maxRetries settled row row.toDelivery
  | stamped (pending : row.status = .pending) (reason : Option WaitReason) :
      Turn maxRetries settled row { row.toDelivery with waitReason := reason }
  | claimed (unresolved : row.Unresolved) :
      Turn maxRetries settled row { row.toDelivery with status := .inFlight }
  | ended (unresolved : row.Unresolved) (status : Status) (terminal : status.Terminal)
      (reason : Option WaitReason) :
      Turn maxRetries settled row { row.toDelivery with status := status, waitReason := reason }
  | released (flying : row.status = .inFlight) (own : settled = some row.id) :
      Turn maxRetries settled row { row.toDelivery with status := .pending }
  | requeued (flying : row.status = .inFlight) (own : settled = some row.id)
      (left : row.attempts < maxRetries) (due : Time) :
      Turn maxRetries settled row
        { row.toDelivery with
          status := .pending, attempts := row.attempts + 1, notBefore := some due }
  | scheduled (pending : row.status = .pending) (unscheduled : row.notBefore = none)
      (reason : Option WaitReason) (due : Time) :
      Turn maxRetries settled row
        { status := .pending, attempts := row.attempts + 1, waitReason := reason
          notBefore := some due }

def Delivery.Budgeted (maxRetries : Nat) (delivery : Delivery) : Prop :=
  (0 < delivery.attempts ↔ delivery.notBefore.isSome = true) ∧ delivery.attempts ≤ maxRetries

section Turns

variable {maxRetries : Nat} {settled : Option Nat} {row : OutboxRow} {delivery : Delivery}

theorem Turn.budgeted (turn : Turn maxRetries settled row delivery) (positive : 1 ≤ maxRetries)
    (budgeted : row.Budgeted maxRetries) : delivery.Budgeted maxRetries := by
  cases turn with
  | same | stamped | claimed | ended | released => exact budgeted
  | requeued _ _ left => exact ⟨by simp,left⟩
  | scheduled _ unscheduled _ due =>
    have untried : row.attempts = 0 := by
      by_contra tried
      have due := budgeted.1.mp (Nat.pos_of_ne_zero tried)
      rw [unscheduled] at due
      cases due
    refine ⟨by simp,?_⟩
    change row.attempts + 1 ≤ maxRetries
    omega

theorem not_terminal_of_unresolved (unresolved : row.Unresolved) : ¬row.status.Terminal := by
  rintro ⟨notPending,notFlying⟩
  rcases unresolved with pending | flying
  · exact notPending pending
  · exact notFlying flying

theorem Turn.terminal (turn : Turn maxRetries settled row delivery)
    (terminal : row.status.Terminal) :
    delivery.status = row.status := by
  cases turn with
  | same | stamped => rfl
  | claimed unresolved => exact absurd terminal (not_terminal_of_unresolved unresolved)
  | ended unresolved => exact absurd terminal (not_terminal_of_unresolved unresolved)
  | released flying => exact absurd flying terminal.2
  | requeued flying => exact absurd flying terminal.2
  | scheduled pending => exact absurd pending terminal.1

theorem Turn.held (turn : Turn maxRetries settled row delivery) (held : row.status ≠ .pending)
    (other : settled ≠ some row.id) :
    delivery.status ≠ .pending ∧
      (delivery.status = .inFlight → row.status = .inFlight ∧ delivery.attempts = row.attempts) := by
  cases turn with
  | same => exact ⟨held,fun flying => ⟨flying,rfl⟩⟩
  | stamped pending => exact absurd pending held
  | claimed unresolved => exact ⟨by simp,fun _ => ⟨unresolved.resolve_left held,rfl⟩⟩
  | ended _ _ terminal => exact ⟨terminal.1,fun flying => absurd flying terminal.2⟩
  | released _ own => exact absurd own other
  | requeued _ own => exact absurd own other
  | scheduled pending => exact absurd pending held

end Turns

structure Turned (maxRetries : Nat) (settled : Option Nat) (before after : Outbox) : Prop where
  kept : ∀ old ∈ before.rows, ∃ delivery, old.withDelivery delivery ∈ after.rows ∧
    Turn maxRetries settled old delivery
  came : ∀ row ∈ after.rows, (row.attempts = 0 ∧ row.notBefore = none) ∨
    ∃ old ∈ before.rows, ∃ delivery, row = old.withDelivery delivery ∧
      Turn maxRetries settled old delivery

section Tables

variable {maxRetries : Nat} {settled : Option Nat} {outbox after : Outbox}

variable {change : OutboxRow → Delivery}

theorem turned_update (turns : ∀ row ∈ outbox.rows, Turn maxRetries settled row (change row)) :
    Turned maxRetries settled outbox (outbox.update change) := by
  refine ⟨fun old mem => ?_,fun row mem => .inr ?_⟩
  · exact ⟨_,outbox.mem_update_of_mem change mem,turns old mem⟩
  · obtain ⟨old,present,rfl⟩ := (outbox.mem_update change row).mp mem
    exact ⟨old,present,_,rfl,turns old present⟩

theorem Turned.refl (outbox : Outbox) : Turned maxRetries settled outbox outbox :=
  ⟨fun old mem => ⟨old.toDelivery,mem,.same⟩,
    fun row mem => .inr ⟨row,mem,row.toDelivery,rfl,.same⟩⟩

theorem Turned.insert (turned : Turned maxRetries settled outbox after) (intent : Intent)
    (waitReason : Option WaitReason) :
    Turned maxRetries settled outbox (after.insert intent waitReason) := by
  refine ⟨fun old mem => ?_,fun row mem => ?_⟩
  · obtain ⟨delivery,present,turn⟩ := turned.kept old mem
    exact ⟨delivery,(after.mem_insert intent waitReason _).mpr (.inl present),turn⟩
  rcases (after.mem_insert intent waitReason row).mp mem with present | rfl
  · exact turned.came row present
  · exact .inl ⟨rfl,rfl⟩

theorem turned_ended {chosen : OutboxRow → Prop} [DecidablePred chosen] {status : Status}
    (terminal : status.Terminal) (unresolved : ∀ row ∈ outbox.rows, chosen row → row.Unresolved) :
    Turned maxRetries settled outbox (outbox.update fun row =>
      if chosen row then { row.toDelivery with status := status } else row.toDelivery) := by
  refine turned_update fun row mem => ?_
  split
  · next picked => exact .ended (unresolved row mem picked) status terminal row.waitReason
  · exact .same

theorem turned_enqueueRow {gate : Option CancelGate} {named : Bool} {p : EnqueueParams}
    {id : Option Nat} (written : enqueueRow gate named outbox p = .ok (after, id)) :
    Turned maxRetries settled outbox after := by
  obtain ⟨middle,_,withdrawn,outcome⟩ := enqueueRow_ok written
  have cancelled : Turned maxRetries settled outbox middle := by
    rcases withdrawUndelivered_ok withdrawn with ⟨same,_⟩ | ⟨_,_,_,superseded,_⟩
    · rw [same]
      exact Turned.refl outbox
    rw [superseded]
    refine turned_ended ⟨by decide,by decide⟩ fun row mem listed => .inl ?_
    exact pending_of_candidate ((mem_answered_ids mem).mp listed).1
  rcases outcome with ⟨_,same,_⟩ | ⟨_,_,_,same,_⟩ | ⟨_,inserted,_⟩
  · rw [same]
    exact cancelled
  · rw [same]
    exact cancelled
  · rw [inserted]
    exact cancelled.insert p.intent p.waitReason

theorem turned_settleOne {id : Nat}
    (turns : ∀ row ∈ outbox.rows, row.id = id → row.status = .inFlight →
      Turn maxRetries (some id) row (change row)) :
    Turned maxRetries (some id) outbox ((settleOne outbox id change).getD outbox) := by
  cases settled : settleOne outbox id change with
  | none => exact Turned.refl outbox
  | some =>
    obtain ⟨-,rfl⟩ := settleOne_eq_some settled
    refine turned_update fun row mem => ?_
    split
    · next flying => exact turns row mem flying.1 flying.2
    · exact .same

theorem turned_settleReply {row : OutboxRow} {now : Time} {reply : Reply}
    (read : ∀ held ∈ outbox.rows, held.id = row.id → held.status = .inFlight →
      held.attempts = row.attempts) :
    Turned maxRetries (some row.id) outbox (settleReply maxRetries now outbox row reply) := by
  have failed : Turned maxRetries (some row.id) outbox ((markPropagationFailed outbox row.id).getD outbox) :=
    turned_settleOne fun held _ _ flying =>
      .ended (.inr flying) .failed ⟨by decide,by decide⟩ held.waitReason
  cases reply with
  | applied =>
    exact turned_settleOne fun held _ _ flying =>
      .ended (.inr flying) .applied ⟨by decide,by decide⟩ held.waitReason
  | refused cause =>
    exact turned_settleOne fun held _ _ flying =>
      .ended (.inr flying) .failed ⟨by decide,by decide⟩ (some (.refused cause))
  | failed => exact failed
  | transient =>
    unfold settleReply
    dsimp only
    split
    · exact failed
    rename_i left
    refine turned_settleOne fun held mem same flying =>
      .requeued flying (congrArg some same.symm) ?_ _
    rw [read held mem same flying]
    omega
  | released => exact turned_settleOne fun held _ same flying =>
        .released flying (congrArg some same.symm)
  | unsettled => exact Turned.refl outbox

theorem turned_claimed (claimed : Claimed outbox after) :
    Turned maxRetries settled outbox after := by
  obtain ⟨_,rfl,unresolved⟩ := claimed
  refine turned_update fun row mem => ?_
  split
  · next listed => exact .claimed (unresolved row mem listed)
  · exact .same

end Tables

section Claiming

variable (kind : ClaimKind) (setting : Setting) (target : String) (outbox : Outbox)

theorem ClaimKind.rows_subperm : (kind.rows setting target outbox).Subperm outbox.rows := by
  have ordered (rows : List OutboxRow) : (revocationFirst outbox rows).Perm rows :=
    filter_append_perm _ rows
  cases kind with
  | pending | retries =>
    exact (take_sublist _ _).subperm.trans
      ((ordered _).subperm.trans filter_sublist.subperm)
  | revocations =>
    exact (take_sublist _ _).subperm.trans filter_sublist.subperm
  | byId => exact filter_sublist.subperm

theorem ClaimKind.rows_nodup : ((kind.rows setting target outbox).map OutboxRow.id).Nodup := by
  obtain ⟨_,perm,sublist⟩ := kind.rows_subperm setting target outbox
  exact (perm.map _).nodup_iff.mp (outbox.idsDistinct.sublist (sublist.map _))

end Claiming

/-- What a drain has in hand is in flight at the count it read, or ended. -/
structure InHand (outbox : Outbox) (taken : OutboxRow) (row : OutboxRow) : Prop where
  member : row ∈ outbox.rows
  id : row.id = taken.id
  intent : row.toIntent = taken.toIntent
  held : row.status ≠ .pending
  read : row.status = .inFlight → row.attempts = taken.attempts

structure RetryInvariant (maxRetries : Nat) (state : RetryState) : Prop where
  budgeted : ∀ row ∈ state.outbox.rows, row.Budgeted maxRetries
  distinct : (state.session.map OutboxRow.id).Nodup
  inHand : ∀ taken ∈ state.session, ∃ row, InHand state.outbox taken row

section Invariants

variable {maxRetries : Nat} {state next : RetryState} {settled : Option Nat} {after : Outbox}

variable {row : OutboxRow}

variable {outbox : Outbox}

theorem InHand.turned {taken : OutboxRow} (inHand : InHand outbox taken row)
    (turned : Turned maxRetries settled outbox after) (other : settled ≠ some taken.id) :
    ∃ row, InHand after taken row := by
  obtain ⟨_,present,turn⟩ := turned.kept row inHand.member
  obtain ⟨held,read⟩ := turn.held inHand.held (inHand.id ▸ other)
  exact ⟨_,present,inHand.id,inHand.intent,held,fun flying =>
    (read flying).2.trans (inHand.read (read flying).1)⟩

theorem Turned.budgeted (turned : Turned maxRetries settled outbox after)
    (positive : 1 ≤ maxRetries) (budgeted : ∀ row ∈ outbox.rows, row.Budgeted maxRetries) :
    ∀ row ∈ after.rows, row.Budgeted maxRetries := by
  intro row mem
  rcases turned.came row mem with ⟨untried,unscheduled⟩ | ⟨old,present,_,rfl,turn⟩
  · unfold Delivery.Budgeted
    rw [untried,unscheduled]
    exact ⟨by simp,Nat.zero_le _⟩
  · exact turn.budgeted positive (budgeted old present)

section

variable (invariant : RetryInvariant maxRetries state)
include invariant

theorem RetryInvariant.aside
    (positive : 1 ≤ maxRetries) (turned : Turned maxRetries none state.outbox after) :
    RetryInvariant maxRetries { state with outbox := after } where
  budgeted := turned.budgeted positive invariant.budgeted
  distinct := invariant.distinct
  inHand := fun taken mem => by
    obtain ⟨row,inHand⟩ := invariant.inHand taken mem
    exact inHand.turned turned (by simp)

theorem RetryInvariant.claim
    (positive : 1 ≤ maxRetries) {kind : ClaimKind} (fits : kind.fits state.session = true)
    (target : String) :
    RetryInvariant maxRetries
      { state with
        outbox := state.outbox.claim
          ((kind.rows state.setting target state.outbox).map OutboxRow.id)
        session := state.session ++ kind.rows state.setting target state.outbox } := by
  have turned : Turned maxRetries none state.outbox _ :=
    turned_claimed (kind.claimed state.setting target state.outbox)
  have apart : ∀ taken ∈ state.session, ∀ row ∈ kind.rows state.setting target state.outbox,
      taken.id ≠ row.id := by
    intro taken inSession row chosen same
    obtain ⟨present,-⟩ := ClaimKind.rows_open chosen
    obtain ⟨held,inHand⟩ := invariant.inHand taken inSession
    have one : held = row := state.outbox.eq_of_id_eq inHand.member present (inHand.id.trans same)
    cases kind with
    | retries =>
      have withdrawal := all_eq_true.mp fits taken inSession
      have ordered := mem_revocationFirst (mem_of_mem_take chosen)
      have admitted := (mem_filter.mp ordered).2
      simp only [Bool.and_eq_true,Bool.not_eq_true'] at admitted
      have conferring : withdraws row = false := admitted.1.1.1.2
      have intent : row.toIntent = taken.toIntent := one ▸ inHand.intent
      unfold withdraws at withdrawal conferring
      rw [intent,withdrawal] at conferring
      cases conferring
    | pending | revocations | byId =>
      rw [isEmpty_iff.mp fits] at inSession
      cases inSession
  refine ⟨turned.budgeted positive invariant.budgeted,?_,?_⟩
  · rw [map_append,nodup_append]
    refine ⟨invariant.distinct,kind.rows_nodup _ _ _,?_⟩
    intro _ inSession _ chosen same
    obtain ⟨taken,among,rfl⟩ := mem_map.mp inSession
    obtain ⟨row,there,rfl⟩ := mem_map.mp chosen
    exact apart taken among row there same
  · intro taken mem
    rcases mem_append.mp mem with old | chosen
    · obtain ⟨_,inHand⟩ := invariant.inHand taken old
      exact inHand.turned turned (by simp)
    obtain ⟨present,_⟩ := ClaimKind.rows_open chosen
    refine ⟨_,state.outbox.mem_update_of_mem _ present,rfl,rfl,?_,?_⟩
    all_goals simp [mem_map_of_mem chosen]

theorem RetryInvariant.settle_turned
    (inSession : row ∈ state.session) (reply : Reply) :
    Turned maxRetries (some row.id) state.outbox
      (settleReply maxRetries state.setting.now state.outbox row reply) := by
  refine turned_settleReply fun held mem same flying => ?_
  obtain ⟨_,inHand⟩ := invariant.inHand row inSession
  rw [state.outbox.eq_of_id_eq mem inHand.member (same.trans inHand.id.symm)] at flying ⊢
  exact inHand.read flying

theorem RetryInvariant.settle
    (positive : 1 ≤ maxRetries) {rest : List OutboxRow} (session : state.session = row :: rest)
    (reply : Reply) :
    RetryInvariant maxRetries
      { state with
        outbox := settleReply maxRetries state.setting.now state.outbox row reply
        session := rest } := by
  have turned := invariant.settle_turned (session ▸ mem_cons_self) reply
  have distinct := invariant.distinct
  rw [session] at distinct
  obtain ⟨alone,others⟩ := nodup_cons.mp distinct
  refine ⟨turned.budgeted positive invariant.budgeted,others,fun taken mem => ?_⟩
  obtain ⟨_,inHand⟩ := invariant.inHand taken (session ▸ mem_cons_of_mem row mem)
  refine inHand.turned turned fun same => alone ?_
  rw [Option.some.inj same]
  exact mem_map_of_mem mem

end

theorem RetryInvariant.step (positive : 1 ≤ maxRetries) {move : RetryMove}
    (invariant : RetryInvariant maxRetries state)
    (stepped : retryStep maxRetries state move = some next) :
    RetryInvariant maxRetries next ∧
      ∃ settled, Turned maxRetries settled state.outbox next.outbox := by
  have aside {outbox : Outbox} (turned : Turned maxRetries none state.outbox outbox) :
      RetryInvariant maxRetries { state with outbox := outbox } ∧
        ∃ settled, Turned maxRetries settled state.outbox outbox :=
    ⟨invariant.aside positive turned,none,turned⟩
  cases move with
  | insert intent waitReason =>
    cases stepped
    exact aside ((Turned.refl _).insert intent waitReason)
  | write gate named p =>
    simp only [retryStep] at stepped
    cases written : enqueueRow gate named state.outbox p with
    | error =>
      rw [written] at stepped
      cases stepped
    | ok =>
      rw [written] at stepped
      cases stepped
      exact aside (turned_enqueueRow written)
  | stamp _ reason =>
    cases stepped
    refine aside (turned_update fun row _ => ?_)
    split
    · next chosen => exact .stamped chosen.2 (some reason)
    · exact .same
  | supersede =>
    cases stepped
    exact aside (turned_ended ⟨by decide,by decide⟩ fun _ _ chosen => chosen.2.1)
  | abandon =>
    cases stepped
    exact aside (turned_ended ⟨by decide,by decide⟩ fun _ _ chosen => chosen.2)
  | haltSend =>
    cases stepped
    refine aside (turned_update fun row _ => ?_)
    split
    · next chosen => exact .scheduled chosen.2.1 chosen.2.2.1 _ _
    · exact .same
  | claim kind target =>
    simp only [retryStep] at stepped
    split at stepped
    · next fits =>
      cases stepped
      exact ⟨invariant.claim positive fits target,none,
        turned_claimed (kind.claimed state.setting target state.outbox)⟩
    · cases stepped
  | settle reply =>
    simp only [retryStep] at stepped
    split at stepped
    · cases stepped
    rename_i row rest session
    cases stepped
    exact ⟨invariant.settle positive session reply,some row.id,
      invariant.settle_turned (session ▸ mem_cons_self) reply⟩
  | leave =>
    cases stepped
    refine ⟨⟨invariant.budgeted,nodup_nil,?_⟩,none,Turned.refl _⟩
    intro taken mem
    cases mem
  | environment =>
    cases stepped
    exact ⟨⟨invariant.budgeted,invariant.distinct,invariant.inHand⟩,none,Turned.refl _⟩

theorem terminal_of_run (positive : 1 ≤ maxRetries) {moves : List RetryMove} :
    ∀ state next, RetryInvariant maxRetries state →
      run (retryStep maxRetries) state moves = some next →
        ∀ row ∈ state.outbox.rows, row.status.Terminal →
          ∃ later ∈ next.outbox.rows, later.id = row.id ∧ later.status = row.status := by
  induction moves with
  | nil =>
    intro state next _invariant reached row mem _terminal
    cases reached
    exact ⟨row,mem,rfl,rfl⟩
  | cons move _ ih =>
    intro state next invariant reached row mem terminal
    simp only [run] at reached
    cases stepped : retryStep maxRetries state move with
    | none =>
      rw [stepped] at reached
      cases reached
    | some middle =>
      rw [stepped] at reached
      obtain ⟨kept,_,turned⟩ := invariant.step positive stepped
      obtain ⟨delivery,present,turn⟩ := turned.kept row mem
      have same : (row.withDelivery delivery).status = row.status := turn.terminal terminal
      obtain ⟨later,there,sameId,ended⟩ := ih middle next kept reached _ present (same ▸ terminal)
      exact ⟨later,there,sameId,ended.trans same⟩

end Invariants

def RetryState.start (setting : Setting) : RetryState :=
  { outbox := Outbox.empty
    setting := setting
    session := [] }

theorem RetryInvariant.start (maxRetries : Nat) (setting : Setting) :
    RetryInvariant maxRetries (RetryState.start setting) := by
  refine ⟨?_,nodup_nil,?_⟩
  all_goals
    intro _ mem
    cases mem

/-- In every state reached, counts and schedules stand together within the budget; a row that
ended is found so after every further run; and the background claim takes no row stamped to
wait and none that is pending with no try counted. -/
theorem retry_budget_respected (maxRetries : Nat) (positive : 1 ≤ maxRetries) (setting : Setting)
    (moves : List RetryMove) (state : RetryState)
    (reached : run (retryStep maxRetries) (RetryState.start setting) moves = some state) :
    (∀ row ∈ state.outbox.rows,
      (0 < row.attempts ↔ row.notBefore.isSome = true) ∧ row.attempts ≤ maxRetries) ∧
    (∀ further later, run (retryStep maxRetries) state further = some later →
      ∀ row ∈ state.outbox.rows, row.status.Terminal →
        ∃ same ∈ later.outbox.rows, same.id = row.id ∧ same.status = row.status) ∧
    ∀ target limit, ∀ row ∈ retriesClaim state.setting target limit state.outbox,
      row.waitReason ≠ some .roleWaits ∧ row.waitReason ≠ some .manual ∧
        (row.status = .inFlight ∨ 0 < row.attempts) := by
  have invariant : RetryInvariant maxRetries state :=
    run_keeps (RetryInvariant maxRetries)
      (fun kept stepped => (kept.step positive stepped).1)
      (RetryInvariant.start maxRetries setting) reached
  refine ⟨invariant.budgeted,?_,?_⟩
  · intro further later went
    exact terminal_of_run positive state later invariant went
  intro _ _ row chosen
  have ordered := mem_revocationFirst (mem_of_mem_take chosen)
  obtain ⟨mem,admitted⟩ := mem_filter.mp ordered
  simp only [Bool.and_eq_true,Bool.or_eq_true,decide_eq_true_eq] at admitted
  obtain ⟨⟨⟨⟨⟨⟨-,tried⟩,-⟩,-⟩,notRoleWaits⟩,notManual⟩,-⟩ := admitted
  exact ⟨notRoleWaits,notManual,tried.imp_right (invariant.budgeted row mem).1.mpr⟩

namespace Halted

def quiet (now : Time) : Setting :=
  { activeTargets := [zitadelTarget], roleWaits := [], now := now }

def give : Intent :=
  { target := zitadelTarget
    opType := .add
    userId := "ada"
    projectId := "lab"
    roleKeys := ["member"]
    source := .direct
    sourceRef := ""
    withdrawsOnly := false }

def exhausted : List RetryMove :=
  [.insert give none,.claim (.byId 1) zitadelTarget,.settle (.transient 60),
    .claim (.byId 1) zitadelTarget,.settle (.transient 60),
    .claim (.byId 1) zitadelTarget,.settle (.transient 60)]

def spent : RetryState :=
  (run (retryStep 2) (RetryState.start (quiet 0)) exhausted).getD (RetryState.start (quiet 0))

theorem retry_budget_respected_spent :
    (∃ row ∈ spent.outbox.rows, row.status = .failed ∧ row.attempts = 2) ∧
      ∀ row ∈ spent.outbox.rows,
        (0 < row.attempts ↔ row.notBefore.isSome = true) ∧ row.attempts ≤ 2 :=
  ⟨by decide,(retry_budget_respected 2 (by decide) (quiet 0) exhausted spent rfl).1⟩

def unsent : List RetryMove :=
  [.insert give none,.haltSend [1] 60,.environment (quiet 90)]

def due : RetryState :=
  (run (retryStep 5) (RetryState.start (quiet 0)) unsent).getD (RetryState.start (quiet 0))

/-- No drain ever took the row, and the background claim takes it. -/
theorem unsent_row_claimed : run (retryStep 5) (RetryState.start (quiet 0)) unsent = some due ∧
      (∀ kind target reply, .claim kind target ∉ unsent ∧ .settle reply ∉ unsent) ∧
        ∃ row ∈ retriesClaim due.setting zitadelTarget 100 due.outbox, row.id = 1 := by
  refine ⟨rfl,fun kind target reply => ?_,by decide⟩
  simp [unsent]

end Halted

end Syndra.Propagation
