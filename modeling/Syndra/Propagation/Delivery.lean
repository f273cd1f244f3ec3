/-
Delivery against intent order.

The system is the outbox, Zitadel's roles and the setting the claims read.
-/

import Syndra.Foundation.Runs
import Syndra.Propagation.Withdraw

namespace Syndra.Propagation

open Access Foundation.Runs List Option

structure DeliveryState where
  outbox : Outbox
  zitadel : Zitadel
  setting : Setting

inductive Outcome where
  | applied
  | requeued (wait : Time)
  | failed
  | refused (cause : String)
  | released
deriving DecidableEq

inductive Move where
  | write (gate : Option CancelGate) (named : Bool) (p : EnqueueParams)
  | replay (opType : OpType) (userId projectId : String) (roleKeys : List String)
  | sendById (id : Nat)
  | drain (limit : Int)
  | drainRevocations (limit : Int)
  | drainRetries (limit : Int)
  | settle (id : Nat) (outcome : Outcome)
  | haltSend (ids : List Nat) (wait : Time)
  | environment (setting : Setting)
deriving DecidableEq

def dispatched (outbox : Outbox) (id : Nat) : Option OutboxRow :=
  outbox.rows.find? fun row => row.id = id && row.status = .inFlight

def settleOutcome (state : DeliveryState) (id : Nat) : Outcome → Option Outbox
  | .applied => markPropagationApplied state.outbox id
  | .requeued wait => requeuePropagation state.outbox id state.setting.now wait
  | .failed => markPropagationFailed state.outbox id
  | .refused cause => markPropagationRefused state.outbox id cause
  | .released => releasePropagation state.outbox id

/-- Only a dispatch that is counted applied changed Zitadel. -/
def zitadelAfter (state : DeliveryState) (id : Nat) : Outcome → Zitadel
  | .applied =>
    match dispatched state.outbox id with
    | some row => state.zitadel.take row.toIntent
    | none => state.zitadel
  | _ => state.zitadel

def deliver (state : DeliveryState) : Move → Option DeliveryState
  | .write gate named p =>
    match enqueueRow gate named state.outbox p with
    | .ok (after, _) => some { state with outbox := after }
    | .error _ => none
  | .replay opType userId projectId roleKeys =>
    match insertPendingPropagation state.outbox opType userId projectId roleKeys with
    | .ok after => some { state with outbox := after }
    | .error _ => none
  | .sendById id =>
    some { state with
      outbox := claimPropagationById state.setting zitadelTarget id state.outbox }
  | .drain limit =>
    some { state with
      outbox := claimPendingPropagations state.setting zitadelTarget limit state.outbox }
  | .drainRevocations limit =>
    some { state with
      outbox := claimPendingRevocations state.setting zitadelTarget limit state.outbox }
  | .drainRetries limit =>
    some { state with
      outbox := claimDueRetries state.setting zitadelTarget limit state.outbox }
  | .settle id outcome =>
    match settleOutcome state id outcome with
    | some after => some { state with outbox := after, zitadel := zitadelAfter state id outcome }
    | none => none
  | .haltSend ids wait =>
    some { state with outbox := scheduleRetry state.outbox ids state.setting.now wait }
  | .environment setting => some { state with setting := setting }

def IsLastApplied (outbox : Outbox) (key : HeldRole) (row : OutboxRow) : Prop :=
  row ∈ outbox.rows ∧ row.status = .applied ∧ row.Names key ∧
    ∀ other ∈ outbox.rows, other.status = .applied → other.Names key →
      other.intentSeq ≤ row.intentSeq
deriving Decidable

/-- Once nothing unresolved names a role, the newest applied row naming it says
whether it is held; a role no applied row names is as it was at the start. -/
def FollowsIntent (start : Zitadel) (state : DeliveryState) : Prop :=
  ∀ key, (∀ row ∈ state.outbox.rows, row.Unresolved → ¬ row.Names key) →
    (∀ row, IsLastApplied state.outbox key row → (state.zitadel key = true ↔ row.Gives key)) ∧
    ((∀ row ∈ state.outbox.rows, row.status = .applied → ¬ row.Names key) →
      state.zitadel key = start key)

/-- Two intents leave every role both name alike. Roles neither lists are named
by both only when both are replaces of one project, and then both drop them. -/
def Intent.Agrees (left right : Intent) : Prop :=
  ∀ role ∈ left.roleKeys ++ right.roleKeys, left.Names ⟨left.userId,left.projectId,role⟩ →
      right.Names ⟨left.userId,left.projectId,role⟩ →
        left.effect ⟨left.userId,left.projectId,role⟩ =
          right.effect ⟨left.userId,left.projectId,role⟩
deriving Decidable

variable {left right : Intent} {first second third : Outbox} {p : EnqueueParams}

private theorem Intent.Agrees.same_value (agrees : left.Agrees right)
    {key : HeldRole} {leftValue rightValue : Bool}
    (leftWrites : left.effect key = some leftValue)
    (rightWrites : right.effect key = some rightValue) : leftValue = rightValue := by
  obtain ⟨_,user,project⟩ := Intent.scope_of_effect leftWrites
  have atKey : (⟨left.userId,left.projectId,key.roleKey⟩ : HeldRole) = key := by
    rw [user,project]
  by_cases listed : key.roleKey ∈ left.roleKeys ++ right.roleKeys
  · have same := agrees key.roleKey listed
    rw [atKey] at same
    have equal := same (by rw [Intent.Names,leftWrites]; rfl)
      (by rw [Intent.Names,rightWrites]; rfl)
    rw [leftWrites,rightWrites] at equal
    exact some.inj equal
  · rw [mem_append,not_or] at listed
    rw [Intent.effect_unlisted leftWrites listed.1,Intent.effect_unlisted rightWrites listed.2]

def OvertakesNothing (outbox : Outbox) (row : OutboxRow) : Prop :=
  ∀ older ∈ outbox.rows, older.Unresolved → older.intentSeq < row.intentSeq →
    row.Agrees older.toIntent
deriving Decidable

/-- One row, whatever became of it. -/
structure SameRow (one other : OutboxRow) : Prop where
  id : one.id = other.id
  intent : one.toIntent = other.toIntent
  seq : one.intentSeq = other.intentSeq

theorem SameRow.refl (row : OutboxRow) : SameRow row row := ⟨rfl,rfl,rfl⟩

theorem SameRow.trans {one other third : OutboxRow} (same : SameRow one other)
    (again : SameRow other third) : SameRow one third :=
  ⟨same.id.trans again.id,same.intent.trans again.intent,same.seq.trans again.seq⟩

/-- Rows are kept with their intent, and a row still open was open or is newer. -/
structure Carried (before after : Outbox) : Prop where
  kept : ∀ old ∈ before.rows, ∃ row ∈ after.rows, SameRow row old
  openFrom : ∀ row ∈ after.rows, row.Unresolved →
    before.nextSeq ≤ row.intentSeq ∨ ∃ old ∈ before.rows, old.Unresolved ∧ SameRow row old
  seqLe : before.nextSeq ≤ after.nextSeq
  plain : (∀ row ∈ before.rows, row.withdrawsOnly = false) →
    ∀ row ∈ after.rows, row.withdrawsOnly = false

/-- The outbox changed in a way that says nothing about what was delivered: the
applied rows are the same. -/
structure Quiet (before after : Outbox) : Prop extends Carried before after where
  appliedFrom : ∀ row ∈ after.rows, row.status = .applied →
    ∃ old ∈ before.rows, old.status = .applied ∧ SameRow row old
  appliedKept : ∀ old ∈ before.rows, old.status = .applied →
    ∃ row ∈ after.rows, row.status = .applied ∧ SameRow row old

theorem Carried.trans {first second third : Outbox} (one : Carried first second)
    (two : Carried second third) : Carried first third := by
  refine ⟨fun old mem => ?_,fun row mem unresolved => ?_,one.seqLe.trans two.seqLe,
    two.plain ∘ one.plain⟩
  · obtain ⟨middle,inMiddle,same⟩ := one.kept old mem
    obtain ⟨row,inThird,again⟩ := two.kept middle inMiddle
    exact ⟨row,inThird,again.trans same⟩
  rcases two.openFrom row mem unresolved with newer | ⟨middle,inMiddle,waiting,same⟩
  · exact .inl (one.seqLe.trans newer)
  rcases one.openFrom middle inMiddle waiting with newer | ⟨old,inFirst,still,again⟩
  · exact .inl (same.seq ▸ newer)
  · exact .inr ⟨old,inFirst,still,same.trans again⟩

theorem Quiet.trans {first second third : Outbox} (one : Quiet first second)
    (two : Quiet second third) : Quiet first third := by
  refine ⟨one.toCarried.trans two.toCarried,?_,?_⟩
  · intro row mem done
    obtain ⟨middle,inMiddle,middleDone,same⟩ := two.appliedFrom row mem done
    obtain ⟨old,inFirst,oldDone,again⟩ := one.appliedFrom middle inMiddle middleDone
    exact ⟨old,inFirst,oldDone,same.trans again⟩
  · intro old mem done
    obtain ⟨middle,inMiddle,middleDone,same⟩ := one.appliedKept old mem done
    obtain ⟨row,inThird,rowDone,again⟩ := two.appliedKept middle inMiddle middleDone
    exact ⟨row,inThird,rowDone,again.trans same⟩

theorem Quiet.refl (outbox : Outbox) : Quiet outbox outbox :=
  ⟨⟨fun row mem => ⟨row,mem,.refl row⟩,fun row mem waiting => .inr ⟨row,mem,waiting,.refl row⟩,
    Nat.le_refl _,id⟩,fun row mem done => ⟨row,mem,done,.refl row⟩,
    fun row mem done => ⟨row,mem,done,.refl row⟩⟩

variable {outbox : Outbox}

private theorem carried_update {change : OutboxRow → Delivery} (openWas : ∀ row ∈ outbox.rows,
      (change row).status = .pending ∨ (change row).status = .inFlight → row.Unresolved) :
    Carried outbox (outbox.update change) := by
  refine ⟨?_,?_,Nat.le_refl _,fun plain => ?_⟩
  · intro old mem
    exact ⟨_,outbox.mem_update_of_mem change mem,rfl,rfl,rfl⟩
  · intro row mem waiting
    obtain ⟨old,present,rfl⟩ := (outbox.mem_update change row).mp mem
    exact .inr ⟨old,present,openWas old present waiting,rfl,rfl,rfl⟩
  · intro row mem
    obtain ⟨old,present,rfl⟩ := (outbox.mem_update change row).mp mem
    exact plain old present

private theorem quiet_update {change : OutboxRow → Delivery}
    (appliedSame : ∀ row ∈ outbox.rows, (change row).status = .applied ↔ row.status = .applied)
    (openWas : ∀ row ∈ outbox.rows,
      (change row).status = .pending ∨ (change row).status = .inFlight → row.Unresolved) :
    Quiet outbox (outbox.update change) := by
  refine ⟨carried_update openWas,?_,?_⟩
  · intro row mem done
    obtain ⟨old,present,rfl⟩ := (outbox.mem_update change row).mp mem
    exact ⟨old,present,(appliedSame old present).mp done,rfl,rfl,rfl⟩
  · intro old mem done
    exact ⟨_,outbox.mem_update_of_mem change mem,(appliedSame old mem).mpr done,rfl,rfl,rfl⟩

private theorem quiet_insert {intent : Intent} {waitReason : Option WaitReason}
    (whole : intent.withdrawsOnly = false) : Quiet outbox (outbox.insert intent waitReason) := by
  have inside (row : OutboxRow) (mem : row ∈ outbox.rows) :
      row ∈ (outbox.insert intent waitReason).rows :=
    (outbox.mem_insert intent waitReason row).mpr (.inl mem)
  refine ⟨⟨fun old mem => ⟨old,inside old mem,.refl old⟩,?_,Nat.le_succ _,fun plain => ?_⟩,?_,
    fun old mem done => ⟨old,inside old mem,done,.refl old⟩⟩
  · intro row mem waiting
    rcases (outbox.mem_insert intent waitReason row).mp mem with old | rfl
    · exact .inr ⟨row,old,waiting,.refl row⟩
    · exact .inl (Nat.le_refl _)
  · intro row mem
    rcases (outbox.mem_insert intent waitReason row).mp mem with old | rfl
    · exact plain row old
    · exact whole
  · intro row mem done
    rcases (outbox.mem_insert intent waitReason row).mp mem with old | rfl
    · exact ⟨row,old,done,.refl row⟩
    · cases done

variable {after : Outbox} {next state : DeliveryState} {start : Zitadel}

private theorem quiet_claimed {before : Outbox} (claimed : Claimed before after) :
    Quiet before after := by
  obtain ⟨_,rfl,unresolved⟩ := claimed
  apply quiet_update
  · intro row mem
    split
    · next listed =>
      rcases unresolved row mem listed with waiting | flying
      · rw [waiting]
        constructor <;> intro impossible <;> cases impossible
      · rw [flying]
    · exact Iff.rfl
  · intro row mem
    split
    · next listed => exact fun _ => unresolved row mem listed
    · exact id

private theorem quiet_supersede_answered {target : String} : Quiet outbox
      (outbox.supersede ((answeredBy p (candidates target outbox p)).map QueuedChange.id)) := by
  apply quiet_update
  · intro row mem
    split
    · next listed =>
      rw [pending_of_candidate ((mem_answered_ids mem).mp listed).1]
      constructor <;> intro impossible <;> cases impossible
    · exact Iff.rfl
  · intro _ _
    split
    · intro impossible
      rcases impossible with waiting | flying
      · cases waiting
      · cases flying
    · exact id

private theorem quiet_enqueueRow {gate : Option CancelGate} {named : Bool}
    {id : Option Nat} (written : enqueueRow gate named outbox p = .ok (after, id)) :
    Quiet outbox after := by
  obtain ⟨middle,_,withdrawn,cases⟩ := enqueueRow_ok written
  have cancelled : Quiet outbox middle := by
    rcases withdrawUndelivered_ok withdrawn with ⟨same,_⟩ | ⟨_,_,_,superseded,_⟩
    · rw [same]
      exact Quiet.refl outbox
    · rw [superseded]
      exact quiet_supersede_answered
  rcases cases with ⟨_,same,_⟩ | ⟨_,_,_,same,_⟩ | ⟨_,inserted,_⟩
  · rw [same]
    exact cancelled
  · rw [same]
    exact cancelled
  · rw [inserted]
    exact cancelled.trans (quiet_insert rfl)

private theorem quiet_settleOne {id : Nat} {change : OutboxRow → Delivery}
    (unapplied : ∀ row, (change row).status ≠ .applied)
    (settled : settleOne outbox id change = some after) : Quiet outbox after := by
  obtain ⟨_,rfl⟩ := settleOne_eq_some settled
  apply quiet_update
  · intro row _member
    split
    · next flying =>
      rw [flying.2]
      exact ⟨fun done => absurd done (unapplied row),nofun⟩
    · exact Iff.rfl
  · intro _ _member
    split
    · next flying => exact fun _ => .inr flying.2
    · exact fun same => same

private theorem quiet_scheduleRetry {ids : List Nat} {now wait : Time} :
    Quiet outbox (scheduleRetry outbox ids now wait) := by
  apply quiet_update
  · intro row _member
    split
    · next chosen =>
      rw [chosen.2.1]
    · exact Iff.rfl
  · intro _ _member
    split
    · next chosen => exact fun _ => .inl chosen.2.1
    · exact id

/-- What a move can do: it leaves Zitadel alone and the outbox quiet, or it
counts one in-flight row applied. -/
theorem deliver_cases {move : Move} (moved : deliver state move = some next) :
    (next.zitadel = state.zitadel ∧ Quiet state.outbox next.outbox) ∨
    ∃ row ∈ state.outbox.rows, move = .settle row.id .applied ∧ row.status = .inFlight ∧
      next.zitadel = state.zitadel.take row.toIntent ∧
      next.outbox = state.outbox.update fun other =>
        if other.id = row.id ∧ other.status = .inFlight
        then { other.toDelivery with status := .applied } else other.toDelivery := by
  cases move with
  | write gate named p =>
    simp only [deliver] at moved
    cases written : enqueueRow gate named state.outbox p with
    | error => rw [written] at moved; cases moved
    | ok =>
      rw [written] at moved
      cases moved
      exact .inl ⟨rfl,quiet_enqueueRow written⟩
  | replay =>
    simp only [deliver,insertPendingPropagation] at moved
    split at moved
    · next inserted =>
      split at inserted
      · cases inserted
      cases inserted
      cases moved
      exact .inl ⟨rfl,quiet_insert rfl⟩
    · cases moved
  | sendById =>
    cases moved
    exact .inl ⟨rfl,quiet_claimed claimPropagationById_claimed⟩
  | drain =>
    cases moved
    exact .inl ⟨rfl,quiet_claimed claimPendingPropagations_claimed⟩
  | drainRevocations =>
    cases moved
    exact .inl ⟨rfl,quiet_claimed claimPendingRevocations_claimed⟩
  | drainRetries =>
    cases moved
    exact .inl ⟨rfl,quiet_claimed claimDueRetries_claimed⟩
  | haltSend =>
    cases moved
    exact .inl ⟨rfl,quiet_scheduleRetry⟩
  | environment =>
    cases moved
    exact .inl ⟨rfl,Quiet.refl _⟩
  | settle id outcome =>
    simp only [deliver] at moved
    cases settled : settleOutcome state id outcome with
    | none => rw [settled] at moved; cases moved
    | some =>
      rw [settled] at moved
      cases moved
      cases outcome with
      | requeued | failed | refused | released =>
        exact .inl ⟨rfl,quiet_settleOne (fun _ => by intro done; cases done) settled⟩
      | applied =>
        obtain ⟨⟨row,mem,sameId,flying⟩,changed⟩ := settleOne_eq_some settled
        subst sameId
        refine .inr ⟨row,mem,rfl,flying,?_,changed⟩
        have found : dispatched state.outbox row.id = some row := by
          obtain ⟨other,picked⟩ : ∃ other, dispatched state.outbox row.id = some other :=
            isSome_iff_exists.mp
              (find?_isSome.mpr ⟨row,mem,by simp [flying]⟩)
          have matching := find?_some picked
          simp only [Bool.and_eq_true,decide_eq_true_eq] at matching
          rw [picked,state.outbox.eq_of_id_eq (mem_of_find?_eq_some picked) mem matching.1]
        simp only [zitadelAfter,found]

/-- The invariant of a run: Zitadel holds what the newest applied row says, and
a row that may still be delivered agrees with every newer row already applied. -/
structure Tracks (start : Zitadel) (state : DeliveryState) : Prop where
  decided : ∀ key row, IsLastApplied state.outbox key row →
    row.effect key = some (state.zitadel key)
  untouched : ∀ key, (∀ row ∈ state.outbox.rows, row.status = .applied → ¬ row.Names key) →
    state.zitadel key = start key
  agreed : ∀ done ∈ state.outbox.rows, done.status = .applied →
    ∀ waiting ∈ state.outbox.rows, waiting.Unresolved →
      waiting.intentSeq < done.intentSeq → done.Agrees waiting.toIntent

private theorem Tracks.of_quiet (tracks : Tracks start state)
    (sameZitadel : next.zitadel = state.zitadel)
    (quiet : Quiet state.outbox next.outbox) : Tracks start next := by
  refine ⟨?_,?_,?_⟩
  · rintro key row ⟨mem,done,names,newest⟩
    obtain ⟨old,present,oldDone,same⟩ := quiet.appliedFrom row mem done
    have oldLast : IsLastApplied state.outbox key old := by
      refine ⟨present,oldDone,same.intent ▸ names,?_⟩
      intro other otherMember otherDone otherNames
      obtain ⟨later,inNext,laterDone,again⟩ := quiet.appliedKept other otherMember otherDone
      have bounded := newest later inNext laterDone (by rw [again.intent]; exact otherNames)
      rw [← again.seq,← same.seq]
      exact bounded
    rw [sameZitadel,same.intent]
    exact tracks.decided key old oldLast
  · intro key none
    rw [sameZitadel]
    apply tracks.untouched key
    intro old mem done names
    obtain ⟨row,inNext,rowDone,same⟩ := quiet.appliedKept old mem done
    exact none row inNext rowDone (by rw [same.intent]; exact names)
  · intro done mem isDone waiting waitingMember unresolved _
    obtain ⟨old,present,oldDone,same⟩ := quiet.appliedFrom done mem isDone
    have seq := same.seq
    rcases quiet.openFrom waiting waitingMember unresolved with
      newer | ⟨before,beforeMember,stillOpen,again⟩
    · have below := (state.outbox.numbered old present).2.1
      omega
    · have openSeq := again.seq
      rw [same.intent,again.intent]
      exact tracks.agreed old present oldDone before beforeMember stillOpen (by omega)

section Applied

variable {state : DeliveryState} {row : OutboxRow}

private def applyRow (row : OutboxRow) (other : OutboxRow) : Delivery :=
  if other.id = row.id ∧ other.status = .inFlight
  then { other.toDelivery with status := .applied } else other.toDelivery

variable {other : OutboxRow}

private theorem applyRow_applied (mem : row ∈ state.outbox.rows)
    (otherMember : other ∈ state.outbox.rows) (done : (applyRow row other).status = .applied) :
    other = row ∨ other.status = .applied := by
  unfold applyRow at done
  split at done
  · next matching => exact .inl (state.outbox.eq_of_id_eq otherMember mem matching.1)
  · exact .inr done

private theorem applyRow_self (flying : row.status = .inFlight) :
    (applyRow row row).status = .applied := by
  unfold applyRow
  rw [if_pos ⟨rfl,flying⟩]

private theorem applyRow_of_applied (done : other.status = .applied) :
    (applyRow row other).status = .applied := by
  unfold applyRow
  split
  · rfl
  · exact done

private theorem unresolved_of_applyRow
    (waiting : (applyRow row other).status = .pending ∨ (applyRow row other).status = .inFlight) :
    other.Unresolved := by
  unfold applyRow at waiting
  split at waiting
  · next matching => exact .inr matching.2
  · exact waiting

end Applied

private theorem Tracks.of_applied {row : OutboxRow} (tracks : Tracks start state)
    (mem : row ∈ state.outbox.rows) (flying : row.status = .inFlight)
    (turn : OvertakesNothing state.outbox row)
    (sameZitadel : next.zitadel = state.zitadel.take row.toIntent)
    (changed : next.outbox = state.outbox.update (applyRow row)) : Tracks start next := by
  have stays {other : OutboxRow} (present : other ∈ state.outbox.rows) :
      other.withDelivery (applyRow row other) ∈ (state.outbox.update (applyRow row)).rows :=
    state.outbox.mem_update_of_mem (applyRow row) present
  refine ⟨?_,?_,?_⟩
  · rintro key last ⟨lastMember,done,names,newest⟩
    rw [changed] at lastMember newest
    obtain ⟨old,present,rfl⟩ := (state.outbox.mem_update _ last).mp lastMember
    have rowBelow : row.Names key → row.intentSeq ≤ old.intentSeq := fun rowNames =>
      (newest _ (stays mem) (applyRow_self flying) rowNames :)
    rw [sameZitadel]
    change old.effect key = some ((row.effect key).getD (state.zitadel key))
    rcases applyRow_applied mem present done with rfl | wasDone
    · obtain ⟨value,wrote⟩ : ∃ value, old.effect key = some value :=
        isSome_iff_exists.mp names
      rw [wrote,getD_some]
    have oldLast : IsLastApplied state.outbox key old := by
      refine ⟨present,wasDone,names,?_⟩
      intro other otherMember otherDone otherNames
      exact (newest _ (stays otherMember) (applyRow_of_applied otherDone) otherNames :)
    have held := tracks.decided key old oldLast
    cases wrote : row.effect key with
    | none => exact held
    | some =>
      have notAfter := rowBelow (by rw [Intent.Names,wrote]; rfl)
      have different : row.intentSeq ≠ old.intentSeq := by
        intro same
        have identical := state.outbox.eq_of_seq_eq mem present same
        rw [identical,wasDone] at flying
        cases flying
      have agrees := tracks.agreed old present wasDone row mem (.inr flying) (by omega)
      rw [held,getD_some,agrees.same_value held wrote]
  · intro key none
    rw [changed] at none
    have silent : row.effect key = Option.none := by
      by_contra writes
      exact none _ (stays mem) (applyRow_self flying) (isSome_iff_ne_none.mpr writes)
    rw [sameZitadel]
    change (row.effect key).getD (state.zitadel key) = start key
    rw [silent]
    apply tracks.untouched key
    intro other otherMember otherDone
    exact (none _ (stays otherMember) (applyRow_of_applied otherDone) :)
  · intro done doneMember isDone waiting waitingMember unresolved older
    rw [changed] at doneMember waitingMember
    obtain ⟨oldDone,donePresent,rfl⟩ := (state.outbox.mem_update _ done).mp doneMember
    obtain ⟨oldOpen,openPresent,rfl⟩ := (state.outbox.mem_update _ waiting).mp waitingMember
    have wasOpen := unresolved_of_applyRow unresolved
    rcases applyRow_applied mem donePresent isDone with rfl | wasDone
    · exact turn oldOpen openPresent wasOpen older
    · exact tracks.agreed oldDone donePresent wasDone oldOpen openPresent wasOpen older

theorem Tracks.initial (state : DeliveryState) (empty : state.outbox.rows = []) :
    Tracks state.zitadel state := by
  refine ⟨?_,fun _ _ => rfl,?_⟩
  · rintro _ _ ⟨mem,_⟩
    rw [empty] at mem
    cases mem
  · intro _ mem
    rw [empty] at mem
    cases mem

private theorem Tracks.followsIntent (tracks : Tracks start state) : FollowsIntent start state := by
  intro key _settled
  refine ⟨?_,tracks.untouched key⟩
  intro row last
  have held := tracks.decided key row last
  rw [Intent.Gives,held]
  exact ⟨congrArg some,some.inj⟩

/-! ### The drains

A send by id, an operator's drain and the background drain hold one lock. What a drain has
claimed and not yet settled is in its hand, and it settles the first row of it. -/

structure DrainState where
  delivery : DeliveryState
  hand : List OutboxRow

inductive DrainMove where
  | beside (move : Move)
  | claim (kind : ClaimKind)
  | settle (outcome : Outcome)
  | leave
deriving DecidableEq

def Move.isBeside : Move → Bool
  | .write _ _ _ | .replay _ _ _ _ | .haltSend _ _ | .environment _ => true
  | _ => false

def ClaimKind.move : ClaimKind → Move
  | .pending limit => .drain limit
  | .revocations limit => .drainRevocations limit
  | .retries limit => .drainRetries limit
  | .byId id => .sendById id

def DrainState.rows (state : DrainState) (kind : ClaimKind) : List OutboxRow :=
  kind.rows state.delivery.setting zitadelTarget state.delivery.outbox

def drainStep (state : DrainState) : DrainMove → Option DrainState
  | .beside move =>
    if move.isBeside then
      (deliver state.delivery move).map fun delivery => { state with delivery := delivery }
    else none
  | .claim kind =>
    if kind.fits state.hand then
      (deliver state.delivery kind.move).map fun delivery =>
        { delivery := delivery, hand := state.hand ++ state.rows kind }
    else none
  | .settle outcome =>
    match state.hand with
    | [] => none
    | row :: rest =>
      (deliver state.delivery (.settle row.id outcome)).map fun delivery =>
        { delivery := delivery, hand := rest }
  | .leave => some { state with hand := [] }

/-- What is older than these rows, unresolved and at odds with one of them is in hand. -/
def Covers (outbox : Outbox) (rows hand : List OutboxRow) : Prop :=
  ∀ row ∈ rows, ∀ older ∈ outbox.rows, older.Unresolved → older.intentSeq < row.intentSeq →
    row.Agrees older.toIntent ∨ older.intentSeq ∈ hand.map OutboxRow.intentSeq
deriving Decidable

def ClaimKind.keepsOrder : ClaimKind → Bool
  | .pending _ | .revocations _ => true
  | .retries _ | .byId _ => false

def Outcome.reopens : Outcome → Bool
  | .requeued _ | .released => true
  | _ => false

/-- What the claims leave open. A send by id and a retry take no row past an older
unresolved one that says the opposite, unless that one is in hand too. A row goes back to
pending only if no newer row behind it in the hand says the opposite. -/
def InOrder (state : DrainState) : DrainMove → Prop
  | .claim kind => kind.keepsOrder = false →
    Covers state.delivery.outbox (state.rows kind) (state.hand ++ state.rows kind)
  | .settle outcome => outcome.reopens = true →
    ∀ row ∈ state.hand.head?, ∀ later ∈ state.hand, row.intentSeq < later.intentSeq →
      later.Agrees row.toIntent
  | _ => True

instance (state : DrainState) (move : DrainMove) : Decidable (InOrder state move) := by
  cases move <;> dsimp only [InOrder] <;> infer_instance

private theorem Intent.scope_of_disagrees (disagrees : ¬ left.Agrees right) :
    left.target = right.target ∧ left.userId = right.userId ∧ left.projectId = right.projectId := by
  simp only [Intent.Agrees,Intent.Names,not_forall] at disagrees
  obtain ⟨_,_,leftNames,rightNames,_⟩ := disagrees
  obtain ⟨_,leftWrites⟩ := isSome_iff_exists.mp leftNames
  obtain ⟨_,rightWrites⟩ := isSome_iff_exists.mp rightNames
  obtain ⟨leftTarget,-,-⟩ := Intent.scope_of_effect leftWrites
  obtain ⟨rightTarget,rightUser,rightProject⟩ := Intent.scope_of_effect rightWrites
  exact ⟨leftTarget.trans rightTarget.symm,rightUser.symm,rightProject.symm⟩

private theorem Intent.agrees_of_revoke (revokes : left.opType = .revoke)
    (confers : ¬ (right.opType = .add ∨ right.opType = .replace)) : left.Agrees right := by
  intro role _ leftNames rightNames
  unfold Intent.Names Intent.effect at leftNames rightNames
  unfold Intent.effect
  cases op : right.opType with
  | add => exact absurd (.inl op) confers
  | replace => exact absurd (.inr op) confers
  | revoke | apply => grind

section Hands

variable {setting : Setting} {target : String} {limit : Int}

private theorem covers_pending {hand : List OutboxRow} :
    Covers outbox (pendingClaim setting target limit outbox)
      (hand ++ pendingClaim setting target limit outbox) := by
  intro row chosen older present unresolved behind
  by_contra neither
  obtain ⟨disagrees,left⟩ := not_or.mp neither
  obtain ⟨sameTarget,sameUser,-⟩ := Intent.scope_of_disagrees disagrees
  have admitted := (mem_filter.mp (mem_revocationFirst (mem_of_mem_take chosen))).2
  have waits :
      older ∈ revocationFirst outbox (outbox.rows.filter (claimable setting target)) := by
    refine (filter_append_perm _ _).mem_iff.mpr (mem_filter.mpr ⟨present,?_⟩)
    simp only [claimable,Bool.and_eq_true,decide_eq_true_eq] at admitted ⊢
    rw [← sameTarget]
    exact ⟨⟨unresolved,admitted.1.2⟩,admitted.2⟩
  have ordered : (revocationFirst outbox
      (outbox.rows.filter (claimable setting target))).Pairwise InScopeOrder :=
    pairwise_revocationFirst (outbox.ordered.filter _)
  rw [← take_append_drop (claimLimit limit) (revocationFirst outbox _)] at ordered waits
  rcases mem_append.mp waits with taken | dropped
  · exact left (mem_map_of_mem (mem_append_right _ taken))
  · have := (pairwise_append.mp ordered).2.2 row chosen older dropped sameTarget sameUser
    omega

private theorem covers_revocations {hand : List OutboxRow}
    (plain : ∀ row ∈ outbox.rows, row.withdrawsOnly = false) :
    Covers outbox (revocationsClaim setting target limit outbox) hand := by
  intro row chosen older present unresolved behind
  left
  by_contra disagrees
  obtain ⟨sameTarget,sameUser,sameProject⟩ := Intent.scope_of_disagrees disagrees
  obtain ⟨mem,admitted⟩ := mem_filter.mp (mem_of_mem_take chosen)
  simp only [Bool.and_eq_true,Bool.not_eq_true'] at admitted
  obtain ⟨⟨⟨⟨⟨-,withdraws⟩,-⟩,-⟩,-⟩,guarded⟩ := admitted
  have revokes : row.opType = .revoke := by
    simpa [Propagation.withdraws,plain row mem] using withdraws
  have confers : older.opType = .add ∨ older.opType = .replace := by
    by_contra neither
    exact disagrees (Intent.agrees_of_revoke revokes neither)
  have found : olderConferring outbox row = true := by
    refine any_eq_true.mpr ⟨older,present,?_⟩
    simp only [Bool.and_eq_true,Bool.or_eq_true,decide_eq_true_eq]
    exact ⟨⟨⟨⟨⟨sameTarget.symm,sameUser.symm⟩,sameProject.symm⟩,.inl confers⟩,unresolved⟩,behind⟩
  rw [found] at guarded
  cases guarded

/-- The invariant of a hand: its rows are rows of the outbox, none stands before an older
one that says the opposite, and nothing older that does is left out. -/
structure HandInOrder (outbox : Outbox) (hand : List OutboxRow) : Prop where
  known : ∀ row ∈ hand, ∃ now ∈ outbox.rows, SameRow now row
  turn : hand.Pairwise fun first second =>
    second.intentSeq < first.intentSeq → first.Agrees second.toIntent
  covers : Covers outbox hand hand

variable {row : OutboxRow} {hand rest : List OutboxRow}

theorem HandInOrder.empty : HandInOrder outbox [] :=
  ⟨fun _ held => (not_mem_nil held).elim,Pairwise.nil,fun _ held => (not_mem_nil held).elim⟩

variable {now : OutboxRow}

private theorem HandInOrder.intent_eq (inOrder : HandInOrder outbox hand) (held : row ∈ hand)
    (present : now ∈ outbox.rows) (same : now.intentSeq = row.intentSeq) :
    now.toIntent = row.toIntent := by
  obtain ⟨known,mem,isRow⟩ := inOrder.known row held
  rw [outbox.eq_of_seq_eq present mem (same.trans isRow.seq.symm)]
  exact isRow.intent

theorem HandInOrder.carried (inOrder : HandInOrder outbox hand) (carried : Carried outbox after) :
    HandInOrder after hand := by
  refine ⟨fun row held => ?_,inOrder.turn,fun row held older present unresolved behind => ?_⟩
  · obtain ⟨now,mem,same⟩ := inOrder.known row held
    obtain ⟨later,inAfter,again⟩ := carried.kept now mem
    exact ⟨later,inAfter,again.trans same⟩
  obtain ⟨now,mem,same⟩ := inOrder.known row held
  have seq := same.seq
  rcases carried.openFrom older present unresolved with newer | ⟨old,was,waited,again⟩
  · have below := (outbox.numbered now mem).2.1
    omega
  · rw [again.intent,again.seq]
    exact inOrder.covers row held old was waited (again.seq ▸ behind)

theorem HandInOrder.claim {kind : ClaimKind} (inOrder : HandInOrder outbox hand)
    (fits : kind.fits hand = true)
    (covers : Covers outbox (kind.rows setting target outbox)
      (hand ++ kind.rows setting target outbox)) :
    HandInOrder outbox (hand ++ kind.rows setting target outbox) := by
  have fresh : (kind.rows setting target outbox).Pairwise fun first second =>
      second.intentSeq < first.intentSeq → first.Agrees second.toIntent := by
    refine kind.rows_inScopeOrder.imp fun ordered behind => ?_
    by_contra disagrees
    obtain ⟨sameTarget,sameUser,-⟩ := Intent.scope_of_disagrees disagrees
    have := ordered sameTarget sameUser
    omega
  refine ⟨fun row mem => ?_,pairwise_append.mpr ⟨inOrder.turn,fresh,?_⟩,?_⟩
  · rcases mem_append.mp mem with held | chosen
    · exact inOrder.known row held
    · exact ⟨row,(ClaimKind.rows_open chosen).1,.refl row⟩
  · intro first held second chosen behind
    obtain ⟨present,unresolved⟩ := ClaimKind.rows_open chosen
    refine (inOrder.covers first held second present unresolved behind).resolve_right ?_
    intro listed
    obtain ⟨same,sameHeld,seq⟩ := mem_map.mp listed
    have intent := inOrder.intent_eq sameHeld present seq.symm
    cases kind with
    | retries =>
      have withdrawal := all_eq_true.mp fits same sameHeld
      have admitted := (mem_filter.mp (mem_revocationFirst (mem_of_mem_take chosen))).2
      simp only [Bool.and_eq_true,Bool.not_eq_true'] at admitted
      have confers := admitted.1.1.1.2
      unfold withdraws at withdrawal confers
      rw [congrArg Intent.opType intent,congrArg Intent.withdrawsOnly intent,withdrawal] at confers
      cases confers
    | pending | revocations | byId =>
      rw [isEmpty_iff.mp fits] at held
      cases held
  · intro row mem older present unresolved behind
    rcases mem_append.mp mem with held | chosen
    · rw [map_append,mem_append]
      exact (inOrder.covers row held older present unresolved behind).imp_right .inl
    · exact covers row chosen older present unresolved behind

private theorem HandInOrder.overtakesNothing (inOrder : HandInOrder outbox (row :: rest))
    (present : now ∈ outbox.rows) (same : now.id = row.id) :
    OvertakesNothing outbox now := by
  obtain ⟨known,mem,isRow⟩ := inOrder.known row mem_cons_self
  have seq := isRow.seq
  cases outbox.eq_of_id_eq present mem (same.trans isRow.id.symm)
  intro older olderMember unresolved behind
  rw [isRow.intent]
  refine (inOrder.covers row mem_cons_self older olderMember unresolved (by omega)).elim id ?_
  intro listed
  obtain ⟨held,inHand,heldSeq⟩ := mem_map.mp listed
  rw [inOrder.intent_eq inHand olderMember heldSeq.symm]
  rcases mem_cons.mp inHand with rfl | later
  · omega
  · exact (pairwise_cons.mp inOrder.turn).1 held later (by omega)

theorem HandInOrder.tail (inOrder : HandInOrder outbox (row :: rest))
    (done : ∀ now ∈ outbox.rows, now.Unresolved → now.intentSeq = row.intentSeq →
      ∀ later ∈ rest, row.intentSeq < later.intentSeq → later.Agrees row.toIntent) :
    HandInOrder outbox rest := by
  refine ⟨fun held mem => inOrder.known held (mem_cons_of_mem _ mem),
    (pairwise_cons.mp inOrder.turn).2,fun held mem older present unresolved behind => ?_⟩
  rcases inOrder.covers held (mem_cons_of_mem _ mem) older present unresolved behind with
    agrees | listed
  · exact .inl agrees
  rcases mem_cons.mp listed with same | later
  · left
    rw [inOrder.intent_eq mem_cons_self present same]
    exact done older present unresolved same held mem (by omega)
  · exact .inr later

end Hands

private theorem carried_deliver {move : Move} (moved : deliver state move = some next) :
    Carried state.outbox next.outbox := by
  rcases deliver_cases moved with ⟨-,quiet⟩ | ⟨row,-,-,-,-,changed⟩
  · exact quiet.toCarried
  · rw [changed]
    exact carried_update fun _ _ waiting => unresolved_of_applyRow waiting

/-- Of the settles only a requeue and a release leave the row open. -/
private theorem reopened_of_settle {id : Nat} {outcome : Outcome}
    (moved : deliver state (.settle id outcome) = some next) {now : OutboxRow}
    (present : now ∈ next.outbox.rows) (same : now.id = id) (unresolved : now.Unresolved) :
    outcome.reopens = true := by
  have ended {change : OutboxRow → Delivery}
      (terminal : ∀ row, (change row).status ≠ .pending ∧ (change row).status ≠ .inFlight)
      (settled : settleOne state.outbox id change = some next.outbox) : False := by
    obtain ⟨⟨row,mem,sameId,flying⟩,changed⟩ := settleOne_eq_some settled
    rw [changed] at present
    obtain ⟨old,was,rfl⟩ := (state.outbox.mem_update _ now).mp present
    cases state.outbox.eq_of_id_eq was mem (same.trans sameId.symm)
    simp only [OutboxRow.Unresolved,OutboxRow.toDelivery_withDelivery,
      if_pos (And.intro sameId flying)] at unresolved
    exact unresolved.elim (terminal _).1 (terminal _).2
  simp only [deliver] at moved
  cases settled : settleOutcome state id outcome with
  | none => rw [settled] at moved; cases moved
  | some =>
    rw [settled] at moved
    cases moved
    cases outcome with
    | released | requeued => rfl
    | applied | failed | refused => exact (ended (fun _ => ⟨by simp,by simp⟩) settled).elim

/-- The invariant of the drains. -/
structure Ordered (start : Zitadel) (state : DrainState) : Prop where
  tracks : Tracks start state.delivery
  plain : ∀ row ∈ state.delivery.outbox.rows, row.withdrawsOnly = false
  hand : HandInOrder state.delivery.outbox state.hand

private theorem ordered_step {state next : DrainState} {move : DrainMove}
    (ordered : Ordered start state)
    (inOrder : InOrder state move) (moved : drainStep state move = some next) :
    Ordered start next := by
  have quietly {move : Move} {delivery : DeliveryState} (settles : ∀ id, move ≠ .settle id .applied)
      (delivered : deliver state.delivery move = some delivery) : Tracks start delivery := by
    rcases deliver_cases delivered with ⟨same,quiet⟩ | ⟨row,-,applies,-⟩
    · exact ordered.tracks.of_quiet same quiet
    · exact absurd applies (settles row.id)
  cases move with
  | leave =>
    cases moved
    exact ⟨ordered.tracks,ordered.plain,.empty⟩
  | beside move =>
    simp only [drainStep] at moved
    split at moved
    · next beside =>
      obtain ⟨delivery,delivered,rfl⟩ := map_eq_some_iff.mp moved
      have carried := carried_deliver delivered
      refine ⟨quietly ?_ delivered,carried.plain ordered.plain,ordered.hand.carried carried⟩
      rintro _ rfl
      cases beside
    · cases moved
  | claim kind =>
    simp only [drainStep] at moved
    split at moved
    · next fits =>
      obtain ⟨delivery,delivered,rfl⟩ := map_eq_some_iff.mp moved
      have carried := carried_deliver delivered
      refine ⟨quietly ?_ delivered,carried.plain ordered.plain,
        (ordered.hand.claim fits ?_).carried carried⟩
      · intro _ settles
        cases kind <;> cases settles
      · cases kind with
        | pending => exact covers_pending
        | revocations => exact covers_revocations ordered.plain
        | retries | byId => exact inOrder rfl
    · cases moved
  | settle outcome =>
    simp only [drainStep] at moved
    split at moved
    · cases moved
    next row rest isHand =>
    obtain ⟨delivery,delivered,rfl⟩ := map_eq_some_iff.mp moved
    have carried := carried_deliver delivered
    have hand := ordered.hand
    rw [isHand] at hand
    have later := hand.carried carried
    refine ⟨?_,carried.plain ordered.plain,later.tail ?_⟩
    · rcases deliver_cases delivered with ⟨same,quiet⟩ | ⟨now,mem,settles,flying,taken,changed⟩
      · exact ordered.tracks.of_quiet same quiet
      · have sameId := (Move.settle.inj settles).1.symm
        exact ordered.tracks.of_applied mem flying (hand.overtakesNothing mem sameId) taken changed
    · intro now present unresolved seq newer behind
      obtain ⟨known,mem,same⟩ := later.known row mem_cons_self
      cases delivery.outbox.eq_of_seq_eq present mem (seq.trans same.seq.symm)
      refine inOrder (reopened_of_settle delivered present same.id unresolved) row ?_ newer ?_
      · rw [isHand]
        rfl
      · rw [isHand]
        exact mem_cons_of_mem _ behind

namespace Overtaking

def nobody : DeliveryState :=
  { outbox := Outbox.empty
    zitadel := fun _ => false
    setting := { activeTargets := [zitadelTarget], roleWaits := [], now := 0 } }

def change (opType : OpType) (source : Source) (ref : String) : EnqueueParams :=
  { userId := "ada"
    projectId := "lab"
    roleKeys := ["member"]
    expiresAt := none
    source := some source
    sourceRef := ref
    opType := opType
    noPropagation := false
    endRule := .kept
    waitReason := none }

def adaMember : HeldRole := ⟨"ada","lab","member"⟩

def late : DrainMove :=
  .beside (.environment { activeTargets := [zitadelTarget], roleWaits := [], now := 90 })

/-- A bundle's add is sent and not taken; the direct give is answered by it, and the
bundle's removal queues nothing beside that grant. The direct removal is another source, so it
goes behind the add, is sent straight away and lands; then the retry sends the add. -/
def overtakingMoves : List DrainMove :=
  [.beside (.write none false (change .add .bundle "b1")), .claim (.byId 1), .settle (.requeued 60),
    .beside (.write none true (change .add .direct "")),
    .beside (.write none false (change .revoke .direct "g1")), .claim (.byId 2), .settle .applied,
    late, .claim (.retries 0), .settle .applied]

/-- The same changes, sent by an operator's drain. -/
def drainedMoves : List DrainMove :=
  [.beside (.write none false (change .add .bundle "b1")), .claim (.byId 1), .settle (.requeued 60),
    .beside (.write none true (change .add .direct "")),
    .beside (.write none false (change .revoke .direct "g1")), late, .claim (.pending 0),
    .settle .applied, .settle .applied]

def overtaken : DrainState := (run drainStep ⟨nobody,[]⟩ overtakingMoves).getD ⟨nobody,[]⟩

end Overtaking

end Syndra.Propagation
