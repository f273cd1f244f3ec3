/-
What a countermanded write comes to.

A write that cancelled a queued change is dropped when the applied rows already say what it
asks for.
-/

import Syndra.Propagation.Queue
import Syndra.Propagation.Standing

namespace Syndra.Propagation

open Foundation.Replay List

def Outbox.written (after : Outbox) (p : EnqueueParams) (owed : Bool) : Outbox :=
  if owed then after.insert p.intent p.waitReason else after

/-- What applying the unresolved rows, in intent order, leaves of a role that Zitadel has
or not. -/
def Outbox.settled (outbox : Outbox) (held : Bool) (key : HeldRole) : Bool :=
  replay (fun row : OutboxRow => row.effect key) held
    (outbox.rows.filter fun row => decide row.Unresolved)

def othersFor (outbox : Outbox) (p : EnqueueParams) : List OutboxRow :=
  outbox.rows.filter fun row =>
    decide row.Unresolved && !(row.waitsFor p.key && answers p row.queuedChange) &&
      (row.effect p.key).isSome

/-- Where the write cancels a queued change and the applied rows that list the role
already say what it asks for, the last other unresolved row says so too, or without one
the replay of all applied rows. -/
def EnqueueParams.Agreed (p : EnqueueParams) (outbox : Outbox) : Prop :=
  cancelled outbox p ≠ [] → standingFor zitadelTarget outbox p.key = decide (p.opType = .add) →
      match (othersFor outbox p).getLast? with
      | some row => row.effect p.key = some (decide (p.opType = .add))
      | none => outbox.replayed p.key = decide (p.opType = .add)

section Proofs

variable {outbox after : Outbox} {p : EnqueueParams}

theorem effect_intent (single : p.Single) : p.intent.effect p.key =
    some (decide (p.opType = .add)) := by
  unfold Intent.effect EnqueueParams.intent
  rw [if_pos ⟨rfl,rfl,rfl⟩]
  have listed : p.key.roleKey ∈ p.roleKeys := by
    rw [single.role]
    exact mem_cons_self
  rcases single.op with op | op
  · rw [op]
    rw [if_pos listed]
    rfl
  · rw [op]
    dsimp only
    rw [if_pos listed]
    rfl

variable {held : Bool} {row : OutboxRow}

theorem settled_insert (single : p.Single) :
    (after.insert p.intent p.waitReason).settled held p.key = decide (p.opType = .add) := by
  unfold Outbox.settled
  rw [Outbox.rows_insert,filter_append]
  have kept : [p.intent.freshRow p.waitReason after.nextSeq].filter
      (fun row => decide row.Unresolved) = [p.intent.freshRow p.waitReason after.nextSeq] :=
    filter_cons_of_pos (decide_eq_true (.inl rfl))
  have adds : (p.intent.freshRow p.waitReason after.nextSeq).effect p.key =
      some (decide (p.opType = .add)) := effect_intent single
  exact replay_concat adds

theorem effect_afterWrite {key : HeldRole} : (row.afterWrite p).effect key = row.effect key:= by
  unfold OutboxRow.afterWrite
  split <;> rfl

theorem othersFor_eq (rows : after.rows = outbox.rows.map (OutboxRow.afterWrite p)) :
    (after.rows.filter fun row => decide row.Unresolved).filter
      (fun row => (row.effect p.key).isSome) = othersFor outbox p := by
  rw [rows,filter_filter,filter_map]
  have same : outbox.rows.filter
      ((fun row : OutboxRow => (row.effect p.key).isSome && decide row.Unresolved) ∘
        OutboxRow.afterWrite p) = othersFor outbox p := by
    apply filter_congr
    intro row _listed
    change (((row.afterWrite p).effect p.key).isSome && decide (row.afterWrite p).Unresolved) = _
    rw [effect_afterWrite,unresolved_afterWrite,Bool.and_comm]
  rw [same]
  calc (othersFor outbox p).map (OutboxRow.afterWrite p)
      = (othersFor outbox p).map id := map_congr_left fun row mem => by
        have kept := (mem_filter.mp mem).2
        rw [Bool.and_eq_true,Bool.and_eq_true,Bool.not_eq_true'] at kept
        unfold OutboxRow.afterWrite
        rw [kept.1.2]
        rfl
    _ = othersFor outbox p := map_id _

theorem settled_dropped (rows : after.rows = outbox.rows.map (OutboxRow.afterWrite p)) :
    after.settled held p.key = match (othersFor outbox p).getLast? with
      | some row => (row.effect p.key).getD held
      | none => held := by
  unfold Outbox.settled
  rw [replay_eq_last,othersFor_eq rows]
  cases (othersFor outbox p).getLast? with
  | none | some => rfl

theorem effect_isSome_of_last (last : (othersFor outbox p).getLast? = some row) :
    (row.effect p.key).isSome = true := by
  have kept := (mem_filter.mp (mem_of_getLast? last)).2
  rw [Bool.and_eq_true] at kept
  exact kept.2

theorem owedAfterCancel_iff (single : p.Single) {standing : Bool} :
    owedAfterCancel p standing = true ↔ standing ≠ decide (p.opType = .add) := by
  unfold owedAfterCancel
  rcases single.op with op | op
  all_goals
    rw [op]
    cases standing <;> decide

end Proofs

/-- A write and the rows left of its role come to what the write asks for exactly where
the rows agreed. -/
theorem countermand_outcome_iff (gate : Option CancelGate) (outbox after : Outbox)
    (p : EnqueueParams) (owed : Bool) (single : p.Single)
    (withdrawn : withdrawUndelivered gate zitadelTarget outbox p = .ok (after, owed)) :
    ((after.written p owed).settled (outbox.replayed p.key) p.key = true ↔ p.opType = .add) ↔
      p.Agreed outbox := by
  obtain ⟨rows,-,isOwed⟩ := withdraw_rows single withdrawn
  rw [← decide_eq_true_iff (p := p.opType = .add),← Bool.eq_iff_iff]
  cases owed with
  | true =>
    have asked : (after.written p true).settled (outbox.replayed p.key) p.key =
        decide (p.opType = .add) := settled_insert single
    refine iff_of_true asked fun some stands => ?_
    rcases isOwed with ⟨none,-⟩ | ⟨-,owed⟩
    · exact absurd none some
    · exact absurd stands ((owedAfterCancel_iff single).mp owed.symm)
  | false =>
    rcases isOwed with ⟨-,impossible⟩ | ⟨some,notOwed⟩
    · cases impossible
    have stands : standingFor zitadelTarget outbox p.key = decide (p.opType = .add) := by
      by_contra differs
      rw [(owedAfterCancel_iff single).mpr differs] at notOwed
      cases notOwed
    change after.settled _ _ = _ ↔ _
    rw [settled_dropped rows]
    unfold EnqueueParams.Agreed
    rw [forall_prop_of_true some,forall_prop_of_true stands]
    cases last : (othersFor outbox p).getLast? with
    | none => exact Iff.rfl
    | some =>
      obtain ⟨_,effect⟩ := Option.isSome_iff_exists.mp (effect_isSome_of_last last)
      dsimp only
      rw [effect,Option.getD_some,Option.some_inj]

namespace InFlight

def row (status : Status) (opType : OpType) (seq : Nat) : OutboxRow :=
  { target := zitadelTarget, opType := opType, userId := "ada", projectId := "lab"
    roleKeys := ["member"], source := .direct, sourceRef := "", withdrawsOnly := false
    status := status, attempts := 0, waitReason := none, notBefore := none, id := seq
    intentSeq := seq }

def outbox (first : Status) : Outbox :=
  { rows := [row first .add 1,row .superseded .revoke 2,row .pending .add 3], nextSeq := 4
    ordered := by cases first <;> decide
    idsDistinct := by cases first <;> decide
    numbered := by cases first <;> decide
    started := by decide }

def remove : EnqueueParams :=
  { userId := "ada", projectId := "lab", roleKeys := ["member"], expiresAt := none
    source := none, sourceRef := "", opType := .revoke, noPropagation := false
    endRule := .kept, waitReason := none }

theorem countermand_outcome_delivered : ∃ after owed,
      withdrawUndelivered none zitadelTarget (outbox .applied) remove = .ok (after, owed) ∧
        ((after.written remove owed).settled ((outbox .applied).replayed remove.key) remove.key =
          true ↔ remove.opType = .add) := by
  have agreed : remove.Agreed (outbox .applied) := by
    intro _some stands
    exact absurd stands (by decide)
  obtain ⟨after,owed,withdrawn⟩ : ∃ after owed,
      withdrawUndelivered none zitadelTarget (outbox .applied) remove = .ok (after, owed) :=
    ⟨_,_,rfl⟩
  exact ⟨after,owed,withdrawn,
    (countermand_outcome_iff none _ after remove owed ⟨rfl,.inr rfl⟩ withdrawn).mpr agreed⟩

/-- The first add is in flight: giving again cancelled the removal, and removing again
cancels that and is dropped. -/
theorem held_inFlight :
    (withdrawUndelivered none zitadelTarget (outbox .inFlight) remove).toOption.any
      (fun result =>
        (result.1.written remove result.2).settled ((outbox .inFlight).replayed remove.key)
          remove.key) = true := by
  decide +kernel

end InFlight

end Syndra.Propagation
