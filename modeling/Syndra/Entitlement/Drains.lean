/-
The drains of an add-on target.

A pass holds the drain lock: it rejects the rows a newer applied version overtook, claims a
batch, and then sends and settles the claimed rows one by one.
-/

import Syndra.Foundation.Runs
import Syndra.Entitlement.Approvals

namespace Syndra.Entitlement

open Access Propagation

def Store.complete (store : Store) (chosen : OutboxRow → Bool) (status : Status) : Store :=
  { store with
    outbox := store.outbox.update fun row =>
      if chosen row then { row.toDelivery with status := status } else row.toDelivery
    completedAt := fun id =>
      if store.outbox.rows.any fun row => row.id = id && chosen row then
        some store.setting.now
      else store.completedAt id }

inductive Settle where
  | applied
  | failed
  | requeued (wait : Time)
  | released
deriving DecidableEq

def Store.settle (store : Store) (id : Nat) (how : Settle) : Option Store :=
  match how with
  | .applied =>
    (markPropagationApplied store.outbox id).map fun after =>
      { store with
        outbox := after
        completedAt := fun other =>
          if other = id then some store.setting.now else store.completedAt other }
  | .failed =>
    (markPropagationFailed store.outbox id).map fun after =>
      { store with
        outbox := after
        completedAt := fun other =>
          if other = id then some store.setting.now else store.completedAt other }
  | .requeued wait =>
    (requeuePropagation store.outbox id store.setting.now wait).map fun after =>
      { store with outbox := after }
  | .released =>
    (releasePropagation store.outbox id).map fun after => { store with outbox := after }

structure EntitlementIntent where
  outboxId : Nat
  target : String
  planId : Nat
  subjectId : String
  fingerprint : String
  desired : Desired
  version : Nat
  surface : String
deriving DecidableEq

def readEntitlementIntent (store : Store) (outboxId : Nat) : Option EntitlementIntent :=
  (store.outbox.rows.find? fun row => row.id = outboxId).bind fun row =>
    ((store.planSubjectId outboxId).bind store.planSubject).bind fun subject =>
      (store.plan subject.planId).bind fun plan =>
        (subject.snapshotId.bind store.snapshot).map fun snapshot =>
          { outboxId := outboxId
            target := row.target
            planId := subject.planId
            subjectId := snapshot.subjectId
            fingerprint := subject.fingerprint
            desired := snapshot.stateJson
            version := snapshot.version
            surface := plan.surface }

structure PlanAnswer where
  succeeded : Bool
  outcomes : List (PlanEffect × String)
  current : Bool
  truncated : Bool
deriving DecidableEq

inductive Prepared where
  | send (intent : EntitlementIntent) (fingerprint : String)
  | fail
  | leave
deriving DecidableEq

/-- An approved row carries the fingerprint that was reviewed; a row of the
system's own is re-read. -/
def fingerprintFor (intent : EntitlementIntent) (answer : PlanAnswer) : Prepared :=
  if intent.surface ≠ systemConvergenceSurface then .send intent intent.fingerprint
  else
    match answer.outcomes with
    | [(effect, fingerprint)] =>
      if !answer.succeeded || !answer.current || answer.truncated then .leave
      else if effect = .blocked then .fail
      else .send intent fingerprint
    | _ => .leave

inductive Outcome where
  | succeeded
  | rejected
  | unreached
  | indeterminate
deriving DecidableEq

structure ApplyResponse where
  outcome : Outcome
  lifecycleRefusal : Bool
  /-- Recording the binding met `ErrBindingConflict`. -/
  bindingConflict : Bool
deriving DecidableEq

/-- The settle a response calls for; `none` leaves the row in flight. -/
def settleFor (maxRetries : Nat) (row : OutboxRow) (resp : ApplyResponse) (wait : Time) :
    Option Settle :=
  if resp.outcome = .succeeded then
    if resp.bindingConflict then some .failed else some .applied
  else if resp.lifecycleRefusal then some .released
  else
    match resp.outcome with
    | .rejected => some .failed
    | .unreached => if maxRetries ≤ row.attempts then some .failed else some (.requeued wait)
    | _ => none

structure DrainResult where
  applied : Nat
  failed : Nat
  requeued : Nat
  abandoned : Nat
  errored : Nat
  exhausted : Nat
deriving DecidableEq

def DrainResult.zero : DrainResult := ⟨0,0,0,0,0,0⟩

def DrainResult.count (res : DrainResult) : Settle → DrainResult
  | .applied => { res with applied := res.applied + 1 }
  | .failed => { res with failed := res.failed + 1 }
  | .requeued _ => { res with requeued := res.requeued + 1 }
  | .released => { res with requeued := res.requeued + 1 }

/-- A settle that may not land: a write that failed leaves the row in flight, a
row that is no longer in flight was abandoned. -/
def settleRow (store : Store) (id : Nat) (how : Settle) (lands : Bool) (res : DrainResult) :
    Store × DrainResult × Bool :=
  if lands then
    match store.settle id how with
    | some after => (after, res.count how, true)
    | none => (store, { res with abandoned := res.abandoned + 1 }, false)
  else (store, { res with errored := res.errored + 1 }, false)

def exhausts (maxRetries : Nat) (row : OutboxRow) (resp : ApplyResponse) : Bool :=
  resp.outcome = .unreached && !resp.lifecycleRefusal && decide (maxRetries ≤ row.attempts)

end Syndra.Entitlement
