/-
Approvals of entitlement changes, and the work they queue.

A plan has one row per subject, each citing the desired-state snapshot that was proposed.
-/

import Syndra.Foundation.Text
import Syndra.Propagation.Claims

namespace Syndra.Entitlement

open Access Foundation.Text Propagation

abbrev Desired := List (String × String)

structure Snapshot where
  id : Nat
  subjectId : String
  target : String
  version : Nat
  stateJson : Desired
  createdBy : String
deriving DecidableEq

inductive PlanEffect where
  | apply
  | noChange
  | blocked
deriving DecidableEq

structure Plan where
  id : Nat
  target : String
  surface : String
  createdBy : String
  createdAt : Time
  expiresAt : Option Time
  provisional : Bool
  stateReadAt : Option Time
  appliedAt : Option Time
  requestFingerprint : String
deriving DecidableEq

structure PlanSubject where
  id : Nat
  planId : Nat
  subjectId : String
  snapshotId : Option Nat
  fingerprint : String
  effect : PlanEffect
deriving DecidableEq

structure Store where
  setting : Setting
  disabledTargets : List String
  snapshots : List Snapshot
  plans : List Plan
  planSubjects : List PlanSubject
  outbox : Outbox
  /-- The columns `plan_subject_id` and `completed_at`, by outbox id. -/
  planSubjectId : Nat → Option Nat
  completedAt : Nat → Option Time
  nextId : Nat

namespace Store

def snapshot (store : Store) (id : Nat) : Option Snapshot :=
  store.snapshots.find? fun snapshot => snapshot.id = id

def planSubject (store : Store) (id : Nat) : Option PlanSubject :=
  store.planSubjects.find? fun subject => subject.id = id

def plan (store : Store) (id : Nat) : Option Plan :=
  store.plans.find? fun plan => plan.id = id

end Store

def systemConvergenceSurface : String := "entitlements.lifecycle"

end Syndra.Entitlement
