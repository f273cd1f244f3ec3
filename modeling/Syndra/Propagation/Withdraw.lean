/-
Countermanding before compensating.

A single-role add or revoke first cancels the queued change it answers; the cancel gate is
asked before anything is cancelled, and whether the write is still owed is read off the last
applied delivery of the role.
-/

import Syndra.Foundation.Grouping
import Syndra.Propagation.Claims

namespace Syndra.Propagation

open Access Foundation.Grouping List Except

inductive EndRule where
  | kept
  | set
deriving DecidableEq

structure EnqueueParams where
  userId : String
  projectId : String
  roleKeys : List String
  expiresAt : Option Time
  /-- `none` is the source's empty string, which means a direct write. -/
  source : Option Source
  sourceRef : String
  opType : OpType
  noPropagation : Bool
  endRule : EndRule
  waitReason : Option WaitReason
deriving DecidableEq

def outboxSource (p : EnqueueParams) : Source := p.source.getD .direct

structure QueuedChange where
  id : Nat
  opType : OpType
  userId : String
  projectId : String
  roleKeys : List String
  source : Source
  sourceRef : String
deriving DecidableEq

def OutboxRow.queuedChange (row : OutboxRow) : QueuedChange :=
  { id := row.id
    opType := row.opType
    userId := row.userId
    projectId := row.projectId
    roleKeys := row.roleKeys
    source := row.source
    sourceRef := row.sourceRef }

def answersAny (p : EnqueueParams) : Bool :=
  p.roleKeys.length = 1 && (p.opType = .add || p.opType = .revoke)

/-- The one statement of which queued change a write cancels. -/
def answers (p : EnqueueParams) (c : QueuedChange) : Bool :=
  if !answersAny p || c.userId ≠ p.userId || c.projectId ≠ p.projectId ||
      c.roleKeys ≠ p.roleKeys then false
  else if p.opType = .add then c.opType = .revoke
  else if c.opType ≠ .add && c.opType ≠ .replace then false
  else c.source = outboxSource p && (outboxSource p = .direct || c.sourceRef = p.sourceRef)

def answeredBy (p : EnqueueParams) (queued : List QueuedChange) : List QueuedChange :=
  queued.filter (answers p)

structure CancelGate where
  acked : List Nat
  reviewed : Bool
  asks : Bool
deriving DecidableEq

/-- Expiry, onboarding and other system work carry no gate. -/
def admitCancellations (gate : Option CancelGate) (changes : List QueuedChange) : Bool :=
  match gate with
  | none => true
  | some gate => !gate.asks || gate.reviewed || changes.all fun change => change.id ∈ gate.acked

inductive EnqueueError where
  | wouldCancel (refused : List QueuedChange)
deriving DecidableEq

def candidate (target : String) (p : EnqueueParams) (row : OutboxRow) : Bool :=
  row.target = target && row.status = .pending && row.userId = p.userId &&
    row.projectId = p.projectId && row.roleKeys = p.roleKeys

def candidates (target : String) (outbox : Outbox) (p : EnqueueParams) : List QueuedChange :=
  (outbox.rows.filter (candidate target p)).map OutboxRow.queuedChange

def maxApplied (target : String) (outbox : Outbox) (key : HeldRole) (ops : List OpType) : Nat :=
  ((outbox.rows.filter fun row =>
    row.target = target && row.userId = key.userId && row.status = .applied &&
      row.projectId = key.projectId && key.roleKey ∈ row.roleKeys &&
      row.opType ∈ ops).map OutboxRow.intentSeq).foldl max 0

def standingFor (target : String) (outbox : Outbox) (key : HeldRole) : Bool :=
  maxApplied target outbox key [.revoke] < maxApplied target outbox key [.add,.replace]

def owedAfterCancel (p : EnqueueParams) (standing : Bool) : Bool :=
  standing == decide (p.opType = .revoke)

def EnqueueParams.key (p : EnqueueParams) : HeldRole :=
  { userId := p.userId
    projectId := p.projectId
    roleKey := p.roleKeys.headD "" }

def Outbox.supersede (outbox : Outbox) (ids : List Nat) : Outbox :=
  outbox.update fun row =>
    if row.id ∈ ids then { row.toDelivery with status := .superseded } else row.toDelivery

def withdrawUndelivered (gate : Option CancelGate) (target : String) (outbox : Outbox)
    (p : EnqueueParams) : Except EnqueueError (Outbox × Bool) :=
  if !answersAny p then .ok (outbox, true)
  else
    match answeredBy p (candidates target outbox p) with
    | [] => .ok (outbox, true)
    | first :: more =>
      if !admitCancellations gate (first :: more) then .error (.wouldCancel (first :: more))
      else
        let cancelled := outbox.supersede ((first :: more).map QueuedChange.id)
        .ok (cancelled, owedAfterCancel p (standingFor target cancelled p.key))

def EnqueueParams.intent (p : EnqueueParams) : Intent :=
  { target := zitadelTarget
    opType := p.opType
    userId := p.userId
    projectId := p.projectId
    roleKeys := p.roleKeys
    source := outboxSource p
    sourceRef := p.sourceRef
    withdrawsOnly := false }

def queuedAdd (outbox : Outbox) (p : EnqueueParams) : Option OutboxRow :=
  outbox.rows.find? fun row => candidate zitadelTarget p row && row.opType = .add

def enqueueRow (gate : Option CancelGate) (named : Bool) (outbox : Outbox) (p : EnqueueParams) :
    Except EnqueueError (Outbox × Option Nat) :=
  match withdrawUndelivered gate zitadelTarget outbox p with
  | .error refusal => .error refusal
  | .ok (after, false) => .ok (after, none)
  | .ok (after, true) =>
    match (if named && p.opType = .add then queuedAdd after p else none) with
    | some queued => .ok (after, some queued.id)
    | none => .ok (after.insert p.intent p.waitReason, some after.nextSeq)

def enqueueRows (gate : Option CancelGate) :
    Outbox → List EnqueueParams → Except EnqueueError (Outbox × List Nat)
  | outbox, [] => .ok (outbox, [])
  | outbox, p :: rest =>
    match enqueueRow gate false outbox p with
    | .error refusal => .error refusal
    | .ok (after, id) =>
      match enqueueRows gate after rest with
      | .error refusal => .error refusal
      | .ok (final, ids) => .ok (final, id.toList ++ ids)

inductive ReplayRefusal where
  | supersededByRevocation
deriving DecidableEq

def coveredByRevocation (outbox : Outbox) (userId projectId : String)
    (roleKeys : List String) : Bool :=
  outbox.rows.any fun row =>
    row.userId = userId && row.projectId = projectId && decide row.Unresolved &&
      ((row.opType = .revoke && row.roleKeys.any fun role => role ∈ roleKeys) ||
        (row.opType = .replace && roleKeys.any fun role => role ∉ row.roleKeys))

/-- The drift sweep's insert. The columns it does not name take their defaults:
source direct, no reference. -/
def insertPendingPropagation (outbox : Outbox) (opType : OpType) (userId projectId : String)
    (roleKeys : List String) : Except ReplayRefusal Outbox :=
  if coveredByRevocation outbox userId projectId roleKeys then .error .supersededByRevocation
  else .ok (outbox.insert
    { target := zitadelTarget
      opType := opType
      userId := userId
      projectId := projectId
      roleKeys := roleKeys
      source := .direct
      sourceRef := ""
      withdrawsOnly := false } none)

variable {outbox : Outbox} {p : EnqueueParams} {row : OutboxRow} {target : String}
  {ops : List OpType}

theorem mem_answered_ids (mem : row ∈ outbox.rows) :
    row.id ∈ (answeredBy p (candidates target outbox p)).map QueuedChange.id ↔
      candidate target p row = true ∧ answers p row.queuedChange = true := by
  constructor
  · intro listed
    obtain ⟨_,answered,same⟩ := mem_map.mp listed
    obtain ⟨queued,matching⟩ := mem_filter.mp answered
    obtain ⟨origin,found,rfl⟩ := mem_map.mp queued
    obtain ⟨present,narrowed⟩ := mem_filter.mp found
    have identical : origin = row := outbox.eq_of_id_eq present mem same
    subst identical
    exact ⟨narrowed,matching⟩
  · intro both
    have queued : row.queuedChange ∈ candidates target outbox p :=
      mem_map_of_mem (mem_filter.mpr ⟨mem,both.1⟩)
    exact mem_map.mpr ⟨row.queuedChange,mem_filter.mpr ⟨queued,both.2⟩,rfl⟩

def CountsApplied (target : String) (key : HeldRole) (ops : List OpType) (row : OutboxRow) : Prop :=
  row.target = target ∧ row.userId = key.userId ∧ row.status = .applied ∧
    row.projectId = key.projectId ∧ key.roleKey ∈ row.roleKeys ∧ row.opType ∈ ops

variable {key : HeldRole} {change : OutboxRow → Delivery} {gate : Option CancelGate}
  {after : Outbox}

theorem le_maxApplied (mem : row ∈ outbox.rows) (counts : CountsApplied target key ops row) :
    row.intentSeq ≤ maxApplied target outbox key ops := by
  refine (le_foldl_max 0).2 _ (mem_map_of_mem (mem_filter.mpr ⟨mem,?_⟩))
  simp only [Bool.and_eq_true,decide_eq_true_eq,and_assoc]
  exact counts

theorem exists_of_maxApplied (some : 0 < maxApplied target outbox key ops) :
    ∃ row ∈ outbox.rows, CountsApplied target key ops row ∧
      row.intentSeq = maxApplied target outbox key ops := by
  unfold maxApplied at some ⊢
  rcases foldl_max_mem ((outbox.rows.filter fun row =>
    row.target = target && row.userId = key.userId && row.status = .applied &&
      row.projectId = key.projectId && key.roleKey ∈ row.roleKeys &&
      row.opType ∈ ops).map OutboxRow.intentSeq) 0 with zero | listed
  · rw [zero] at some
    exact absurd some (Nat.lt_irrefl 0)
  obtain ⟨row,among,same⟩ := mem_map.mp listed
  obtain ⟨mem,selected⟩ := mem_filter.mp among
  simp only [Bool.and_eq_true,decide_eq_true_eq,and_assoc] at selected
  exact ⟨row,mem,selected,same⟩

theorem maxApplied_le {first second : Outbox}
    (covered : ∀ row ∈ first.rows, CountsApplied target key ops row →
      ∃ other ∈ second.rows, CountsApplied target key ops other ∧ row.intentSeq = other.intentSeq) :
    maxApplied target first key ops ≤ maxApplied target second key ops := by
  rcases Nat.eq_zero_or_pos (maxApplied target first key ops) with zero | some
  · rw [zero]
    exact Nat.zero_le _
  obtain ⟨row,mem,counts,same⟩ := exists_of_maxApplied some
  obtain ⟨_,otherMember,otherCounts,number⟩ := covered row mem counts
  rw [← same,number]
  exact le_maxApplied otherMember otherCounts

theorem maxApplied_update
    (kept : ∀ row ∈ outbox.rows, (change row).status = .applied ↔ row.status = .applied)
    :
    maxApplied target (outbox.update change) key ops = maxApplied target outbox key ops := by
  unfold maxApplied
  rw [Outbox.rows_update,filter_map,map_map]
  congr 1
  congr 1
  apply filter_congr
  intro row mem
  rw [Bool.eq_iff_iff]
  simp only [Function.comp_apply,Bool.and_eq_true,decide_eq_true_eq]
  rw [OutboxRow.toIntent_withDelivery,OutboxRow.toDelivery_withDelivery,kept row mem]

theorem standingFor_update
    (kept : ∀ row ∈ outbox.rows, (change row).status = .applied ↔ row.status = .applied)
    :
    standingFor target (outbox.update change) key = standingFor target outbox key := by
  unfold standingFor
  rw [maxApplied_update kept,maxApplied_update kept]

theorem pending_of_candidate (narrowed : candidate target p row = true) :
    row.status = .pending := by
  simp only [candidate,Bool.and_eq_true,decide_eq_true_eq] at narrowed
  exact narrowed.1.1.1.2

theorem standingFor_supersede_answered (target : String) (outbox : Outbox) (p : EnqueueParams)
    (key : HeldRole) :
    standingFor target
      (outbox.supersede ((answeredBy p (candidates target outbox p)).map QueuedChange.id)) key =
        standingFor target outbox key := by
  apply standingFor_update
  intro _ mem
  split
  · next listed =>
    have waiting := pending_of_candidate ((mem_answered_ids mem).mp listed).1
    rw [waiting]
    constructor <;> intro impossible <;> cases impossible
  · exact Iff.rfl

theorem withdrawUndelivered_ok {owed : Bool}
    (withdrawn : withdrawUndelivered gate target outbox p = .ok (after, owed)) :
    (after = outbox ∧ owed = true ∧
      (answersAny p = false ∨ answeredBy p (candidates target outbox p) = [])) ∨
    (answersAny p = true ∧ answeredBy p (candidates target outbox p) ≠ [] ∧
      admitCancellations gate (answeredBy p (candidates target outbox p)) = true ∧
      after = outbox.supersede
        ((answeredBy p (candidates target outbox p)).map QueuedChange.id) ∧
      owed = owedAfterCancel p (standingFor target outbox p.key)) := by
  unfold withdrawUndelivered at withdrawn
  cases any : answersAny p with
  | false =>
    simp only [any,Bool.not_false,if_true,ok.injEq,Prod.mk.injEq] at withdrawn
    exact .inl ⟨withdrawn.1.symm,withdrawn.2.symm,.inl rfl⟩
  | true =>
    simp only [any,Bool.not_true,Bool.false_eq_true,if_false] at withdrawn
    cases found : answeredBy p (candidates target outbox p) with
    | nil =>
      simp only [found,ok.injEq,Prod.mk.injEq] at withdrawn
      exact .inl ⟨withdrawn.1.symm,withdrawn.2.symm,.inr rfl⟩
    | cons first more =>
      cases admitted : admitCancellations gate (first :: more) with
      | false => simp [found,admitted] at withdrawn
      | true =>
        simp only [found,admitted,Bool.not_true,Bool.false_eq_true,if_false,
          ok.injEq,Prod.mk.injEq] at withdrawn
        have standing := standingFor_supersede_answered target outbox p p.key
        rw [found] at standing
        rw [standing] at withdrawn
        exact .inr ⟨rfl,cons_ne_nil _ _,rfl,withdrawn.1.symm,withdrawn.2.symm⟩

theorem enqueueRow_ok {named : Bool} {id : Option Nat}
    (written : enqueueRow gate named outbox p = .ok (after, id)) :
    ∃ middle owed, withdrawUndelivered gate zitadelTarget outbox p = .ok (middle, owed) ∧
      ((owed = false ∧ after = middle ∧ id = none) ∨
       (owed = true ∧ named = true ∧ p.opType = .add ∧ after = middle ∧
          ∃ queued ∈ middle.rows, candidate zitadelTarget p queued = true ∧
            queued.opType = .add ∧ id = some queued.id) ∨
       (owed = true ∧ after = middle.insert p.intent p.waitReason ∧ id = some middle.nextSeq)) := by
  unfold enqueueRow at written
  cases withdrawn : withdrawUndelivered gate zitadelTarget outbox p with
  | error => rw [withdrawn] at written; cases written
  | ok result =>
    obtain ⟨middle,owed⟩ := result
    rw [withdrawn] at written
    refine ⟨middle,owed,rfl,?_⟩
    cases owed with
    | false =>
      simp only [ok.injEq,Prod.mk.injEq] at written
      exact .inl ⟨rfl,written.1.symm,written.2.symm⟩
    | true =>
      refine .inr ?_
      simp only at written
      split at written
      · next queued found =>
        simp only [ok.injEq,Prod.mk.injEq] at written
        refine .inl ⟨rfl,?_⟩
        split at found
        · next own =>
          simp only [Bool.and_eq_true,decide_eq_true_eq] at own
          have matching := find?_some found
          simp only [Bool.and_eq_true,decide_eq_true_eq] at matching
          exact ⟨own.1,own.2,written.1.symm,queued,mem_of_find?_eq_some found,
            matching.1,matching.2,written.2.symm⟩
        · cases found
      · simp only [ok.injEq,Prod.mk.injEq] at written
        exact .inr ⟨rfl,written.1.symm,written.2.symm⟩

end Syndra.Propagation
