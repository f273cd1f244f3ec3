/-
The queue of one role.

A single-role write reads and changes only the pending rows of its own person, project and
role.
-/

import Syndra.Propagation.Withdraw

namespace Syndra.Propagation

open List Outbox

structure EnqueueParams.Single (p : EnqueueParams) : Prop where
  role : p.roleKeys = [p.key.roleKey]
  op : p.opType = .add ∨ p.opType = .revoke

def OutboxRow.waitsFor (key : HeldRole) (row : OutboxRow) : Bool :=
  row.target = zitadelTarget && row.status = .pending && row.userId = key.userId &&
    row.projectId = key.projectId && row.roleKeys = [key.roleKey]

def OutboxRow.isFor (key : HeldRole) (row : OutboxRow) : Bool :=
  row.target = zitadelTarget && row.userId = key.userId && row.projectId = key.projectId &&
    row.roleKeys = [key.roleKey]

def Outbox.rowsFor (outbox : Outbox) (key : HeldRole) : List OutboxRow :=
  outbox.rows.filter (OutboxRow.isFor key)

def Outbox.queuedFor (outbox : Outbox) (key : HeldRole) : List OutboxRow :=
  outbox.rows.filter (OutboxRow.waitsFor key)

def cancelled (outbox : Outbox) (p : EnqueueParams) : List OutboxRow :=
  (outbox.queuedFor p.key).filter fun row => answers p row.queuedChange

def uncancelled (outbox : Outbox) (p : EnqueueParams) : List OutboxRow :=
  (outbox.queuedFor p.key).filter fun row => !answers p row.queuedChange

def OutboxRow.superseded (row : OutboxRow) : OutboxRow :=
  row.withDelivery { row.toDelivery with status := .superseded }

def OutboxRow.afterWrite (p : EnqueueParams) (row : OutboxRow) : OutboxRow :=
  if row.waitsFor p.key && answers p row.queuedChange then row.superseded else row

theorem OutboxRow.waitsFor_iff (key : HeldRole) (row : OutboxRow) : row.waitsFor key = true ↔
      row.target = zitadelTarget ∧ row.status = .pending ∧ row.userId = key.userId ∧
        row.projectId = key.projectId ∧ row.roleKeys = [key.roleKey] := by
  simp only [waitsFor,Bool.and_eq_true,decide_eq_true_eq,and_assoc]

theorem OutboxRow.isFor_iff (key : HeldRole) (row : OutboxRow) : row.isFor key = true ↔
      row.target = zitadelTarget ∧ row.userId = key.userId ∧ row.projectId = key.projectId ∧
        row.roleKeys = [key.roleKey] := by
  simp only [isFor,Bool.and_eq_true,decide_eq_true_eq,and_assoc]

theorem OutboxRow.waitsFor_iff_isFor (key : HeldRole) (row : OutboxRow) :
    row.waitsFor key = true ↔ row.isFor key = true ∧ row.status = .pending := by
  rw [OutboxRow.waitsFor_iff,OutboxRow.isFor_iff]
  constructor
  · intro ⟨target,status,rest⟩
    exact ⟨⟨target,rest⟩,status⟩
  · intro ⟨⟨target,rest⟩,status⟩
    exact ⟨target,status,rest⟩

open OutboxRow (afterWrite waitsFor queuedChange)

variable {row : OutboxRow} {inserted : List OutboxRow} {named : Bool} {outbox after : Outbox}
  {p : EnqueueParams} {seq : Nat} {gate : Option CancelGate}

theorem OutboxRow.key_of_isFor {first second : HeldRole} (one : row.isFor first = true)
    (two : row.isFor second = true) : first = second := by
  rw [OutboxRow.isFor_iff] at one two
  obtain ⟨-,user,project,role⟩ := one
  obtain ⟨-,user',project',role'⟩ := two
  have sameRole := singleton_inj.mp (role.symm.trans role')
  cases first
  cases second
  simp only [HeldRole.mk.injEq]
  exact ⟨user.symm.trans user',project.symm.trans project',sameRole⟩

variable {key : HeldRole}

theorem OutboxRow.not_waitsFor_superseded : row.superseded.waitsFor key = false := by
  simp [waitsFor,superseded]

namespace EnqueueParams.Single

variable {p : EnqueueParams}

theorem answersAny (single : p.Single) : answersAny p = true := by
  unfold Propagation.answersAny
  rw [single.role]
  rcases single.op with op | op <;> simp [op]

theorem candidate_eq (single : p.Single) (row : OutboxRow) :
    candidate zitadelTarget p row = row.waitsFor p.key := by
  unfold candidate
  rw [single.role]
  rfl

theorem answeredBy_candidates (single : p.Single) (outbox : Outbox) :
    answeredBy p (candidates zitadelTarget outbox p) =
      (cancelled outbox p).map queuedChange := by
  unfold answeredBy candidates
  rw [filter_map,filter_congr fun row _ => single.candidate_eq row]
  rfl

theorem waitsFor_freshRow (single : p.Single) (seq : Nat) :
    (p.intent.freshRow p.waitReason seq).waitsFor p.key = true := by
  rw [OutboxRow.waitsFor_iff]
  exact ⟨rfl,rfl,rfl,rfl,single.role⟩

variable {row : OutboxRow}

private theorem inScope (single : p.Single) (waits : row.waitsFor p.key = true) :
    (!Propagation.answersAny p || row.queuedChange.userId ≠ p.userId ||
      row.queuedChange.projectId ≠ p.projectId || row.queuedChange.roleKeys ≠ p.roleKeys) =
        false := by
  obtain ⟨-,-,user,project,role⟩ := (row.waitsFor_iff p.key).mp waits
  rw [single.answersAny,single.role]
  simp [queuedChange,user,project,role,EnqueueParams.key]

theorem answers_add (single : p.Single) (op : p.opType = .add) (waits : row.waitsFor p.key = true) :
    answers p row.queuedChange = true ↔ row.opType = .revoke := by
  unfold answers
  rw [single.inScope waits,if_neg Bool.false_ne_true,if_pos op,decide_eq_true_eq]
  rfl

theorem answers_revoke (single : p.Single) (op : p.opType = .revoke)
    (waits : row.waitsFor p.key = true) :
    answers p row.queuedChange = true ↔
      (row.opType = .add ∨ row.opType = .replace) ∧ row.source = outboxSource p ∧
        (outboxSource p = .direct ∨ row.sourceRef = p.sourceRef) := by
  have notAdd : p.opType ≠ .add := by
    rw [op]
    intro impossible
    cases impossible
  unfold answers
  rw [single.inScope waits,if_neg notAdd]
  cases kind : row.opType <;> simp [queuedChange,kind]

end EnqueueParams.Single

theorem Outbox.queuedFor_eq :
    outbox.queuedFor key = (outbox.rowsFor key).filter fun row => row.status = .pending := by
  unfold rowsFor
  rw [filter_filter]
  apply filter_congr
  intro _ _member
  rw [Bool.eq_iff_iff,OutboxRow.waitsFor_iff_isFor,Bool.and_eq_true,decide_eq_true_eq,and_comm]

/-! ### What one write did -/

def OwnRow (named : Bool) (outbox : Outbox) (p : EnqueueParams) (seq : Nat)
    (inserted : List OutboxRow) : Prop :=
  (inserted = [p.intent.freshRow p.waitReason seq] ∧ (cancelled outbox p = [] ∨
      owedAfterCancel p (standingFor zitadelTarget outbox p.key) = true)) ∨
  (inserted = [] ∧ cancelled outbox p ≠ [] ∧
    owedAfterCancel p (standingFor zitadelTarget outbox p.key) = false) ∨
  (inserted = [] ∧ named = true ∧ p.opType = .add ∧ ∃ row ∈ uncancelled outbox p, row.opType = .add)

/-- A write that went through: the answered rows are superseded and nothing else
changed. -/
structure Wrote (named : Bool) (outbox : Outbox) (p : EnqueueParams) (after : Outbox)
    (inserted : List OutboxRow) : Prop where
  rows : after.rows = outbox.rows.map (OutboxRow.afterWrite p) ++ inserted
  next : after.nextSeq = outbox.nextSeq + inserted.length
  own : OwnRow named outbox p outbox.nextSeq inserted

theorem OwnRow.eq_fresh (own : OwnRow named outbox p seq inserted) :
    ∀ row ∈ inserted, row = p.intent.freshRow p.waitReason seq := by
  intro _ mem
  rcases own with ⟨rfl,-⟩ | ⟨rfl,-⟩ | ⟨rfl,-⟩
  · exact mem_singleton.mp mem
  · cases mem
  · cases mem

theorem OwnRow.congr {first second : Outbox}
    (queue : first.queuedFor p.key = second.queuedFor p.key)
    (standing : standingFor zitadelTarget first p.key = standingFor zitadelTarget second p.key)
    (own : OwnRow named first p seq inserted) : OwnRow named second p seq inserted := by
  unfold OwnRow cancelled uncancelled at own ⊢
  rwa [queue,standing] at own

theorem mem_cancelled : row ∈ cancelled outbox p ↔
      row ∈ outbox.rows ∧ row.waitsFor p.key = true ∧ answers p row.queuedChange = true := by
  unfold cancelled queuedFor
  rw [mem_filter,mem_filter,and_assoc]

theorem unresolved_afterWrite : decide (row.afterWrite p).Unresolved =
      (decide row.Unresolved && !(row.waitsFor p.key && answers p row.queuedChange)) := by
  unfold afterWrite
  cases answered : row.waitsFor p.key && answers p row.queuedChange with
  | false =>
    exact (Bool.and_true _).symm
  | true =>
    exact (Bool.and_false _).symm

theorem afterWrite_eq_self (mem : row ∈ outbox.rows) (kept : row ∉ cancelled outbox p) :
    row.afterWrite p = row := by
  unfold afterWrite
  split
  · next answered =>
    rw [Bool.and_eq_true] at answered
    exact absurd (mem_filter.mpr ⟨mem_filter.mpr ⟨mem,answered.1⟩,answered.2⟩) kept
  · rfl

private theorem rows_supersede_cancelled (single : p.Single) :
    (outbox.supersede ((answeredBy p (candidates zitadelTarget outbox p)).map
      QueuedChange.id)).rows = outbox.rows.map (afterWrite p) := by
  apply map_congr_left
  intro _ mem
  unfold afterWrite
  simp only [mem_answered_ids mem,single.candidate_eq,← Bool.and_eq_true]
  split <;> rfl

theorem withdraw_rows {owed : Bool} (single : p.Single)
    (withdrawn : withdrawUndelivered gate zitadelTarget outbox p = .ok (after, owed)) :
    after.rows = outbox.rows.map (afterWrite p) ∧ after.nextSeq = outbox.nextSeq ∧
      ((cancelled outbox p = [] ∧ owed = true) ∨ (cancelled outbox p ≠ [] ∧
          owed = owedAfterCancel p (standingFor zitadelTarget outbox p.key))) := by
  rcases withdrawUndelivered_ok withdrawn with
    ⟨rfl,isOwed,none⟩ | ⟨-,some,-,rfl,isOwed⟩
  · rw [single.answersAny,single.answeredBy_candidates,map_eq_nil_iff] at none
    have empty := none.resolve_left nofun
    refine ⟨?_,rfl,.inl ⟨empty,isOwed⟩⟩
    symm
    calc after.rows.map (afterWrite p)
        = after.rows.map id := map_congr_left fun row mem =>
          afterWrite_eq_self mem (by rw [empty]; exact not_mem_nil)
      _ = after.rows := map_id _
  · refine ⟨rows_supersede_cancelled single,rfl,.inr ⟨?_,isOwed⟩⟩
    rw [single.answeredBy_candidates] at some
    exact fun empty => some (by rw [empty]; rfl)

theorem queuedFor_map_afterWrite {rows : List OutboxRow} :
    (rows.map (afterWrite p)).filter (waitsFor key) =
      (rows.filter (waitsFor key)).filter fun row =>
        !(row.waitsFor p.key && answers p row.queuedChange) := by
  induction rows with
  | nil => rfl
  | cons row _ ih =>
    rw [map_cons,filter_cons,filter_cons,ih]
    unfold afterWrite
    cases answered : (row.waitsFor p.key && answers p row.queuedChange) with
    | true =>
      simp only [if_true,OutboxRow.not_waitsFor_superseded,Bool.false_eq_true,if_false]
      split
      · rw [filter_cons,answered]
        rfl
      · rfl
    | false =>
      simp only [Bool.false_eq_true,if_false]
      split
      · rw [filter_cons,answered]
        rfl
      · rfl

theorem queuedFor_afterWrite_self :
    (outbox.rows.map (afterWrite p)).filter (waitsFor p.key) =
      uncancelled outbox p := by
  rw [queuedFor_map_afterWrite]
  apply filter_congr
  intro _ mem
  rw [(mem_filter.mp mem).2,Bool.true_and]

theorem enqueueRow_wrote {id : Option Nat} (single : p.Single)
    (written : enqueueRow gate named outbox p = .ok (after, id)) :
    ∃ inserted, Wrote named outbox p after inserted ∧
      (named = false → id.toList = inserted.map OutboxRow.id) := by
  obtain ⟨middle,_,withdrawn,outcome⟩ := enqueueRow_ok written
  obtain ⟨rows,next,isOwed⟩ := withdraw_rows single withdrawn
  rcases outcome with ⟨rfl,rfl,rfl⟩ | ⟨rfl,rfl,op,rfl,queued,mem,matching,add,rfl⟩ |
    ⟨rfl,rfl,rfl⟩
  · refine ⟨[],⟨?_,next,.inr (.inl ?_)⟩,fun _ => rfl⟩
    · rw [rows,append_nil]
    rcases isOwed with ⟨-,impossible⟩ | ⟨some,notOwed⟩
    · cases impossible
    · exact ⟨rfl,some,notOwed.symm⟩
  · refine ⟨[],⟨?_,next,.inr (.inr ⟨rfl,rfl,op,queued,?_,add⟩)⟩,?_⟩
    · rw [rows,append_nil]
    · rw [single.candidate_eq] at matching
      rw [← queuedFor_afterWrite_self,← rows]
      exact mem_filter.mpr ⟨mem,matching⟩
    · intro impossible
      cases impossible
  · refine ⟨[p.intent.freshRow p.waitReason middle.nextSeq],⟨?_,?_,.inl ⟨?_,?_⟩⟩, fun _ => rfl⟩
    · rw [rows_insert,rows]
    · change middle.nextSeq + 1 = _
      rw [next]
      rfl
    · rw [next]
    rcases isOwed with ⟨none,-⟩ | ⟨-,stillOwed⟩
    · exact .inl none
    · exact .inr stillOwed.symm

/-! ### The queues after a write -/

namespace Wrote

variable {named : Bool} {outbox after : Outbox} {p : EnqueueParams} {inserted : List OutboxRow}

section

variable (wrote : Wrote named outbox p after inserted)
include wrote

theorem eq_fresh :
    ∀ row ∈ inserted, row = p.intent.freshRow p.waitReason outbox.nextSeq :=
  wrote.own.eq_fresh

theorem rowsFor_self (single : p.Single) :
    after.rowsFor p.key = (outbox.rowsFor p.key).map (afterWrite p) ++ inserted := by
  unfold rowsFor
  rw [wrote.rows,filter_append,filter_map]
  congr 1
  · congr 1
    apply filter_congr
    intro row _member
    rw [Function.comp_apply]
    unfold afterWrite
    split <;> rfl
  · apply filter_eq_self.mpr
    intro row mem
    rw [wrote.eq_fresh row mem]
    exact ((OutboxRow.waitsFor_iff_isFor _ _).mp (single.waitsFor_freshRow _)).1

theorem queuedFor_self (single : p.Single) :
    after.queuedFor p.key = uncancelled outbox p ++ inserted := by
  unfold queuedFor
  rw [wrote.rows,filter_append,queuedFor_afterWrite_self]
  congr 1
  apply filter_eq_self.mpr
  intro row mem
  rw [wrote.eq_fresh row mem]
  exact single.waitsFor_freshRow _

theorem rowsFor_of_ne (single : p.Single)
    (other : key ≠ p.key) : after.rowsFor key = outbox.rowsFor key := by
  have elsewhere (row : OutboxRow) (mine : row.isFor p.key = true) : row.isFor key = false := by
    cases theirs : row.isFor key with
    | true => exact absurd (OutboxRow.key_of_isFor theirs mine) other
    | false => rfl
  unfold rowsFor
  rw [wrote.rows,filter_append]
  have noFresh : inserted.filter (OutboxRow.isFor key) = [] := by
    apply filter_eq_nil_iff.mpr
    intro row mem
    rw [wrote.eq_fresh row mem,elsewhere]
    · exact Bool.false_ne_true
    · exact ((OutboxRow.waitsFor_iff_isFor _ _).mp (single.waitsFor_freshRow _)).1
  rw [noFresh,append_nil]
  induction outbox.rows with
  | nil => rfl
  | cons row _ ih =>
    rw [map_cons,filter_cons,filter_cons,ih]
    unfold afterWrite
    split
    · next answered =>
      rw [Bool.and_eq_true] at answered
      have apart := elsewhere row ((row.waitsFor_iff_isFor _).mp answered.1).1
      have still : row.superseded.isFor key = false := apart
      rw [apart,still]
      rfl
    · rfl

theorem queuedFor_of_ne (single : p.Single)
    (other : key ≠ p.key) : after.queuedFor key = outbox.queuedFor key := by
  rw [queuedFor_eq,queuedFor_eq,wrote.rowsFor_of_ne single other]

theorem maxApplied (key : HeldRole)
    (ops : List OpType) :
    maxApplied zitadelTarget after key ops = maxApplied zitadelTarget outbox key ops := by
  unfold Propagation.maxApplied
  rw [wrote.rows,filter_append,map_append]
  have noFresh : (inserted.filter fun row =>
      row.target = zitadelTarget && row.userId = key.userId && row.status = .applied &&
        row.projectId = key.projectId && key.roleKey ∈ row.roleKeys && row.opType ∈ ops) = [] := by
    apply filter_eq_nil_iff.mpr
    intro row mem counted
    rw [wrote.eq_fresh row mem] at counted
    simp [Intent.freshRow] at counted
  rw [noFresh,map_nil,append_nil]
  congr 1
  induction outbox.rows with
  | nil => rfl
  | cons _ _ ih =>
    rw [map_cons,filter_cons,filter_cons]
    unfold afterWrite
    split
    · next answered =>
      rw [Bool.and_eq_true,OutboxRow.waitsFor_iff] at answered
      simp only [OutboxRow.superseded,OutboxRow.toDelivery_withDelivery,reduceCtorEq,
        answered.1.2.1,decide_false,Bool.and_false,Bool.false_and,Bool.false_eq_true,
        if_false]
      exact ih
    · split
      · rw [map_cons,map_cons]
        exact congrArg _ ih
      · exact ih

theorem standing (key : HeldRole) :
    standingFor zitadelTarget after key = standingFor zitadelTarget outbox key := by
  unfold standingFor
  rw [wrote.maxApplied,wrote.maxApplied]

end

end Wrote

theorem not_revoke_after_add (single : p.Single) (op : p.opType = .add)
    (own : OwnRow named outbox p seq inserted) (mem : row ∈ uncancelled outbox p ++ inserted) :
    row.opType ≠ .revoke := by
  intro revoke
  rcases mem_append.mp mem with kept | fresh
  · obtain ⟨among,unanswered⟩ := mem_filter.mp kept
    have answered := (single.answers_add op (mem_filter.mp among).2).mpr revoke
    rw [answered] at unanswered
    cases unanswered
  · rw [own.eq_fresh row fresh] at revoke
    change p.opType = .revoke at revoke
    rw [op] at revoke
    cases revoke

/-! ### A list of writes -/

/-- Writes one after the other, each on the outbox the last one left. The flag
marks a named write. -/
inductive Enqueued : Outbox → List (Bool × EnqueueParams) → Outbox → Prop where
  | nil (outbox : Outbox) : Enqueued outbox [] outbox
  | cons {named : Bool} {p : EnqueueParams} {outbox middle after : Outbox}
      {inserted : List OutboxRow} {rest : List (Bool × EnqueueParams)} :
      p.Single → Wrote named outbox p middle inserted → Enqueued middle rest after →
        Enqueued outbox ((named, p) :: rest) after

def writeKeys (writes : List (Bool × EnqueueParams)) : List HeldRole :=
  writes.map fun write => write.2.key

variable {params : List EnqueueParams} {writes : List (Bool × EnqueueParams)}

theorem enqueueRows_enqueued (singles : ∀ p ∈ params, p.Single) :
    ∀ {outbox after : Outbox} {ids : List Nat}, enqueueRows gate outbox params = .ok (after, ids) →
        Enqueued outbox (params.map fun p => (false, p)) after := by
  induction params with
  | nil =>
    intro outbox after ids written
    cases written
    exact .nil _
  | cons p rest ih =>
    intro outbox _ _ written
    have single := singles p mem_cons_self
    rw [enqueueRows] at written
    cases first : enqueueRow gate false outbox p with
    | error => rw [first] at written; cases written
    | ok result =>
      obtain ⟨middle,_⟩ := result
      rw [first] at written
      simp only at written
      obtain ⟨_,wrote,-⟩ := enqueueRow_wrote single first
      cases others : enqueueRows gate middle rest with
      | error => rw [others] at written; cases written
      | ok =>
        rw [others] at written
        cases written
        exact .cons single wrote
          (ih (fun q mem => singles q (mem_cons_of_mem p mem)) others)

namespace Enqueued

variable {outbox after : Outbox} {writes : List (Bool × EnqueueParams)}

section

variable (enqueued : Enqueued outbox writes after)
include enqueued

theorem standing (key : HeldRole) :
    standingFor zitadelTarget after key = standingFor zitadelTarget outbox key := by
  induction enqueued with
  | nil => rfl
  | cons _ wrote _ ih => rw [ih,wrote.standing]

theorem rowsFor_of_notMem (apart : key ∉ writeKeys writes) :
    after.rowsFor key = outbox.rowsFor key := by
  induction enqueued with
  | nil => rfl
  | cons single wrote _ ih =>
    obtain ⟨notHere,notLater⟩ := not_or.mp fun listed => apart (mem_cons.mpr listed)
    rw [ih notLater,wrote.rowsFor_of_ne single notHere]

theorem queuedFor_of_notMem
    (apart : key ∉ writeKeys writes) : after.queuedFor key = outbox.queuedFor key := by
  rw [queuedFor_eq,queuedFor_eq,enqueued.rowsFor_of_notMem apart]

theorem isolate (distinct : (writeKeys writes).Nodup)
    {write : Bool × EnqueueParams} (mem : write ∈ writes) :
    write.2.Single ∧ ∃ seq inserted, outbox.nextSeq ≤ seq ∧
      OwnRow write.1 outbox write.2 seq inserted ∧
      after.rowsFor write.2.key =
        (outbox.rowsFor write.2.key).map (afterWrite write.2) ++ inserted ∧
      after.queuedFor write.2.key = uncancelled outbox write.2 ++ inserted := by
  induction enqueued with
  | nil => cases mem
  | @cons _ q outbox middle after inserted rest single wrote others ih =>
    obtain ⟨notLater,laterDistinct⟩ := nodup_cons.mp distinct
    rcases mem_cons.mp mem with rfl | later
    · refine ⟨single,outbox.nextSeq,inserted,Nat.le_refl _,wrote.own,?_,?_⟩
      · rw [others.rowsFor_of_notMem notLater,wrote.rowsFor_self single]
      · rw [others.queuedFor_of_notMem notLater,wrote.queuedFor_self single]
    obtain ⟨laterSingle,seq,laterInserted,_,own,rows,queue⟩ := ih laterDistinct later
    have other : write.2.key ≠ q.key := by
      intro equal
      exact notLater (mem_map.mpr ⟨write,later,equal⟩)
    have sameQueue := wrote.queuedFor_of_ne single other
    refine ⟨laterSingle,seq,laterInserted,?_,own.congr sameQueue (wrote.standing _),?_,?_⟩
    · have grown := wrote.next
      omega
    · rw [rows,wrote.rowsFor_of_ne single other]
    rw [queue]
    unfold uncancelled
    rw [sameQueue]

end

end Enqueued

/-! ### Writes the gate admits -/

def leavesRow (outbox : Outbox) (p : EnqueueParams) : Bool :=
  cancelled outbox p = [] || owedAfterCancel p (standingFor zitadelTarget outbox p.key)

def OutboxRow.afterWrites (params : List EnqueueParams) (row : OutboxRow) : OutboxRow :=
  if params.any fun p => row.waitsFor p.key && answers p row.queuedChange then row.superseded
  else row

theorem OutboxRow.afterWrites_cons {rest : List EnqueueParams} :
    (row.afterWrite p).afterWrites rest = row.afterWrites (p :: rest) := by
  unfold afterWrite OutboxRow.afterWrites
  rw [any_cons]
  cases answered : (row.waitsFor p.key && answers p row.queuedChange) with
  | true =>
    have settled : (rest.any fun q => row.superseded.waitsFor q.key &&
        answers q row.superseded.queuedChange) = false := by
      apply any_eq_false.mpr
      intro _ _member
      rw [OutboxRow.not_waitsFor_superseded]
      exact Bool.false_ne_true
    simp only [if_true,settled,Bool.false_eq_true,if_false,Bool.true_or]
  | false => simp only [Bool.false_eq_true,if_false,Bool.false_or]

theorem OutboxRow.afterWrites_of_isFor (mine : row.isFor key = true)
    (apart : key ∉ params.map EnqueueParams.key) :
    row.afterWrites params = row := by
  have unanswered : (params.any fun p =>
      row.waitsFor p.key && answers p row.queuedChange) = false := by
    apply any_eq_false.mpr
    intro p mem both
    rw [Bool.and_eq_true] at both
    have same := OutboxRow.key_of_isFor mine ((row.waitsFor_iff_isFor p.key).mp both.1).1
    exact apart (same ▸ mem_map_of_mem mem)
  unfold OutboxRow.afterWrites
  rw [unanswered,if_neg Bool.false_ne_true]

theorem Enqueued.rows (enqueued : Enqueued outbox writes after) : ∃ inserted, after.rows =
      outbox.rows.map (OutboxRow.afterWrites (writes.map Prod.snd)) ++ inserted := by
  induction enqueued with
  | nil outbox =>
    refine ⟨[],?_⟩
    rw [append_nil]
    exact (map_id outbox.rows).symm
  | @cons named p outbox middle after first rest _single wrote _others ih =>
    obtain ⟨inserted,rows⟩ := ih
    refine ⟨first.map (OutboxRow.afterWrites (rest.map Prod.snd)) ++ inserted,?_⟩
    have composed : OutboxRow.afterWrites (rest.map Prod.snd) ∘ afterWrite p =
        OutboxRow.afterWrites (p :: rest.map Prod.snd) :=
      funext fun row => OutboxRow.afterWrites_cons
    rw [rows,wrote.rows,map_append,map_map,append_assoc,composed]
    rfl

def supersededBy (before after : Outbox) : List QueuedChange :=
  (before.rows.filter fun row =>
    row.status ≠ .superseded &&
      after.rows.any fun later => later.id = row.id && later.status = .superseded).map
        OutboxRow.queuedChange

theorem Enqueued.mem_supersededBy
    (enqueued : Enqueued outbox writes after) (change : QueuedChange) :
    change ∈ supersededBy outbox after ↔
      ∃ write ∈ writes, ∃ row ∈ cancelled outbox write.2, row.queuedChange = change := by
  obtain ⟨_,rows⟩ := enqueued.rows
  have kept (row : OutboxRow) (listed : row ∈ outbox.rows) :
      row.afterWrites (writes.map Prod.snd) ∈ after.rows := by
    rw [rows]
    exact mem_append_left _ (mem_map_of_mem listed)
  unfold supersededBy
  simp only [mem_map,mem_filter,Bool.and_eq_true,decide_eq_true_eq,any_eq_true]
  constructor
  · rintro ⟨row,⟨listed,open_,later,isLater,same,gone⟩,rfl⟩
    have isRow : row.afterWrites (writes.map Prod.snd) = later := by
      refine after.eq_of_id_eq (kept row listed) isLater ?_
      rw [same]
      unfold OutboxRow.afterWrites
      split <;> rfl
    unfold OutboxRow.afterWrites at isRow
    split at isRow
    · next answered =>
      obtain ⟨p,isWrite,answers⟩ := any_eq_true.mp answered
      obtain ⟨write,mem,rfl⟩ := mem_map.mp isWrite
      rw [Bool.and_eq_true] at answers
      exact ⟨write,mem,row,mem_cancelled.mpr ⟨listed,answers⟩,rfl⟩
    · rw [← isRow] at gone
      exact absurd gone open_
  · rintro ⟨write,mem,row,isCancelled,rfl⟩
    obtain ⟨listed,waits,fits⟩ := mem_cancelled.mp isCancelled
    have answered : ((writes.map Prod.snd).any fun p =>
        row.waitsFor p.key && answers p row.queuedChange) = true :=
      any_eq_true.mpr ⟨write.2,mem_map_of_mem mem,by rw [waits,fits]; rfl⟩
    refine ⟨row,⟨listed,?_,row.superseded,?_,rfl,rfl⟩,rfl⟩
    · rw [((row.waitsFor_iff _).mp waits).2.1]
      decide
    have left := kept row listed
    unfold OutboxRow.afterWrites at left
    rwa [if_pos answered] at left

theorem OwnRow.eq_of_leavesRow (own : OwnRow false outbox p seq inserted) :
    inserted = if leavesRow outbox p then [p.intent.freshRow p.waitReason seq] else [] := by
  unfold leavesRow
  rcases own with ⟨rfl,none | owed⟩ | ⟨rfl,some,notOwed⟩ | ⟨_,impossible,_⟩
  · rw [decide_eq_true none,Bool.true_or,if_pos rfl]
  · rw [owed,Bool.or_true,if_pos rfl]
  · rw [decide_eq_false some,notOwed,Bool.or_false,if_neg Bool.false_ne_true]
  · cases impossible

theorem enqueueRow_admitted (single : p.Single)
    (admitted : admitCancellations gate ((cancelled outbox p).map queuedChange) = true) :
    ∃ after id, enqueueRow gate false outbox p = .ok (after, id) := by
  have goesThrough : ∃ after owed,
      withdrawUndelivered gate zitadelTarget outbox p = .ok (after, owed) := by
    unfold withdrawUndelivered
    rw [single.answersAny,single.answeredBy_candidates]
    cases found : (cancelled outbox p).map queuedChange with
    | nil => exact ⟨outbox,true,rfl⟩
    | cons =>
      rw [found] at admitted
      simp only [admitted]
      exact ⟨_,_,rfl⟩
  obtain ⟨_,owed,withdrawn⟩ := goesThrough
  unfold enqueueRow
  rw [withdrawn]
  cases owed with
  | false | true => exact ⟨_,_,rfl⟩

/-- Writes about distinct roles whose cancellations the gate admits go through:
the answered rows are superseded, and each write that leaves a row leaves it in
its place. -/
theorem enqueueRows_admitted (singles : ∀ p ∈ params, p.Single)
    (distinct : (params.map EnqueueParams.key).Nodup) :
    ∀ outbox : Outbox, (∀ p ∈ params,
        admitCancellations gate ((cancelled outbox p).map queuedChange) = true) →
      ∃ after inserted, enqueueRows gate outbox params = .ok (after, inserted.map OutboxRow.id) ∧
        after.rows = outbox.rows.map (OutboxRow.afterWrites params) ++ inserted ∧
        Forall₂ (fun p row => ∃ seq, row = p.intent.freshRow p.waitReason seq)
          (params.filter (leavesRow outbox)) inserted := by
  induction params with
  | nil =>
    intro outbox _admitted
    refine ⟨outbox,[],rfl,?_,.nil⟩
    rw [append_nil]
    exact (map_id outbox.rows).symm
  | cons p rest ih =>
    intro outbox admitted
    have single := singles p mem_cons_self
    obtain ⟨notLater,restDistinct⟩ := nodup_cons.mp distinct
    obtain ⟨middle,_,written⟩ := enqueueRow_admitted single (admitted p mem_cons_self)
    obtain ⟨own,wrote,ids⟩ := enqueueRow_wrote single written
    have apart (q : EnqueueParams) (mem : q ∈ rest) : q.key ≠ p.key :=
      fun same => notLater (same ▸ mem_map_of_mem mem)
    have sameCancelled (q : EnqueueParams) (mem : q ∈ rest) :
        cancelled middle q = cancelled outbox q := by
      unfold cancelled
      rw [wrote.queuedFor_of_ne single (apart q mem)]
    have sameLeaves (q : EnqueueParams) (mem : q ∈ rest) :
        leavesRow middle q = leavesRow outbox q := by
      unfold leavesRow
      rw [sameCancelled q mem,wrote.standing]
    obtain ⟨after,inserted,others,rows,each⟩ :=
      ih (fun q mem => singles q (mem_cons_of_mem _ mem)) restDistinct middle
        (fun q mem => by
          rw [sameCancelled q mem]
          exact admitted q (mem_cons_of_mem _ mem))
    refine ⟨after,own ++ inserted,?_,?_,?_⟩
    · rw [enqueueRows,written]
      simp only [others,map_append,ids rfl]
    · have untouched : own.map (OutboxRow.afterWrites rest) = own := by
        refine (map_congr_left fun row mem => ?_).trans (map_id own)
        rw [wrote.eq_fresh row mem]
        exact OutboxRow.afterWrites_of_isFor
          ((OutboxRow.waitsFor_iff_isFor _ _).mp (single.waitsFor_freshRow _)).1 notLater
      rw [rows,wrote.rows,map_append,untouched,map_map,append_assoc]
      congr 1
      apply map_congr_left
      intro row _member
      exact OutboxRow.afterWrites_cons
    · rw [filter_congr sameLeaves] at each
      rw [wrote.own.eq_of_leavesRow,filter_cons]
      split
      · exact .cons ⟨_,rfl⟩ each
      · exact each

end Syndra.Propagation
