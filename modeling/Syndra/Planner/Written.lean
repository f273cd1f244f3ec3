/-
The approved plan is what is written.

The planner works on the snapshot's lists; the outbox re-reads, cancels and inserts row by
row.
-/

import Syndra.Ledger.Effects
import Syndra.Planner.Plan

namespace Syndra.Planner

open Access Propagation Ledger List OutboxRow EnqueueParams

def deltaParams (a : Action) (rules : List MappingRule) (before after : List Role) :
    List EnqueueParams :=
  deltaWrites a.userId
    (closureDelta (effectiveClosure before rules) (effectiveClosure after rules)) .bundle a.bundleId

structure Applies (s : PlanSnapshot) (a : Action) (params : List EnqueueParams) (ch : Change) :
    Prop where
  writes : ch.writes = params.map (planWrite s (s.access.people a.userId))
  cancels : ch.cancels =
    params.flatMap fun p => answeredBy p (s.access.people a.userId).queued
  cancelIds : ch.row.cancelIds = ch.cancels.map QueuedChange.id

variable {a : Action} {s : PlanSnapshot} {p : EnqueueParams}

variable {after before : List Role}

theorem planDelta_applies {wording : Wording} {draft : Draft}
    (applies : (planDelta wording a s draft before after).row.effect = .apply) :
    Applies s a (deltaParams a s.access.rules before after)
      (planDelta wording a s draft before after) := by
  unfold planDelta at applies ⊢
  simp only at applies ⊢
  split at applies
  · cases applies
  rename_i read
  split at applies
  · cases applies
  rename_i offered
  rw [if_neg read,if_neg offered]
  exact ⟨rfl,rfl,rfl⟩

theorem plan_applies {wording : Wording} (applies : (plan wording a s).row.effect = .apply) :
    ∃ before after, Applies s a (deltaParams a s.access.rules before after) (plan wording a s) := by
  unfold plan at applies ⊢
  cases known : s.profiles a.userId with
  | none =>
    rw [known] at applies
    cases applies
  | some =>
    simp only [known] at applies ⊢
    cases op : a.op with
    | assignBundle =>
      simp only [op] at applies ⊢
      split at applies
      · cases applies
      rename_i present
      rw [if_neg present]
      split at applies
      · cases applies
      split at applies
      · cases applies
      rename_i free
      simp only [if_neg free]
      exact ⟨_,_,planDelta_applies applies⟩
    | removeBundle =>
      simp only [op] at applies ⊢
      split at applies
      · cases applies
      rename_i holds
      rw [if_neg holds]
      split at applies
      · cases applies
      · exact ⟨_,_,planDelta_applies applies⟩
    | assignRole | removeRole | extend => simp only [op] at applies; cases applies

def queuedRows (outbox : Outbox) (userId : String) : List OutboxRow :=
  outbox.rows.filter fun row =>
    row.target = zitadelTarget && row.status = .pending && row.userId = userId

/-- The person's queued changes, in any order, and the roles whose delivery
stands were read from this outbox. -/
structure PlanSnapshot.ReadFrom (s : PlanSnapshot) (outbox : Outbox) (userId : String) : Prop where
  queued : (s.access.people userId).queued.Perm
    ((queuedRows outbox userId).map OutboxRow.queuedChange)
  standing : ∀ role,
    (s.access.people userId).standing role = standingFor zitadelTarget outbox (heldBy userId role)

variable {userId : String} {rules : List MappingRule}

theorem PlanSnapshot.ReadFrom.answered {outbox : Outbox}
    (read : s.ReadFrom outbox userId) (single : p.Single) (mine : p.userId = userId) :
    (answeredBy p (s.access.people userId).queued).Perm
      ((cancelled outbox p).map queuedChange) := by
  refine (read.queued.filter (answers p)).trans (Perm.of_eq ?_)
  unfold cancelled Outbox.queuedFor queuedRows
  rw [filter_map,filter_filter,filter_filter]
  congr 1
  apply filter_congr
  intro row _member
  rw [Bool.eq_iff_iff]
  simp only [Function.comp_apply,Bool.and_eq_true,decide_eq_true_eq,waitsFor_iff]
  constructor
  · intro ⟨answered,⟨target,status⟩,user⟩
    refine ⟨answered,target,status,user.trans mine.symm,?_⟩
    unfold answers at answered
    split at answered
    · cases answered
    rename_i inScope
    simp only [Bool.or_eq_true,decide_eq_true_eq,not_or] at inScope
    obtain ⟨⟨-,project⟩,role⟩ := inScope
    exact ⟨Decidable.not_not.mp project,(Decidable.not_not.mp role).trans single.role⟩
  · intro ⟨answered,target,status,user,_,_⟩
    exact ⟨answered,⟨target,status⟩,user.trans mine⟩

theorem cancelled_planWrite (s : PlanSnapshot) (person : PersonSnapshot) (outbox : Outbox)
    (p : EnqueueParams) :
    cancelled outbox (planWrite s person p).toEnqueueParams = cancelled outbox p ∧
      (planWrite s person p).key = p.key ∧
      (p.Single → (planWrite s person p).toEnqueueParams.Single) := by
  unfold planWrite
  split
  · exact ⟨rfl,rfl,id⟩
  split
  · exact ⟨rfl,rfl,fun single => ⟨single.role,single.op⟩⟩
  · exact ⟨rfl,rfl,id⟩

theorem PlanSnapshot.ReadFrom.delivered {outbox : Outbox}
    (read : s.ReadFrom outbox userId) (single : p.Single) (mine : p.userId = userId) :
    leavesRow outbox (planWrite s (s.access.people userId) p).toEnqueueParams =
      decide ((planWrite s (s.access.people userId) p).delivery ≠ .none) := by
  have standing : (s.access.people userId).standing (roleRef p) =
      standingFor zitadelTarget outbox p.key := by
    rw [read.standing,← mine]
    rfl
  have noneAnswered : answeredBy p (s.access.people userId).queued = [] ↔ cancelled outbox p = [] := by
    rw [← map_eq_nil_iff (f := queuedChange)]
    exact ⟨fun none => (none ▸ read.answered single mine).nil_eq.symm,
      fun none => (none ▸ read.answered single mine).eq_nil⟩
  have same : leavesRow outbox
      (planWrite s (s.access.people userId) p).toEnqueueParams = leavesRow outbox p := by
    unfold planWrite
    split
    · rfl
    · split <;> rfl
  rw [same]
  unfold leavesRow planWrite
  rw [standing]
  by_cases none : cancelled outbox p = []
  · rw [decide_eq_true none,noneAnswered.mpr none]
    simp only [ne_eq,not_true_eq_false,decide_false,Bool.false_and,Bool.false_eq_true,if_false]
    split <;> rfl
  rw [decide_eq_false none,decide_eq_true (mt noneAnswered.mp none),Bool.true_and]
  cases owedAfterCancel p (standingFor zitadelTarget outbox p.key) with
  | false => rfl
  | true =>
    simp only [Bool.not_true,Bool.false_eq_true,if_false]
    split <;> rfl

def Write.sent (w : Write) : Bool := w.delivery ≠ .none

/-- The outbox took the change whole: the gate refused nothing, exactly the queued
changes it names are superseded, each write that is sent has its row, in order and
as planned, and the rows pair with the writes. -/
structure Change.WrittenTo (ch : Change) (outbox after : Outbox) (inserted : List OutboxRow)
    (paired : Change) : Prop where
  enqueued : enqueueRows (some (cancellationsNamed ch.row.cancelIds)) outbox ch.params =
    .ok (after, inserted.map OutboxRow.id)
  queued : ∀ c ∈ ch.cancels, ∃ row ∈ outbox.rows, row.status = .pending ∧ row.queuedChange = c
  rows : after.rows =
    (outbox.rows.map fun row =>
      if row.id ∈ ch.cancels.map QueuedChange.id then row.superseded else row) ++ inserted
  planned : Forall₂
    (fun w row => row.status = .pending ∧ row.toIntent = w.intent ∧ row.waitReason = w.waitReason)
    (ch.writes.filter Write.sent) inserted
  written : ch.written (inserted.map OutboxRow.id) = .ok paired
  pairs : (paired.writes.filter Write.sent).map Write.outboxId =
    inserted.map fun row => some row.id

theorem pairRows_ok (writes : List Write) :
    ∀ ids : List Nat, ids.length = (writes.filter Write.sent).length →
      ∃ paired, pairRows writes ids = .ok paired ∧
        (paired.filter Write.sent).map Write.outboxId = ids.map some := by
  induction writes with
  | nil =>
    intro ids counted
    obtain rfl := eq_nil_of_length_eq_zero counted
    exact ⟨[],rfl,rfl⟩
  | cons w _ ih =>
    intro ids counted
    unfold pairRows
    rw [filter_cons] at counted
    by_cases cancelsOnly : w.delivery = .none
    · have unsent : w.sent = false := decide_eq_false (not_not.mpr cancelsOnly)
      rw [unsent] at counted
      obtain ⟨paired,found,same⟩ := ih ids counted
      refine ⟨w :: paired,?_,?_⟩
      · rw [if_pos cancelsOnly,found]
        rfl
      · rw [filter_cons,unsent,if_neg Bool.false_ne_true,same]
    · have sent : w.sent = true := decide_eq_true cancelsOnly
      rw [sent,if_pos rfl] at counted
      obtain ⟨id,more,rfl⟩ := exists_cons_of_length_eq_add_one counted
      obtain ⟨paired,found,same⟩ := ih more (Nat.succ.inj counted)
      refine ⟨{ w with outboxId := some id } :: paired,?_,?_⟩
      · rw [if_neg cancelsOnly]
        simp only [found]
        rfl
      · have stillSent : Write.sent { w with outboxId := some id } = true := sent
        rw [filter_cons,stillSent,if_pos rfl,map_cons,same,map_cons]

private theorem single_of_mem_deltaParams (mem : p ∈ deltaParams a rules before after) :
    p.Single ∧ p.userId = a.userId := by
  refine ⟨single_of_mem_deltaWrites mem,?_⟩
  rcases mem_deltaWrites.mp mem with ⟨role,-,rfl⟩ | ⟨role,-,rfl⟩ <;> rfl

private theorem deltaParams_keys_nodup : ((deltaParams a rules before after).map key).Nodup:= by
  unfold deltaParams
  rw [keys_deltaWrites]
  exact (closureDelta_nodup (effectiveClosure_nodup _ _) (effectiveClosure_nodup _ _)).map
    fun _first _second same => (heldBy_injective same).2

namespace Applies

variable {s : PlanSnapshot} {a : Action} {outbox : Outbox} {ch : Change}
  {rules : List MappingRule} {before after : List Role}

theorem params_eq {params : List EnqueueParams} (applies : Applies s a params ch) :
    ch.params = params.map fun p => (planWrite s (s.access.people a.userId) p).toEnqueueParams := by
  unfold Change.params
  rw [applies.writes,map_map]
  rfl

section

variable (applies : Applies s a (deltaParams a rules before after) ch)
include applies

theorem single :
    ∀ q ∈ ch.params, q.Single := by
  intro _ mem
  rw [applies.params_eq] at mem
  obtain ⟨p,among,rfl⟩ := mem_map.mp mem
  exact (cancelled_planWrite s _ Outbox.empty p).2.2 (single_of_mem_deltaParams among).1

theorem keys_nodup :
    (ch.params.map key).Nodup := by
  have keys : ch.params.map key =
      (deltaParams a rules before after).map key := by
    rw [applies.params_eq,map_map]
    exact map_congr_left fun p _member => (cancelled_planWrite s _ Outbox.empty p).2.1
  rw [keys]
  exact deltaParams_keys_nodup

theorem mem_cancels
    (read : s.ReadFrom outbox a.userId) (c : QueuedChange) :
    c ∈ ch.cancels ↔ ∃ q ∈ ch.params, ∃ row ∈ cancelled outbox q, row.queuedChange = c := by
  rw [applies.cancels,applies.params_eq,mem_flatMap]
  constructor
  · intro ⟨p,among,answered⟩
    obtain ⟨single,mine⟩ := single_of_mem_deltaParams among
    obtain ⟨row,isCancelled,same⟩ := mem_map.mp ((read.answered single mine).mem_iff.mp answered)
    refine ⟨_,mem_map_of_mem among,row,?_,same⟩
    rw [(cancelled_planWrite s _ outbox p).1]
    exact isCancelled
  · intro ⟨q,mem,row,isCancelled,same⟩
    obtain ⟨p,among,rfl⟩ := mem_map.mp mem
    obtain ⟨single,mine⟩ := single_of_mem_deltaParams among
    rw [(cancelled_planWrite s _ outbox p).1] at isCancelled
    exact ⟨p,among,(read.answered single mine).mem_iff.mpr (mem_map.mpr ⟨row,isCancelled,same⟩)⟩

variable {row : OutboxRow}

theorem mem_cancelIds (read : s.ReadFrom outbox a.userId) (mem : row ∈ outbox.rows) :
    row.id ∈ ch.cancels.map QueuedChange.id ↔ ∃ q ∈ ch.params, row ∈ cancelled outbox q := by
  rw [mem_map]
  constructor
  · intro ⟨c,listed,same⟩
    obtain ⟨q,among,_,isCancelled,rfl⟩ := (applies.mem_cancels read c).mp listed
    obtain rfl := outbox.eq_of_id_eq (mem_cancelled.mp isCancelled).1 mem same
    exact ⟨q,among,isCancelled⟩
  · intro ⟨q,among,isCancelled⟩
    exact ⟨row.queuedChange,(applies.mem_cancels read _).mpr ⟨q,among,row,isCancelled,rfl⟩,rfl⟩

theorem admitted
    (read : s.ReadFrom outbox a.userId) :
    ∀ q ∈ ch.params, admitCancellations (some (cancellationsNamed ch.row.cancelIds))
      ((cancelled outbox q).map queuedChange) = true := by
  intro q among
  simp only [admitCancellations,cancellationsNamed,Bool.not_true,Bool.false_or,all_map,
    all_eq_true,Function.comp_apply]
  intro _ isCancelled
  rw [applies.cancelIds]
  exact decide_eq_true
    ((applies.mem_cancelIds read (mem_cancelled.mp isCancelled).1).mpr ⟨q,among,isCancelled⟩)

theorem afterWrites_eq (read : s.ReadFrom outbox a.userId) (mem : row ∈ outbox.rows) :
    row.afterWrites ch.params =
      if row.id ∈ ch.cancels.map QueuedChange.id then row.superseded else row := by
  have same : (ch.params.any fun q => row.waitsFor q.key && answers q row.queuedChange) = true ↔
      row.id ∈ ch.cancels.map QueuedChange.id := by
    rw [applies.mem_cancelIds read mem,any_eq_true]
    simp only [Bool.and_eq_true,mem_cancelled,mem,true_and]
  unfold afterWrites
  simp only [same]

theorem filter_leavesRow
    (read : s.ReadFrom outbox a.userId) :
    ch.params.filter (leavesRow outbox) =
      (ch.writes.filter Write.sent).map Write.toEnqueueParams := by
  unfold Change.params
  rw [filter_map,applies.writes]
  congr 1
  apply filter_congr
  intro _ mem
  obtain ⟨_,among,rfl⟩ := mem_map.mp mem
  obtain ⟨single,mine⟩ := single_of_mem_deltaParams among
  exact read.delivered single mine

end

end Applies

/-- Whatever the snapshot holds, a plan that applies is written as it was decided. -/
theorem approved_plan_is_written (wording : Wording) (a : Action) (s : PlanSnapshot)
    (outbox : Outbox) (read : s.ReadFrom outbox a.userId)
    (applies : (plan wording a s).row.effect = .apply) :
    ∃ after inserted paired, (plan wording a s).WrittenTo outbox after inserted paired := by
  obtain ⟨_,_,decided⟩ := plan_applies applies
  obtain ⟨after,inserted,enqueued,rows,each⟩ :=
    enqueueRows_admitted decided.single decided.keys_nodup outbox (decided.admitted read)
  rw [decided.filter_leavesRow read,forall₂_map_left_iff] at each
  obtain ⟨paired,found,pairs⟩ := pairRows_ok (plan wording a s).writes
    (inserted.map OutboxRow.id) (by rw [length_map,each.length_eq])
  refine ⟨after,inserted,{ plan wording a s with writes := paired },enqueued,?_,?_,?_,?_,?_⟩
  · intro c listed
    obtain ⟨q,-,row,isCancelled,same⟩ := (decided.mem_cancels read c).mp listed
    obtain ⟨present,waits,-⟩ := mem_cancelled.mp isCancelled
    exact ⟨row,present,((row.waitsFor_iff q.key).mp waits).2.1,same⟩
  · rw [rows]
    congr 1
    exact map_congr_left fun row => decided.afterWrites_eq read
  · refine each.imp ?_
    rintro _ _ ⟨_,rfl⟩
    exact ⟨rfl,rfl,rfl⟩
  · unfold Change.written
    rw [found]
    rfl
  · rw [pairs,map_map]
    rfl

/-! A removal from a bundle of two roles: the add of one is still queued and is only
cancelled, the other is taken back. -/

namespace Workshop

def queuedLathe : EnqueueParams := roleWrite .add "ada" .bundle "makers" (Role.mk "shop" "lathe")

def outbox : Outbox := Outbox.empty.insert queuedLathe.intent none

def snapshot : PlanSnapshot :=
  { bundleName := "Makers"
    bundleRetiredAt := none
    versionId := "v1"
    versionRoles := []
    catalogue := fun _ => none
    catalogueUnread := false
    profiles := fun _ => some { name := "Ada", email := "ada@example.org", status := "active" }
    access :=
      { people := fun _ =>
          { direct := []
            byBundle := [("makers", [Role.mk "shop" "lathe",Role.mk "shop" "laser"])]
            revoking := []
            bundles := fun bundleId => bundleId = "makers"
            queued := outbox.rows.map OutboxRow.queuedChange
            standing := fun _ => false }
        rules := []
        roleWaits := fun _ => false } }

def wording : Wording :=
  { formatDay := toString
    describeCancels := fun _ => ""
    sha256 := fun _ => "" }

def removal : Action := { op := .removeBundle, userId := "ada", bundleId := "makers" }

end Workshop

theorem approved_plan_is_written_workshop :
    (plan Workshop.wording Workshop.removal Workshop.snapshot).row.cancelIds = [1] ∧
    (plan Workshop.wording Workshop.removal Workshop.snapshot).writes.map Write.delivery =
      [.straightAway,.none] ∧
    ∃ after inserted paired, (plan Workshop.wording Workshop.removal Workshop.snapshot).WrittenTo
      Workshop.outbox after inserted paired :=
  ⟨by decide,by decide,
    approved_plan_is_written Workshop.wording Workshop.removal Workshop.snapshot Workshop.outbox
      ⟨Perm.refl _,fun _ => rfl⟩ (by decide)⟩

end Syndra.Planner
