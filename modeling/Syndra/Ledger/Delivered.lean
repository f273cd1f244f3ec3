/-
One delivery between changes.

A waiting row is claimed, taken by Zitadel, finalized and reconciled as one step.
-/

import Syndra.Ledger.GrantEffects

namespace Syndra.Ledger

open Access Propagation List

def appliedIf (id : Nat) (row : OutboxRow) : OutboxRow :=
  if row.id = id then row.withDelivery { row.toDelivery with status := .applied } else row

variable {row : OutboxRow}

theorem rows_applied {outbox after : Outbox}
    (applied : markPropagationApplied (outbox.claim [row.id]) row.id = some after) :
    after.rows = outbox.rows.map (appliedIf row.id) ∧ after.nextSeq = outbox.nextSeq := by
  obtain ⟨-,rfl⟩ := settleOne_eq_some applied
  refine ⟨?_,rfl⟩
  rw [Outbox.rows_update]
  unfold Outbox.claim
  rw [Outbox.rows_update,map_map]
  apply map_congr_left
  intro other _member
  unfold appliedIf
  rw [Function.comp_apply]
  by_cases same : other.id = row.id
  · have listed : other.id ∈ [row.id] := mem_singleton.mpr same
    rw [if_pos same,if_pos listed,if_pos ⟨same,rfl⟩]
    rfl
  · have unlisted : other.id ∉ [row.id] := fun listed => same (mem_singleton.mp listed)
    rw [if_neg same,if_neg unlisted,if_neg (fun both => same both.1)]
    rfl

structure Delivered (state next : AccessState) (row : OutboxRow) : Prop where
  rows : next.outbox.rows = state.outbox.rows.map (appliedIf row.id)
  nextSeq : next.outbox.nextSeq = state.outbox.nextSeq
  zitadel : next.zitadel = state.zitadel.take row.toIntent
  now : next.now = state.now
  rules : next.records.rules = state.records.rules
  holdings : ∀ userId role, role ∈ next.records.holdings next.now userId ↔
    role ∈ state.records.holdings state.now userId
  fewer : next.records.grants ⊆ state.records.grants
  dropped : ∀ grant ∈ state.records.grants, grant ∉ next.records.grants →
    row.opType = .revoke ∧ heldBy grant.userId grant.role = rowKey row

theorem AccessState.Steady.lapsed_of_revoke {state : AccessState} (steady : state.Steady)
    (mem : row ∈ state.outbox.rows) (pending : row.status = .pending)
    (revoke : row.opType = .revoke) {grant : DirectGrant} (recorded : grant ∈ state.records.grants)
    (same : heldBy grant.userId grant.role = rowKey row) : grant.lapsed state.now = true := by
  cases ended : grant.lapsed state.now with
  | true => rfl
  | false =>
    have waits := (steady.plain row mem).waitsFor pending
    rw [← same] at waits
    have held := state.holdings_subset_closed grant.userId
      ((state.records.mem_holdings state.now grant.userId grant.role).mpr
        (.inl ⟨grant,recorded,rfl,ended,rfl⟩))
    exact absurd held (steady.revoking _ _ row (mem_filter.mpr ⟨mem,waits⟩) revoke)

theorem applyRow_delivered {state next : AccessState} (steady : state.Steady)
    (mem : row ∈ state.outbox.rows) (pending : row.status = .pending)
    (done : state.applyRow row = some next) : Delivered state next row := by
  obtain ⟨outbox,applied,rfl⟩ := Option.map_eq_some_iff.mp done
  obtain ⟨rows,nextSeq⟩ := rows_applied applied
  have plain := steady.plain row mem
  rcases plain.op with add | revoke
  · have kept : reconcileLedgerOnApplied state.records outbox row = state.records := by
      unfold reconcileLedgerOnApplied
      rw [add]
    rw [kept]
    exact ⟨rows,nextSeq,rfl,rfl,rfl,fun _ _ => Iff.rfl,Subset.refl _,
      fun grant => absurd⟩
  · have kept : reconcileLedgerOnApplied state.records outbox row =
        state.records.keepGrants fun grant =>
          !(grant.userId = row.userId && grant.projectId = row.projectId &&
            grant.roleKey ∈ row.roleKeys && grant.source = row.source &&
            !newerAddExists outbox row.intentSeq grant) := by
      unfold reconcileLedgerOnApplied
      rw [revoke]
    rw [kept]
    have key (grant : DirectGrant)
        (matching : (grant.userId = row.userId && grant.projectId = row.projectId &&
          grant.roleKey ∈ row.roleKeys && grant.source = row.source &&
          !newerAddExists outbox row.intentSeq grant) = true) :
        heldBy grant.userId grant.role = rowKey row := by
      simp only [Bool.and_eq_true,decide_eq_true_eq] at matching
      obtain ⟨⟨⟨⟨user,project⟩,listed⟩,-⟩,-⟩ := matching
      rw [plain.roleKeys,mem_singleton] at listed
      unfold DirectGrant.role
      rw [user,project,listed]
      rfl
    refine ⟨rows,nextSeq,rfl,rfl,rfl,?_,fun grant among => (mem_filter.mp among).1,?_⟩
    · intro _ _
      apply mem_holdings_keepGrants_all
      intro grant recorded _same current
      cases matching : (grant.userId = row.userId && grant.projectId = row.projectId &&
          grant.roleKey ∈ row.roleKeys && grant.source = row.source &&
          !newerAddExists outbox row.intentSeq grant) with
      | false => rfl
      | true =>
        rw [steady.lapsed_of_revoke mem pending revoke recorded (key grant matching)]
          at current
        cases current
    · intro grant recorded gone
      refine ⟨revoke,key grant ?_⟩
      by_contra unmatched
      apply gone
      refine mem_filter.mpr ⟨recorded,?_⟩
      rw [Bool.not_eq_true] at unmatched
      rw [unmatched]
      rfl

namespace Delivered

variable {state next : AccessState} {row : OutboxRow}

theorem closed (delivered : Delivered state next row) (userId : String) (role : Role) :
    role ∈ next.closed userId ↔ role ∈ state.closed userId :=
  closed_congr delivered.rules (delivered.holdings userId) role

theorem queuedFor (delivered : Delivered state next row) (key : HeldRole) :
    next.outbox.queuedFor key =
      (state.outbox.queuedFor key).filter fun other => other.id ≠ row.id := by
  unfold Outbox.queuedFor
  rw [delivered.rows]
  induction state.outbox.rows with
  | nil => rfl
  | cons other _ ih =>
    rw [map_cons,filter_cons,ih,filter_cons]
    by_cases same : other.id = row.id
    · have settled : (appliedIf row.id other).waitsFor key = false := by
        unfold appliedIf
        rw [if_pos same]
        simp [OutboxRow.waitsFor]
      rw [settled,if_neg Bool.false_ne_true]
      split
      · rw [filter_cons,decide_eq_false (fun different => different same)]
        rfl
      · rfl
    · have unchanged : appliedIf row.id other = other := by
        unfold appliedIf
        rw [if_neg same]
      rw [unchanged]
      cases other.waitsFor key with
      | true =>
        rw [if_pos rfl,if_pos rfl,filter_cons,decide_eq_true same]
        rfl
      | false => rfl

theorem steady (delivered : Delivered state next row) (steady : state.Steady) : next.Steady := by
  constructor
  · intro _ mem
    rw [delivered.rows] at mem
    obtain ⟨before,present,rfl⟩ := mem_map.mp mem
    have plain := steady.plain before present
    unfold appliedIf
    split
    · exact ⟨plain.isFor,plain.op,.inr (.inl rfl)⟩
    · exact plain
  · intro userId role waiting among revoke held
    rw [delivered.queuedFor] at among
    exact steady.revoking userId role waiting (mem_filter.mp among).1 revoke
      ((delivered.closed userId role).mp held)

end Delivered

end Syndra.Ledger
