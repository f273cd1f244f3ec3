/-
The queue owes exactly the closure.

The moves are the access changes and the delivery of the oldest waiting row. What the rows
still waiting would leave in Zitadel is read role by role off the last waiting row.
-/

import Syndra.Foundation.Overlay
import Syndra.Foundation.Runs
import Syndra.Ledger.Delivered

namespace Syndra.Ledger

open Access Propagation Foundation List OutboxRow

inductive OwedMove where
  | change (gate : Option CancelGate) (change : Change)
  | deliverOldest
deriving DecidableEq

def owedStep (state : AccessState) : OwedMove → Option AccessState
  | .change gate change => change.perform gate state
  | .deliverOldest =>
    match state.outbox.rows.find? fun row => row.status = .pending with
    | none => none
    | some row => state.applyRow row

/-- What Zitadel holds once the rows still waiting are replayed in intent order. -/
def replayed (state : AccessState) : Zitadel :=
  Overlay.replay (fun row : OutboxRow => row.toIntent.effect)
    (state.outbox.rows.filter fun row => row.status = .pending) state.zitadel

def OwesClosure (state : AccessState) : Prop :=
  ∀ userId role, replayed state (heldBy userId role) = true ↔
    role ∈ effectiveClosure (state.records.holdings state.now userId) state.records.rules

def queuedBy (cause : Cause) (row : OutboxRow) : Bool :=
  row.status = .pending && row.opType = .add && cause.covers row.userId &&
    row.source = cause.source && (cause.source = .direct || row.sourceRef = cause.sourceRef)

/-- Taking back every add queued on this account takes back the access: where no
delivery of the role stands, Zitadel does not hold it and nobody else queued it. -/
def Withdrawable (state : AccessState) (cause : Cause) : Prop :=
  ∀ row ∈ state.outbox.rows, queuedBy cause row = true →
    standingFor zitadelTarget state.outbox (rowKey row) = false →
      state.zitadel (rowKey row) = false ∧
        ∀ other ∈ state.outbox.rows, other.status = .pending → other.opType = .add →
          rowKey other = rowKey row → queuedBy cause other = true
deriving Decidable

def WithdrawsCleanly (state : AccessState) : OwedMove → Prop
  | .change _ change => change.removes = true → Withdrawable state change.cause
  | .deliverOldest => True

instance (state : AccessState) (move : OwedMove) : Decidable (WithdrawsCleanly state move) :=
  match move with
  | .change _ change => inferInstanceAs (Decidable (change.removes = true → _))
  | .deliverOldest => isTrue trivial

/-! ### The value a queue leaves -/

def leftBy (queue : List OutboxRow) (held : Bool) : Bool :=
  match queue.getLast? with
  | none => held
  | some row => row.opType = .add

variable {held : Bool} {row : OutboxRow}

variable {queue : List OutboxRow} {key : HeldRole} {outbox after : Outbox} {move : OwedMove}

private theorem leftBy_append_singleton : leftBy (queue ++ [row]) held =
    decide (row.opType = .add):= by
  unfold leftBy
  rw [getLast?_concat]

private theorem leftBy_cons {rest : List OutboxRow} :
    leftBy (row :: rest) held = leftBy rest (decide (row.opType = .add)) := by
  cases rest with
  | nil => rfl
  | cons next others =>
    unfold leftBy
    rw [getLast?_cons_cons]
    cases found : (next :: others).getLast? with
    | none => rw [getLast?_eq_none_iff] at found; cases found
    | some => rfl

private theorem leftBy_of_uniform {value : Bool}
    (uniform : ∀ row ∈ queue, decide (row.opType = .add) = value)
    (atEmpty : queue = [] → held = value) : leftBy queue held = value := by
  unfold leftBy
  cases found : queue.getLast? with
  | none => exact atEmpty (getLast?_eq_none_iff.mp found)
  | some last => exact uniform last (mem_of_getLast? found)

private theorem effect_of_plain (plain : PlainRow row) : row.toIntent.effect key =
      if rowKey row = key then some (decide (row.opType = .add)) else none := by
  obtain ⟨target,-,-,roles⟩ := (row.isFor_iff _).mp plain.isFor
  unfold Intent.effect
  split
  · next scope =>
    obtain ⟨-,user,project⟩ := scope
    have sameKey : rowKey row = key ↔ key.roleKey ∈ row.roleKeys := by
      rw [roles,mem_singleton]
      cases key
      simp only [rowKey,HeldRole.mk.injEq]
      exact ⟨fun same => same.2.2.symm,fun same => ⟨user,project,same.symm⟩⟩
    rcases plain.op with op | op <;> simp [op,sameKey]
  · next outside =>
    rw [if_neg]
    intro same
    subst same
    exact outside ⟨target,rfl,rfl⟩

private theorem replayed_apply {state : AccessState}
    (plain : ∀ row ∈ state.outbox.rows, PlainRow row)
    :
    replayed state key = leftBy (state.outbox.queuedFor key) (state.zitadel key) := by
  have queue : state.outbox.queuedFor key =
      (state.outbox.rows.filter fun row => row.status = .pending).filter (isFor key) := by
    rw [Outbox.queuedFor_eq,Outbox.rowsFor,filter_filter,filter_filter]
    apply filter_congr
    intro row _member
    rw [Bool.and_comm]
  unfold replayed
  rw [Overlay.replay_apply,← Overlay.lastWrite_filter key (isFor key),← queue,
    Overlay.lastWrite_eq_getLast key fun row => decide (row.opType = .add)]
  · unfold leftBy
    cases (state.outbox.queuedFor key).getLast? <;> rfl
  · intro row among
    have mem := (mem_filter.mp among).1
    have isFor := ((row.waitsFor_iff_isFor key).mp (mem_filter.mp among).2).1
    rw [effect_of_plain (plain row mem),if_pos (rowKey_eq_of_isFor isFor)]
  intro row among unrelated
  have rowPlain := plain row (mem_filter.mp among).1
  rw [effect_of_plain rowPlain,if_neg]
  intro same
  rw [← same,rowPlain.isFor] at unrelated
  cases unrelated

/-! ### The queue of a role after a write -/

section Write

variable {named : Bool} {outbox : Outbox} {p : EnqueueParams} {seq : Nat}
  {inserted : List OutboxRow} {held : Bool}

private theorem plain_of_uncancelled (plain : ∀ row ∈ outbox.rows, PlainRow row)
    (kept : row ∈ uncancelled outbox p) : PlainRow row :=
  plain row (mem_filter.mp (mem_filter.mp kept).1).1

private theorem leftBy_after_add (plain : ∀ row ∈ outbox.rows, PlainRow row) (single : p.Single)
    (op : p.opType = .add) (own : OwnRow named outbox p seq inserted)
    (stands : standingFor zitadelTarget outbox p.key = true → held = true) :
    leftBy (uncancelled outbox p ++ inserted) held = true := by
  have adds (row : OutboxRow) (kept : row ∈ uncancelled outbox p) :
      decide (row.opType = .add) = true := by
    apply decide_eq_true
    exact (plain_of_uncancelled plain kept).op.resolve_right
      (not_revoke_after_add single op own (mem_append_left _ kept))
  rcases own with ⟨rfl,-⟩ | ⟨rfl,-,notOwed⟩ | ⟨rfl,-,-,_,kept,-⟩
  · rw [leftBy_append_singleton]
    exact decide_eq_true op
  · rw [append_nil]
    refine leftBy_of_uniform adds fun _ => stands ?_
    simpa [owedAfterCancel,op] using notOwed
  · rw [append_nil]
    refine leftBy_of_uniform adds fun empty => ?_
    rw [empty] at kept
    cases kept

theorem not_standing_of_notOwed {standing : Bool} (op : p.opType = .revoke)
    (notOwed : owedAfterCancel p standing = false) : standing = false := by
  simpa [owedAfterCancel,op] using notOwed

private theorem leftBy_after_revoke (op : p.opType = .revoke)
    (own : OwnRow named outbox p seq inserted)
    (withdrawn : cancelled outbox p ≠ [] → standingFor zitadelTarget outbox p.key = false →
      held = false ∧ ∀ row ∈ uncancelled outbox p, row.opType ≠ .add) :
    leftBy (uncancelled outbox p ++ inserted) held = false := by
  rcases own with ⟨rfl,-⟩ | ⟨rfl,some,notOwed⟩ | ⟨-,-,add,-⟩
  · rw [leftBy_append_singleton]
    apply decide_eq_false
    change p.opType ≠ .add
    rw [op]
    intro impossible
    cases impossible
  · obtain ⟨notHeld,noAdds⟩ := withdrawn some (not_standing_of_notOwed op notOwed)
    rw [append_nil]
    exact leftBy_of_uniform (fun row kept => decide_eq_false (noAdds row kept)) fun _ => notHeld
  · rw [op] at add
    cases add

end Write

section Withdrawal

variable {state : AccessState} {cause : Cause} {p : EnqueueParams}

theorem queuedBy_of_cancelled (plain : ∀ row ∈ state.outbox.rows, PlainRow row)
    (single : p.Single) (op : p.opType = .revoke) (source : outboxSource p = cause.source)
    (ref : p.sourceRef = cause.sourceRef) (covered : cause.covers p.userId = true)
    (some : cancelled state.outbox p ≠ []) :
    ∃ row ∈ state.outbox.rows, queuedBy cause row = true ∧ rowKey row = p.key := by
  obtain ⟨answered,among⟩ := exists_mem_of_ne_nil _ some
  obtain ⟨waiting,matching⟩ := mem_filter.mp among
  obtain ⟨mem,waits⟩ := mem_filter.mp waiting
  obtain ⟨isFor,pending⟩ := (answered.waitsFor_iff_isFor p.key).mp waits
  obtain ⟨kind,sameSource,sameRef⟩ := (single.answers_revoke op waits).mp matching
  have add : answered.opType = .add := by
    rcases (plain answered mem).op with add | revoke
    · exact add
    · rw [revoke] at kind
      rcases kind with impossible | impossible <;> cases impossible
  have user : answered.userId = p.userId := ((answered.isFor_iff p.key).mp isFor).2.1
  refine ⟨answered,mem,?_,rowKey_eq_of_isFor isFor⟩
  unfold queuedBy
  simp only [Bool.and_eq_true,Bool.or_eq_true,decide_eq_true_eq]
  rw [← source,← ref]
  exact ⟨⟨⟨⟨pending,add⟩,by rw [user]; exact covered⟩,sameSource⟩,sameRef⟩

theorem not_add_of_uncancelled (single : p.Single) (op : p.opType = .revoke)
    (source : outboxSource p = cause.source) (ref : p.sourceRef = cause.sourceRef)
    (alone : ∀ other ∈ state.outbox.rows, other.status = .pending → other.opType = .add →
      rowKey other = p.key → queuedBy cause other = true) :
    ∀ row ∈ uncancelled state.outbox p, row.opType ≠ .add := by
  intro row kept isAdd
  obtain ⟨waiting,unanswered⟩ := mem_filter.mp kept
  obtain ⟨mem,waits⟩ := mem_filter.mp waiting
  obtain ⟨isFor,pending⟩ := (row.waitsFor_iff_isFor p.key).mp waits
  have ours := alone row mem pending isAdd (rowKey_eq_of_isFor isFor)
  unfold queuedBy at ours
  simp only [Bool.and_eq_true,Bool.or_eq_true,decide_eq_true_eq] at ours
  rw [← source,← ref] at ours
  rw [(single.answers_revoke op waits).mpr ⟨.inl isAdd,ours.1.2,ours.2⟩] at unanswered
  cases unanswered

theorem Withdrawable.withdrawn (withdrawable : Withdrawable state cause) (steady : state.Steady)
    (single : p.Single) (op : p.opType = .revoke) (source : outboxSource p = cause.source)
    (ref : p.sourceRef = cause.sourceRef) (covered : cause.covers p.userId = true)
    (some : cancelled state.outbox p ≠ [])
    (notStanding : standingFor zitadelTarget state.outbox p.key = false) :
    state.zitadel p.key = false ∧ ∀ row ∈ uncancelled state.outbox p, row.opType ≠ .add := by
  obtain ⟨answered,mem,queued,key⟩ :=
    queuedBy_of_cancelled steady.plain single op source ref covered some
  obtain ⟨notHeld,alone⟩ := withdrawable answered mem queued (by rw [key]; exact notStanding)
  rw [key] at notHeld alone
  exact ⟨notHeld,not_add_of_uncancelled single op source ref alone⟩

end Withdrawal

/-! ### The invariant -/

def InOrder (outbox : Outbox) : Prop :=
  ∀ done ∈ outbox.rows, done.status = .applied →
    ∀ waiting ∈ outbox.rows, waiting.status = .pending → done.intentSeq < waiting.intentSeq

structure Owing (state : AccessState) : Prop where
  steady : state.Steady
  inForce : ∀ userId role, ¬ state.LapsedRole userId role
  stands : ∀ key, standingFor zitadelTarget state.outbox key = true → state.zitadel key = true
  inOrder : InOrder state.outbox
  owed : ∀ userId role, leftBy (state.outbox.queuedFor (heldBy userId role))
    (state.zitadel (heldBy userId role)) = true ↔ role ∈ state.closed userId

theorem InOrder.wrote {named : Bool} {p : EnqueueParams}
    {inserted : List OutboxRow} (inOrder : InOrder outbox)
    (wrote : Wrote named outbox p after inserted) : InOrder after := by
  have origin (row : OutboxRow) (mem : row ∈ after.rows) :
      (∃ before ∈ outbox.rows, before.intentSeq = row.intentSeq ∧
        (row.status ≠ .superseded → before.status = row.status)) ∨
      (row.intentSeq = outbox.nextSeq ∧ row.status = .pending) := by
    rw [wrote.rows] at mem
    rcases mem_append.mp mem with old | fresh
    · obtain ⟨before,present,rfl⟩ := mem_map.mp old
      refine .inl ⟨before,present,?_⟩
      unfold afterWrite
      split
      · exact ⟨rfl,absurd rfl⟩
      · exact ⟨rfl,fun _ => rfl⟩
    · rw [wrote.eq_fresh row fresh]
      exact .inr ⟨rfl,rfl⟩
  intro done doneMember applied waiting waitingMember pending
  rcases origin done doneMember with ⟨first,firstMember,firstSeq,status⟩ | ⟨-,impossible⟩
  · rcases origin waiting waitingMember with ⟨second,secondMember,secondSeq,kept⟩ | ⟨number,-⟩
    · rw [applied] at status
      rw [pending] at kept
      rw [← firstSeq,← secondSeq]
      exact inOrder first firstMember (status (by decide)) second secondMember (kept (by decide))
    · rw [← firstSeq,number]
      exact (outbox.numbered first firstMember).2.1
  · rw [applied] at impossible
    cases impossible

theorem InOrder.enqueued {writes : List (Bool × EnqueueParams)}
    (inOrder : InOrder outbox) (enqueued : Enqueued outbox writes after) : InOrder after := by
  induction enqueued with
  | nil => exact inOrder
  | cons _ wrote _ ih => exact ih (inOrder.wrote wrote)

theorem Owing.change {cause : Cause} {state next : AccessState}
    {writes : List (Bool × EnqueueParams)} (owing : Owing state)
    (effects : Effects cause state next writes)
    (clean : ∀ write ∈ writes, write.2.opType = .revoke → Withdrawable state cause) :
    Owing next := by
  refine ⟨effects.steady owing.steady,?_,?_,owing.inOrder.enqueued effects.enqueued,?_⟩
  · exact fun userId role recorded => owing.inForce userId role (effects.lapsed userId role recorded)
  · intro key standing
    rw [effects.enqueued.standing] at standing
    rw [effects.zitadel]
    exact owing.stands key standing
  intro userId role
  rw [effects.zitadel]
  by_cases listed : heldBy userId role ∈ writeKeys writes
  · obtain ⟨write,mem,key⟩ := mem_map.mp listed
    obtain ⟨single,_,_,-,own,-,queue⟩ := effects.enqueued.isolate effects.distinct mem
    have same := key
    rw [key_eq_heldBy] at same
    obtain ⟨rfl,rfl⟩ := heldBy_injective same
    rw [← key_eq_heldBy,queue]
    rcases single.op with add | revoke
    · have held := (effects.added write mem add).resolve_right fun recorded =>
        owing.inForce _ _ (effects.lapsed _ _ recorded)
      rw [leftBy_after_add owing.steady.plain single add own (owing.stands _)]
      exact ⟨fun _ => held,fun _ => rfl⟩
    obtain ⟨source,ref,covered⟩ := effects.caused write mem revoke
    rw [leftBy_after_revoke revoke own
      ((clean write mem revoke).withdrawn owing.steady single revoke source ref covered)]
    exact ⟨fun impossible => absurd impossible Bool.false_ne_true,
      fun held => absurd held (effects.revoked write mem revoke)⟩
  · rw [effects.enqueued.queuedFor_of_notMem listed,owing.owed,effects.unmoved listed]

/-! ### Delivering the oldest row -/

section Deliver

variable {state next : AccessState} {row : OutboxRow}

private theorem take_of_plain (plain : PlainRow row) {zitadel : Zitadel} {key : HeldRole} :
    zitadel.take row.toIntent key =
      if rowKey row = key then decide (row.opType = .add) else zitadel key := by
  unfold Zitadel.take
  rw [effect_of_plain plain]
  split <;> rfl

private theorem older_of_first
    (first : (state.outbox.rows.find? fun row => row.status = .pending) = some row)
    {other : OutboxRow} (mem : other ∈ state.outbox.rows) (pending : other.status = .pending)
    (different : other.id ≠ row.id) : row.intentSeq < other.intentSeq := by
  obtain ⟨-,_,_,split,none⟩ := find?_eq_some_iff_append.mp first
  have ordered := state.outbox.ordered
  rw [split] at ordered mem
  rcases mem_append.mp mem with earlier | later
  · have notPending := none other earlier
    rw [pending] at notPending
    cases notPending
  rcases mem_cons.mp later with same | behind
  · rw [same] at different
    exact absurd rfl different
  · exact (pairwise_cons.mp (pairwise_append.mp ordered).2.1).1 other behind

private theorem queue_of_first (plain : PlainRow row)
    (first : (state.outbox.rows.find? fun row => row.status = .pending) = some row) :
    ∃ rest, state.outbox.queuedFor (rowKey row) = row :: rest ∧
      ∀ other ∈ rest, other.id ≠ row.id := by
  obtain ⟨pending,before,after,split,none⟩ := find?_eq_some_iff_append.mp first
  refine ⟨after.filter (waitsFor (rowKey row)),?_,?_⟩
  · unfold Outbox.queuedFor
    rw [split,filter_append,filter_cons, plain.waitsFor (decide_eq_true_eq.mp pending),if_pos rfl]
    have noneBefore : before.filter (waitsFor (rowKey row)) = [] := by
      apply filter_eq_nil_iff.mpr
      intro other mem waits
      have notPending := none other mem
      rw [((other.waitsFor_iff_isFor _).mp waits).2] at notPending
      cases notPending
    rw [noneBefore,nil_append]
  · intro other among same
    have distinct := state.outbox.idsDistinct
    rw [split,map_append] at distinct
    obtain ⟨notLater,-⟩ := nodup_cons.mp (nodup_append.mp distinct).2.1
    exact notLater (mem_map.mpr ⟨other,(mem_filter.mp among).1,same⟩)

section

variable (delivered : Delivered state next row)
include delivered

private theorem Delivered.row_cases
    (mem : row ∈ state.outbox.rows) {after : OutboxRow} (listed : after ∈ next.outbox.rows) :
    (after.toIntent = row.toIntent ∧ after.intentSeq = row.intentSeq ∧ after.status = .applied) ∨
    (after ∈ state.outbox.rows ∧ after.id ≠ row.id) := by
  rw [delivered.rows] at listed
  obtain ⟨_,present,rfl⟩ := mem_map.mp listed
  unfold appliedIf
  split
  · next same =>
    rw [state.outbox.eq_of_id_eq present mem same]
    exact .inl ⟨rfl,rfl,rfl⟩
  · next different => exact .inr ⟨present,different⟩

private theorem Delivered.self_mem
    (mem : row ∈ state.outbox.rows) :
    ∃ after ∈ next.outbox.rows, after.toIntent = row.toIntent ∧
      after.intentSeq = row.intentSeq ∧ after.status = .applied := by
  refine ⟨appliedIf row.id row,?_,?_⟩
  · rw [delivered.rows]
    exact mem_map_of_mem mem
  unfold appliedIf
  rw [if_pos rfl]
  exact ⟨rfl,rfl,rfl⟩

private theorem Delivered.mem_of_ne {other : OutboxRow}
    (mem : other ∈ state.outbox.rows) (different : other.id ≠ row.id) :
    other ∈ next.outbox.rows := by
  rw [delivered.rows]
  refine mem_map.mpr ⟨other,mem,?_⟩
  unfold appliedIf
  rw [if_neg different]

private theorem Delivered.standing_of_ne (plain : PlainRow row)
    (mem : row ∈ state.outbox.rows) (pending : row.status = .pending) {key : HeldRole}
    (other : rowKey row ≠ key) :
    standingFor zitadelTarget next.outbox key = standingFor zitadelTarget state.outbox key := by
  have same (ops : List OpType) : maxApplied zitadelTarget next.outbox key ops =
      maxApplied zitadelTarget state.outbox key ops := by
    apply Nat.le_antisymm
    · apply maxApplied_le
      intro after listed counts
      rcases delivered.row_cases mem listed with ⟨intent,-⟩ | ⟨present,-⟩
      · obtain ⟨-,user,-,project,role,-⟩ := counts
        rw [intent] at user project role
        rw [plain.roleKeys,mem_singleton] at role
        exact absurd (by cases key; simp only [rowKey,HeldRole.mk.injEq]; exact ⟨user,project,role.symm⟩) other
      · exact ⟨after,present,counts,rfl⟩
    · apply maxApplied_le
      intro before present counts
      have different : before.id ≠ row.id := by
        intro sameId
        have applied := counts.2.2.1
        rw [state.outbox.eq_of_id_eq present mem sameId,pending] at applied
        cases applied
      exact ⟨before,delivered.mem_of_ne present different,counts,rfl⟩
  unfold standingFor
  rw [same,same]

private theorem Delivered.not_standing (plain : PlainRow row)
    (inOrder : InOrder state.outbox) (mem : row ∈ state.outbox.rows)
    (pending : row.status = .pending) (revoke : row.opType = .revoke) :
    standingFor zitadelTarget next.outbox (rowKey row) = false := by
  apply decide_eq_false
  apply Nat.not_lt.mpr
  obtain ⟨_,listed,intent,seq,applied⟩ := delivered.self_mem mem
  have newest : row.intentSeq ≤ maxApplied zitadelTarget next.outbox (rowKey row) [.revoke] := by
    rw [← seq]
    refine le_maxApplied listed ⟨?_,?_,applied,?_,?_,?_⟩
    · rw [intent]
      exact ((row.isFor_iff _).mp plain.isFor).1
    · rw [intent]
      rfl
    · rw [intent]
      rfl
    · rw [intent,plain.roleKeys]
      exact mem_singleton.mpr rfl
    · rw [intent,revoke]
      exact mem_singleton.mpr rfl
  rcases Nat.eq_zero_or_pos
    (maxApplied zitadelTarget next.outbox (rowKey row) [.add,.replace]) with zero | some
  · rw [zero]
    exact Nat.zero_le _
  obtain ⟨added,addedListed,counts,number⟩ := exists_of_maxApplied some
  rw [← number]
  rcases delivered.row_cases mem addedListed with ⟨sameIntent,-⟩ | ⟨present,-⟩
  · have op := counts.2.2.2.2.2
    rw [sameIntent,revoke] at op
    simp at op
  · exact Nat.le_trans
      (Nat.le_of_lt (inOrder added present counts.2.2.1 row mem pending)) newest

end

theorem Owing.deliver (owing : Owing state)
    (first : (state.outbox.rows.find? fun row => row.status = .pending) = some row)
    (done : state.applyRow row = some next) : Owing next := by
  have mem := mem_of_find?_eq_some first
  have found := find?_some first
  have pending : row.status = .pending := of_decide_eq_true found
  have plain := owing.steady.plain row mem
  have delivered := applyRow_delivered owing.steady mem pending done
  refine ⟨delivered.steady owing.steady,?_,?_,?_,?_⟩
  · intro userId role ⟨grant,recorded,person,same,ended⟩
    rw [delivered.now] at ended
    exact owing.inForce userId role ⟨grant,delivered.fewer recorded,person,same,ended⟩
  · intro key standing
    rw [delivered.zitadel,take_of_plain plain]
    by_cases same : rowKey row = key
    · subst same
      rw [if_pos rfl]
      rcases plain.op with add | revoke
      · exact decide_eq_true add
      · rw [delivered.not_standing plain owing.inOrder mem pending revoke] at standing
        cases standing
    · rw [if_neg same]
      rw [delivered.standing_of_ne plain mem pending same] at standing
      exact owing.stands key standing
  · intro settled settledListed applied waiting waitingListed waitingPending
    have before : waiting ∈ state.outbox.rows ∧ waiting.id ≠ row.id := by
      rcases delivered.row_cases mem waitingListed with ⟨-,-,wasApplied⟩ | kept
      · rw [waitingPending] at wasApplied
        cases wasApplied
      · exact kept
    rcases delivered.row_cases mem settledListed with ⟨-,seq,-⟩ | ⟨present,-⟩
    · rw [seq]
      exact older_of_first first before.1 waitingPending before.2
    · exact owing.inOrder settled present applied waiting before.1 waitingPending
  · intro userId role
    rw [delivered.closed,← owing.owed,delivered.queuedFor,delivered.zitadel, take_of_plain plain]
    by_cases same : rowKey row = heldBy userId role
    · obtain ⟨_,queue,apart⟩ := queue_of_first plain first
      rw [if_pos same,← same,queue,filter_cons,
        decide_eq_false (fun different => different rfl),if_neg Bool.false_ne_true,
        filter_eq_self.mpr fun other among => decide_eq_true (apart other among),leftBy_cons]
    rw [if_neg same,filter_eq_self.mpr]
    intro _ among
    apply decide_eq_true
    intro sameId
    obtain ⟨present,waits⟩ := mem_filter.mp among
    rw [state.outbox.eq_of_id_eq present mem sameId] at waits
    exact same (rowKey_eq_of_isFor ((row.waitsFor_iff_isFor _).mp waits).1)

end Deliver

/-! ### Every run -/

/-- Nothing is queued, no grant has lapsed, and Zitadel holds each person's
closure. -/
structure StartsSettled (state : AccessState) : Prop where
  empty : state.outbox.rows = []
  inForce : ∀ grant ∈ state.records.grants, grant.lapsed state.now = false
  holds : ∀ userId role, state.zitadel (heldBy userId role) = true ↔
    role ∈ effectiveClosure (state.records.holdings state.now userId) state.records.rules

private theorem StartsSettled.owing {state : AccessState} (settled : StartsSettled state) :
    Owing state := by
  have none (key : HeldRole) : state.outbox.queuedFor key = [] := by
    unfold Outbox.queuedFor
    rw [settled.empty]
    rfl
  refine ⟨⟨?_,?_⟩,?_,?_,?_,?_⟩
  · intro row mem
    rw [settled.empty] at mem
    cases mem
  · intro userId role _ waiting
    rw [none] at waiting
    cases waiting
  · intro userId role ⟨grant,mem,_person,_same,ended⟩
    rw [settled.inForce grant mem] at ended
    cases ended
  · intro _ standing
    unfold standingFor maxApplied at standing
    rw [settled.empty] at standing
    cases standing
  · intro _ mem
    rw [settled.empty] at mem
    cases mem
  · intro userId role
    rw [none]
    exact settled.holds userId role

private theorem owing_step {state next : AccessState} (owing : Owing state)
    (clean : WithdrawsCleanly state move) (taken : owedStep state move = some next) :
    Owing next := by
  cases move with
  | change _ change =>
    obtain ⟨_,effects,-,adds⟩ := Change.effects owing.steady taken
    refine owing.change effects fun write mem revoke => ?_
    cases removes : change.removes with
    | true => exact clean removes
    | false => exact absurd revoke (adds removes write mem)
  | deliverOldest =>
    simp only [owedStep] at taken
    split at taken
    · cases taken
    · next row first => exact owing.deliver first taken

/-- Whatever changes and deliveries ran, replaying what still waits leaves each
person the closure of their records, where every removal withdraws cleanly. -/
theorem queue_owes_closure {initial final : AccessState} {moves : List OwedMove}
    (settled : StartsSettled initial)
    (clean : Runs.Throughout owedStep WithdrawsCleanly initial moves)
    (reached : Runs.run owedStep initial moves = some final) : OwesClosure final := by
  have owing := Runs.run_invariant Owing owing_step settled.owing clean reached
  intro userId role
  rw [replayed_apply owing.steady.plain]
  exact owing.owed userId role

namespace Workshop

def records : Records :=
  { Records.empty with
    nextGrant := 1
    bundles := [{ id := "makers", retired := false, includes := [] }]
    versions := [{ id := "makers-1", bundleId := "makers", version := 1,
                   roles := [⟨"workshop","member"⟩], includes := [] }]
    assignments := [{ userId := "ada", bundleId := "makers", versionId := "makers-1" }]
    rules := [{ id := "r1", sourceProject := "workshop", sourceRole := "member",
                targetProject := "doors", targetRole := "entry" }]
    grantsNumbered := nofun
    assignmentsDistinct := nodup_singleton _
    rulesDistinct := nodup_singleton _ }

def start : AccessState :=
  { records := records
    outbox := Outbox.empty
    zitadel := fun key => decide (Role.mk key.projectId key.roleKey ∈
      effectiveClosure (records.holdings 0 key.userId) records.rules)
    now := 0 }

private theorem start_settled : StartsSettled start where
  empty := rfl
  inForce := nofun
  holds := by
    intro _ _
    exact decide_eq_true_iff

def reviewed : Option CancelGate := some { acked := [], reviewed := true, asks := true }

def removeMakers : OwedMove := .change reviewed (.unassign "ada" "makers")

def giveMakers : OwedMove := .change reviewed (.assign "ada" "makers")

def giveEntry : OwedMove :=
  .change reviewed (.give
    { userId := "ada", projectId := "doors", roleKey := "entry", expiresAt := none
      endRule := .kept, sourceRef := "", waitReason := none })

theorem queue_owes_closure_workshop : ∃ final, Runs.run owedStep start
        [removeMakers,.deliverOldest,.deliverOldest,giveEntry,giveMakers,removeMakers] =
          some final ∧ OwesClosure final := by
  have ran : (Runs.run owedStep start [removeMakers,.deliverOldest,.deliverOldest,giveEntry,
      giveMakers,removeMakers]).isSome = true := by decide
  obtain ⟨final,reached⟩ := Option.isSome_iff_exists.mp ran
  exact ⟨final,reached,queue_owes_closure start_settled (by decide) reached⟩

/-- A bundle removed, given back and removed again before anything was sent: the
first revoke is cancelled by the give, the give by the second removal, and
nothing is left that takes the role back. -/
theorem removed_bundle_stays_held : StartsSettled start ∧
      ∃ final, Runs.run owedStep start [removeMakers,giveMakers,removeMakers] = some final ∧
        ¬ OwesClosure final := by
  refine ⟨start_settled,?_⟩
  have ran : (Runs.run owedStep start [removeMakers,giveMakers,removeMakers]).any
      (fun final => replayed final (heldBy "ada" ⟨"workshop","member"⟩) ∧
        Role.mk "workshop" "member" ∉
          effectiveClosure (final.records.holdings final.now "ada") final.records.rules) = true := by
    decide
  obtain ⟨final,reached,wrong⟩ := Runs.exists_reached ran
  exact ⟨final,reached,fun owes => wrong.2 ((owes "ada" _).mp wrong.1)⟩

end Workshop

/-! ### What other people's changes leave alone -/

def OwedMove.removesFrom (userId : String) : OwedMove → Bool
  | .change _ made => made.removes && made.cause.covers userId
  | .deliverOldest => false

def NoRevokeWaits (userId : String) (outbox : Outbox) : Prop :=
  ∀ row ∈ outbox.rows, row.status = .pending → row.opType = .revoke → row.userId ≠ userId

structure Untouched (userId : String) (initial state : AccessState) : Prop where
  steady : state.Steady
  closed : initial.closed userId ⊆ state.closed userId
  queue : NoRevokeWaits userId state.outbox
  zitadel : ∀ role, initial.zitadel (heldBy userId role) = true →
    state.zitadel (heldBy userId role) = true

variable {userId : String} {initial state next : AccessState}
  {writes : List (Bool × EnqueueParams)}

theorem NoRevokeWaits.enqueued (none : NoRevokeWaits userId outbox)
    (enqueued : Enqueued outbox writes after)
    (others : ∀ write ∈ writes, write.2.opType = .revoke → write.2.userId ≠ userId) :
    NoRevokeWaits userId after := by
  induction enqueued with
  | nil => exact none
  | cons _ wrote _ ih =>
    refine ih (fun row mem waits revoke => ?_) fun _ later => others _ (mem_cons_of_mem _ later)
    rw [wrote.rows] at mem
    rcases mem_append.mp mem with old | fresh
    · obtain ⟨before,present,rfl⟩ := mem_map.mp old
      unfold afterWrite at waits revoke ⊢
      split_ifs at waits revoke ⊢
      · cases waits
      · exact none before present waits revoke
    · rw [wrote.eq_fresh row fresh] at revoke ⊢
      exact others _ mem_cons_self revoke

theorem Untouched.change {cause : Cause} (untouched : Untouched userId initial state)
    (effects : Effects cause state next writes)
    (others : ∀ write ∈ writes, write.2.opType = .revoke → write.2.userId ≠ userId) :
    Untouched userId initial next := by
  refine ⟨effects.steady untouched.steady,fun role before => ?_,
    untouched.queue.enqueued effects.enqueued others,?_⟩
  · by_contra lost
    obtain ⟨write,listed,key,revoke⟩ := effects.lost userId role (untouched.closed before) lost
    exact others write listed revoke (congrArg HeldRole.userId key)
  · rw [effects.zitadel]
    exact untouched.zitadel

theorem Untouched.deliver (untouched : Untouched userId initial state)
    (mem : row ∈ state.outbox.rows) (pending : row.status = .pending)
    (done : state.applyRow row = some next) : Untouched userId initial next := by
  have plain := untouched.steady.plain row mem
  have delivered := applyRow_delivered untouched.steady mem pending done
  refine ⟨delivered.steady untouched.steady,?_,fun after listed waits => ?_,fun role before => ?_⟩
  · exact fun role before => (delivered.closed userId role).mpr (untouched.closed before)
  · rcases delivered.row_cases mem listed with ⟨-,-,applied⟩ | ⟨present,-⟩
    · rw [applied] at waits
      cases waits
    · exact untouched.queue after present waits
  · rw [delivered.zitadel,take_of_plain plain]
    split
    · next same =>
      refine decide_eq_true (plain.op.resolve_right fun revoke => ?_)
      exact untouched.queue row mem pending revoke (congrArg HeldRole.userId same)
    · exact untouched.zitadel role before

private theorem untouched_step (untouched : Untouched userId initial state)
    (spares : move.removesFrom userId = false) (taken : owedStep state move = some next) :
    Untouched userId initial next := by
  cases move with
  | change _ change =>
    obtain ⟨writes,effects,-,adds⟩ := Change.effects untouched.steady taken
    refine untouched.change effects fun write listed revoke same => ?_
    have covered := (effects.caused write listed revoke).2.2
    simp only [OwedMove.removesFrom,← same,covered,Bool.and_true] at spares
    exact adds spares write listed revoke
  | deliverOldest =>
    simp only [owedStep] at taken
    split at taken
    · cases taken
    next row first =>
    have found := find?_some first
    exact untouched.deliver (mem_of_find?_eq_some first) (of_decide_eq_true found) taken

/-- Whatever is given, removed and delivered: where no removal is about a person and no
revoke of theirs waits, none of their access is taken, in the records or in Zitadel. -/
theorem unremoved_access_kept {final : AccessState} {moves : List OwedMove}
    (steady : initial.Steady) (none : NoRevokeWaits userId initial.outbox)
    (spares : Runs.Throughout owedStep (fun _ move => move.removesFrom userId = false) initial
      moves) (reached : Runs.run owedStep initial moves = some final) :
    Untouched userId initial final := by
  have start : Untouched userId initial initial := ⟨steady,Subset.refl _,none,fun _ => id⟩
  exact Runs.run_invariant _ untouched_step start spares reached

namespace Workshop

def bobAndBack : List OwedMove :=
  [.change reviewed (.assign "bob" "makers"),.deliverOldest,
    .change reviewed (.unassign "bob" "makers")]

theorem unremoved_access_kept_workshop : ∃ final,
      Runs.run owedStep start bobAndBack = some final ∧ Untouched "ada" start final := by
  have ran : (Runs.run owedStep start bobAndBack).isSome = true := by decide
  obtain ⟨final,reached⟩ := Option.isSome_iff_exists.mp ran
  exact ⟨final,reached,unremoved_access_kept start_settled.owing.steady (fun _ => nofun)
    (by decide) reached⟩

end Workshop

end Syndra.Ledger
