/-
What each access change writes.

While every queued revocation is of a role nobody's records still reach, the subtraction of
queued revocations changes no base, and a change's simulation is the closure of the records
it leaves.
-/

import Syndra.Ledger.Changes

namespace Syndra.Ledger

open Access Propagation List Records AccessState

/-! ### Rows of one role -/

def rowKey (row : OutboxRow) : HeldRole :=
  { userId := row.userId
    projectId := row.projectId
    roleKey := row.roleKeys.headD "" }

/-- What the access changes write, between deliveries: one role, an add or a
revoke, and not in flight. -/
structure PlainRow (row : OutboxRow) : Prop where
  isFor : row.isFor (rowKey row) = true
  op : row.opType = .add ∨ row.opType = .revoke
  status : row.status = .pending ∨ row.status = .applied ∨ row.status = .superseded

variable {row : OutboxRow} {outbox : Outbox} {writes : List (Bool × EnqueueParams)}
  {userId bundleId : String} {state next : AccessState} {gate : Option CancelGate}
  {records : Records}

theorem PlainRow.waitsFor (plain : PlainRow row) (pending : row.status = .pending) :
    row.waitsFor (rowKey row) = true :=
  (row.waitsFor_iff_isFor _).mpr ⟨plain.isFor,pending⟩

theorem PlainRow.pending_of_unresolved (plain : PlainRow row) (unresolved : row.Unresolved) :
    row.status = .pending := by
  rcases unresolved with pending | inFlight
  · exact pending
  · rcases plain.status with status | status | status <;> rw [inFlight] at status <;> cases status

theorem PlainRow.roleKeys (plain : PlainRow row) : row.roleKeys = [(rowKey row).roleKey] :=
  ((row.isFor_iff _).mp plain.isFor).2.2.2

theorem rowKey_eq_of_isFor {key : HeldRole} (isFor : row.isFor key = true) : rowKey row = key := by
  obtain ⟨-,user,project,role⟩ := (row.isFor_iff key).mp isFor
  cases key
  simp only [rowKey,HeldRole.mk.injEq]
  refine ⟨user,project,?_⟩
  rw [role]
  rfl

variable {p : EnqueueParams}

theorem PlainRow.freshRow (single : p.Single) (seq : Nat) :
    PlainRow (p.intent.freshRow p.waitReason seq) where
  isFor := ((OutboxRow.waitsFor_iff_isFor _ _).mp (single.waitsFor_freshRow seq)).1
  op := single.op
  status := .inl rfl

variable {after : Outbox} {users : List String} {source : Source} {sourceRef ruleId : String}
  {base : List Role} {ids : List Nat} {rulesAfter : List MappingRule} {keep : Assignment → Bool}
  {now : Time} {rule : MappingRule}

theorem PlainRow.wrote {named : Bool} {inserted : List OutboxRow}
    (wrote : Wrote named outbox p after inserted) (single : p.Single)
    (plain : ∀ row ∈ outbox.rows, PlainRow row) : ∀ row ∈ after.rows, PlainRow row := by
  intro row mem
  rw [wrote.rows] at mem
  rcases mem_append.mp mem with old | fresh
  · obtain ⟨before,present,rfl⟩ := mem_map.mp old
    unfold OutboxRow.afterWrite
    split
    · exact ⟨(plain before present).isFor,(plain before present).op,.inr (.inr rfl)⟩
    · exact plain before present
  · rw [wrote.eq_fresh row fresh]
    exact PlainRow.freshRow single _

theorem PlainRow.enqueued (enqueued : Enqueued outbox writes after)
    (plain : ∀ row ∈ outbox.rows, PlainRow row) :
    ∀ row ∈ after.rows, PlainRow row := by
  induction enqueued with
  | nil => exact plain
  | cons single wrote _ ih => exact ih (PlainRow.wrote wrote single plain)

variable {role : Role}

theorem exists_revoke_of_queued {grants : List DirectGrant}
    (plain : ∀ row ∈ outbox.rows, PlainRow row)
    (queued : role ∈ queuedRevocationsFor outbox grants userId) :
    ∃ row ∈ outbox.queuedFor (heldBy userId role), row.opType = .revoke := by
  rcases mem_append.mp queued with revoked | replaced
  · obtain ⟨row,among,listed⟩ := mem_flatMap.mp revoked
    obtain ⟨mem,selected⟩ := mem_filter.mp among
    simp only [Bool.and_eq_true,decide_eq_true_eq] at selected
    have isPlain := plain row mem
    obtain ⟨roleKey,inKeys,rfl⟩ := mem_map.mp listed
    rw [isPlain.roleKeys,mem_singleton] at inKeys
    have key : rowKey row = heldBy userId ⟨row.projectId,roleKey⟩ := by
      unfold rowKey
      rw [selected.1.1.1,inKeys]
      rfl
    have waits := isPlain.waitsFor (isPlain.pending_of_unresolved selected.1.2)
    rw [key] at waits
    exact ⟨row,mem_filter.mpr ⟨mem,waits⟩,selected.1.1.2⟩
  · obtain ⟨row,among,-⟩ := mem_flatMap.mp replaced
    obtain ⟨mem,selected⟩ := mem_filter.mp among
    simp only [Bool.and_eq_true] at selected
    rcases (plain row mem).op with op | op <;> rw [op] at selected <;> cases selected.1.1.2

namespace AccessState

def closed (state : AccessState) (userId : String) : List Role :=
  effectiveClosure (state.records.holdings state.now userId) state.records.rules

def LapsedRole (state : AccessState) (userId : String) (role : Role) : Prop :=
  ∃ grant ∈ state.records.grants, grant.userId = userId ∧ grant.role = role ∧
    grant.lapsed state.now = true

structure Steady (state : AccessState) : Prop where
  plain : ∀ row ∈ state.outbox.rows, PlainRow row
  revoking : ∀ userId role, ∀ row ∈ state.outbox.queuedFor (heldBy userId role),
    row.opType = .revoke → role ∉ state.closed userId

theorem holdings_subset_closed (state : AccessState) (userId : String) :
    state.records.holdings state.now userId ⊆ state.closed userId :=
  subset_closure Role.mk _ _

theorem Steady.not_revoking (steady : state.Steady) (held : role ∈ state.closed userId) :
    role ∉ queuedRevocationsFor state.outbox state.records.grants userId := by
  intro queued
  obtain ⟨row,waiting,op⟩ := exists_revoke_of_queued steady.plain queued
  exact steady.revoking userId role row waiting op held

end AccessState

theorem Records.mem_bundleRolesFor (records : Records) (userId : String)
    (pair : String × List Role) :
    pair ∈ records.bundleRolesFor userId ↔ ∃ held ∈ records.assignments, held.userId = userId ∧
        (held.bundleId, records.effectiveRoles held.versionId) = pair := by
  unfold bundleRolesFor
  simp only [mem_map,mem_filter,decide_eq_true_eq,and_assoc]

theorem Records.mem_getDirectGrants (records : Records) (now : Time) (userId : String)
    (grant : DirectGrant) :
    grant ∈ records.getDirectGrantsForUser now userId false ↔
      grant ∈ records.grants ∧ grant.userId = userId ∧ grant.lapsed now = false := by
  unfold getDirectGrantsForUser
  simp only [mem_filter,Bool.false_or,Bool.and_eq_true,decide_eq_true_eq, Bool.not_eq_true']

theorem Records.mem_holdings (records : Records) (now : Time) (userId : String) (role : Role) :
    role ∈ records.holdings now userId ↔
      (∃ grant ∈ records.grants, grant.userId = userId ∧ grant.lapsed now = false ∧
        grant.role = role) ∨
      (∃ held ∈ records.assignments, held.userId = userId ∧
        role ∈ records.effectiveRoles held.versionId) := by
  unfold holdings
  rw [mem_append,mem_map,mem_flatMap]
  simp only [mem_getDirectGrants,mem_bundleRolesFor,and_assoc]
  constructor
  · intro held
    rcases held with direct | ⟨_,⟨held,mem,person,rfl⟩,inside⟩
    · exact .inl direct
    · exact .inr ⟨held,mem,person,inside⟩
  · intro held
    rcases held with direct | ⟨held,mem,person,inside⟩
    · exact .inl direct
    · exact .inr ⟨_,⟨held,mem,person,rfl⟩,inside⟩

def AccessState.Unrevoked (state : AccessState) (userId : String) : Prop :=
  ∀ role ∈ state.records.holdings state.now userId,
    role ∉ queuedRevocationsFor state.outbox state.records.grants userId

theorem AccessState.Steady.unrevoked (steady : state.Steady) (userId : String) :
    state.Unrevoked userId :=
  fun _role held => steady.not_revoking (state.holdings_subset_closed userId held)

namespace AccessState.Unrevoked

variable {state : AccessState} {userId : String}

section

variable (unrevoked : state.Unrevoked userId)
include unrevoked

private theorem mem_baseFrom
    (direct : List DirectGrant) (exclude : Option String)
    (fewer : direct ⊆ (state.personAccess userId).direct) (role : Role) :
    role ∈ baseFrom { state.personAccess userId with direct := direct } exclude ↔
      (∃ grant ∈ direct, grant.role = role) ∨
      (∃ held ∈ state.records.assignments, held.userId = userId ∧ some held.bundleId ≠ exclude ∧
        role ∈ state.records.effectiveRoles held.versionId) := by
  unfold baseFrom
  rw [mem_filter,decide_eq_true_eq,mem_append,mem_map,mem_flatMap]
  constructor
  · intro ⟨held,_notRevoking⟩
    rcases held with given | ⟨pair,among,inside⟩
    · exact .inl given
    obtain ⟨listed,kept⟩ := mem_filter.mp among
    obtain ⟨held,mem,person,rfl⟩ := (state.records.mem_bundleRolesFor userId pair).mp listed
    exact .inr ⟨held,mem,person,decide_eq_true_eq.mp kept,inside⟩
  · intro held
    refine ⟨?_,unrevoked role ((state.records.mem_holdings state.now userId role).mpr ?_)⟩
    · rcases held with given | ⟨held,mem,person,kept,inside⟩
      · exact .inl given
      exact .inr ⟨_,mem_filter.mpr
        ⟨(state.records.mem_bundleRolesFor userId _).mpr ⟨held,mem,person,rfl⟩,
          decide_eq_true kept⟩,inside⟩
    · rcases held with ⟨grant,among,same⟩ | ⟨held,mem,person,-,inside⟩
      · obtain ⟨mem,person,current⟩ :=
          (state.records.mem_getDirectGrants state.now userId grant).mp (fewer among)
        exact .inl ⟨grant,mem,person,current,same⟩
      · exact .inr ⟨held,mem,person,inside⟩

theorem mem_userBaseHoldings (role : Role) :
    role ∈ state.userBaseHoldings userId ↔ role ∈ state.records.holdings state.now userId := by
  rw [mem_holdings]
  refine (unrevoked.mem_baseFrom _ none (Subset.refl _) role).trans ?_
  change (∃ grant ∈ state.records.getDirectGrantsForUser state.now userId false, _) ∨ _ ↔ _
  simp only [mem_getDirectGrants,ne_eq,reduceCtorEq,not_false_eq_true,true_and, and_assoc]

theorem mem_excludingBundle (bundleId : String)
    (role : Role) :
    role ∈ state.userBaseHoldingsExcludingBundle userId (some bundleId) ↔
      role ∈ (state.records.keepAssignments fun held => held.bundleId ≠ bundleId).holdings
        state.now userId := by
  rw [mem_holdings]
  refine (unrevoked.mem_baseFrom _ (some bundleId) (Subset.refl _) role).trans ?_
  change (∃ grant ∈ state.records.getDirectGrantsForUser state.now userId false, _) ∨ _ ↔
    (∃ grant ∈ state.records.grants, _) ∨ ∃ held ∈ state.records.assignments.filter _,
      _ ∧ role ∈ state.records.effectiveRoles held.versionId
  simp only [mem_getDirectGrants,mem_filter,ne_eq,Option.some.injEq,
    decide_eq_true_eq,and_assoc]
  apply or_congr_right
  apply exists_congr
  intro _
  apply and_congr_right
  intro _member
  exact and_left_comm

theorem mem_excludingGrant (grantId : Nat)
    (role : Role) :
    role ∈ state.userBaseHoldingsExcludingGrant userId grantId ↔
      role ∈ (state.records.keepGrants fun grant =>
        !(grant.id = grantId && grant.userId = userId)).holdings state.now userId := by
  rw [mem_holdings]
  refine (unrevoked.mem_baseFrom _ none (fun grant among => (mem_filter.mp among).1) role).trans ?_
  change (∃ grant ∈ (state.records.getDirectGrantsForUser state.now userId false).filter _, _) ∨ _
    ↔ (∃ grant ∈ state.records.grants.filter _, _) ∨ _
  simp only [mem_filter,mem_getDirectGrants,ne_eq,reduceCtorEq,not_false_eq_true,
    true_and,and_assoc]
  apply or_congr_left
  apply exists_congr
  intro _
  apply and_congr_right
  intro _member
  constructor
  · intro ⟨person,current,other,same⟩
    refine ⟨?_,person,current,same⟩
    simp only [decide_eq_true_eq] at other
    simp [other]
  intro ⟨other,person,current,same⟩
  refine ⟨person,current,?_,same⟩
  simp only [person,decide_true,Bool.and_true,Bool.not_eq_true',decide_eq_false_iff_not]
    at other
  exact decide_eq_true other

end

end AccessState.Unrevoked

/-! ### The shape of a change -/

/-- On whose account a change revokes: the source and reference its rows carry,
and the one person it is about, or everybody. -/
structure Cause where
  source : Source
  sourceRef : String
  person : Option String
deriving DecidableEq

def Cause.covers (cause : Cause) (userId : String) : Bool :=
  match cause.person with
  | none => true
  | some person => person = userId

def roleOf (p : EnqueueParams) : Role :=
  { projectId := p.projectId
    roleKey := p.key.roleKey }

structure Effects (cause : Cause) (state next : AccessState)
    (writes : List (Bool × EnqueueParams)) : Prop where
  enqueued : Enqueued state.outbox writes next.outbox
  distinct : (writeKeys writes).Nodup
  zitadel : next.zitadel = state.zitadel
  gained : ∀ userId role, role ∈ next.closed userId → role ∉ state.closed userId →
    ∃ write ∈ writes, write.2.key = heldBy userId role ∧ write.2.opType = .add
  lost : ∀ userId role, role ∈ state.closed userId → role ∉ next.closed userId →
    ∃ write ∈ writes, write.2.key = heldBy userId role ∧ write.2.opType = .revoke
  /-- A give may keep an end that has passed; then its role is only recorded. -/
  added : ∀ write ∈ writes, write.2.opType = .add →
    roleOf write.2 ∈ next.closed write.2.userId ∨
      next.LapsedRole write.2.userId (roleOf write.2)
  revoked : ∀ write ∈ writes, write.2.opType = .revoke →
    roleOf write.2 ∉ next.closed write.2.userId
  caused : ∀ write ∈ writes, write.2.opType = .revoke →
    outboxSource write.2 = cause.source ∧ write.2.sourceRef = cause.sourceRef ∧
      cause.covers write.2.userId = true
  lapsed : ∀ userId role, next.LapsedRole userId role → state.LapsedRole userId role

def RevokesHeld (state : AccessState) (writes : List (Bool × EnqueueParams)) : Prop :=
  ∀ write ∈ writes, write.2.opType = .revoke → roleOf write.2 ∈ state.closed write.2.userId

theorem key_eq_heldBy : p.key = heldBy p.userId (roleOf p) := rfl

theorem keys_flatMap_nodup (distinct : users.Nodup) {deltas : String → List Role × List Role}
    (each : ∀ userId, ((deltas userId).1 ++ (deltas userId).2).Nodup) :
    ((users.flatMap fun userId => deltaWrites userId (deltas userId) source sourceRef).map
      EnqueueParams.key).Nodup := by
  rw [map_flatMap,nodup_flatMap]
  constructor
  · intro userId _member
    rw [keys_deltaWrites]
    exact (each userId).map fun first second same => (heldBy_injective same).2
  refine distinct.imp ?_
  intro _ _ different _ inFirst inSecond
  simp only [keys_deltaWrites] at inFirst inSecond
  obtain ⟨_,-,rfl⟩ := mem_map.mp inFirst
  obtain ⟨_,-,same⟩ := mem_map.mp inSecond
  exact different (heldBy_injective same).1.symm

theorem effectiveClosure_nodup (base : List Role) (rules : List MappingRule) :
    (effectiveClosure base rules).Nodup :=
  closure_nodup

theorem effectiveClosure_rules_mono {few many : List MappingRule}
    (contained : few ⊆ many) : effectiveClosure base few ⊆ effectiveClosure base many := by
  intro _ held
  rw [mem_effectiveClosure] at held ⊢
  obtain ⟨start,mem,reached⟩ := held
  refine ⟨start,mem,?_⟩
  induction reached with
  | refl => exact Reaches.refl _ _ _
  | tail _ edge ih =>
    obtain ⟨rule,listed,same⟩ := mem_map.mp edge
    exact Foundation.Saturation.Reaches.tail ih (mem_map.mpr ⟨rule,contained listed,same⟩)

theorem mem_effectiveClosure_edges {first second : List MappingRule}
    (same : first.map (ruleEdge Role.mk) = second.map (ruleEdge Role.mk))
    (role : Role) : role ∈ effectiveClosure base first ↔ role ∈ effectiveClosure base second := by
  rw [mem_effectiveClosure,mem_effectiveClosure]
  unfold Reaches
  rw [same]

def differences (cause : Cause) (users : List String) (before after : String → List Role) :
    List EnqueueParams :=
  users.flatMap fun userId =>
    deltaWrites userId (closureDelta (before userId) (after userId)) cause.source cause.sourceRef

variable {cause : Cause}

theorem mem_differences {before after : String → List Role} :
    p ∈ differences cause users before after ↔ ∃ userId ∈ users, ∃ role,
      ((role ∈ after userId ∧ role ∉ before userId) ∧
        roleWrite .add userId cause.source cause.sourceRef role = p) ∨
      ((role ∈ before userId ∧ role ∉ after userId) ∧
        roleWrite .revoke userId cause.source cause.sourceRef role = p) := by
  unfold differences
  simp only [mem_flatMap,mem_deltaWrites,mem_adds,mem_revokes,exists_or]

/-- The common proof: `before` is what the change compares with, the closure of the
records it leaves is the other side. -/
theorem effects_of_deltas {gate : Option CancelGate} {cause : Cause}
    {state next : AccessState} {ids : List Nat} (users : List String)
    (before after : String → List Role)
    (written : enqueueRows gate state.outbox (differences cause users before after) =
      .ok (next.outbox, ids)) (zitadel : next.zitadel = state.zitadel)
    (distinct : users.Nodup) (covered : ∀ userId ∈ users, cause.covers userId = true)
    (beforeNodup : ∀ userId, (before userId).Nodup) (afterNodup : ∀ userId, (after userId).Nodup)
    (wasHeld : ∀ userId ∈ users, ∀ role, role ∈ state.closed userId → role ∈ before userId)
    (isNew : ∀ userId ∈ users, ∀ role, role ∈ next.closed userId → role ∉ state.closed userId →
      role ∉ before userId)
    (isAfter : ∀ userId ∈ users, ∀ role, role ∈ after userId ↔ role ∈ next.closed userId)
    (others : ∀ userId, userId ∉ users → ∀ role,
      role ∈ next.closed userId ↔ role ∈ state.closed userId)
    (lapsed : ∀ userId role, next.LapsedRole userId role → state.LapsedRole userId role) :
    ∃ writes, Effects cause state next writes ∧
      (∀ userId ∈ users, ∀ role ∈ before userId, role ∉ next.closed userId →
        ∃ write ∈ writes, write.2.key = heldBy userId role ∧ write.2.opType = .revoke) ∧
      ∀ write ∈ writes, write.2.opType = .revoke →
        write.2.userId ∈ users ∧ roleOf write.2 ∈ before write.2.userId := by
  have visited_of_changed {userId : String} {role : Role}
      (changed : ¬ (role ∈ next.closed userId ↔ role ∈ state.closed userId)) : userId ∈ users := by
    by_contra absent
    exact changed (others userId absent role)
  have taken {userId : String} (visited : userId ∈ users) {role : Role}
      (held : role ∈ before userId) (gone : role ∉ next.closed userId) :
      ∃ write ∈ (differences cause users before after).map fun p => (false, p),
        write.2.key = heldBy userId role ∧ write.2.opType = .revoke := by
    refine ⟨_,mem_map_of_mem (mem_differences.mpr ⟨userId,visited,role,
      .inr ⟨⟨held,?_⟩,rfl⟩⟩),rfl,rfl⟩
    rwa [isAfter userId visited]
  have revokes {write : Bool × EnqueueParams}
      (mem : write ∈ (differences cause users before after).map fun p => (false, p))
      (op : write.2.opType = .revoke) :
      ∃ userId ∈ users, ∃ role ∈ before userId, role ∉ after userId ∧
        roleWrite .revoke userId cause.source cause.sourceRef role = write.2 := by
    obtain ⟨p,among,rfl⟩ := mem_map.mp mem
    obtain ⟨userId,visited,role,⟨-,rfl⟩ | ⟨⟨held,gone⟩,same⟩⟩ := mem_differences.mp among
    · cases op
    · exact ⟨userId,visited,role,held,gone,same⟩
  refine ⟨_,⟨enqueueRows_enqueued ?_ written,?_,zitadel,?_,?_,?_,?_,?_,lapsed⟩,
    fun userId visited role => taken visited,?_⟩
  · intro p mem
    obtain ⟨userId,-,listed⟩ := mem_flatMap.mp mem
    exact single_of_mem_deltaWrites listed
  · unfold writeKeys
    rw [map_map]
    exact keys_flatMap_nodup distinct fun userId =>
      closureDelta_nodup (beforeNodup userId) (afterNodup userId)
  · intro userId role gained absent
    have visited := visited_of_changed fun same => absent (same.mp gained)
    exact ⟨_,mem_map_of_mem (mem_differences.mpr ⟨userId,visited,role,
      .inl ⟨⟨(isAfter userId visited role).mpr gained,
        isNew userId visited role gained absent⟩,rfl⟩⟩),rfl,rfl⟩
  · intro userId role held lost
    have visited := visited_of_changed fun same => lost (same.mpr held)
    exact taken visited (wasHeld userId visited role held) lost
  · intro write mem op
    obtain ⟨_,among,rfl⟩ := mem_map.mp mem
    obtain ⟨userId,visited,role,⟨⟨held,-⟩,rfl⟩ | ⟨-,rfl⟩⟩ := mem_differences.mp among
    · exact .inl ((isAfter userId visited role).mp held)
    · cases op
  · intro write mem op
    obtain ⟨userId,visited,role,-,gone,same⟩ := revokes mem op
    rw [← same]
    exact fun held => gone ((isAfter userId visited role).mpr held)
  · intro write mem op
    obtain ⟨userId,visited,role,-,-,same⟩ := revokes mem op
    rw [← same]
    exact ⟨rfl,rfl,covered userId visited⟩
  · intro _ mem op
    obtain ⟨_,visited,_,held,-,same⟩ := revokes mem op
    rw [← same]
    exact ⟨visited,held⟩

theorem effects_of_bases (users : List String) (later : String → List Role)
    (steady : state.Steady)
    (written : enqueueRows gate state.outbox (differences cause users
      (fun userId => effectiveClosure (state.userBaseHoldings userId) state.records.rules)
        fun userId => effectiveClosure (later userId) rulesAfter) = .ok (next.outbox, ids))
    (zitadel : next.zitadel = state.zitadel) (distinct : users.Nodup)
    (covered : ∀ userId ∈ users, cause.covers userId = true)
    (sameRules : rulesAfter.map (ruleEdge Role.mk) = next.records.rules.map (ruleEdge Role.mk))
    (isLater : ∀ userId ∈ users, ∀ role,
      role ∈ later userId ↔ role ∈ next.records.holdings next.now userId)
    (others : ∀ userId, userId ∉ users → ∀ role,
      role ∈ next.closed userId ↔ role ∈ state.closed userId)
    (lapsed : ∀ userId role, next.LapsedRole userId role → state.LapsedRole userId role) :
    ∃ writes, Effects cause state next writes ∧ RevokesHeld state writes := by
  have isBefore (userId : String) (role : Role) :
      role ∈ effectiveClosure (state.userBaseHoldings userId) state.records.rules ↔
        role ∈ state.closed userId :=
    mem_effectiveClosure_congr (steady.unrevoked userId).mem_userBaseHoldings role
  have isAfter (userId : String) (visited : userId ∈ users) (role : Role) :
      role ∈ effectiveClosure (later userId) rulesAfter ↔ role ∈ next.closed userId :=
    (mem_effectiveClosure_congr (isLater userId visited) role).trans
      (mem_effectiveClosure_edges sameRules role)
  obtain ⟨writes,effects,-,held⟩ := effects_of_deltas users _ _ written zitadel distinct covered
    (fun _ => effectiveClosure_nodup _ _) (fun _ => effectiveClosure_nodup _ _)
    (fun userId _ role => (isBefore userId role).mpr)
    (fun userId _ role _held absent => fun before => absent ((isBefore userId role).mp before))
    isAfter others lapsed
  refine ⟨writes,effects,fun write mem op => ?_⟩
  exact (isBefore _ _).mp (held write mem op).2

theorem closed_congr (rules : next.records.rules = state.records.rules)
    (same : ∀ role, role ∈ next.records.holdings next.now userId ↔
      role ∈ state.records.holdings state.now userId) (role : Role) :
    role ∈ next.closed userId ↔ role ∈ state.closed userId := by
  unfold closed
  rw [rules]
  exact mem_effectiveClosure_congr same role

theorem effects_of_one {later : List Role}
    (steady : state.Steady)
    (written : enqueueRows gate state.outbox (deltaWrites userId (closureDelta
      (effectiveClosure (state.userBaseHoldings userId) state.records.rules)
        (effectiveClosure later state.records.rules)) source sourceRef) = .ok (next.outbox, ids))
    (zitadel : next.zitadel = state.zitadel) (rules : next.records.rules = state.records.rules)
    (isLater : ∀ role, role ∈ later ↔ role ∈ next.records.holdings next.now userId)
    (others : ∀ person, person ≠ userId → ∀ role, role ∈ next.records.holdings next.now person ↔
      role ∈ state.records.holdings state.now person)
    (lapsed : ∀ userId role, next.LapsedRole userId role → state.LapsedRole userId role) :
    ∃ writes, Effects ⟨source,sourceRef,some userId⟩ state next writes ∧
      RevokesHeld state writes := by
  refine effects_of_bases [userId] (fun _ => later) steady
    (by rw [differences,flatMap_singleton]; exact written) zitadel (nodup_singleton _) ?_
    (by rw [rules]) ?_ ?_ lapsed
  · intro person mem
    rw [mem_singleton.mp mem]
    exact decide_eq_true rfl
  · intro person mem
    rw [mem_singleton.mp mem]
    exact isLater
  · intro person apart
    exact closed_congr rules (others person fun same => apart (mem_singleton.mpr same))

theorem adds_of_grows (effects : Effects cause state next writes) (held : RevokesHeld state writes)
    (grows : ∀ userId, state.closed userId ⊆ next.closed userId) :
    ∀ write ∈ writes, write.2.opType ≠ .revoke := by
  intro write mem op
  exact effects.revoked write mem op (grows _ (held write mem op))

theorem Effects.unmoved (effects : Effects cause state next writes)
    (unlisted : heldBy userId role ∉ writeKeys writes) :
    role ∈ next.closed userId ↔ role ∈ state.closed userId := by
  constructor
  · intro held
    by_contra absent
    obtain ⟨write,mem,key,-⟩ := effects.gained userId role held absent
    exact unlisted (mem_map.mpr ⟨write,mem,key⟩)
  · intro held
    by_contra gone
    obtain ⟨write,mem,key,-⟩ := effects.lost userId role held gone
    exact unlisted (mem_map.mpr ⟨write,mem,key⟩)

theorem Effects.steady (effects : Effects cause state next writes) (steady : state.Steady) :
    next.Steady := by
  refine ⟨PlainRow.enqueued effects.enqueued steady.plain,?_⟩
  intro userId role row waiting revoke held
  by_cases listed : heldBy userId role ∈ writeKeys writes
  · obtain ⟨write,mem,key⟩ := mem_map.mp listed
    obtain ⟨single,_,_,-,own,-,queue⟩ := effects.enqueued.isolate effects.distinct mem
    rcases single.op with add | removal
    · rw [← key,queue] at waiting
      exact not_revoke_after_add single add own waiting revoke
    rw [key_eq_heldBy] at key
    obtain ⟨rfl,rfl⟩ := heldBy_injective key
    exact effects.revoked write mem removal held
  · rw [effects.enqueued.queuedFor_of_notMem listed] at waiting
    exact steady.revoking userId role row waiting revoke ((effects.unmoved listed).mp held)

theorem Effects.refl (cause : Cause) (state : AccessState) : Effects cause state state [] where
  enqueued := .nil _
  distinct := nodup_nil
  zitadel := rfl
  gained := fun _ _ => absurd
  lost := fun _ _ => absurd
  added := fun _ mem => absurd mem not_mem_nil
  revoked := fun _ mem => absurd mem not_mem_nil
  caused := fun _ mem => absurd mem not_mem_nil
  lapsed := fun _ _ recorded => recorded

theorem commit_ok {params : List EnqueueParams}
    (committed : state.commit gate records params = .ok next) :
    ∃ outbox ids, enqueueRows gate state.outbox params = .ok (outbox, ids) ∧
      next = { state with records := records, outbox := outbox } := by
  unfold commit at committed
  cases written : enqueueRows gate state.outbox params with
  | error => rw [written] at committed; cases committed
  | ok result =>
    rw [written] at committed
    cases committed
    exact ⟨result.1,result.2,rfl,rfl⟩

/-! ### Bundles -/

theorem Records.rules_assign (records : Records) (userId bundleId versionId : String) :
    (records.assign userId bundleId versionId).rules = records.rules := by
  unfold assign
  split <;> rfl

theorem Records.grants_assign (records : Records) (userId bundleId versionId : String) :
    (records.assign userId bundleId versionId).grants = records.grants := by
  unfold assign
  split <;> rfl

theorem mem_holdings_assign (versionId : String) (absent : records.assignments.any (fun held =>
      held.userId = userId && held.bundleId = bundleId) = false) (now : Time) (person : String)
    (role : Role) :
    role ∈ (records.assign userId bundleId versionId).holdings now person ↔
      role ∈ records.holdings now person ∨
        (userId = person ∧ role ∈ records.effectiveRoles versionId) := by
  have notHeld : (userId, bundleId) ∉
      records.assignments.map fun held => (held.userId, held.bundleId) := by
    intro listed
    obtain ⟨held,mem,same⟩ := mem_map.mp listed
    rw [any_eq_false] at absent
    apply absent held mem
    rw [Prod.mk.injEq] at same
    simp only [same.1,same.2,decide_true,Bool.and_self]
  unfold assign
  rw [dif_neg notHeld,mem_holdings,mem_holdings,or_assoc]
  apply or_congr_right
  constructor
  · intro ⟨held,mem,same,inside⟩
    rcases mem_append.mp mem with old | new
    · exact .inl ⟨held,old,same,inside⟩
    rw [mem_singleton] at new
    subst new
    exact .inr ⟨same,inside⟩
  · intro held
    rcases held with ⟨held,old,same,inside⟩ | ⟨same,inside⟩
    · exact ⟨held,mem_append_left _ old,same,inside⟩
    · exact ⟨_,mem_append_right _ (mem_singleton.mpr rfl),same,inside⟩

theorem assigned_effects (steady : state.Steady)
    (done : cascadeBundleAssignedToUser gate state userId bundleId = .ok next) :
    ∃ writes, Effects ⟨.bundle,bundleId,some userId⟩ state next writes ∧
      ∀ write ∈ writes, write.2.opType ≠ .revoke := by
  unfold cascadeBundleAssignedToUser at done
  split at done
  · cases done
  split at done
  · cases done
  split at done
  · cases done
  rename_i version _latest
  split at done
  · cases done
    exact ⟨[],Effects.refl _ _,fun _ mem => absurd mem not_mem_nil⟩
  rename_i absent
  obtain ⟨outbox,ids,written,rfl⟩ := commit_ok done
  have holds := mem_holdings_assign version.id
    (Bool.eq_false_iff.mpr absent) state.now
  have grows (person : String) : state.closed person ⊆ closed
      { state with
        records := state.records.assign userId bundleId version.id
        outbox := outbox } person := by
    unfold closed
    rw [rules_assign]
    exact effectiveClosure_mono _ fun role held => (holds _ _).mpr (.inl held)
  suffices shape : ∃ writes, Effects ⟨.bundle,bundleId,some userId⟩ state
      { state with
        records := state.records.assign userId bundleId version.id
        outbox := outbox } writes ∧ RevokesHeld state writes by
    obtain ⟨writes,effects,held⟩ := shape
    exact ⟨writes,effects,adds_of_grows effects held grows⟩
  refine effects_of_one steady written rfl (rules_assign _ _ _ _) ?_ ?_ ?_
  · intro role
    rw [holds,mem_append,(steady.unrevoked userId).mem_userBaseHoldings]
    simp only [true_and]
  · intro person apart role
    rw [holds]
    exact ⟨fun held => held.resolve_right fun new => apart new.1.symm,.inl⟩
  · intro person role recorded
    unfold AccessState.LapsedRole at recorded
    rwa [grants_assign] at recorded

theorem mem_holdings_keepAssignments :
    role ∈ (records.keepAssignments keep).holdings now userId ↔
      (∃ grant ∈ records.grants, grant.userId = userId ∧ grant.lapsed now = false ∧
        grant.role = role) ∨
      (∃ held ∈ records.assignments, keep held = true ∧ held.userId = userId ∧
        role ∈ records.effectiveRoles held.versionId) := by
  rw [mem_holdings]
  apply or_congr_right
  change (∃ held ∈ records.assignments.filter keep, _ ∧
    role ∈ records.effectiveRoles held.versionId) ↔ _
  simp only [mem_filter,and_assoc]

theorem mem_holdings_keepAssignments_congr {first second : Assignment → Bool} (now : Time)
    (agree : ∀ held ∈ records.assignments, held.userId = userId → first held = second held)
    (role : Role) :
    role ∈ (records.keepAssignments first).holdings now userId ↔
      role ∈ (records.keepAssignments second).holdings now userId := by
  rw [mem_holdings_keepAssignments,mem_holdings_keepAssignments]
  apply or_congr_right
  apply exists_congr
  intro held
  apply and_congr_right
  intro mem
  constructor
  · intro ⟨kept,person,inside⟩
    exact ⟨(agree held mem person).symm.trans kept,person,inside⟩
  · intro ⟨kept,person,inside⟩
    exact ⟨(agree held mem person).trans kept,person,inside⟩

theorem mem_holdings_keepAssignments_all (now : Time)
    (all : ∀ held ∈ records.assignments, held.userId = userId → keep held = true) (role : Role) :
    role ∈ (records.keepAssignments keep).holdings now userId ↔
      role ∈ records.holdings now userId := by
  rw [mem_holdings_keepAssignments_congr now all,mem_holdings_keepAssignments,
    mem_holdings]
  simp only [true_and]

theorem unassigned_effects (steady : state.Steady)
    (done : cascadeBundleRemovedFromUser gate state userId bundleId = .ok next) :
    ∃ writes, Effects ⟨.bundle,bundleId,some userId⟩ state next writes ∧
    RevokesHeld state writes := by
  unfold cascadeBundleRemovedFromUser at done
  split at done
  · cases done
  split at done
  · cases done
  obtain ⟨_,_,written,rfl⟩ := commit_ok done
  refine effects_of_one steady written rfl rfl ?_ ?_ (fun _ _ recorded => recorded)
  · intro role
    refine ((steady.unrevoked userId).mem_excludingBundle bundleId role).trans ?_
    apply mem_holdings_keepAssignments_congr
    intro held _member same
    simp [same]
  · intro person apart
    apply mem_holdings_keepAssignments_all
    intro held _member same
    simp [same,apart]

theorem getUsersForBundle_nodup (records : Records) (bundleId : String) :
    (records.getUsersForBundle bundleId).Nodup := by
  have pairs : ((records.assignments.filter fun held => held.bundleId = bundleId).map
      fun held => (held.userId, held.bundleId)).Nodup :=
    records.assignmentsDistinct.sublist (filter_sublist.map _)
  have paired : ((records.assignments.filter fun held => held.bundleId = bundleId).map
      fun held => (held.userId, held.bundleId)) =
      ((records.assignments.filter fun held => held.bundleId = bundleId).map
        Assignment.userId).map fun userId => (userId, bundleId) := by
    rw [map_map]
    apply map_congr_left
    intro _ among
    rw [decide_eq_true_eq.mp (mem_filter.mp among).2]
    rfl
  rw [paired] at pairs
  exact pairs.of_map _

theorem bundleRetired_effects (steady : state.Steady)
    (done : cascadeBundleRetired gate state bundleId = .ok next) :
    ∃ writes, Effects ⟨.bundle,bundleId,none⟩ state next writes ∧ RevokesHeld state writes := by
  unfold cascadeBundleRetired at done
  split at done
  · cases done
  split at done
  · cases done
  split at done
  · cases done
  obtain ⟨_,_,written,rfl⟩ := commit_ok done
  refine effects_of_bases _ _ steady written rfl (getUsersForBundle_nodup _ _) (fun _ _ => rfl)
    rfl (fun person _ => (steady.unrevoked person).mem_excludingBundle bundleId) ?_
    (fun _ _ recorded => recorded)
  intro person notHolder
  refine closed_congr (by rfl) fun role => ?_
  change role ∈ (state.records.keepAssignments fun held =>
    held.bundleId ≠ bundleId).holdings state.now person ↔ _
  apply mem_holdings_keepAssignments_all
  intro held mem same
  apply decide_eq_true
  intro equal
  exact notHolder (mem_map.mpr ⟨held,mem_filter.mpr ⟨mem,decide_eq_true equal⟩,same⟩)

/-! ### Rules -/

theorem holdings_eq_nil (unknown : userId ∉ records.getAllKnownUserIds) :
    role ∉ records.holdings now userId := by
  intro held
  apply unknown
  unfold getAllKnownUserIds
  rw [mem_dedup]
  apply mem_append_left
  rcases (records.mem_holdings now userId role).mp held with
    ⟨grant,mem,same,-⟩ | ⟨assigned,mem,same,-⟩
  · exact mem_append_left _ (mem_map.mpr ⟨grant,mem,same⟩)
  · exact mem_append_right _ (mem_map.mpr ⟨assigned,mem,same⟩)

private theorem ruleChange_effects (records : Records) (steady : state.Steady)
    (written : enqueueRows gate state.outbox (ruleChangeWrites state rulesAfter ruleId) =
      .ok (outbox, ids)) (sameHoldings : ∀ userId, records.holdings state.now userId =
      state.records.holdings state.now userId) (sameGrants : records.grants = state.records.grants)
    (sameRules : rulesAfter.map (ruleEdge Role.mk) = records.rules.map (ruleEdge Role.mk)) :
    ∃ writes, Effects ⟨.rule,ruleId,none⟩ state
      { state with records := records, outbox := outbox } writes ∧ RevokesHeld state writes := by
  refine effects_of_bases _ _ steady written rfl (nodup_dedup _) (fun _ _ => rfl) sameRules
    ?_ ?_ ?_
  · intro person _known role
    rw [sameHoldings]
    exact (steady.unrevoked person).mem_userBaseHoldings role
  · intro person unknown role
    have nothing (rules : List MappingRule) :
        role ∉ effectiveClosure (state.records.holdings state.now person) rules := by
      intro held
      obtain ⟨start,mem,-⟩ := mem_effectiveClosure.mp held
      exact holdings_eq_nil unknown mem
    change role ∈ effectiveClosure (records.holdings state.now person) records.rules ↔
      role ∈ effectiveClosure (state.records.holdings state.now person) state.records.rules
    rw [sameHoldings]
    exact ⟨fun held => absurd held (nothing _),fun held => absurd held (nothing _)⟩
  · intro _ _ recorded
    unfold AccessState.LapsedRole at recorded ⊢
    rwa [sameGrants] at recorded

theorem ruleCreated_effects (steady : state.Steady)
    (done : cascadeRuleCreated gate state rule = .ok next) :
    ∃ writes, Effects ⟨.rule,rule.id,none⟩ state next writes ∧
      ∀ write ∈ writes, write.2.opType ≠ .revoke := by
  unfold cascadeRuleCreated at done
  split at done
  · next fresh =>
    split at done
    · cases done
    obtain ⟨_,_,written,rfl⟩ := commit_ok done
    have sameRules : (state.records.rules ++ [{ rule with id := "" }]).map
        (ruleEdge Role.mk) = (state.records.rules ++ [rule]).map (ruleEdge Role.mk) := by
      rw [map_append,map_append]
      rfl
    obtain ⟨writes,effects,held⟩ := ruleChange_effects
      (state.records.createRule rule fresh) steady written (fun _ => rfl) rfl sameRules
    refine ⟨writes,effects,adds_of_grows effects held fun person => ?_⟩
    exact effectiveClosure_rules_mono (subset_append_left _ _)
  · cases done

theorem replaceFirst_eq_map (rule : MappingRule) {rules : List MappingRule}
    (distinct : (rules.map MappingRule.id).Nodup) :
    replaceFirst rule rules = rules.map fun old => if old.id = rule.id then rule else old := by
  induction rules with
  | nil => rfl
  | cons _ rest ih =>
    obtain ⟨notLater,laterDistinct⟩ := nodup_cons.mp distinct
    rw [replaceFirst,map_cons]
    split
    · next same =>
      have untouched : (rest.map fun other => if other.id = rule.id then rule else other) =
          rest.map id := by
        apply map_congr_left
        intro other mem
        have different : other.id ≠ rule.id := by
          intro equal
          exact notLater (mem_map.mpr ⟨other,mem,equal.trans same.symm⟩)
        rw [if_neg different]
        rfl
      rw [untouched,map_id]
    · rw [ih laterDistinct]

theorem ruleUpdated_effects (steady : state.Steady)
    (done : cascadeRuleUpdated gate state rule = .ok next) :
    ∃ writes, Effects ⟨.rule,rule.id,none⟩ state next writes ∧ RevokesHeld state writes := by
  unfold cascadeRuleUpdated at done
  split at done
  · cases done
  split at done
  · cases done
  obtain ⟨_,_,written,rfl⟩ := commit_ok done
  refine ruleChange_effects (state.records.updateRule rule) steady written (fun _ => rfl) rfl ?_
  rw [replaceFirst_eq_map rule state.records.rulesDistinct]
  rfl

theorem ruleRetired_effects (steady : state.Steady)
    (done : cascadeRuleRetired gate state ruleId = .ok next) :
    ∃ writes, Effects ⟨.rule,ruleId,none⟩ state next writes ∧ RevokesHeld state writes := by
  unfold cascadeRuleRetired at done
  split at done
  · cases done
  · obtain ⟨_,_,written,rfl⟩ := commit_ok done
    exact ruleChange_effects (state.records.retireRule ruleId) steady written (fun _ => rfl) rfl rfl

end Syndra.Ledger
