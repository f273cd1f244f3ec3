/-
What a direct give, a removal and an expiry write.

A give writes its own row whatever the closure says, then what the rules follow with. A
removal writes only revokes.
-/

import Syndra.Ledger.Effects

namespace Syndra.Ledger

open Access Propagation List Records AccessState

variable {keep : DirectGrant → Bool} {now : Time} {role : Role} {userId : String}

variable {records : Records} {before after : List Role} {grantId : Nat}

theorem mem_holdings_keepGrants : role ∈ (records.keepGrants keep).holdings now userId ↔
      (∃ grant ∈ records.grants, keep grant = true ∧ grant.userId = userId ∧
        grant.lapsed now = false ∧ grant.role = role) ∨
      (∃ held ∈ records.assignments, held.userId = userId ∧
        role ∈ records.effectiveRoles held.versionId) := by
  rw [mem_holdings]
  change (∃ grant ∈ records.grants.filter keep, _) ∨
    (∃ held ∈ records.assignments, _ ∧ role ∈ records.effectiveRoles held.versionId) ↔ _
  simp only [mem_filter,and_assoc]

variable {state next middle : AccessState} {gate : Option CancelGate}
  {p : EnqueueParams}

theorem mem_holdings_keepGrants_all
    (all : ∀ grant ∈ records.grants, grant.userId = userId → grant.lapsed now = false →
      keep grant = true) (role : Role) :
    role ∈ (records.keepGrants keep).holdings now userId ↔ role ∈ records.holdings now userId := by
  rw [mem_holdings_keepGrants,mem_holdings]
  apply or_congr_left
  apply exists_congr
  intro grant
  apply and_congr_right
  intro mem
  exact ⟨fun kept => kept.2,fun kept => ⟨all grant mem kept.1 kept.2.1,kept⟩⟩

theorem lapsedRole_of_keepGrants {outbox : Outbox} (recorded : AccessState.LapsedRole
      { state with records := state.records.keepGrants keep, outbox := outbox } userId role) :
    state.LapsedRole userId role := by
  obtain ⟨grant,mem,rest⟩ := recorded
  exact ⟨grant,(mem_filter.mp mem).1,rest⟩

theorem closureDelta_of_subset (fewer : after ⊆ before) :
    closureDelta before after = ([], (closureDelta before after).2) := by
  have noAdds : (closureDelta before after).1 = [] := by
    apply eq_nil_iff_forall_not_mem.mpr
    intro role added
    obtain ⟨held,absent⟩ := (mem_adds before after role).mp added
    exact absent (fewer held)
  rw [← noAdds]

theorem deleted_effects (steady : state.Steady)
    (done : deleteDirectGrant gate state userId grantId = .ok next) :
    ∃ writes, Effects ⟨.direct,toString grantId,some userId⟩ state next writes ∧
      RevokesHeld state writes := by
  unfold deleteDirectGrant at done
  split at done
  · obtain ⟨_,_,written,rfl⟩ := commit_ok done
    have unrevoked := steady.unrevoked userId
    have fewer : state.userBaseHoldingsExcludingGrant userId grantId ⊆
        state.userBaseHoldings userId := by
      intro role held
      rw [unrevoked.mem_excludingGrant,mem_holdings_keepGrants] at held
      rw [unrevoked.mem_userBaseHoldings,mem_holdings]
      rcases held with ⟨grant,mem,-,rest⟩ | bundled
      · exact .inl ⟨grant,mem,rest⟩
      · exact .inr bundled
    rw [← closureDelta_of_subset (effectiveClosure_mono _ fewer)] at written
    refine effects_of_one steady written rfl rfl (unrevoked.mem_excludingGrant grantId) ?_
      fun _ _ => lapsedRole_of_keepGrants
    intro person apart
    apply mem_holdings_keepGrants_all
    intro grant _member same _current
    simp [same,apart]
  · cases done

theorem expired_effects {lapsed : Role} (steady : state.Steady)
    (done : expireDirectGrant state userId grantId lapsed = .ok next) :
    ∃ writes, Effects ⟨.direct,toString grantId,some userId⟩ state next writes ∧
      (∀ role, Reaches Role.mk state.records.rules lapsed role → role ∉ next.closed userId →
        ∃ write ∈ writes, write.2.key = heldBy userId role ∧ write.2.opType = .revoke) ∧
      ∀ write ∈ writes, write.2.opType = .revoke → write.2.userId = userId ∧
        (Reaches Role.mk state.records.rules lapsed (roleOf write.2) ∨
          roleOf write.2 ∈ state.closed write.2.userId) := by
  unfold expireDirectGrant at done
  split at done
  · next found =>
    obtain ⟨_,expiredMember,matching⟩ := any_eq_true.mp found
    simp only [Bool.and_eq_true,decide_eq_true_eq] at matching
    obtain ⟨_,ids,written,committed⟩ := commit_ok done
    have unrevoked := steady.unrevoked userId
    have sameHoldings (person : String) (role : Role) :
        role ∈ (state.records.keepGrants fun grant =>
          !(grant.id = grantId && grant.userId = userId && grant.lapsed state.now)).holdings
            state.now person ↔ role ∈ state.records.holdings state.now person := by
      apply mem_holdings_keepGrants_all
      intro grant _member _same current
      rw [current,Bool.and_false]
      rfl
    have excluded (role : Role) :
        role ∈ state.userBaseHoldingsExcludingGrant userId grantId ↔
          role ∈ state.records.holdings state.now userId := by
      rw [unrevoked.mem_excludingGrant]
      apply mem_holdings_keepGrants_all
      intro grant mem _same current
      cases same : decide (grant.id = grantId) with
      | false => rfl
      | true =>
        have identical := inj_on_of_nodup_map state.records.grantsDistinct mem
          expiredMember ((decide_eq_true_eq.mp same).trans matching.1.1.symm)
        rw [identical,matching.2] at current
        cases current
    have fewer : effectiveClosure (state.userBaseHoldingsExcludingGrant userId grantId)
        state.records.rules ⊆ effectiveClosure
          (state.userBaseHoldingsExcludingGrant userId grantId ++ [lapsed])
            state.records.rules :=
      effectiveClosure_mono _ (subset_append_left _ _)
    rw [← closureDelta_of_subset fewer] at written
    have sameClosed (person : String) (role : Role) :
        role ∈ next.closed person ↔ role ∈ state.closed person := by
      rw [committed]
      apply closed_congr
      · rfl
      · exact sameHoldings person
    have held (role : Role) :
        role ∈ effectiveClosure (state.userBaseHoldingsExcludingGrant userId grantId)
          state.records.rules ↔ role ∈ state.closed userId :=
      mem_effectiveClosure_congr excluded role
    obtain ⟨writes,effects,taken,within⟩ := @effects_of_deltas none
      ⟨.direct,toString grantId,some userId⟩ state next ids [userId]
      (fun person => effectiveClosure
        (state.userBaseHoldingsExcludingGrant person grantId ++ [lapsed]) state.records.rules)
      (fun person => effectiveClosure
        (state.userBaseHoldingsExcludingGrant person grantId) state.records.rules)
      (by rw [differences,flatMap_singleton,committed]; exact written)
      (by rw [committed]) (nodup_singleton _)
      (fun person mem => by
        rw [mem_singleton.mp mem]
        exact decide_eq_true rfl)
      (fun _ => effectiveClosure_nodup _ _) (fun _ => effectiveClosure_nodup _ _)
      (fun person mem role present => by
        rw [mem_singleton.mp mem] at present ⊢
        exact fewer ((held role).mpr present))
      (fun person mem role present absent =>
        absurd ((sameClosed person role).mp present) absent)
      (fun person mem role => by
        rw [mem_singleton.mp mem]
        exact (held role).trans (sameClosed userId role).symm)
      (fun person _notMember => sameClosed person)
      (fun person role recorded => by
        rw [committed] at recorded
        exact lapsedRole_of_keepGrants recorded)
    refine ⟨writes,effects,?_,?_⟩
    · intro role reached gone
      apply taken userId (mem_singleton.mpr rfl) role _ gone
      rw [mem_effectiveClosure]
      exact ⟨lapsed,mem_append_right _ (mem_singleton.mpr rfl),reached⟩
    intro write mem revoke
    obtain ⟨visited,among⟩ := within write mem revoke
    have person := mem_singleton.mp visited
    refine ⟨person,?_⟩
    rw [person] at among ⊢
    obtain ⟨start,based,reached⟩ := mem_effectiveClosure.mp among
    rcases mem_append.mp based with counted | own
    · exact .inr ((held _).mp (mem_effectiveClosure.mpr ⟨start,counted,reached⟩))
    · rw [mem_singleton.mp own] at reached
      exact .inl reached
  · split at done <;> cases done

/-! ### A give -/

def EndsLater (now : Time) (p : EnqueueParams) : Prop :=
  ∀ ending, p.expiresAt = some ending → now < ending
deriving Decidable

theorem lapsed_of_endsLater (endsLater : EndsLater now p) {grant : DirectGrant}
    (ends : grant.expiresAt = p.expiresAt) : grant.lapsed now = false := by
  unfold DirectGrant.lapsed
  rw [ends]
  cases found : p.expiresAt with
  | none => rfl
  | some ending => exact decide_eq_false (Nat.not_le.mpr (endsLater ending found))

section Upsert

variable {records : Records} {p : EnqueueParams} {roleKey : String} {now : Time}

variable {grant : DirectGrant}

theorem lapsed_renewed (endsLater : EndsLater now p)
    (current : grant.lapsed now = false) : (renewed p grant).lapsed now = false := by
  by_cases rule : p.endRule = .set
  · apply lapsed_of_endsLater endsLater
    simp only [renewed,rule,if_true]
  have same : (renewed p grant).expiresAt = grant.expiresAt := by
    simp only [renewed,rule,if_false]
  unfold DirectGrant.lapsed at current ⊢
  rw [same]
  exact current

theorem sameGrant_iff (grant : DirectGrant) : sameGrant p roleKey grant = true ↔
      grant.userId = p.userId ∧ grant.role = ⟨p.projectId,roleKey⟩ := by
  unfold sameGrant DirectGrant.role
  simp only [Bool.and_eq_true,decide_eq_true_eq,Role.mk.injEq,and_assoc]

theorem holdings_subset_upsert (endsLater : EndsLater now p) :
    records.holdings now userId ⊆ (records.upsertGrant p roleKey).holdings now userId := by
  intro _ held
  rw [mem_holdings] at held ⊢
  unfold upsertGrant
  split
  · rcases held with ⟨grant,mem,person,current,same⟩ | bundled
    · refine .inl ⟨_,mem_map_of_mem mem,?_⟩
      split
      · exact ⟨person,lapsed_renewed endsLater current,same⟩
      · exact ⟨person,current,same⟩
    · exact .inr bundled
  · rcases held with ⟨grant,mem,rest⟩ | bundled
    · exact .inl ⟨grant,mem_append_left _ mem,rest⟩
    · exact .inr bundled

theorem holdings_upsert_subset (held : role ∈ (records.upsertGrant p roleKey).holdings now userId) :
    role ∈ records.holdings now userId ∨ (userId = p.userId ∧ role = ⟨p.projectId,roleKey⟩) := by
  rw [mem_holdings] at held
  rw [mem_holdings]
  unfold upsertGrant at held
  split at held
  · rcases held with ⟨grant,mem,person,current,same⟩ | bundled
    · obtain ⟨before,present,rfl⟩ := mem_map.mp mem
      split at person
      · next matching =>
        rw [if_pos matching] at same
        obtain ⟨user,own⟩ := (sameGrant_iff before).mp matching
        exact .inr ⟨person.symm.trans user,same.symm.trans own⟩
      · next other =>
        rw [if_neg other] at current same
        exact .inl (.inl ⟨before,present,person,current,same⟩)
    · exact .inl (.inr bundled)
  · rcases held with ⟨grant,mem,person,current,same⟩ | bundled
    · rcases mem_append.mp mem with old | fresh
      · exact .inl (.inl ⟨grant,old,person,current,same⟩)
      rw [mem_singleton] at fresh
      subst fresh
      exact .inr ⟨person.symm,same.symm⟩
    · exact .inl (.inr bundled)

theorem upsert_recorded (endsLater : EndsLater now p) :
    (⟨p.projectId,roleKey⟩ : Role) ∈ (records.upsertGrant p roleKey).holdings now p.userId ∨
      ∃ grant ∈ (records.upsertGrant p roleKey).grants, grant.userId = p.userId ∧
        grant.role = ⟨p.projectId,roleKey⟩ ∧ grant.lapsed now = true := by
  rw [mem_holdings]
  unfold upsertGrant
  split
  · next found =>
    obtain ⟨grant,mem,matching⟩ := any_eq_true.mp found
    obtain ⟨person,same⟩ := (sameGrant_iff grant).mp matching
    have listed : renewed p grant ∈ records.grants.map fun grant =>
        if sameGrant p roleKey grant then renewed p grant else grant := by
      refine mem_map.mpr ⟨grant,mem,?_⟩
      rw [if_pos matching]
    cases ended : (renewed p grant).lapsed now with
    | false => exact .inl (.inl ⟨_,listed,person,ended,same⟩)
    | true => exact .inr ⟨_,listed,person,same,ended⟩
  · exact .inl (.inl ⟨_,mem_append_right _ (mem_singleton.mpr rfl),rfl,
      lapsed_of_endsLater endsLater rfl,rfl⟩)

theorem lapsed_of_upsert (endsLater : EndsLater now p)
    (mem : grant ∈ (records.upsertGrant p roleKey).grants) (ended : grant.lapsed now = true) :
    ∃ before ∈ records.grants, before.userId = grant.userId ∧ before.role = grant.role ∧
      before.lapsed now = true := by
  unfold upsertGrant at mem
  split at mem
  · obtain ⟨before,present,rfl⟩ := mem_map.mp mem
    refine ⟨before,present,?_⟩
    split at ended
    · next matching =>
      rw [if_pos matching]
      refine ⟨rfl,rfl,?_⟩
      cases was : before.lapsed now with
      | true => rfl
      | false =>
        rw [lapsed_renewed endsLater was] at ended
        cases ended
    · next other =>
      rw [if_neg other]
      exact ⟨rfl,rfl,ended⟩
  · rcases mem_append.mp mem with old | fresh
    · exact ⟨grant,old,rfl,rfl,ended⟩
    rw [mem_singleton] at fresh
    subst fresh
    rw [lapsed_of_endsLater endsLater rfl] at ended
    cases ended

theorem rules_upsert : (records.upsertGrant p roleKey).rules = records.rules := by
  unfold upsertGrant
  split <;> rfl

end Upsert

theorem enqueueLedger_single (single : p.Single) (op : p.opType = .add) (records : Records) :
    records.enqueueLedger p = records.upsertGrant p (roleOf p).roleKey := by
  have notRevoke : p.opType ≠ .revoke := by
    rw [op]
    intro impossible
    cases impossible
  unfold enqueueLedger
  rw [if_neg notRevoke,single.role]
  rfl

theorem enqueueNamed_ok (propagates : p.noPropagation = false)
    (done : enqueueNamed gate state p = .ok next) :
    ∃ (middle : AccessState) (id : Option Nat) (params : List EnqueueParams) (ids : List Nat),
      enqueueRow gate true state.outbox p = .ok (middle.outbox, id) ∧
      middle = { state with records := state.records.enqueueLedger p, outbox := middle.outbox } ∧
      enqueueRows gate middle.outbox params = .ok (next.outbox, ids) ∧
      next = { middle with outbox := next.outbox } ∧
      params = if state.records.rules = [] then [] else
        followedWrites p.userId state.records.rules (state.userBaseHoldings p.userId)
          (middle.userBaseHoldings p.userId) := by
  unfold enqueueNamed followRules writeOwn at done
  rw [propagates] at done
  simp only [Bool.false_eq_true,if_false] at done
  cases own : enqueueRow gate true state.outbox p with
  | error => rw [own] at done; cases done
  | ok result =>
    obtain ⟨outbox,id⟩ := result
    rw [own] at done
    simp only at done
    by_cases none : state.records.rules = []
    · rw [if_pos none] at done
      obtain ⟨final,ids,written,same⟩ := commit_ok done
      subst same
      exact ⟨{ state with records := state.records.enqueueLedger p, outbox := outbox },id,[],
        ids,rfl,rfl,written,rfl,by rw [if_pos none]⟩
    · rw [if_neg none] at done
      obtain ⟨_,ids,written,same⟩ := commit_ok done
      subst same
      exact ⟨{ state with records := state.records.enqueueLedger p, outbox := outbox },id,_,
        ids,rfl,rfl,written,rfl,by rw [if_neg none]⟩

theorem mem_ruleDelta_adds {rules : List MappingRule} :
    role ∈ (ruleDelta before after rules).1 ↔
      (role ∈ effectiveClosure after rules ∧ role ∉ effectiveClosure before rules) ∧
        (role ∈ before ↔ role ∈ after) := by
  unfold ruleDelta
  rw [mem_filter,mem_adds,decide_eq_true_eq,decide_eq_decide]

theorem mem_ruleDelta_revokes (before after : List Role) (rules : List MappingRule)
    (role : Role) :
    role ∈ (ruleDelta before after rules).2 ↔
      (role ∈ effectiveClosure before rules ∧ role ∉ effectiveClosure after rules) ∧
        (role ∈ before ↔ role ∈ after) := by
  unfold ruleDelta
  rw [mem_filter,mem_revokes,decide_eq_true_eq,decide_eq_decide]

theorem keys_followedWrites_nodup (userId : String) (rules : List MappingRule)
    (before after : List Role) :
    ((followedWrites userId rules before after).map EnqueueParams.key).Nodup := by
  have keys : (followedWrites userId rules before after).map EnqueueParams.key =
      ((ruleDelta before after rules).1 ++ (ruleDelta before after rules).2).map
        (heldBy userId) := by
    unfold followedWrites
    rw [map_append,map_map,map_map,map_append]
    rfl
  rw [keys]
  have all := closureDelta_nodup (effectiveClosure_nodup before rules)
    (effectiveClosure_nodup after rules)
  exact (all.sublist (filter_sublist.append filter_sublist)).map
    fun first second same => (heldBy_injective same).2

structure Given (state middle : AccessState) (p : EnqueueParams) : Prop where
  rules : middle.records.rules = state.records.rules
  now : middle.now = state.now
  grows : ∀ userId, state.records.holdings state.now userId ⊆
    middle.records.holdings middle.now userId
  onlyOwn : ∀ userId, ∀ role ∈ middle.records.holdings middle.now userId,
    role ∈ state.records.holdings state.now userId ∨ (userId = p.userId ∧ role = roleOf p)
  recorded : roleOf p ∈ middle.records.holdings middle.now p.userId ∨
    middle.LapsedRole p.userId (roleOf p)
  lapsed : ∀ userId role, middle.LapsedRole userId role → state.LapsedRole userId role

theorem given_of_ledger (single : p.Single) (op : p.opType = .add)
    (endsLater : EndsLater state.now p) (own : middle = { state with
      records := state.records.enqueueLedger p, outbox := middle.outbox }) :
    Given state middle p := by
  have records : middle.records = state.records.upsertGrant p (roleOf p).roleKey := by
    rw [own]
    exact enqueueLedger_single single op state.records
  have now : middle.now = state.now := by rw [own]
  constructor
  · rw [records,rules_upsert]
  · exact now
  · intro userId
    rw [records,now]
    exact holdings_subset_upsert endsLater
  · intro userId role held
    rw [records,now] at held
    exact holdings_upsert_subset held
  · unfold AccessState.LapsedRole
    rw [records,now]
    exact upsert_recorded endsLater
  intro userId role ⟨grant,mem,person,same,ended⟩
  rw [records] at mem
  rw [now] at ended
  obtain ⟨before,present,samePerson,sameRole,wasEnded⟩ := lapsed_of_upsert endsLater mem ended
  exact ⟨before,present,samePerson.trans person,sameRole.trans same,wasEnded⟩

namespace Given

variable {state middle : AccessState} {p : EnqueueParams}

theorem closed_subset (given : Given state middle p) (userId : String) :
    state.closed userId ⊆ middle.closed userId := by
  unfold closed
  rw [given.rules]
  exact effectiveClosure_mono _ (given.grows userId)

theorem person_of_gained (given : Given state middle p) (held : role ∈ middle.closed userId)
    (absent : role ∉ state.closed userId) :
    userId = p.userId := by
  by_contra other
  apply absent
  have same : middle.records.holdings middle.now userId ⊆
      state.records.holdings state.now userId :=
    fun role held => (given.onlyOwn userId role held).resolve_right fun own => other own.1
  unfold closed at held ⊢
  rw [given.rules] at held
  exact effectiveClosure_mono _ same held

theorem own_mem_of_gained (given : Given state middle p) (held : role ∈ middle.closed p.userId)
    (absent : role ∉ state.closed p.userId) :
    roleOf p ∈ middle.records.holdings middle.now p.userId := by
  by_contra missing
  apply absent
  have same : middle.records.holdings middle.now p.userId ⊆
      state.records.holdings state.now p.userId := by
    intro other among
    refine (given.onlyOwn p.userId other among).resolve_right fun own => ?_
    rw [own.2] at among
    exact missing among
  unfold closed at held ⊢
  rw [given.rules] at held
  exact effectiveClosure_mono _ same held

/-- No role the records give now is being revoked once the give's own row is in:
it cancelled the revokes of the role it gives. -/
theorem unrevoked (given : Given state middle p) {inserted : List OutboxRow} (single : p.Single)
    (op : p.opType = .add) (steady : state.Steady)
    (wrote : Wrote true state.outbox p middle.outbox inserted) :
    middle.Unrevoked p.userId := by
  intro role held queued
  obtain ⟨row,waiting,revoke⟩ :=
    exists_revoke_of_queued (PlainRow.wrote wrote single steady.plain) queued
  by_cases own : heldBy p.userId role = p.key
  · rw [own,wrote.queuedFor_self single] at waiting
    exact not_revoke_after_add single op wrote.own waiting revoke
  rw [wrote.queuedFor_of_ne single own] at waiting
  have before := (given.onlyOwn p.userId role held).resolve_right fun same =>
    own (by rw [same.2,key_eq_heldBy])
  exact steady.revoking p.userId role row waiting revoke
    (state.holdings_subset_closed p.userId before)

end Given

structure Followed (state middle : AccessState) (p : EnqueueParams)
    (params : List EnqueueParams) : Prop where
  each : ∀ q ∈ params, ∃ ref role, roleWrite .add p.userId .rule ref role = q ∧
    role ∈ middle.closed p.userId ∧ role ≠ roleOf p
  all : ∀ role ∈ middle.closed p.userId, role ∉ state.closed p.userId → role ≠ roleOf p →
    ∃ q ∈ params, q.key = heldBy p.userId role ∧ q.opType = .add
  distinct : (params.map EnqueueParams.key).Nodup

theorem Given.followed {inserted : List OutboxRow} (given : Given state middle p)
    (single : p.Single) (op : p.opType = .add) (steady : state.Steady)
    (wrote : Wrote true state.outbox p middle.outbox inserted) :
    Followed state middle p (followedWrites p.userId state.records.rules
      (state.userBaseHoldings p.userId) (middle.userBaseHoldings p.userId)) := by
  have before (role : Role) := (steady.unrevoked p.userId).mem_userBaseHoldings role
  have after (role : Role) := (given.unrevoked single op steady wrote).mem_userBaseHoldings role
  have closedBefore (role : Role) :
      role ∈ effectiveClosure (state.userBaseHoldings p.userId) state.records.rules ↔
        role ∈ state.closed p.userId :=
    mem_effectiveClosure_congr before role
  have closedAfter (role : Role) :
      role ∈ effectiveClosure (middle.userBaseHoldings p.userId) state.records.rules ↔
        role ∈ middle.closed p.userId := by
    rw [← given.rules]
    exact mem_effectiveClosure_congr after role
  constructor
  · intro _ mem
    rcases mem_append.mp mem with added | removed
    · obtain ⟨role,inDelta,same⟩ := mem_map.mp added
      rw [mem_ruleDelta_adds,closedBefore,closedAfter,before,after] at inDelta
      obtain ⟨⟨held,absent⟩,unmoved⟩ := inDelta
      refine ⟨_,role,same,held,?_⟩
      intro own
      rw [own] at unmoved absent
      exact absent (state.holdings_subset_closed p.userId
        (unmoved.mpr (given.own_mem_of_gained held (by rw [own]; exact absent))))
    · obtain ⟨role,inDelta,-⟩ := mem_map.mp removed
      rw [mem_ruleDelta_revokes,closedBefore,closedAfter] at inDelta
      exact absurd (given.closed_subset p.userId inDelta.1.1) inDelta.1.2
  · intro role held absent other
    refine ⟨_,mem_append_left _ (mem_map.mpr ⟨role,?_,rfl⟩),rfl,rfl⟩
    rw [mem_ruleDelta_adds,closedBefore,closedAfter,before,after]
    refine ⟨⟨held,absent⟩,?_⟩
    constructor
    · exact fun had => given.grows p.userId had
    · exact fun has => (given.onlyOwn p.userId role has).resolve_right fun own => other own.2
  · exact keys_followedWrites_nodup _ _ _ _

theorem Given.followed_nil (given : Given state middle p) (none : state.records.rules = []) :
    Followed state middle p [] := by
  constructor
  · intro _ mem
    cases mem
  · intro role held absent other
    unfold closed at held
    rw [given.rules,none,mem_effectiveClosure] at held
    obtain ⟨start,mem,reached⟩ := held
    have same : start = role := by
      cases reached with
      | refl => rfl
      | tail _ edge => cases edge
    subst same
    have before := (given.onlyOwn p.userId start mem).resolve_right fun own => other own.2
    exact absurd (state.holdings_subset_closed p.userId before) absent
  · exact nodup_nil

theorem gave_effects (cause : Cause) (steady : state.Steady) (single : p.Single)
    (op : p.opType = .add) (propagates : p.noPropagation = false)
    (endsLater : EndsLater state.now p) (done : enqueueNamed gate state p = .ok next) :
    ∃ writes, Effects cause state next writes ∧ ∀ write ∈ writes, write.2.opType ≠ .revoke := by
  obtain ⟨middle,_,params,_,own,middleEq,written,nextEq,paramsEq⟩ := enqueueNamed_ok propagates done
  obtain ⟨_,wrote,-⟩ := enqueueRow_wrote single own
  have given := given_of_ledger single op endsLater middleEq
  have followed : Followed state middle p params := by
    rw [paramsEq]
    split
    · next none => exact given.followed_nil none
    · exact given.followed single op steady wrote
  have singles : ∀ q ∈ params, q.Single := by
    intro q mem
    obtain ⟨ref,role,rfl,-⟩ := followed.each q mem
    exact ⟨rfl,.inl rfl⟩
  have adds : ∀ write ∈ (true, p) :: params.map (fun q => (false, q)),
      write.2.opType ≠ .revoke := by
    intro write mem
    rcases mem_cons.mp mem with rfl | later
    · simp [op]
    obtain ⟨q,among,rfl⟩ := mem_map.mp later
    obtain ⟨ref,role,rfl,-⟩ := followed.each q among
    simp [roleWrite]
  have nextClosed (userId : String) : next.closed userId = middle.closed userId := by
    rw [nextEq]
    rfl
  refine ⟨(true, p) :: params.map (fun q => (false, q)),
    ⟨.cons single wrote (enqueueRows_enqueued singles written),?_,?_,?_,?_,?_,
      fun write mem revoke => absurd revoke (adds write mem),
      fun write mem revoke => absurd revoke (adds write mem),?_⟩,adds⟩
  · unfold writeKeys
    rw [map_cons,map_map]
    refine nodup_cons.mpr ⟨?_,followed.distinct⟩
    intro listed
    obtain ⟨q,among,same⟩ := mem_map.mp listed
    obtain ⟨ref,role,rfl,-,other⟩ := followed.each q among
    change heldBy p.userId role = heldBy p.userId (roleOf p) at same
    exact other (heldBy_injective same).2
  · rw [nextEq,middleEq]
  · intro userId role held absent
    rw [nextClosed] at held
    have person := given.person_of_gained held absent
    subst person
    by_cases given : role = roleOf p
    · exact ⟨(true, p),mem_cons_self,by rw [given]; rfl,op⟩
    · obtain ⟨q,among,key,add⟩ := followed.all role held absent given
      exact ⟨(false, q),mem_cons_of_mem _ (mem_map_of_mem among),key,add⟩
  · intro userId role held gone
    rw [nextClosed] at gone
    exact absurd (given.closed_subset userId held) gone
  · intro write mem _op
    rw [nextEq]
    rcases mem_cons.mp mem with rfl | later
    · rcases given.recorded with held | lapsed
      · exact .inl (middle.holdings_subset_closed p.userId held)
      · exact .inr lapsed
    · obtain ⟨q,among,rfl⟩ := mem_map.mp later
      obtain ⟨_,role,rfl,held,-⟩ := followed.each q among
      exact .inl held
  · intro userId role recorded
    rw [nextEq] at recorded
    exact given.lapsed userId role recorded

/-! ### Any change -/

structure Give where
  userId : String
  projectId : String
  roleKey : String
  expiresAt : Option Time
  endRule : EndRule
  sourceRef : String
  waitReason : Option WaitReason
deriving DecidableEq

def Give.params (give : Give) : EnqueueParams :=
  { userId := give.userId
    projectId := give.projectId
    roleKeys := [give.roleKey]
    expiresAt := give.expiresAt
    source := none
    sourceRef := give.sourceRef
    opType := .add
    noPropagation := false
    endRule := give.endRule
    waitReason := give.waitReason }

inductive Change where
  | give (given : Give)
  | removeGrant (userId : String) (grantId : Nat)
  | assign (userId bundleId : String)
  | unassign (userId bundleId : String)
  | retireBundle (bundleId : String)
  | createRule (rule : MappingRule)
  | updateRule (rule : MappingRule)
  | retireRule (ruleId : String)
deriving DecidableEq

/-- A refused change leaves nothing behind. -/
def Change.perform (gate : Option CancelGate) (state : AccessState) : Change → Option AccessState
  | .give given =>
    if EndsLater state.now given.params then (enqueueNamed gate state given.params).toOption
    else none
  | .removeGrant userId grantId => (deleteDirectGrant gate state userId grantId).toOption
  | .assign userId bundleId => (cascadeBundleAssignedToUser gate state userId bundleId).toOption
  | .unassign userId bundleId => (cascadeBundleRemovedFromUser gate state userId bundleId).toOption
  | .retireBundle bundleId => (cascadeBundleRetired gate state bundleId).toOption
  | .createRule rule => (cascadeRuleCreated gate state rule).toOption
  | .updateRule rule => (cascadeRuleUpdated gate state rule).toOption
  | .retireRule ruleId => (cascadeRuleRetired gate state ruleId).toOption

def Change.cause : Change → Cause
  | .give given => ⟨.direct,given.sourceRef,some given.userId⟩
  | .removeGrant userId grantId => ⟨.direct,toString grantId,some userId⟩
  | .assign userId bundleId => ⟨.bundle,bundleId,some userId⟩
  | .unassign userId bundleId => ⟨.bundle,bundleId,some userId⟩
  | .retireBundle bundleId => ⟨.bundle,bundleId,none⟩
  | .createRule rule => ⟨.rule,rule.id,none⟩
  | .updateRule rule => ⟨.rule,rule.id,none⟩
  | .retireRule ruleId => ⟨.rule,ruleId,none⟩

def Change.removes : Change → Bool
  | .give _ => false
  | .removeGrant _ _ => true
  | .assign _ _ => false
  | .unassign _ _ => true
  | .retireBundle _ => true
  | .createRule _ => false
  | .updateRule _ => true
  | .retireRule _ => true

theorem ok_of_toOption {ε α : Type} {result : Except ε α} {value : α}
    (succeeded : result.toOption = some value) : result = .ok value := by
  cases result with
  | error => cases succeeded
  | ok => exact congrArg _ (Option.some.inj succeeded)

theorem RevokesHeld.of_adds {writes : List (Bool × EnqueueParams)}
    (adds : ∀ write ∈ writes, write.2.opType ≠ .revoke) : RevokesHeld state writes :=
  fun write mem revoke => absurd revoke (adds write mem)

theorem Change.effects {change : Change} (steady : state.Steady)
    (done : change.perform gate state = some next) :
    ∃ writes, Effects change.cause state next writes ∧ RevokesHeld state writes ∧
      (change.removes = false → ∀ write ∈ writes, write.2.opType ≠ .revoke) := by
  suffices shape : ∃ writes, Effects change.cause state next writes ∧
      if change.removes then RevokesHeld state writes
      else ∀ write ∈ writes, write.2.opType ≠ .revoke by
    obtain ⟨writes,effects,rest⟩ := shape
    refine ⟨writes,effects,?_⟩
    split at rest
    · next removes => exact ⟨rest,fun grows => absurd removes (by simp [grows])⟩
    · exact ⟨.of_adds rest,fun _ => rest⟩
  cases change with
  | give given =>
    simp only [Change.perform] at done
    split at done
    · next endsLater =>
      exact gave_effects _ steady ⟨rfl,.inl rfl⟩ rfl rfl endsLater (ok_of_toOption done)
    · cases done
  | removeGrant => exact deleted_effects steady (ok_of_toOption done)
  | assign => exact assigned_effects steady (ok_of_toOption done)
  | unassign => exact unassigned_effects steady (ok_of_toOption done)
  | retireBundle => exact bundleRetired_effects steady (ok_of_toOption done)
  | createRule => exact ruleCreated_effects steady (ok_of_toOption done)
  | updateRule => exact ruleUpdated_effects steady (ok_of_toOption done)
  | retireRule => exact ruleRetired_effects steady (ok_of_toOption done)

end Syndra.Ledger
