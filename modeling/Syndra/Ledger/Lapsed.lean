/-
Recorded but no longer counted.

Between its end and the sweep a grant stays in the ledger and no base counts it. What such a
grant reaches by rules is owed to the sweep.
-/

import Syndra.Ledger.Delivered

namespace Syndra.Ledger

open Access Propagation List Records

variable {state next : AccessState} {userId ruleId bundleId : String} {gate : Option CancelGate}

theorem AccessState.mem_closed_of_reaches {source target : Role}
    (held : source ∈ state.closed userId)
    (reached : Reaches Role.mk state.records.rules source target) :
    target ∈ state.closed userId := by
  obtain ⟨start,mem,before⟩ := mem_effectiveClosure.mp held
  exact mem_effectiveClosure.mpr ⟨start,mem,Relation.ReflTransGen.trans before reached⟩

structure GrantsFollow (before after : Records) : Prop where
  next : before.nextGrant ≤ after.nextGrant
  known : ∀ grant ∈ after.grants,
    (∃ old ∈ before.grants, old.id = grant.id ∧ old.userId = grant.userId ∧
      old.role = grant.role) ∨ before.nextGrant ≤ grant.id

theorem GrantsFollow.of_subset {before after : Records} (next : after.nextGrant = before.nextGrant)
    (fewer : after.grants ⊆ before.grants) : GrantsFollow before after where
  next := Nat.le_of_eq next.symm
  known := fun grant mem => .inl ⟨grant,fewer mem,rfl,rfl,rfl⟩

theorem GrantsFollow.upsert {records : Records} {p : EnqueueParams} {roleKey : String} :
    GrantsFollow records (records.upsertGrant p roleKey) := by
  unfold upsertGrant
  split
  · refine ⟨Nat.le_refl _,?_⟩
    intro grant mem
    obtain ⟨old,present,rfl⟩ := mem_map.mp mem
    refine .inl ⟨old,present,?_⟩
    split <;> exact ⟨rfl,rfl,rfl⟩
  · refine ⟨Nat.le_succ _,?_⟩
    intro grant mem
    rcases mem_append.mp mem with old | fresh
    · exact .inl ⟨grant,old,rfl,rfl,rfl⟩
    · rw [mem_singleton.mp fresh]
      exact .inr (Nat.le_refl _)

def StillReached (next : AccessState) (grant : DirectGrant) (role : Role) : Prop :=
  role ∈ next.closed grant.userId ∨
    ∃ kept ∈ next.records.grants, kept.userId = grant.userId ∧ kept.role = grant.role ∧
      kept.lapsed next.now = true ∧ Reaches Role.mk next.records.rules grant.role role

def KeepsLapsed (state next : AccessState) : Prop :=
  ∀ grant ∈ state.records.grants, grant.lapsed state.now = true →
    ∀ role, Reaches Role.mk state.records.rules grant.role role → StillReached next grant role

theorem KeepsLapsed.of_grants (grants : next.records.grants = state.records.grants)
    (now : next.now = state.now)
    (reached : ∀ grant ∈ state.records.grants, grant.lapsed state.now = true →
      ∀ role, Reaches Role.mk state.records.rules grant.role role →
        Reaches Role.mk next.records.rules grant.role role) : KeepsLapsed state next := by
  intro grant mem ended role path
  refine .inr ⟨grant,?_,rfl,rfl,?_,reached grant mem ended role path⟩
  · rw [grants]
    exact mem
  · rw [now]
    exact ended

def RuleIdle (state : AccessState) (ruleId : String) : Prop :=
  ∀ grant ∈ state.records.grants, grant.lapsed state.now = true →
    ∀ rule ∈ state.records.rules, rule.id = ruleId → Role.mk rule.sourceProject rule.sourceRole ∉
        effectiveClosure [grant.role] state.records.rules
deriving Decidable

theorem RuleIdle.reaches {rulesAfter : List MappingRule} (idle : RuleIdle state ruleId)
    (others : ∀ rule ∈ state.records.rules, rule.id ≠ ruleId → rule ∈ rulesAfter)
    {grant : DirectGrant} (mem : grant ∈ state.records.grants)
    (ended : grant.lapsed state.now = true) {role : Role}
    (reached : Reaches Role.mk state.records.rules grant.role role) :
    Reaches Role.mk rulesAfter grant.role role := by
  induction reached with
  | refl => exact Reaches.refl _ _ _
  | @tail source target before edge ih =>
    obtain ⟨rule,listed,same⟩ := mem_map.mp edge
    have kept : rule.id ≠ ruleId := by
      intro changed
      apply idle grant mem ended rule listed changed
      rw [(Prod.mk.inj same).1,mem_effectiveClosure]
      exact ⟨grant.role,mem_singleton.mpr rfl,before⟩
    exact Foundation.Saturation.Reaches.tail ih
      (mem_map.mpr ⟨rule,others rule listed kept,same⟩)

structure SameLedger (state next : AccessState) : Prop where
  grants : next.records.grants = state.records.grants
  nextGrant : next.records.nextGrant = state.records.nextGrant
  rules : next.records.rules = state.records.rules
  now : next.now = state.now

theorem SameLedger.follows (same : SameLedger state next) :
    GrantsFollow state.records next.records := by
  refine .of_subset same.nextGrant ?_
  rw [same.grants]
  exact Subset.refl _

theorem SameLedger.keepsLapsed (same : SameLedger state next) : KeepsLapsed state next := by
  refine .of_grants same.grants same.now ?_
  intro _ _member _ended _ reached
  rw [same.rules]
  exact reached

theorem assigned_sameLedger
    (done : cascadeBundleAssignedToUser gate state userId bundleId = .ok next) :
    SameLedger state next := by
  unfold cascadeBundleAssignedToUser at done
  split at done
  · cases done
  split at done
  · cases done
  split at done
  · cases done
  split at done
  · cases done
    exact ⟨rfl,rfl,rfl,rfl⟩
  obtain ⟨_,_,-,rfl⟩ := commit_ok done
  refine ⟨grants_assign _ _ _ _,?_,rules_assign _ _ _ _,rfl⟩
  simp only [assign]
  split <;> rfl

theorem unassigned_sameLedger
    (done : cascadeBundleRemovedFromUser gate state userId bundleId = .ok next) :
    SameLedger state next := by
  unfold cascadeBundleRemovedFromUser at done
  split at done
  · cases done
  split at done
  · cases done
  · obtain ⟨_,_,-,rfl⟩ := commit_ok done
    exact ⟨rfl,rfl,rfl,rfl⟩

theorem bundleRetired_sameLedger (done : cascadeBundleRetired gate state bundleId = .ok next) :
    SameLedger state next := by
  unfold cascadeBundleRetired at done
  split at done
  · cases done
  split at done
  · cases done
  split at done
  · cases done
  · obtain ⟨_,_,-,rfl⟩ := commit_ok done
    exact ⟨rfl,rfl,rfl,rfl⟩

structure RuleChanged (state next : AccessState) (ruleId : String) : Prop where
  grants : next.records.grants = state.records.grants
  nextGrant : next.records.nextGrant = state.records.nextGrant
  now : next.now = state.now
  others : ∀ rule ∈ state.records.rules, rule.id ≠ ruleId → rule ∈ next.records.rules

theorem RuleChanged.follows (changed : RuleChanged state next ruleId) :
    GrantsFollow state.records next.records := by
  refine .of_subset changed.nextGrant ?_
  rw [changed.grants]
  exact Subset.refl _

theorem RuleChanged.keepsLapsed (changed : RuleChanged state next ruleId)
    (idle : RuleIdle state ruleId) :
    KeepsLapsed state next := by
  refine .of_grants changed.grants changed.now ?_
  intro _ mem ended _ reached
  exact idle.reaches changed.others mem ended reached

variable {rule : MappingRule} {given : Give}

theorem ruleCreated_changed (done : cascadeRuleCreated gate state rule = .ok next) :
    RuleChanged state next rule.id ∧ RuleIdle state rule.id := by
  unfold cascadeRuleCreated at done
  split at done
  · next fresh =>
    split at done
    · cases done
    obtain ⟨_,_,-,rfl⟩ := commit_ok done
    refine ⟨⟨rfl,rfl,rfl,fun old listed _other => mem_append_left _ listed⟩,?_⟩
    intro _ _member _ended old listed same
    exact absurd (mem_map.mpr ⟨old,listed,same⟩) fresh
  · cases done

theorem ruleUpdated_changed (done : cascadeRuleUpdated gate state rule = .ok next) :
    RuleChanged state next rule.id := by
  unfold cascadeRuleUpdated at done
  split at done
  · cases done
  split at done
  · cases done
  obtain ⟨_,_,-,rfl⟩ := commit_ok done
  refine ⟨rfl,rfl,rfl,fun old listed other => mem_map.mpr ⟨old,listed,?_⟩⟩
  rw [if_neg other]

theorem ruleRetired_changed (done : cascadeRuleRetired gate state ruleId = .ok next) :
    RuleChanged state next ruleId := by
  unfold cascadeRuleRetired at done
  split at done
  · cases done
  obtain ⟨_,_,-,rfl⟩ := commit_ok done
  exact ⟨rfl,rfl,rfl,fun old listed other =>
    mem_filter.mpr ⟨listed,decide_eq_true other⟩⟩

theorem gave_records (done : enqueueNamed gate state given.params = .ok next) :
    next.records = state.records.upsertGrant given.params given.roleKey := by
  obtain ⟨_,_,_,_,-,middleEq,-,nextEq,-⟩ := enqueueNamed_ok rfl done
  rw [nextEq,middleEq]
  rfl

theorem gave_keepsLapsed (done : enqueueNamed gate state given.params = .ok next) :
    KeepsLapsed state next := by
  have records := gave_records done
  intro grant mem _ _ reached
  have rules : next.records.rules = state.records.rules := by rw [records,rules_upsert]
  have listed : ∃ kept ∈ next.records.grants, kept.userId = grant.userId ∧
      kept.role = grant.role := by
    rw [records]
    unfold upsertGrant
    split
    · refine ⟨_,mem_map_of_mem mem,?_⟩
      split <;> exact ⟨rfl,rfl⟩
    · exact ⟨grant,mem_append_left _ mem,rfl,rfl⟩
  obtain ⟨kept,present,person,same⟩ := listed
  cases stillEnded : kept.lapsed next.now with
  | true =>
    refine .inr ⟨kept,present,person,same,stillEnded,?_⟩
    rw [rules]
    exact reached
  | false =>
    left
    rw [← rules] at reached
    refine AccessState.mem_closed_of_reaches (next.holdings_subset_closed _ ?_) reached
    exact (mem_holdings _ _ _ _).mpr (.inl ⟨kept,present,person,stillEnded,same⟩)

theorem expired_records {grantId : Nat} {lapsed : Role}
    (done : expireDirectGrant state userId grantId lapsed = .ok next) :
    next.records.rules = state.records.rules ∧ next.now = state.now ∧
      GrantsFollow state.records next.records ∧
      (∃ grant ∈ state.records.grants, grant.id = grantId ∧ grant.userId = userId) ∧
      ∀ grant ∈ state.records.grants, grant.id ≠ grantId → grant ∈ next.records.grants := by
  unfold expireDirectGrant at done
  split at done
  · next found =>
    obtain ⟨expired,mem,matching⟩ := any_eq_true.mp found
    simp only [Bool.and_eq_true,decide_eq_true_eq] at matching
    obtain ⟨_,_,-,rfl⟩ := commit_ok done
    refine ⟨rfl,rfl,.of_subset rfl fun grant among => (mem_filter.mp among).1,
      ⟨expired,mem,matching.1⟩,?_⟩
    intro _ present other
    refine mem_filter.mpr ⟨present,?_⟩
    rw [decide_eq_false other]
    rfl
  · split at done <;> cases done

end Syndra.Ledger
