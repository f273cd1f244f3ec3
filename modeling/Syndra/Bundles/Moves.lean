/-
What a move or a publication leaves its holder with.

Both simulate the holder's pin on the new version. The simulation takes away what a queued
revocation names after it put the version's roles in, while an assignment takes it away
before.
-/

import Syndra.Bundles.Drafts
import Syndra.Foundation.Runs

namespace Syndra.Bundles

open Access Ledger Propagation List

/-- The simulated closure has all that the version gives by itself, and so has the holder
once the queued difference is applied. -/
structure Gives (state : AccessState) (userId bundleId : String) (next : List Role)
    (rules : List MappingRule) : Prop where
  simulated : ∀ role ∈ effectiveClosure next rules,
    role ∈ effectiveClosure (userBaseHoldingsWithBundleAt state userId bundleId next) rules
  left : ∀ role ∈ effectiveClosure next rules,
    role ∈ (holderDelta state userId bundleId next rules).1 ∨
      role ∈ effectiveClosure (state.userBaseHoldings userId) rules ∧
        role ∉ (holderDelta state userId bundleId next rules).2

section Proofs

variable {state : AccessState} {userId bundleId : String} {next : List Role}
variable {rules : List MappingRule}

theorem left_iff {before after : List Role} {role : Role} :
    role ∈ (closureDelta before after).1 ∨ role ∈ before ∧ role ∉ (closureDelta before after).2 ↔
      role ∈ after := by
  rw [mem_adds,mem_revokes]
  by_cases held : role ∈ after
  · by_cases had : role ∈ before
    · exact ⟨fun _ => held,fun _ => .inr ⟨had,fun lost => lost.2 held⟩⟩
    · exact ⟨fun _ => held,fun _ => .inl ⟨held,had⟩⟩
  refine ⟨fun left => ?_,fun impossible => absurd impossible held⟩
  rcases left with gained | ⟨had,kept⟩
  · exact gained.1
  · exact absurd ⟨had,held⟩ kept

theorem gives_iff_simulated :
    Gives state userId bundleId next rules ↔ ∀ role ∈ effectiveClosure next rules,
      role ∈ effectiveClosure (userBaseHoldingsWithBundleAt state userId bundleId next) rules :=
  ⟨Gives.simulated,fun simulated =>
    ⟨simulated,fun role given => left_iff.mpr (simulated role given)⟩⟩

theorem mem_userBaseHoldingsWithBundleAt (role : Role) :
    role ∈ userBaseHoldingsWithBundleAt state userId bundleId next ↔
      role ∈ state.userBaseHoldingsExcludingBundle userId (some bundleId) ++ next ∧
        role ∉ queuedRevocationsFor state.outbox state.records.grants userId := by
  unfold userBaseHoldingsWithBundleAt
  rw [mem_filter,decide_eq_true_eq]

end Proofs

/-- An assignment of the version gives all that the version gives. A move or a publication
does exactly when each of its roles that a queued revocation names is derived from
something held that none names. -/
theorem moveGives_iff (state : AccessState) (userId bundleId : String) (next : List Role)
    (rules : List MappingRule) :
    (∀ role ∈ effectiveClosure next rules,
      role ∈ effectiveClosure (state.userBaseHoldings userId ++ next) rules) ∧
    (Gives state userId bundleId next rules ↔
      ∀ role ∈ next, role ∈ queuedRevocationsFor state.outbox state.records.grants userId →
        ∃ start ∈ state.userBaseHoldingsExcludingBundle userId (some bundleId) ++ next,
          start ∉ queuedRevocationsFor state.outbox state.records.grants userId ∧
            Reaches Role.mk rules start role) := by
  refine ⟨effectiveClosure_mono rules (subset_append_right _ _),?_⟩
  rw [gives_iff_simulated]
  constructor
  · intro simulated role given _
    have itself : role ∈ effectiveClosure next rules :=
      mem_effectiveClosure.mpr ⟨role,given,Reaches.refl _ _ _⟩
    obtain ⟨start,held,reached⟩ := mem_effectiveClosure.mp (simulated role itself)
    obtain ⟨source,kept⟩ := (mem_userBaseHoldingsWithBundleAt start).mp held
    exact ⟨start,source,kept,reached⟩
  · intro derived _ given
    obtain ⟨own,isOwn,reached⟩ := mem_effectiveClosure.mp given
    rw [mem_effectiveClosure]
    by_cases revoking : own ∈ queuedRevocationsFor state.outbox state.records.grants userId
    · obtain ⟨start,source,kept,derives⟩ := derived own isOwn revoking
      exact ⟨start,(mem_userBaseHoldingsWithBundleAt start).mpr ⟨source,kept⟩,
        derives.trans reached⟩
    · exact ⟨own,(mem_userBaseHoldingsWithBundleAt own).mpr
        ⟨mem_append_right _ isOwn,revoking⟩,reached⟩

namespace QueuedRevoke

def entry : Role := ⟨"doors","entry"⟩

def revoke : Intent :=
  { target := "zitadel", opType := .revoke, userId := "ada", projectId := "doors"
    roleKeys := ["entry"], source := .direct, sourceRef := "", withdrawsOnly := false }

def outbox : Outbox :=
  { rows := [revoke.freshRow none 1], nextSeq := 2, ordered := pairwise_singleton _ _
    idsDistinct := nodup_singleton _, numbered := by decide, started := by decide }

def waiting : AccessState :=
  { outbox := outbox, zitadel := fun _ => true, now := 0
    records :=
      { Records.empty with
        bundles := [⟨"club",false,[]⟩]
        versions := [⟨"club-1","club",1,[],[]⟩,⟨"club-2","club",2,[entry],[]⟩]
        assignments := [⟨"ada","club","club-1"⟩], assignmentsDistinct := nodup_singleton _ } }

theorem not_gives_waiting :
    ¬ Gives waiting "ada" "club" (waiting.records.effectiveRoles "club-2") waiting.records.rules ∧
      ∃ moved, (moveHolders none waiting "club" "club-2" ["ada"]).toOption = some moved ∧
        moved.records.assignments = [⟨"ada","club","club-2"⟩] ∧
        moved.outbox.rows = waiting.outbox.rows := by
  constructor
  · intro gives
    exact absurd (gives.simulated entry (by decide +kernel)) (by decide +kernel)
  exact Foundation.Runs.exists_reached (by decide +kernel)

end QueuedRevoke

end Syndra.Bundles
