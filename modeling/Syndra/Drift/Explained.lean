/-
What the drift sweep accounts for.

The sweep reads everybody's direct grants and bundle roles at once, derives what the rules
give from them, and names the first source that explains a live grant.
-/

import Syndra.Ledger.Readers
import Syndra.Observe.Index

namespace Syndra.Drift

open Access Propagation Ledger Observe List

inductive IntentSource where
  | directGrant
  | bundle
  | mappingRule
  | exclusion
deriving DecidableEq

structure ExternalGrantExclusion where
  target : String
  userId : String
  projectId : String
  roleKey : String
deriving DecidableEq

def isExcluded (exclusions : List ExternalGrantExclusion) (target : String) (key : HeldRole) :
    Bool :=
  exclusions.any fun exclusion =>
    exclusion.target = target && exclusion.userId = key.userId &&
      exclusion.projectId = key.projectId && exclusion.roleKey = key.roleKey

def buildHolderSet (direct : List DirectGrant) (zit : List UserGrant) : List HeldRole :=
  (direct.map fun grant => heldBy grant.userId grant.role) ++
    zit.flatMap fun grant => grant.roleKeys.map (HeldRole.mk grant.userId grant.projectId)

def getAllDirectGrants (records : Records) (now : Time) (includeExpired : Bool) :
    List DirectGrant :=
  records.grants.filter fun grant => includeExpired || !grant.lapsed now

def getAllBundleDerivedGrants (records : Records) : List HeldRole :=
  records.assignments.flatMap fun held =>
    (records.effectiveRoles held.versionId).map (heldBy held.userId)

def holderBase (held : List HeldRole) (userId : String) : List Role :=
  (held.filter fun key => key.userId = userId).map fun key => Role.mk key.projectId key.roleKey

def ruleDerived (held : List HeldRole) (rules : List MappingRule) : List HeldRole :=
  if rules = [] then []
  else
    (held.map HeldRole.userId).dedup.flatMap fun userId =>
      (fired Role.mk (closure Role.mk (holderBase held userId) rules) rules).map fun rule =>
        HeldRole.mk userId rule.targetProject rule.targetRole

structure IntentSets where
  direct : List HeldRole
  bundle : List HeldRole
  rule : List HeldRole

def intentSets (records : Records) (now : Time) : IntentSets :=
  let directSet := buildHolderSet (getAllDirectGrants records now false) []
  let bundleSet := getAllBundleDerivedGrants records
  { direct := directSet
    bundle := bundleSet
    rule := ruleDerived (directSet ++ bundleSet) records.rules }

def explainedBy (sets : IntentSets) (exclusions : List ExternalGrantExclusion) (target : String)
    (key : HeldRole) : Option IntentSource :=
  if key ∈ sets.direct then some .directGrant
  else if key ∈ sets.bundle then some .bundle
  else if key ∈ sets.rule then some .mappingRule
  else if isExcluded exclusions target key then some .exclusion
  else none

def explained (sets : IntentSets) (exclusions : List ExternalGrantExclusion) (target : String)
    (key : HeldRole) : Bool :=
  (explainedBy sets exclusions target key).isSome

variable {exclusions : List ExternalGrantExclusion} {target : String} {now : Time}

theorem explainedBy_intent {sets : IntentSets} {key : HeldRole} :
    (∃ source, explainedBy sets exclusions target key = some source ∧ source ≠ .exclusion) ↔
      key ∈ sets.direct ∨ key ∈ sets.bundle ∨ key ∈ sets.rule := by
  unfold explainedBy
  by_cases direct : key ∈ sets.direct
  · simp [direct]
  by_cases bundle : key ∈ sets.bundle
  · simp [direct,bundle]
  by_cases rule : key ∈ sets.rule <;> simp [direct,bundle,rule]

variable {role : Role} {userId : String}

theorem mem_intentSets {records : Records} :
    (heldBy userId role ∈ (intentSets records now).direct ∨
      heldBy userId role ∈ (intentSets records now).bundle) ↔
      role ∈ records.holdings now userId := by
  rw [Records.mem_holdings]
  simp only [intentSets,buildHolderSet,getAllDirectGrants,getAllBundleDerivedGrants,
    flatMap_nil,append_nil,mem_map,mem_filter,mem_flatMap,
    Bool.false_or,Bool.not_eq_true']
  refine or_congr ?_ ?_
  · constructor
    · rintro ⟨grant,⟨listed,current⟩,same⟩
      obtain ⟨person,role⟩ := heldBy_injective same
      exact ⟨grant,listed,person,current,role⟩
    · rintro ⟨grant,listed,rfl,current,rfl⟩
      exact ⟨grant,⟨listed,current⟩,rfl⟩
  · constructor
    · rintro ⟨held,listed,role,inside,same⟩
      obtain ⟨rfl,rfl⟩ := heldBy_injective same
      exact ⟨held,listed,rfl,inside⟩
    · rintro ⟨held,listed,rfl,inside⟩
      exact ⟨held,listed,role,inside,rfl⟩

theorem mem_holderBase (held : List HeldRole) (userId : String) (role : Role) :
    role ∈ holderBase held userId ↔ heldBy userId role ∈ held := by
  unfold holderBase
  rw [mem_map]
  constructor
  · rintro ⟨_,listed,rfl⟩
    obtain ⟨mem,person⟩ := mem_filter.mp listed
    rw [← of_decide_eq_true person]
    exact mem
  · intro mem
    exact ⟨heldBy userId role,mem_filter.mpr ⟨mem,decide_eq_true rfl⟩,rfl⟩

theorem mem_ruleDerived {held : List HeldRole} {rules : List MappingRule} :
    heldBy userId role ∈ ruleDerived held rules ↔
      ∃ rule ∈ fired Role.mk (effectiveClosure (holderBase held userId) rules) rules,
        Role.mk rule.targetProject rule.targetRole = role := by
  unfold ruleDerived
  split
  · next none =>
    subst none
    exact ⟨nofun,
      fun ⟨_rule,applies,_same⟩ => absurd applies not_mem_nil⟩
  rw [mem_flatMap]
  constructor
  · rintro ⟨person,-,listed⟩
    obtain ⟨rule,applies,same⟩ := mem_map.mp listed
    have target : heldBy person (Role.mk rule.targetProject rule.targetRole) =
        heldBy userId role := same
    obtain ⟨rfl,rfl⟩ := heldBy_injective target
    exact ⟨rule,applies,rfl⟩
  · rintro ⟨rule,applies,rfl⟩
    obtain ⟨start,based,-⟩ := mem_effectiveClosure.mp
      (of_decide_eq_true (mem_filter.mp applies).2)
    have known : userId ∈ held.map HeldRole.userId :=
      mem_map.mpr ⟨_,(mem_holderBase held userId start).mp based,rfl⟩
    exact ⟨userId,mem_dedup.mpr known,mem_map.mpr ⟨rule,applies,rfl⟩⟩

theorem explained_iff_closed {records : Records} :
    (∃ source, explainedBy (intentSets records now) exclusions target (heldBy userId role) =
        some source ∧ source ≠ .exclusion) ↔
      role ∈ effectiveClosure (records.holdings now userId) records.rules := by
  have base (other : Role) : other ∈ holderBase ((intentSets records now).direct ++
      (intentSets records now).bundle) userId ↔ other ∈ records.holdings now userId := by
    rw [mem_holderBase,mem_append,mem_intentSets]
  have closed : role ∈ effectiveClosure (holderBase ((intentSets records now).direct ++
      (intentSets records now).bundle) userId) records.rules ↔
        role ∈ effectiveClosure (records.holdings now userId) records.rules :=
    mem_effectiveClosure_congr base role
  rw [explainedBy_intent,← or_assoc,mem_intentSets,← closed]
  unfold effectiveClosure
  rw [mem_closure_iff_fired,base role]
  exact or_congr_right mem_ruleDerived

theorem readers_agree (names : Names) (state : AccessState)
    (exclusions : List ExternalGrantExclusion)
    (referenced : state.records.AssignmentsReferenced)
    (unassigned : state.records.RetiredUnassigned) :
    (∀ userId role, (role ∈ (collectUserRoles names state.records state.now userId).1 ↔
        (compileUser names state.records state.now userId).holds role = true) ∧
      (role ∈ (collectUserRoles names state.records state.now userId).1 ↔
        ∃ source, explainedBy (intentSets state.records state.now) exclusions zitadelTarget
          (heldBy userId role) = some source ∧ source ≠ .exclusion) ∧
      (queuedRevocationsFor state.outbox state.records.grants userId = [] →
        (role ∈ (collectUserRoles names state.records state.now userId).1 ↔
          role ∈ effectiveClosure (state.userBaseHoldings userId) state.records.rules))) ∧
    (∀ gate bundleId next, cascadeBundleRetired gate state bundleId = .ok next →
      next.records.RetiredUnassigned) := by
  constructor
  · intro userId role
    have page := mem_collectUserRoles_closed names state.now userId referenced unassigned role
    refine ⟨?_,?_,?_⟩
    · rw [page,mem_compileUser]
    · rw [page,explained_iff_closed]
    intro quiet
    have unrevoked : state.Unrevoked userId := by
      intro other _held
      rw [quiet]
      exact not_mem_nil
    rw [page]
    exact mem_effectiveClosure_congr
      (fun other => (unrevoked.mem_userBaseHoldings other).symm) role
  · intro _ _ _ done
    exact unassigned.retired done

namespace Workshop

theorem one_assigned : ([⟨"ada","makers","makers-1"⟩] : List Assignment).map
    (fun held => (held.userId, held.bundleId)) |>.Nodup :=
  nodup_singleton _

def records : Records :=
  { grants := [{ id := 0, userId := "ada", projectId := "lathe", roleKey := "operator"
                 expiresAt := some 9, source := .direct, sourceRef := "" }]
    nextGrant := 1
    bundles := [{ id := "makers", retired := false, includes := [⟨"basics","basics-1"⟩] },
      { id := "basics", retired := false, includes := [] },
      { id := "archive", retired := true, includes := [] }]
    versions := [{ id := "makers-1", bundleId := "makers", version := 1,
                   roles := [⟨"workshop","member"⟩], includes := [⟨"basics","basics-1"⟩] },
      { id := "basics-1", bundleId := "basics", version := 1,
        roles := [⟨"doors","entry"⟩], includes := [] }]
    assignments := [{ userId := "ada", bundleId := "makers", versionId := "makers-1" }]
    rules := [{ id := "r1", sourceProject := "lathe", sourceRole := "operator",
                targetProject := "store", targetRole := "buyer" },
      { id := "r2", sourceProject := "store", sourceRole := "buyer",
        targetProject := "lathe", targetRole := "operator" }]
    indexedUsers := []
    grantsDistinct := nodup_singleton _
    grantsNumbered := by decide
    assignmentsDistinct := one_assigned
    rulesDistinct := by decide }

def names : Names :=
  { grantReason := fun _ => ""
    bundleName := fun id => id
    projectName := fun _ => none }

def state : AccessState :=
  { records := records
    outbox := Outbox.empty
    zitadel := fun _ => false
    now := 3 }

theorem readers_agree_workshop : queuedRevocationsFor state.outbox state.records.grants "ada" = [] ∧
      (∀ role, role ∈ (collectUserRoles names records 3 "ada").1 ↔
        role ∈ effectiveClosure (state.userBaseHoldings "ada") records.rules) ∧
      Role.mk "store" "buyer" ∈ (collectUserRoles names records 3 "ada").1 ∧
      Role.mk "doors" "entry" ∈ (collectUserRoles names records 3 "ada").1 := by
  have referenced : state.records.AssignmentsReferenced := by
    unfold Records.AssignmentsReferenced
    decide
  have unassigned : state.records.RetiredUnassigned := by
    unfold Records.RetiredUnassigned
    decide
  have quiet : queuedRevocationsFor state.outbox state.records.grants "ada" = [] := by decide
  have agree := (readers_agree names state [] referenced unassigned).1 "ada"
  refine ⟨quiet,fun role => (agree role).2.2 quiet,?_,?_⟩ <;> exact (agree _).1.mpr (by decide)

end Workshop

end Syndra.Drift
