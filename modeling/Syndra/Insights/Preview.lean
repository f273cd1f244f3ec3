/-
The preview against the change.

The loop of the preview leaves at most one entry for a person, with the difference of that
person's two closures, and sorting moves entries only.
-/

import Syndra.Insights.WhatIf
import Syndra.Ledger.GrantEffects

namespace Syndra.Insights

open Access Propagation Ledger Bundles List

/-! ### What is handed over -/

section Handed

variable {gate : Option CancelGate} {state next : AccessState} {newId : String}
  {change : InsightsWhatIfChange}

private theorem commit_hands {records : Records} {params : List EnqueueParams}
    (done : state.commit gate records params = .ok next) :
    ∃ ids, enqueueRows gate state.outbox params = .ok (next.outbox, ids) := by
  obtain ⟨_,ids,written,rfl⟩ := commit_ok done
  exact ⟨ids,written⟩

private theorem assigned_hands
    (done : cascadeBundleAssignedToUser gate state change.userId change.bundleId = .ok next)
    (kind : change.kind = .bundleAssigned) :
    ∃ ids, enqueueRows gate state.outbox (handed state newId change) = .ok (next.outbox, ids) := by
  unfold cascadeBundleAssignedToUser at done
  unfold handed
  cases found : state.records.bundles.find? fun bundle => bundle.id = change.bundleId with
  | none =>
    rw [found] at done
    cases done
  | some bundle =>
    rw [found] at done
    simp only at done
    by_cases retired : bundle.retired = true
    · rw [if_pos retired] at done
      cases done
    rw [if_neg retired] at done
    cases latest : state.records.latestVersion change.bundleId with
    | none =>
      rw [latest] at done
      cases done
    | some =>
      simp only [latest] at done
      simp only [kind]
      by_cases already : holds state change.userId change.bundleId = true
      · rw [if_pos already]
        unfold holds at already
        rw [if_pos already] at done
        cases done
        exact ⟨[],rfl⟩
      · rw [if_neg already]
        unfold holds at already
        rw [if_neg already] at done
        exact commit_hands done

private theorem realChange_hands (done : realChange gate state newId change = some (.ok next)) :
    ∃ ids, enqueueRows gate state.outbox (handed state newId change) = .ok (next.outbox, ids) := by
  unfold realChange at done
  cases kind : change.kind with
  | bundleAssigned =>
    rw [kind] at done
    exact assigned_hands (Option.some.inj done) kind
  | bundleGivesAlso | bundleGivesNot =>
    rw [kind] at done
    cases done
  | bundleGone =>
    rw [kind] at done
    have done := Option.some.inj done
    unfold cascadeBundleRetired at done
    unfold handed
    simp only [kind]
    split at done
    · cases done
    split at done
    · cases done
    split at done
    · cases done
    · exact commit_hands done
  | bundleUnassigned =>
    rw [kind] at done
    have done := Option.some.inj done
    unfold cascadeBundleRemovedFromUser at done
    unfold handed
    simp only [kind]
    split at done
    · cases done
    split at done
    · cases done
    · exact commit_hands done
  | ruleGone =>
    rw [kind] at done
    have done := Option.some.inj done
    unfold cascadeRuleRetired at done
    unfold handed
    simp only [kind]
    split at done
    · cases done
    · exact commit_hands done
  | ruleAdded =>
    rw [kind] at done
    unfold handed
    simp only [kind]
    by_cases new : change.ruleId = ""
    · simp only [if_pos new] at done ⊢
      have done := Option.some.inj done
      unfold cascadeRuleCreated at done
      split at done
      · split at done
        · cases done
        · exact commit_hands done
      · cases done
    · simp only [if_neg new] at done ⊢
      have done := Option.some.inj done
      unfold cascadeRuleUpdated at done
      split at done
      · cases done
      split at done
      · cases done
      · exact commit_hands done

end Handed

/-! ### One person's share -/

section Share

variable {person userId : String} {side : List Role × List Role → List Role}

variable {users people : List String}

private theorem flatMap_ite_eq {α : Type} (distinct : users.Nodup) {share : String → List α} :
    (users.flatMap fun userId => if userId = person then share userId else []) =
      if person ∈ users then share person else [] := by
  induction users with
  | nil => rfl
  | cons first _ ih =>
    obtain ⟨notLater,restDistinct⟩ := nodup_cons.mp distinct
    rw [flatMap_cons,ih restDistinct]
    by_cases same : first = person
    · subst same
      rw [if_pos rfl,if_neg notLater,if_pos mem_cons_self,append_nil]
    · rw [if_neg same]
      simp [Ne.symm same]

private theorem handedRoles_flatMap (distinct : users.Nodup) {opType : OpType}
    {writes : String → List EnqueueParams} (share : String → List Role)
    (own : ∀ userId, handedRoles opType (writes userId) person =
      if userId = person then share userId else []) :
    handedRoles opType (users.flatMap writes) person =
      if person ∈ users then share person else [] := by
  rw [← flatMap_ite_eq distinct]
  unfold handedRoles
  rw [filter_flatMap,map_flatMap]
  congr 1
  funext userId
  exact own userId

private theorem handedRoles_deltaWrites {delta : List Role × List Role} {source : Source}
    {sourceRef : String} :
    handedRoles .add (deltaWrites userId delta source sourceRef) person =
        (if userId = person then delta.1 else []) ∧
      handedRoles .revoke (deltaWrites userId delta source sourceRef) person =
        if userId = person then delta.2 else [] := by
  have own (opType : OpType) : roleOf ∘ roleWrite opType userId source sourceRef = id := rfl
  unfold handedRoles deltaWrites
  simp only [filter_append,filter_map,map_append,map_map,own]
  by_cases same : userId = person
  · simp [same,Function.comp_def,roleWrite]
  · simp [same,roleWrite]

def entriesFor (side : List Role × List Role → List Role) (names : String → Option String)
    (holderChange : HolderChange) (userId : String) : List InsightWhatIfPerson :=
  match names userId, holderChange userId with
  | some name, .ok (before, after) =>
    if side (closureDelta before after) = [] then []
    else [⟨userId,name,side (closureDelta before after)⟩]
  | _, _ => []

variable {names : String → Option String} {holderChange : HolderChange}

private theorem judge_entries {out after : InsightsWhatIf}
    (done : judge names holderChange out userId = .ok after) :
    after.gains = out.gains ++ entriesFor Prod.fst names holderChange userId ∧
      after.losses = out.losses ++ entriesFor Prod.snd names holderChange userId := by
  unfold judge at done
  unfold entriesFor
  cases known : names userId with
  | none =>
    rw [known] at done
    cases done
    exact ⟨(append_nil _).symm,(append_nil _).symm⟩
  | some =>
    rw [known] at done
    cases changed : holderChange userId with
    | error =>
      rw [changed] at done
      cases done
    | ok closures =>
      rw [changed] at done
      simp only at done ⊢
      by_cases adds : (closureDelta closures.1 closures.2).1 = []
      · by_cases revokes : (closureDelta closures.1 closures.2).2 = []
        · rw [if_pos ⟨adds,revokes⟩] at done
          cases done
          simp [adds,revokes]
        · rw [if_neg fun both => revokes both.2] at done
          cases done
          simp [adds,revokes]
      · rw [if_neg fun both => adds both.1] at done
        cases done
        by_cases revokes : (closureDelta closures.1 closures.2).2 = [] <;> simp [adds,revokes]

private theorem judged_entries : ∀ {out after : InsightsWhatIf},
      people.foldlM (judge names holderChange) out = .ok after →
        after.gains = out.gains ++ people.flatMap (entriesFor Prod.fst names holderChange) ∧
          after.losses = out.losses ++ people.flatMap (entriesFor Prod.snd names holderChange) := by
  induction people with
  | nil =>
    intro out after done
    cases done
    exact ⟨(append_nil _).symm,(append_nil _).symm⟩
  | cons first _ ih =>
    intro out _ done
    rw [foldlM_cons] at done
    cases judged : judge names holderChange out first with
    | error =>
      rw [judged] at done
      cases done
    | ok =>
      rw [judged] at done
      obtain ⟨gains,losses⟩ := ih done
      obtain ⟨firstGains,firstLosses⟩ := judge_entries judged
      rw [gains,losses,firstGains,firstLosses,flatMap_cons,flatMap_cons, append_assoc,append_assoc]
      exact ⟨rfl,rfl⟩

def simulated (people : List String) (holderChange : HolderChange) (userId : String) :
    List Role × List Role :=
  if userId ∈ people then
    match holderChange userId with
    | .ok (before, after) => closureDelta before after
    | .error _ => ([], [])
  else ([], [])

private theorem filter_entriesFor :
    ((entriesFor side names holderChange userId).filter fun entry => entry.userId = person) =
      if userId = person then entriesFor side names holderChange userId else [] := by
  unfold entriesFor
  cases names userId with
  | none => simp
  | some =>
    cases holderChange userId with
    | error => simp
    | ok =>
      simp only
      split
      · simp
      · rw [filter_cons]
        simp

private theorem roles_entriesFor (holderChange : HolderChange) (empty : side ([], []) = [])
    (known : (names person).isSome) :
    (entriesFor side names holderChange person).length ≤ 1 ∧
      (entriesFor side names holderChange person).flatMap InsightWhatIfPerson.roles =
        side (match holderChange person with
          | .ok (before, after) => closureDelta before after
          | .error _ => ([], [])) := by
  obtain ⟨_,isName⟩ := Option.isSome_iff_exists.mp known
  unfold entriesFor
  rw [isName]
  cases holderChange person with
  | error => simp [empty]
  | ok =>
    simp only
    split
    · next none => simp [none]
    · simp

private theorem eq_of_perm_of_few {α : Type} {first second : List α} (perm : first.Perm second)
    (few : second.length ≤ 1) : first = second := by
  match second, few with
  | [], _ => exact perm.eq_nil
  | [_], _ => exact perm_singleton.mp perm

private theorem listedRoles_sorted {reads : InsightsReads} (distinct : people.Nodup)
    (empty : side ([], []) = []) (known : (names person).isSome) :
    listedRoles (sortWhatIfPeople reads
        (people.flatMap (entriesFor side names holderChange))) person =
      side (simulated people holderChange person) := by
  obtain ⟨few,roles⟩ := roles_entriesFor holderChange empty known
  have unsorted : ((people.flatMap (entriesFor side names holderChange)).filter fun entry =>
      entry.userId = person) =
        if person ∈ people then entriesFor side names holderChange person else [] := by
    rw [filter_flatMap,← flatMap_ite_eq distinct]
    congr 1
    funext userId
    exact filter_entriesFor
  have perm : ((sortWhatIfPeople reads
      (people.flatMap (entriesFor side names holderChange))).filter fun entry =>
        entry.userId = person).Perm
          (if person ∈ people then entriesFor side names holderChange person else []) := by
    rw [← unsorted]
    exact (perm_insertionSort _ _).filter _
  have same : ((sortWhatIfPeople reads
      (people.flatMap (entriesFor side names holderChange))).filter fun entry =>
        entry.userId = person) =
          if person ∈ people then entriesFor side names holderChange person else [] := by
    apply eq_of_perm_of_few perm
    split
    · exact few
    · exact Nat.zero_le 1
  unfold listedRoles simulated
  rw [same]
  split
  · exact roles
  · rw [empty]
    rfl

end Share

/-! ### The two simulations -/

section Agreement

variable {gate : Option CancelGate} {state next : AccessState} {newId person : String}
  {change : InsightsWhatIfChange}

def handedDelta (state : AccessState) (newId : String) (change : InsightsWhatIfChange)
    (userId : String) : List Role × List Role :=
  (handedRoles .add (handed state newId change) userId,
    handedRoles .revoke (handed state newId change) userId)

variable {source : Source} {sourceRef : String} {reads : InsightsReads} {preview : InsightsWhatIf}

private theorem handedDelta_flatMap {users : List String} (distinct : users.Nodup)
    (deltas : String → List Role × List Role)
    (isHanded : handed state newId change =
      users.flatMap fun userId => deltaWrites userId (deltas userId) source sourceRef) :
    handedDelta state newId change person = if person ∈ users then deltas person else ([], []) := by
  unfold handedDelta
  rw [isHanded, handedRoles_flatMap distinct (fun userId => (deltas userId).1) fun userId =>
      handedRoles_deltaWrites.1,
    handedRoles_flatMap distinct (fun userId => (deltas userId).2) fun userId =>
      handedRoles_deltaWrites.2]
  split <;> rfl

variable {userId : String}

private theorem handedDelta_single {delta : List Role × List Role}
    (isHanded : handed state newId change = deltaWrites userId delta source sourceRef) :
    handedDelta state newId change person = if person ∈ [userId] then delta else ([], []) :=
  handedDelta_flatMap (nodup_singleton userId) (fun _ => delta)
    (isHanded.trans (flatMap_singleton _ _).symm)

private theorem mem_withRule (named : change.ruleId ≠ "")
    (active : ruleActive state change.ruleId = true)
    (base : List Role) (role : Role) :
    role ∈ effectiveClosure base (withRule state change) ↔ role ∈ effectiveClosure base
        (replaceFirst (change.rule change.ruleId) state.records.rules) := by
  let moved := (state.records.rules.filter fun rule => rule.id ≠ change.ruleId) ++
    [change.rule change.ruleId]
  have edges : (withRule state change).map (ruleEdge Role.mk) = moved.map (ruleEdge Role.mk) := by
    unfold withRule
    simp only [moved,map_append,named,decide_false,Bool.or_false]
    rfl
  have replaced := replaceFirst_eq_map (change.rule change.ruleId)
    state.records.rulesDistinct
  rw [mem_effectiveClosure_edges edges,replaced]
  constructor
  · apply effectiveClosure_rules_mono
    intro rule mem
    rw [mem_map]
    rcases mem_append.mp mem with kept | isNew
    · obtain ⟨listed,other⟩ := mem_filter.mp kept
      exact ⟨rule,listed,if_neg (of_decide_eq_true other)⟩
    obtain ⟨old,listed,same⟩ := any_eq_true.mp active
    rw [mem_singleton.mp isNew]
    exact ⟨old,listed,if_pos (of_decide_eq_true same)⟩
  · apply effectiveClosure_rules_mono
    intro _ mem
    obtain ⟨old,listed,rfl⟩ := mem_map.mp mem
    by_cases same : old.id = (change.rule change.ruleId).id
    · rw [if_pos same]
      exact mem_append_right _ (mem_singleton.mpr rfl)
    · rw [if_neg same]
      exact mem_append_left _ (mem_filter.mpr ⟨listed,decide_eq_true same⟩)

private theorem ruleDelta_replaced (named : change.ruleId ≠ "")
    (active : ruleActive state change.ruleId = true) {base : List Role} :
    closureDelta (effectiveClosure base state.records.rules)
        (effectiveClosure base (withRule state change)) =
      closureDelta (effectiveClosure base state.records.rules)
        (effectiveClosure base (replaceFirst (change.rule change.ruleId) state.records.rules)) :=
  closureDelta_congr (effectiveClosure_nodup _ _) (effectiveClosure_nodup _ _)
    (effectiveClosure_nodup _ _) (effectiveClosure_nodup _ _) (fun _ => Iff.rfl)
    (mem_withRule named active base)

variable {bundleId : String}

private theorem holders_perm : ((getBundleHoldersByVersion state bundleId).map Prod.fst).Perm
      (((state.records.assignments.filter fun held => held.bundleId = bundleId).filter fun held =>
        (state.records.versions.find? fun version => version.id = held.versionId).isSome).map
          Assignment.userId) := by
  refine ((perm_insertionSort _ _).map Prod.fst).trans (Perm.of_eq ?_)
  induction state.records.assignments.filter fun held => held.bundleId = bundleId with
  | nil => rfl
  | cons held _ ih =>
    rw [filterMap_cons,filter_cons]
    cases state.records.versions.find? fun version => version.id = held.versionId with
    | none => exact ih
    | some => exact congrArg (held.userId :: ·) ih

private theorem holders_nodup : ((getBundleHoldersByVersion state bundleId).map Prod.fst).Nodup ∧
      (state.records.getUsersForBundle bundleId).Nodup := by
  have users : (state.records.getUsersForBundle bundleId).Nodup :=
    getUsersForBundle_nodup state.records bundleId
  refine ⟨holders_perm.nodup_iff.mpr (users.sublist ?_),users⟩
  exact filter_sublist.map _

private theorem holders_subset
    (visited : userId ∈ (getBundleHoldersByVersion state bundleId).map Prod.fst) :
    userId ∈ state.records.getUsersForBundle bundleId :=
  (filter_sublist.map _).subset (holders_perm.mem_iff.mp visited)

private theorem goneDelta_unpinned
    (unlisted : userId ∉ (getBundleHoldersByVersion state change.bundleId).map Prod.fst) :
    closureDelta (goneClosures state change userId).1 (goneClosures state change userId).2 =
      ([], []) := by
  apply closureDelta_same
  apply mem_effectiveClosure_congr
  intro _
  unfold AccessState.userBaseHoldings AccessState.userBaseHoldingsExcludingBundle
  rw [mem_baseFrom,mem_baseFrom]
  refine and_congr_left fun _ => or_congr_right (exists_congr fun pair => and_congr_right ?_)
  intro listed
  refine and_congr_left fun inside => ?_
  have other : pair.1 ≠ change.bundleId := by
    intro same
    obtain ⟨held,mem,person,rfl⟩ := (Records.mem_bundleRolesFor _ _ _).mp listed
    obtain ⟨version,isVersion,-⟩ := mem_flatMap.mp inside
    obtain ⟨published,isPinned⟩ := mem_filter.mp isVersion
    apply unlisted
    rw [(holders_perm).mem_iff,mem_map]
    refine ⟨held,mem_filter.mpr ⟨mem_filter.mpr ⟨mem,decide_eq_true same⟩,?_⟩,person⟩
    exact find?_isSome.mpr ⟨version,published,isPinned⟩
  simp [other]

variable {people : List String} {holderChange : HolderChange}

private theorem hypothetical_nodup (simulation : hypothetical state change = .ok (people, holderChange)) :
    people.Nodup := by
  unfold hypothetical at simulation
  cases kind : change.kind <;> simp only [kind] at simulation <;> split at simulation <;>
    cases simulation
  · exact holders_nodup.1
  · exact holders_nodup.1
  · exact holders_nodup.1
  · exact nodup_dedup _
  · exact nodup_dedup _
  · exact nodup_singleton _
  · exact nodup_singleton _

private theorem handedDelta_rules {rulesAfter : List MappingRule} {ruleId : String}
    (isHanded : handed state newId change = ruleChangeWrites state rulesAfter ruleId) :
    handedDelta state newId change person = if person ∈ state.records.getAllKnownUserIds then
        closureDelta (effectiveClosure (state.userBaseHoldings person) state.records.rules)
          (effectiveClosure (state.userBaseHoldings person) rulesAfter)
      else ([], []) :=
  handedDelta_flatMap (nodup_dedup _)
    (fun userId => closureDelta
      (effectiveClosure (state.userBaseHoldings userId) state.records.rules)
      (effectiveClosure (state.userBaseHoldings userId) rulesAfter)) isHanded

section Kinds

variable (person : String)

private theorem handedDelta_ruleGone (kind : change.kind = .ruleGone) :
    handedDelta state newId change person = simulated state.records.getAllKnownUserIds
      (fun userId => .ok (ruleClosures state (withoutRule state change) userId)) person := by
  have isHanded : handed state newId change =
      ruleChangeWrites state (withoutRule state change) change.ruleId := by
    unfold handed
    rw [kind]
  exact handedDelta_rules isHanded

private theorem handedDelta_ruleAdded (kind : change.kind = .ruleAdded)
    (found : change.ruleId = "" ∨ ruleActive state change.ruleId = true) :
    handedDelta state newId change person = simulated state.records.getAllKnownUserIds
      (fun userId => .ok (ruleClosures state (withRule state change) userId)) person := by
  by_cases new : change.ruleId = ""
  · have rules : withRule state change = state.records.rules ++ [change.rule ""] := by
      unfold withRule
      rw [filter_eq_self.mpr fun rule _ => by simp [new]]
    have isHanded : handed state newId change =
        ruleChangeWrites state (withRule state change) newId := by
      unfold handed
      simp only [kind,if_pos new,rules]
    exact handedDelta_rules isHanded
  · have isHanded : handed state newId change = ruleChangeWrites state
        (replaceFirst (change.rule change.ruleId) state.records.rules) change.ruleId := by
      unfold handed
      simp only [kind,if_neg new]
    rw [handedDelta_rules isHanded,← ruleDelta_replaced new (found.resolve_left new)]
    rfl

private theorem handedDelta_assigned (kind : change.kind = .bundleAssigned)
    (joins : holds state change.userId change.bundleId = false) :
    handedDelta state newId change person =
      simulated [change.userId] (assignedClosures state change) person := by
  unfold simulated assignedClosures
  cases latest : state.records.latestVersion change.bundleId with
  | none =>
    have nothing : handed state newId change = [] := by
      unfold handed
      simp only [kind,latest]
    unfold handedDelta
    rw [nothing]
    simp [handedRoles]
  | some version =>
    have isHanded : handed state newId change = deltaWrites change.userId
        (closureDelta (effectiveClosure (state.userBaseHoldings change.userId) state.records.rules)
          (effectiveClosure (state.userBaseHoldings change.userId ++
            state.records.effectiveRoles version.id) state.records.rules))
        .bundle change.bundleId := by
      unfold handed
      simp only [kind,latest,joins,Bool.false_eq_true,if_false]
    rw [handedDelta_single isHanded]
    by_cases same : person = change.userId
    · rw [same]
      rfl
    · simp [same]

private theorem handedDelta_unassigned (kind : change.kind = .bundleUnassigned) :
    handedDelta state newId change person =
      simulated [change.userId] (fun userId => .ok (goneClosures state change userId)) person := by
  have isHanded : handed state newId change =
      bundleRemovalWrites state change.bundleId change.userId := by
    unfold handed
    rw [kind]
  rw [handedDelta_single isHanded]
  unfold simulated
  by_cases same : person = change.userId
  · rw [same]
    rfl
  · simp [same]

private theorem handedDelta_gone (kind : change.kind = .bundleGone) :
    handedDelta state newId change person =
      simulated ((getBundleHoldersByVersion state change.bundleId).map Prod.fst)
        (fun userId => .ok (goneClosures state change userId)) person := by
  have isHanded : handed state newId change =
      (state.records.getUsersForBundle change.bundleId).flatMap
        (bundleRemovalWrites state change.bundleId) := by
    unfold handed
    rw [kind]
  rw [handedDelta_flatMap holders_nodup.2
    (fun userId => closureDelta (goneClosures state change userId).1
      (goneClosures state change userId).2) isHanded]
  unfold simulated
  by_cases visited : person ∈ (getBundleHoldersByVersion state change.bundleId).map Prod.fst
  · rw [if_pos visited,if_pos (holders_subset visited)]
  · rw [if_neg visited,goneDelta_unpinned visited]
    exact ite_self _

end Kinds

private theorem handedDelta_simulated (simulation : hypothetical state change = .ok (people, holderChange))
    (done : realChange gate state newId change = some (.ok next))
    (joins : change.kind = .bundleAssigned → holds state change.userId change.bundleId = false) :
    handedDelta state newId change person = simulated people holderChange person := by
  unfold hypothetical at simulation
  unfold realChange at done
  cases kind : change.kind <;> simp only [kind] at simulation done <;> split at simulation <;>
    cases simulation
  case bundleGivesAlso.isTrue => cases done
  case bundleGivesNot.isTrue => cases done
  case bundleGone.isTrue => exact handedDelta_gone person kind
  case ruleGone.isTrue => exact handedDelta_ruleGone person kind
  case ruleAdded.isFalse found =>
      refine handedDelta_ruleAdded person kind ?_
      by_cases new : change.ruleId = ""
      · exact .inl new
      · exact .inr (by simpa [new] using found)
  case bundleAssigned.isTrue => exact handedDelta_assigned person kind (joins kind)
  case bundleUnassigned.isTrue => exact handedDelta_unassigned person kind

private theorem insightsWhatIf_ok (answered : insightsWhatIf reads state change = .ok preview) :
    ∃ people holderChange, hypothetical state change = .ok (people, holderChange) ∧
      ∀ person, (reads.names person).isSome →
        (listedRoles preview.gains person, listedRoles preview.losses person) =
          simulated people holderChange person := by
  unfold insightsWhatIf at answered
  split at answered
  · cases answered
  cases simulation : hypothetical state change with
  | error =>
    rw [simulation] at answered
    cases answered
  | ok result =>
    obtain ⟨people,holderChange⟩ := result
    rw [simulation] at answered
    simp only at answered
    split at answered
    · cases answered
    rename_i out judged
    cases answered
    obtain ⟨gains,losses⟩ := judged_entries judged
    rw [nil_append] at gains losses
    refine ⟨people,holderChange,rfl,fun person known => ?_⟩
    have distinct := hypothetical_nodup simulation
    simp only [gains,losses]
    rw [listedRoles_sorted distinct rfl known, listedRoles_sorted distinct rfl known]

private theorem names_of_mem {user : String × String}
    (listed : user ∈ reads.users) : (reads.names user.1).isSome := by
  unfold InsightsReads.names
  rw [Option.isSome_map,find?_isSome]
  exact ⟨user,mem_reverse.mpr listed,decide_eq_true rfl⟩

private theorem previews_iff : Previews preview (handed state newId change) person ↔
      (listedRoles preview.gains person, listedRoles preview.losses person) =
        handedDelta state newId change person := by
  rw [Prod.mk.injEq]
  exact ⟨fun same => ⟨same.gained,same.lost⟩,fun same => ⟨same.1,same.2⟩⟩

private theorem handedDelta_holder (kind : change.kind = .bundleAssigned)
    (already : holds state change.userId change.bundleId = true) :
    handedDelta state newId change person = ([], []) := by
  have nothing : handed state newId change = [] := by
    unfold handed
    simp only [kind,already]
    split <;> rfl
  unfold handedDelta
  rw [nothing]
  simp [handedRoles]

private theorem simulated_holder (kind : change.kind = .bundleAssigned)
    (simulation : hypothetical state change = .ok (people, holderChange)) :
    (∀ person, person ≠ change.userId → simulated people holderChange person = ([], [])) ∧
      (simulated people holderChange change.userId = ([], []) ↔
        Covered state change.userId change.bundleId) := by
  unfold hypothetical at simulation
  simp only [kind] at simulation
  split at simulation
  · cases simulation
    constructor
    · intro _ other
      unfold simulated
      rw [if_neg fun listed => other (mem_singleton.mp listed)]
    unfold simulated assignedClosures Covered
    rw [if_pos (mem_singleton.mpr rfl)]
    cases state.records.latestVersion change.bundleId with
    | none => simp
    | some version =>
      simp only [Option.some.injEq,forall_eq']
      constructor
      · intro nothing role given
        by_contra new
        have reached : role ∈ effectiveClosure (state.userBaseHoldings change.userId ++
            state.records.effectiveRoles version.id) state.records.rules :=
          subset_closure _ _ _ (mem_append_right _ given)
        have gained := (mem_adds _ _ role).mpr ⟨reached,new⟩
        unfold closures at nothing
        rw [nothing] at gained
        cases gained
      · intro covered
        apply closureDelta_same
        intro _
        constructor
        · exact fun held => effectiveClosure_mono _ (subset_append_left _ _) held
        apply effectiveClosure_subset
        intro start mem
        rcases mem_append.mp mem with based | given
        · exact subset_closure _ _ _ based
        · exact covered start given
  · cases simulation

end Agreement

/-- The preview lists, for everybody in the directory, what the change hands to the outbox,
unless it is an assignment to somebody in the directory who holds the bundle and whom its
latest version would give something. -/
theorem whatIf_previews_iff {reads : InsightsReads} {gate : Option CancelGate}
    {state next : AccessState} {newId : String} {change : InsightsWhatIfChange}
    {preview : InsightsWhatIf} (answered : insightsWhatIf reads state change = .ok preview)
    (done : realChange gate state newId change = some (.ok next)) :
    (∃ ids, enqueueRows gate state.outbox (handed state newId change) = .ok (next.outbox, ids)) ∧
    ((∀ user ∈ reads.users, Previews preview (handed state newId change) user.1) ↔
      (change.kind = .bundleAssigned → holds state change.userId change.bundleId = true →
        (∃ user ∈ reads.users, user.1 = change.userId) →
          Covered state change.userId change.bundleId)) := by
  refine ⟨realChange_hands done,?_⟩
  obtain ⟨people,holderChange,simulation,lists⟩ := insightsWhatIf_ok answered
  have compared (user : String × String) (listed : user ∈ reads.users) :
      Previews preview (handed state newId change) user.1 ↔
        simulated people holderChange user.1 = handedDelta state newId change user.1 := by
    rw [previews_iff,lists user.1 (names_of_mem listed)]
  by_cases holder : change.kind = .bundleAssigned ∧ holds state change.userId change.bundleId = true
  · obtain ⟨kind,already⟩ := holder
    obtain ⟨others,own⟩ := simulated_holder kind simulation
    constructor
    · rintro agrees - - ⟨user,listed,isUser⟩
      have same := (compared user listed).mp (agrees user listed)
      rw [handedDelta_holder kind already,isUser] at same
      exact own.mp same
    intro covered user listed
    rw [compared user listed,handedDelta_holder kind already]
    by_cases isUser : user.1 = change.userId
    · rw [isUser]
      exact own.mpr (covered kind already ⟨user,listed,isUser⟩)
    · exact others user.1 isUser
  · constructor
    · intro _ kind already
      exact absurd ⟨kind,already⟩ holder
    intro _ user listed
    rw [compared user listed]
    refine (handedDelta_simulated simulation done (fun kind => ?_)).symm
    exact Bool.eq_false_iff.mpr fun already => holder ⟨kind,already⟩

namespace Club

def entry : Role := ⟨"doors","entry"⟩

def laser : Role := ⟨"shop","laser"⟩

theorem one_assigned : ([⟨"ada","club","club-1"⟩] : List Assignment).map
    (fun held => (held.userId, held.bundleId)) |>.Nodup :=
  nodup_singleton _

def state : AccessState :=
  { outbox := Outbox.empty, zitadel := fun _ => true, now := 0
    records :=
      { Records.empty with
        bundles := [⟨"club",false,[]⟩]
        versions := [⟨"club-1","club",1,[entry],[]⟩,⟨"club-2","club",2,[entry,laser],[]⟩]
        assignments := [⟨"ada","club","club-1"⟩]
        rules := [⟨"r1","doors","entry","wiki","reader"⟩], assignmentsDistinct := one_assigned
        rulesDistinct := nodup_singleton _ } }

def reads : InsightsReads :=
  { users := [("ada", "Ada"),("bob", "Bob")], readAt := none, compare := compare }

def edited : InsightsWhatIfChange :=
  { kind := .ruleAdded, bundleId := "", projectId := "doors", roleKey := "entry", ruleId := "r1"
    targetProjectId := "wiki", targetRoleKey := "writer", userId := "" }

def assigned : InsightsWhatIfChange :=
  { kind := .bundleAssigned, bundleId := "club", projectId := "", roleKey := "", ruleId := ""
    targetProjectId := "", targetRoleKey := "", userId := "ada" }

theorem whatIf_previews_edited : ∃ preview next, insightsWhatIf reads state edited = .ok preview ∧
      realChange none state "" edited = some (.ok next) ∧
      preview.gains = [⟨"ada","Ada",[⟨"wiki","writer"⟩]⟩] ∧
      preview.losses = [⟨"ada","Ada",[⟨"wiki","reader"⟩]⟩] ∧
      ∀ user ∈ reads.users, Previews preview (handed state "" edited) user.1 := by
  have answers : (insightsWhatIf reads state edited).toOption.any (fun preview => decide
      (preview.gains = [⟨"ada","Ada",[⟨"wiki","writer"⟩]⟩] ∧
        preview.losses = [⟨"ada","Ada",[⟨"wiki","reader"⟩]⟩])) = true := by
    decide +kernel
  have runs : (cascadeRuleUpdated none state (edited.rule "r1")).toOption.isSome = true := by
    decide +kernel
  obtain ⟨preview,isPreview,facts⟩ := (Option.any_eq_true _ _).mp answers
  obtain ⟨next,isNext⟩ := Option.isSome_iff_exists.mp runs
  have facts := of_decide_eq_true facts
  have answered := ok_of_toOption isPreview
  have done : realChange none state "" edited = some (.ok next) :=
    congrArg some (ok_of_toOption isNext)
  refine ⟨preview,next,answered,done,facts.1,facts.2,?_⟩
  exact (whatIf_previews_iff answered done).2.mpr nofun

/-- The preview promises the member the laser, and assigning the club changes nothing. -/
theorem holder_promised : ∃ preview, insightsWhatIf reads state assigned = .ok preview ∧
      realChange none state "" assigned = some (.ok state) ∧
      listedRoles preview.gains "ada" = [laser] ∧ handed state "" assigned = [] ∧
      ¬ Previews preview (handed state "" assigned) "ada" := by
  have answers : (insightsWhatIf reads state assigned).toOption.any (fun preview =>
      decide (listedRoles preview.gains "ada" = [laser])) = true := by
    decide +kernel
  obtain ⟨preview,isPreview,promised⟩ := (Option.any_eq_true _ _).mp answers
  have promised := of_decide_eq_true promised
  have nothing : handed state "" assigned = [] := by decide +kernel
  refine ⟨preview,ok_of_toOption isPreview,rfl,promised,nothing,fun agrees => ?_⟩
  have same := agrees.gained
  rw [promised] at same
  cases same

end Club

end Syndra.Insights
