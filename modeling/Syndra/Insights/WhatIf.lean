/-
The what-if preview and the change it previews.

A hypothetical names a rule, a bundle or one person's bundle. The preview simulates it for
everybody it reaches, in one read snapshot, and lists what each person in the directory
would gain and lose.
-/

import Syndra.Bundles.Drafts
import Syndra.Ledger.Effects

namespace Syndra.Insights

open Access Propagation Ledger Bundles

inductive WhatIfKind where
  | bundleGivesAlso
  | bundleGivesNot
  | bundleGone
  | ruleGone
  | ruleAdded
  | bundleAssigned
  | bundleUnassigned
deriving DecidableEq

def WhatIfKind.name : WhatIfKind → String
  | .bundleGivesAlso => "bundle_gives_also"
  | .bundleGivesNot => "bundle_gives_not"
  | .bundleGone => "bundle_gone"
  | .ruleGone => "rule_gone"
  | .ruleAdded => "rule_added"
  | .bundleAssigned => "bundle_assigned"
  | .bundleUnassigned => "bundle_unassigned"

structure InsightsWhatIfChange where
  kind : WhatIfKind
  bundleId : String
  projectId : String
  roleKey : String
  ruleId : String
  targetProjectId : String
  targetRoleKey : String
  userId : String
deriving DecidableEq

structure InsightWhatIfPerson where
  userId : String
  name : String
  roles : List Role
deriving DecidableEq

structure InsightsWhatIf where
  change : InsightsWhatIfChange
  gains : List InsightWhatIfPerson
  losses : List InsightWhatIfPerson
  unchanged : Nat
  readAt : Option Time
deriving DecidableEq

inductive WhatIfError where
  | invalid (text : String)
  | notFound (text : String)
  | unpublished
deriving DecidableEq

def whatIfInvalid (field why : String) : WhatIfError :=
  .invalid ("invalid what-if: " ++ field ++ " " ++ why)

def whatIfNotFound (what : String) : WhatIfError :=
  .notFound ("what-if subject not found: no such " ++ what)

/-- `^[A-Za-z0-9._-]{1,255}$`. -/
def insightRefPart (text : String) : Bool :=
  text.toList.all (fun c => c.isAlphanum || c = '.' || c = '_' || c = '-') &&
    1 ≤ text.length && text.length ≤ 255

inductive WhatIfField where
  | bundleId
  | projectId
  | roleKey
  | ruleId
  | targetProjectId
  | targetRoleKey
  | userId
deriving DecidableEq

def WhatIfField.name : WhatIfField → String
  | .bundleId => "bundle_id"
  | .projectId => "project_id"
  | .roleKey => "role_key"
  | .ruleId => "rule_id"
  | .targetProjectId => "target_project_id"
  | .targetRoleKey => "target_role_key"
  | .userId => "user_id"

namespace InsightsWhatIfChange

def value (c : InsightsWhatIfChange) : WhatIfField → String
  | .bundleId => c.bundleId
  | .projectId => c.projectId
  | .roleKey => c.roleKey
  | .ruleId => c.ruleId
  | .targetProjectId => c.targetProjectId
  | .targetRoleKey => c.targetRoleKey
  | .userId => c.userId

def need (c : InsightsWhatIfChange) : List WhatIfField :=
  match c.kind with
  | .bundleGivesAlso => [.bundleId,.projectId,.roleKey]
  | .bundleGivesNot => [.bundleId,.projectId,.roleKey]
  | .bundleGone => [.bundleId]
  | .ruleGone => [.ruleId]
  | .ruleAdded =>
    [.projectId,.roleKey,.targetProjectId,.targetRoleKey] ++
      if c.ruleId ≠ "" then [.ruleId] else []
  | .bundleAssigned => [.bundleId,.userId]
  | .bundleUnassigned => [.bundleId,.userId]

def complaint (c : InsightsWhatIfChange) (field : WhatIfField) : Option WhatIfError :=
  if field ∈ c.need && c.value field = "" then some (whatIfInvalid field.name "is required")
  else if field ∈ c.need && !insightRefPart (c.value field) then
    some (whatIfInvalid field.name "is malformed")
  else if field ∉ c.need && c.value field ≠ "" then
    some (whatIfInvalid field.name ("does not apply to " ++ c.kind.name))
  else none

def validateWhatIf (c : InsightsWhatIfChange) : Option WhatIfError :=
  [WhatIfField.bundleId,.projectId,.roleKey,.ruleId,.targetProjectId,.targetRoleKey,
    .userId].findSome? c.complaint

def rule (c : InsightsWhatIfChange) (id : String) : MappingRule :=
  { id := id
    sourceProject := c.projectId
    sourceRole := c.roleKey
    targetProject := c.targetProjectId
    targetRole := c.targetRoleKey }

end InsightsWhatIfChange

structure InsightsReads where
  users : List (String × String)
  readAt : Option Time
  compare : String → String → Ordering

/-- A later entry of the directory's list replaces an earlier one. -/
def InsightsReads.names (reads : InsightsReads) (userId : String) : Option String :=
  (reads.users.reverse.find? fun user => user.1 = userId).map Prod.snd

section Simulation

variable (state : AccessState) (change : InsightsWhatIfChange)

def ruleActive (ruleId : String) : Bool := state.records.rules.any fun rule => rule.id = ruleId

def bundleInForce (bundleId : String) : Bool :=
  (state.records.bundles.find? fun bundle => bundle.id = bundleId).any fun bundle => !bundle.retired

def getBundleHoldersByVersion (bundleId : String) : List (String × BundleVersion) :=
  ((state.records.assignments.filter fun held => held.bundleId = bundleId).filterMap fun held =>
    (state.records.versions.find? fun version => version.id = held.versionId).map fun version =>
      (held.userId, version)).insertionSort fun first second =>
        second.2.version < first.2.version ||
          first.2.version = second.2.version && first.1 ≤ second.1

def pinnedBundleRoles (userId bundleId : String) : List Role :=
  ((state.records.bundleRolesFor userId).lookup bundleId).getD []

def anIncludeGives (version : BundleVersion) (role : Role) : Bool :=
  version.includes.any fun child => role ∈ state.records.effectiveRoles child.versionId

def withOrWithout (roles : List Role) (role : Role) (add keep : Bool) : List Role :=
  (roles.filter fun other => add || keep || other ≠ role) ++ if add then [role] else []

def closures (before after : List Role) : List Role × List Role :=
  (effectiveClosure before state.records.rules, effectiveClosure after state.records.rules)

def ruleClosures (rules : List MappingRule) (userId : String) : List Role × List Role :=
  (effectiveClosure (state.userBaseHoldings userId) state.records.rules,
    effectiveClosure (state.userBaseHoldings userId) rules)

def withoutRule : List MappingRule :=
  state.records.rules.filter fun rule => rule.id ≠ change.ruleId

def withRule : List MappingRule :=
  (state.records.rules.filter fun rule => rule.id ≠ change.ruleId || change.ruleId = "") ++
    [change.rule ""]

def assignedClosures (userId : String) : Except WhatIfError (List Role × List Role) :=
  match state.records.latestVersion change.bundleId with
  | none => .error .unpublished
  | some version =>
    .ok (closures state (state.userBaseHoldings userId)
      (state.userBaseHoldings userId ++ state.records.effectiveRoles version.id))

def goneClosures (userId : String) : List Role × List Role :=
  closures state (state.userBaseHoldings userId)
    (state.userBaseHoldingsExcludingBundle userId (some change.bundleId))

def givesClosures (add : Bool) (userId : String) : List Role × List Role :=
  let role := Role.mk change.projectId change.roleKey
  let keep := !add && ((getBundleHoldersByVersion state change.bundleId).lookup userId).any
    fun version => anIncludeGives state version role
  closures state (state.userBaseHoldings userId)
    (userBaseHoldingsWithBundleAt state userId change.bundleId
      (withOrWithout (pinnedBundleRoles state userId change.bundleId) role add keep))

abbrev HolderChange : Type := String → Except WhatIfError (List Role × List Role)

def hypothetical : Except WhatIfError (List String × HolderChange) :=
  let holders := (getBundleHoldersByVersion state change.bundleId).map Prod.fst
  match change.kind with
  | .ruleGone =>
    if ruleActive state change.ruleId then
      .ok (state.records.getAllKnownUserIds,
        fun userId => .ok (ruleClosures state (withoutRule state change) userId))
    else .error (whatIfNotFound "rule")
  | .ruleAdded =>
    if change.ruleId ≠ "" && !ruleActive state change.ruleId then .error (whatIfNotFound "rule")
    else
      .ok (state.records.getAllKnownUserIds,
        fun userId => .ok (ruleClosures state (withRule state change) userId))
  | .bundleAssigned =>
    if bundleInForce state change.bundleId then
      .ok ([change.userId], assignedClosures state change)
    else .error (whatIfNotFound "bundle")
  | .bundleUnassigned =>
    if bundleInForce state change.bundleId then
      .ok ([change.userId], fun userId => .ok (goneClosures state change userId))
    else .error (whatIfNotFound "bundle")
  | .bundleGone =>
    if bundleInForce state change.bundleId then
      .ok (holders, fun userId => .ok (goneClosures state change userId))
    else .error (whatIfNotFound "bundle")
  | .bundleGivesAlso =>
    if bundleInForce state change.bundleId then
      .ok (holders, fun userId => .ok (givesClosures state change true userId))
    else .error (whatIfNotFound "bundle")
  | .bundleGivesNot =>
    if bundleInForce state change.bundleId then
      .ok (holders, fun userId => .ok (givesClosures state change false userId))
    else .error (whatIfNotFound "bundle")

end Simulation

/-- One person of the loop. Nobody outside the directory is judged. -/
def judge (names : String → Option String) (holderChange : HolderChange) (out : InsightsWhatIf)
    (userId : String) : Except WhatIfError InsightsWhatIf :=
  match names userId with
  | none => .ok out
  | some name =>
    match holderChange userId with
    | .error failure => .error failure
    | .ok (before, after) =>
      let (adds, revokes) := closureDelta before after
      if adds = [] ∧ revokes = [] then .ok { out with unchanged := out.unchanged + 1 }
      else
        .ok { out with
          gains := if adds = [] then out.gains else out.gains ++ [⟨userId,name,adds⟩]
          losses :=
            if revokes = [] then out.losses else out.losses ++ [⟨userId,name,revokes⟩] }

def InsightsReads.inOrder (reads : InsightsReads) (first second : InsightWhatIfPerson) : Bool :=
  match reads.compare second.name first.name with
  | .lt => false
  | .gt => true
  | .eq => !(second.userId < first.userId)

def sortWhatIfPeople (reads : InsightsReads) (people : List InsightWhatIfPerson) :
    List InsightWhatIfPerson :=
  people.insertionSort fun first second => reads.inOrder first second

def insightsWhatIf (reads : InsightsReads) (state : AccessState) (change : InsightsWhatIfChange) :
    Except WhatIfError InsightsWhatIf :=
  match change.validateWhatIf with
  | some failure => .error failure
  | none =>
    match hypothetical state change with
    | .error failure => .error failure
    | .ok (people, holderChange) =>
      match people.foldlM (judge reads.names holderChange)
          { change := change, gains := [], losses := [], unchanged := 0
            readAt := reads.readAt } with
      | .error failure => .error failure
      | .ok out =>
        .ok { out with
          gains := sortWhatIfPeople reads out.gains
          losses := sortWhatIfPeople reads out.losses }

/-- The change a hypothetical is about. A new rule gets a generated id, and a rule that
replaces another is the edit of that one. What a bundle gives is edited in its working copy
and reaches nobody. -/
def realChange (gate : Option CancelGate) (state : AccessState) (newId : String)
    (change : InsightsWhatIfChange) : Option (Except ChangeError AccessState) :=
  match change.kind with
  | .ruleGone => some (cascadeRuleRetired gate state change.ruleId)
  | .ruleAdded =>
    if change.ruleId = "" then some (cascadeRuleCreated gate state (change.rule newId))
    else some (cascadeRuleUpdated gate state (change.rule change.ruleId))
  | .bundleAssigned => some (cascadeBundleAssignedToUser gate state change.userId change.bundleId)
  | .bundleUnassigned =>
    some (cascadeBundleRemovedFromUser gate state change.userId change.bundleId)
  | .bundleGone => some (cascadeBundleRetired gate state change.bundleId)
  | .bundleGivesAlso => none
  | .bundleGivesNot => none

def holds (state : AccessState) (userId bundleId : String) : Bool :=
  state.records.assignments.any fun held => held.userId = userId && held.bundleId = bundleId

def handed (state : AccessState) (newId : String) (change : InsightsWhatIfChange) :
    List EnqueueParams :=
  match change.kind with
  | .ruleGone => ruleChangeWrites state (withoutRule state change) change.ruleId
  | .ruleAdded =>
    if change.ruleId = "" then
      ruleChangeWrites state (state.records.rules ++ [change.rule ""]) newId
    else
      ruleChangeWrites state (replaceFirst (change.rule change.ruleId) state.records.rules)
        change.ruleId
  | .bundleAssigned =>
    match state.records.latestVersion change.bundleId with
    | none => []
    | some version =>
      if holds state change.userId change.bundleId then []
      else
        deltaWrites change.userId
          (closureDelta
            (effectiveClosure (state.userBaseHoldings change.userId) state.records.rules)
            (effectiveClosure
              (state.userBaseHoldings change.userId ++ state.records.effectiveRoles version.id)
              state.records.rules))
          .bundle change.bundleId
  | .bundleUnassigned => bundleRemovalWrites state change.bundleId change.userId
  | .bundleGone =>
    (state.records.getUsersForBundle change.bundleId).flatMap
      (bundleRemovalWrites state change.bundleId)
  | .bundleGivesAlso => []
  | .bundleGivesNot => []

def listedRoles (entries : List InsightWhatIfPerson) (userId : String) : List Role :=
  (entries.filter fun entry => entry.userId = userId).flatMap InsightWhatIfPerson.roles

def handedRoles (opType : OpType) (params : List EnqueueParams) (userId : String) : List Role :=
  (params.filter fun p => p.userId = userId && p.opType = opType).map roleOf

structure Previews (preview : InsightsWhatIf) (params : List EnqueueParams) (userId : String) :
    Prop where
  gained : listedRoles preview.gains userId = handedRoles .add params userId
  lost : listedRoles preview.losses userId = handedRoles .revoke params userId

def Covered (state : AccessState) (userId bundleId : String) : Prop :=
  ∀ version, state.records.latestVersion bundleId = some version →
    ∀ role ∈ state.records.effectiveRoles version.id,
      role ∈ effectiveClosure (state.userBaseHoldings userId) state.records.rules

end Syndra.Insights
