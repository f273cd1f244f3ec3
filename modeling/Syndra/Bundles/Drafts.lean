/-
Bundles as they are edited, published and moved.

Edits land in a working copy and reach nobody.
-/

import Syndra.Ledger.Changes

namespace Syndra.Ledger.Records

def live (records : Records) (bundleId : String) : Bool :=
  records.bundles.any fun bundle => bundle.id = bundleId && !bundle.retired

def workingIncludes (records : Records) (bundleId : String) : List Include :=
  (records.bundles.filter fun bundle => bundle.id = bundleId).flatMap Bundle.includes

def current (records : Records) (version : BundleVersion) : Bool :=
  (records.latestVersion version.bundleId).any (fun latest =>
      latest.version = version.version) ||
    records.assignments.any fun held => held.versionId = version.id

def includesAnything (records : Records) (bundleId : String) : Bool :=
  records.bundles.any (fun bundle => bundle.id = bundleId && bundle.includes ≠ []) ||
    records.versions.any fun version =>
      version.bundleId = bundleId && version.includes ≠ [] && records.current version

def editIncludes (records : Records) (bundleId : String)
    (edit : List Include → List Include) : Records :=
  { records with
    bundles := records.bundles.map fun bundle =>
      if bundle.id = bundleId then { bundle with includes := edit bundle.includes } else bundle }

def pinnedVersion (records : Records) (childId : String) (childVersion : Int) :
    Option BundleVersion :=
  if childVersion ≤ 0 then records.latestVersion childId
  else records.versions.find? fun version =>
    version.bundleId = childId && (version.version : Int) = childVersion

end Syndra.Ledger.Records

namespace Syndra.Bundles

open Access Propagation Ledger

inductive BundleError where
  | notFound
  | conflict
  | includeSelf
  /-- The bundle in the way, and whether it includes others or is included. -/
  | nesting (bundleId : String) (includes : Bool)
  | nothingToPublish (version : Nat)
  | badAction (bundleId : String)
  | includersUnanswered (bundles : List String)
  | notIncluder (bundleId : String)
  | notOwned (versionId bundleId : String)
  | change (refusal : ChangeError)
deriving DecidableEq

/-- `ON CONFLICT (parent, child) DO UPDATE`. -/
def putInclude (child : Include) (includes : List Include) : List Include :=
  if includes.any fun old => old.bundleId = child.bundleId then
    includes.map fun old => if old.bundleId = child.bundleId then child else old
  else includes ++ [child]

def setWorkingInclude (records : Records) (parentId childId : String) (childVersion : Int) :
    Except BundleError Records :=
  if parentId = childId then .error .includeSelf
  else if !records.live parentId || !records.live childId then .error .notFound
  else if records.includesAnything childId then .error (.nesting childId true)
  else if records.retireBlocked parentId then .error (.nesting parentId false)
  else
    match records.pinnedVersion childId childVersion with
    | none => .error .notFound
    | some version =>
      .ok (records.editIncludes parentId (putInclude ⟨childId,version.id⟩))

def removeWorkingInclude (records : Records) (parentId childId : String) : Records :=
  records.editIncludes parentId (List.filter fun child => child.bundleId ≠ childId)

def includeInFirstVersion (bundleId : String) (records : Records) (childId : String) :
    Except BundleError Records :=
  match setWorkingInclude records bundleId childId 0 with
  | .error refusal => .error refusal
  | .ok next =>
    if next.versions.any fun version => version.bundleId = bundleId && version.version = 1 &&
        version.includes.any fun child => child.bundleId = childId then .error .conflict
    else
      .ok { next with
        versions := next.versions.map fun version =>
          if version.bundleId = bundleId ∧ version.version = 1 then
            { version with
              includes := version.includes ++ (next.workingIncludes bundleId).filter fun child =>
                  child.bundleId = childId }
          else version }

structure Catalog where
  access : AccessState
  working : List (String × Role)

namespace Catalog

def workingRoles (catalog : Catalog) (bundleId : String) : List Role :=
  (catalog.working.filter fun entry => entry.1 = bundleId).map Prod.snd

def withRecords (catalog : Catalog) (records : Records) : Catalog :=
  { catalog with access := { catalog.access with records := records } }

/-- The bundle, its first version and what it includes land together. The ids are
generated ones. -/
def createBundle (catalog : Catalog) (id versionId : String) (roles : List Role)
    (includes : List String) : Except BundleError Catalog :=
  let records := catalog.access.records
  if id ∈ records.bundles.map Bundle.id ∨ versionId ∈ records.versions.map BundleVersion.id then
    .error .conflict
  else
    match includes.foldlM (includeInFirstVersion id)
        { records with
          bundles := records.bundles ++ [{ id := id, retired := false, includes := [] }]
          versions := records.versions ++
            [{ id := versionId, bundleId := id, version := 1, roles := roles.dedup,
               includes := [] }] } with
    | .error refusal => .error refusal
    | .ok next =>
      .ok { catalog.withRecords next with
        working := catalog.working ++ roles.dedup.map fun role => (id, role) }

def addRoleToBundle (catalog : Catalog) (bundleId : String) (role : Role) : Catalog :=
  if (bundleId, role) ∈ catalog.working then catalog
  else { catalog with working := catalog.working ++ [(bundleId, role)] }

def removeRoleFromBundle (catalog : Catalog) (bundleId : String) (role : Role) : Catalog :=
  { catalog with working := catalog.working.filter (· ≠ (bundleId, role)) }

def discardBundleDraft (catalog : Catalog) (bundleId : String) : Except BundleError Catalog :=
  match catalog.access.records.latestVersion bundleId with
  | none => .error .notFound
  | some latest =>
    .ok { catalog.withRecords
        (catalog.access.records.editIncludes bundleId fun _ => latest.includes) with
      working := (catalog.working.filter fun entry => entry.1 ≠ bundleId) ++
        latest.roles.map fun role => (bundleId, role) }

end Catalog

structure IncludeChange where
  childBundleId : String
  fromVersion : Option String
  toVersion : Option String
deriving DecidableEq

structure DraftDiff where
  latestVersion : Nat
  nextVersion : Nat
  working : List Role
  includes : List Include
  workingEffective : List Role
  added : List Role
  removed : List Role
  includeChanges : List IncludeChange
deriving DecidableEq

def DraftDiff.empty (draft : DraftDiff) : Bool :=
  draft.added = [] && draft.removed = [] && draft.includeChanges = []

def diffRoles (prev next : List Role) : List Role × List Role := closureDelta prev next

def diffIncludes (prev next : List Include) : List IncludeChange :=
  (next.filterMap fun child =>
    match prev.find? fun old => old.bundleId = child.bundleId with
    | none => some ⟨child.bundleId,none,some child.versionId⟩
    | some old =>
      if old.versionId ≠ child.versionId then
        some ⟨child.bundleId,some old.versionId,some child.versionId⟩
      else none) ++
  (prev.filter fun old => next.all fun child => child.bundleId ≠ old.bundleId).map fun old =>
    ⟨old.bundleId,some old.versionId,none⟩

def bundleDraft (catalog : Catalog) (bundleId : String) : Except BundleError DraftDiff :=
  let records := catalog.access.records
  match records.latestVersion bundleId with
  | none => .error .notFound
  | some latest =>
    let working := catalog.workingRoles bundleId
    let includes := records.workingIncludes bundleId
    let effective := working ++ includes.flatMap fun child => records.effectiveRoles child.versionId
    let changed := diffRoles (records.effectiveRoles latest.id) effective
    .ok
      { latestVersion := latest.version
        nextVersion := latest.version + 1
        working := working
        includes := includes
        workingEffective := effective
        added := changed.1
        removed := changed.2
        includeChanges := diffIncludes latest.includes includes }

def userBaseHoldingsWithBundleAt (state : AccessState) (userId bundleId : String)
    (roles : List Role) : List Role :=
  (state.userBaseHoldingsExcludingBundle userId (some bundleId) ++ roles).filter fun role =>
    role ∉ queuedRevocationsFor state.outbox state.records.grants userId

def holderDelta (state : AccessState) (userId bundleId : String) (next : List Role)
    (rules : List MappingRule) : List Role × List Role :=
  closureDelta (effectiveClosure (state.userBaseHoldings userId) rules)
    (effectiveClosure (userBaseHoldingsWithBundleAt state userId bundleId next) rules)

def holderWrites (state : AccessState) (bundleId : String) (next : List Role) (userId : String) :
    List EnqueueParams :=
  deltaWrites userId (holderDelta state userId bundleId next state.records.rules) .bundle bundleId

def repinHolders (records : Records) (bundleId versionId : String) (users : List String) :
    Records :=
  { records with
    assignments := records.assignments.map fun held =>
      if held.bundleId = bundleId ∧ held.userId ∈ users then { held with versionId := versionId }
      else held
    assignmentsDistinct := by
      have keys : (records.assignments.map fun held =>
          if held.bundleId = bundleId ∧ held.userId ∈ users then
            { held with versionId := versionId } else held).map
          (fun held => (held.userId, held.bundleId)) =
            records.assignments.map fun held => (held.userId, held.bundleId) := by
        rw [List.map_map]
        apply List.map_congr_left
        intro held _member
        change (fun held : Assignment => (held.userId, held.bundleId))
          (if held.bundleId = bundleId ∧ held.userId ∈ users then
            { held with versionId := versionId } else held) = _
        split <;> rfl
      rw [keys]
      exact records.assignmentsDistinct }

inductive IncluderAction where
  | update
  | leave
  | unknown (name : String)
deriving DecidableEq

structure PublishRequest where
  bundleId : String
  migrate : Bool
  includers : List (String × IncluderAction)
deriving DecidableEq

def listIncluders (records : Records) (childId : String) : List String :=
  (records.bundles.filter fun bundle =>
    !bundle.retired &&
      (bundle.includes.any (fun child => child.bundleId = childId) ||
        (records.latestVersion bundle.id).any fun latest =>
          latest.includes.any fun child => child.bundleId = childId)).map Bundle.id

def checkIncluderChoices (records : Records) (request : PublishRequest) :
    Except BundleError (List String) :=
  let asked (id : String) : Option IncluderAction := request.includers.reverse.lookup id
  let includers := listIncluders records request.bundleId
  match request.includers.find? fun choice => choice.2 ≠ .update && choice.2 ≠ .leave with
  | some choice => .error (.badAction choice.1)
  | none =>
    match includers.filter fun id => asked id = none with
    | id :: rest => .error (.includersUnanswered (id :: rest))
    | [] =>
      match request.includers.find? fun choice => choice.1 ∉ includers with
      | some choice => .error (.notIncluder choice.1)
      | none => .ok (includers.filter fun id => asked id = some .update)

def publishBundleVersion (gate : Option CancelGate) (catalog : Catalog) (versionId : String)
    (request : PublishRequest) : Except BundleError Catalog :=
  let records := catalog.access.records
  match bundleDraft catalog request.bundleId with
  | .error refusal => .error refusal
  | .ok draft =>
    if draft.empty then .error (.nothingToPublish draft.latestVersion)
    else
      match checkIncluderChoices records request with
      | .error refusal => .error refusal
      | .ok parents =>
        if versionId ∈ records.versions.map BundleVersion.id then .error .conflict
        else
          let moved :=
            if request.migrate then records.getUsersForBundle request.bundleId else []
          let published : Records :=
            { records with
              versions := records.versions ++
                [{ id := versionId
                   bundleId := request.bundleId
                   version := draft.nextVersion
                   roles := draft.working
                   includes := draft.includes }] }
          match catalog.access.commit gate
              (repinHolders published request.bundleId versionId moved)
              (moved.flatMap
                (holderWrites catalog.access request.bundleId draft.workingEffective)) with
          | .error refusal => .error (.change refusal)
          | .ok access =>
            match parents.foldlM (fun records parentId =>
                setWorkingInclude records parentId request.bundleId draft.nextVersion)
                access.records with
            | .error refusal => .error refusal
            | .ok next => .ok { catalog with access := { access with records := next } }

def moveHolders (gate : Option CancelGate) (state : AccessState) (bundleId versionId : String)
    (userIds : List String) : Except BundleError AccessState :=
  if state.records.versions.any fun version =>
      version.id = versionId && version.bundleId = bundleId then
    let actionable := userIds.filter fun userId =>
      userId ∈ state.records.getUsersForBundle bundleId
    if actionable = [] then .ok state
    else
      match state.commit gate (repinHolders state.records bundleId versionId actionable)
          (actionable.flatMap
            (holderWrites state bundleId (state.records.effectiveRoles versionId))) with
      | .error refusal => .error (.change refusal)
      | .ok next => .ok next
  else .error (.notOwned versionId bundleId)

inductive Operation where
  | create (id versionId : String) (roles : List Role) (includes : List String)
  | addRole (bundleId : String) (role : Role)
  | removeRole (bundleId : String) (role : Role)
  | setInclude (parentId childId : String) (version : Int)
  | removeInclude (parentId childId : String)
  | discardDraft (bundleId : String)
  | publish (versionId : String) (request : PublishRequest)
  | assign (userId bundleId : String)
  | unassign (userId bundleId : String)
  | move (bundleId versionId : String) (userIds : List String)
  | retire (bundleId : String)
deriving DecidableEq

def accessed (catalog : Catalog) : Except ChangeError AccessState → Except BundleError Catalog
  | .error refusal => .error (.change refusal)
  | .ok access => .ok { catalog with access := access }

def Operation.perform (gate : Option CancelGate) (catalog : Catalog) :
    Operation → Except BundleError Catalog
  | .create id versionId roles includes => catalog.createBundle id versionId roles includes
  | .addRole bundleId role => .ok (catalog.addRoleToBundle bundleId role)
  | .removeRole bundleId role => .ok (catalog.removeRoleFromBundle bundleId role)
  | .setInclude parentId childId version =>
    match setWorkingInclude catalog.access.records parentId childId version with
    | .error refusal => .error refusal
    | .ok records => .ok (catalog.withRecords records)
  | .removeInclude parentId childId =>
    .ok (catalog.withRecords (removeWorkingInclude catalog.access.records parentId childId))
  | .discardDraft bundleId => catalog.discardBundleDraft bundleId
  | .publish versionId request => publishBundleVersion gate catalog versionId request
  | .assign userId bundleId =>
    accessed catalog (cascadeBundleAssignedToUser gate catalog.access userId bundleId)
  | .unassign userId bundleId =>
    accessed catalog (cascadeBundleRemovedFromUser gate catalog.access userId bundleId)
  | .move bundleId versionId userIds =>
    match moveHolders gate catalog.access bundleId versionId userIds with
    | .error refusal => .error refusal
    | .ok access => .ok { catalog with access := access }
  | .retire bundleId => accessed catalog (cascadeBundleRetired gate catalog.access bundleId)

/-- An operation with the cancellations its request confirmed. A refused one changes
nothing. -/
def step (catalog : Catalog) (request : Option CancelGate × Operation) : Option Catalog :=
  (request.2.perform request.1 catalog).toOption

end Syndra.Bundles
