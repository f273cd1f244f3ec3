/-
The access-change planner.

One pure function decides what a bundle assignment or removal does, from one snapshot read
under the access lock: the writes, how each is delivered, the queued changes they cancel, a
refusal when a guard fails, and the words of the plan row.
-/

import Syndra.Foundation.Framing
import Syndra.Foundation.Text
import Syndra.Ledger.Records

namespace Syndra.Planner

open Access Propagation Ledger Foundation.Text

inductive BulkOp where
  | assignRole
  | removeRole
  | assignBundle
  | removeBundle
  | extend
deriving DecidableEq

def BulkOp.name : BulkOp → String
  | .assignRole => "assign_role"
  | .removeRole => "remove_role"
  | .assignBundle => "assign_bundle"
  | .removeBundle => "remove_bundle"
  | .extend => "extend"

inductive Effect where
  | apply
  | noChange
  | blocked
deriving DecidableEq

def Effect.name : Effect → String
  | .apply => "apply"
  | .noChange => "no_change"
  | .blocked => "blocked"

structure Action where
  op : BulkOp
  userId : String
  bundleId : String
deriving DecidableEq

/-- How a write reaches Zitadel: in the same request, held because its role waits
for the operator, or not at all because it only cancels a queued change. -/
inductive WriteDelivery where
  | straightAway
  | waits
  | none
deriving DecidableEq

def WriteDelivery.name : WriteDelivery → String
  | .straightAway => "straight_away"
  | .waits => "waits_for_you"
  | .none => "none"

structure Write extends EnqueueParams where
  delivery : WriteDelivery
  outboxId : Option Nat
deriving DecidableEq

structure BulkOutcome where
  userId : String
  name : String
  email : String
  effect : Effect
  detail : String
  consequence : String
  cancelIds : List Nat
  fingerprint : String
deriving DecidableEq

structure Change where
  userId : String
  writes : List Write
  refusal : String
  cancels : List QueuedChange
  versionId : String
  row : BulkOutcome
deriving DecidableEq

structure RoleWords where
  role : String
  project : String

structure UserProfile where
  name : String
  email : String
  status : String

structure PersonSnapshot extends PersonAccess where
  bundles : String → Bool
  queued : List QueuedChange
  standing : Role → Bool

structure AccessSnapshot where
  people : String → PersonSnapshot
  rules : List MappingRule
  roleWaits : Role → Bool

structure PlanSnapshot where
  bundleName : String
  bundleRetiredAt : Option Time
  versionId : String
  versionRoles : List Role
  catalogue : Role → Option RoleWords
  catalogueUnread : Bool
  profiles : String → Option UserProfile
  access : AccessSnapshot

structure Wording where
  formatDay : Time → String
  describeCancels : List QueuedChange → String
  sha256 : List UInt8 → String

def fingerprint (wording : Wording) (fields : List String) : String :=
  wording.sha256 (Foundation.Framing.frameText fields)

def displayBundle (name : String) : String :=
  if trimSpace name = "" then "this bundle" else "the " ++ name ++ " bundle"

def capitalise (text : String) : String :=
  match text.toList with
  | [] => text
  | first :: rest => String.ofList (first.toUpper :: rest)

def left (status : String) : Bool :=
  toLower (trimSpace status) ∈
    ["inactive","locked","deleted","departed","alumni","deactivated"]

namespace PlanSnapshot

def words (s : PlanSnapshot) (role : Role) : String :=
  match s.catalogue role with
  | none => role.roleKey ++ " in " ++ role.projectId
  | some named =>
    (if named.role = "" then role.roleKey else named.role) ++ " in " ++
      (if named.project = "" then role.projectId else named.project)

def list (s : PlanSnapshot) (roles : List Role) : String :=
  let names := (roles.map s.words).insertionSort fun a b => !(toLower b < toLower a)
  if names.length = 1 then names.headD ""
  else ", ".intercalate names.dropLast ++ " and " ++ names.getLastD ""

def ruleSource (s : PlanSnapshot) (reached : List Role) (role : Role) : String :=
  match s.access.rules.find? fun rule =>
    rule.targetProject = role.projectId && rule.targetRole = role.roleKey &&
      Role.mk rule.sourceProject rule.sourceRole ∈ reached with
  | some rule => s.words (Role.mk rule.sourceProject rule.sourceRole)
  | none => "another role"

end PlanSnapshot

def keysField (roles : List Role) : String :=
  ",".intercalate (roles.map fun role => role.projectId ++ "/" ++ role.roleKey)

structure Draft where
  name : String := ""
  email : String := ""
  versionId : String := ""
  writes : List Write := []
  cancels : List QueuedChange := []

/-- The row and its fingerprint: the decision, the writes and the cancel ids, and
no words. -/
def Draft.decided (wording : Wording) (ch : Draft) (a : Action) (effect : Effect)
    (refusal detail consequence : String) : Change :=
  { userId := a.userId
    writes := ch.writes
    refusal := refusal
    cancels := ch.cancels
    versionId := ch.versionId
    row :=
      { userId := a.userId
        name := ch.name
        email := ch.email
        effect := effect
        detail := detail
        consequence := consequence
        cancelIds := ch.cancels.map QueuedChange.id
        fingerprint := fingerprint wording
          (["planner/1",a.op.name,a.userId,a.bundleId,effect.name,refusal,ch.versionId] ++
            (ch.writes.flatMap fun w =>
              [w.opType.name,w.projectId,w.roleKeys.headD "",(outboxSource w.toEnqueueParams).name,
                w.sourceRef,w.delivery.name]) ++
            "cancels" :: ch.cancels.map fun c => toString c.id) } }

def roleRef (p : EnqueueParams) : Role := Role.mk p.projectId (p.roleKeys.headD "")

def planWrite (s : PlanSnapshot) (person : PersonSnapshot) (p : EnqueueParams) : Write :=
  if answeredBy p person.queued ≠ [] && !owedAfterCancel p (person.standing (roleRef p)) then
    { p with delivery := .none, outboxId := none }
  else if s.access.roleWaits (roleRef p) then
    { p with waitReason := some .roleWaits, delivery := .waits, outboxId := none }
  else { p with delivery := .straightAway, outboxId := none }

def splitByBundle (roles given : List Role) : List Role × List Role :=
  (roles.filter fun role => role ∈ given, roles.filter fun role => role ∉ given)

def joinSentences (s : PlanSnapshot) (closureAfter adds : List Role) : List String :=
  let (own, byRule) := splitByBundle adds s.versionRoles
  (if own ≠ [] then ["Gains " ++ s.list own ++ "."]
    else if byRule = [] then ["Already holds every role it gives, so nothing is sent to Zitadel."]
    else []) ++
  byRule.map fun role =>
    "Also gives " ++ s.words role ++ ", by the automatic rule from " ++
      s.ruleSource closureAfter role ++ "."

def leaveSentences (s : PlanSnapshot) (pinned closureBefore closureAfter revokes : List Role) :
    List String :=
  let (own, byRule) := splitByBundle revokes pinned
  let kept := pinned.filter fun role => role ∈ closureAfter
  (if revokes = [] && pinned = [] then
      ["It gave them no roles, so nothing is sent to Zitadel."]
    else if revokes = [] then
      ["Keeps every role it gave another way, so nothing is sent to Zitadel."]
    else
      (if own ≠ [] then ["Loses " ++ s.list own ++ "."] else []) ++
        (if kept ≠ [] then ["Keeps " ++ s.list kept ++ " another way."] else [])) ++
  byRule.map fun role =>
    "Also loses " ++ s.words role ++ ", which the automatic rule from " ++
      s.ruleSource closureBefore role ++ " gave."

def planDelta (wording : Wording) (a : Action) (s : PlanSnapshot) (draft : Draft)
    (before after : List Role) : Change :=
  let person := s.access.people a.userId
  let bundle := displayBundle s.bundleName
  let closureBefore := effectiveClosure before s.access.rules
  let closureAfter := effectiveClosure after s.access.rules
  let (adds, revokes) := closureDelta closureBefore closureAfter
  let gone := adds.filter fun role => (s.catalogue role).isNone
  if adds ≠ [] && s.catalogueUnread then
    draft.decided wording a .blocked "catalogue_unread"
      ("Syndra couldn't read Zitadel's list of roles to check the ones this gives still exist. " ++
        "Try again shortly.") ""
  else if gone ≠ [] then
    draft.decided wording a .noChange ("not_offered:" ++ keysField gone)
      ("This would give " ++ s.list gone ++ ", which no longer exists in Zitadel.")
      (if gone.headD (Role.mk "" "") ∈ s.versionRoles then
        "Take it out of " ++ bundle ++ " and publish, then give the bundle again."
      else "Retire the automatic rule that gives it, then give the bundle again.")
  else
    let params := deltaWrites a.userId (adds, revokes) .bundle a.bundleId
    let writes := params.map (planWrite s person)
    let cancels := params.flatMap fun p => answeredBy p person.queued
    let waiting := (writes.filter fun w => w.delivery = .waits).map fun w => roleRef w.toEnqueueParams
    let said :=
      (if a.op = BulkOp.assignBundle then joinSentences s closureAfter adds
        else leaveSentences s ((person.byBundle.lookup a.bundleId).getD []) closureBefore closureAfter
          revokes) ++
      (if waiting ≠ [] then
        [(if a.op = BulkOp.removeBundle then "Removing " else "Giving ") ++ s.list waiting ++
          " waits for you to send."]
        else []) ++
      (if wording.describeCancels cancels ≠ "" then [wording.describeCancels cancels] else [])
    { draft with writes := writes, cancels := cancels }.decided wording a .apply ""
      ((if a.op = BulkOp.assignBundle then "Joins " else "Leaves ") ++ bundle ++ ".")
      (" ".intercalate said)

def plan (wording : Wording) (a : Action) (s : PlanSnapshot) : Change :=
  match s.profiles a.userId with
  | none => Draft.decided wording {} a .blocked "absent" "No such account in the directory." ""
  | some profile =>
    let draft : Draft := { name := profile.name, email := profile.email }
    let person := s.access.people a.userId
    let bundle := displayBundle s.bundleName
    let before := baseFrom person.toPersonAccess (some "")
    match a.op with
    | .assignBundle =>
      if left profile.status then
        draft.decided wording a .blocked ("departed:" ++ profile.status)
          ("Account is " ++ toLower profile.status ++
            ". Remove it from the selection to continue.") ""
      else
        match s.bundleRetiredAt with
        | some day =>
          draft.decided wording a .blocked "retired"
            (capitalise bundle ++ " was retired on " ++ wording.formatDay day ++
              ", so nobody can join it.") ""
        | none =>
          if person.bundles a.bundleId then
            draft.decided wording a .noChange "held" ("Already in " ++ bundle ++ ".") ""
          else
            planDelta wording a s { draft with versionId := s.versionId } before
              (before ++ s.versionRoles)
    | .removeBundle =>
      if !person.bundles a.bundleId then
        draft.decided wording a .noChange "not_held" ("Not in " ++ bundle ++ ".") ""
      else
        match s.bundleRetiredAt with
        | some day =>
          draft.decided wording a .blocked "retired"
            (capitalise bundle ++ " was retired on " ++ wording.formatDay day ++
              ", so it can't change.") ""
        | none =>
          planDelta wording a s draft before
            (baseFrom person.toPersonAccess (some a.bundleId))
    | _ => draft.decided wording a .blocked "unsupported" "Unsupported operation." ""

def Change.params (ch : Change) : List EnqueueParams := ch.writes.map Write.toEnqueueParams

def cancellationsNamed (ids : List Nat) : CancelGate :=
  { acked := ids, reviewed := false, asks := true }

inductive WriteError where
  | writtenOtherwise
deriving DecidableEq

def pairRows : List Write → List Nat → Except WriteError (List Write)
  | [], [] => .ok []
  | [], _ :: _ => .error .writtenOtherwise
  | w :: rest, ids =>
    if w.delivery = .none then (pairRows rest ids).map (w :: ·)
    else
      match ids with
      | [] => .error .writtenOtherwise
      | id :: more => (pairRows rest more).map ({ w with outboxId := some id } :: ·)

def Change.written (ch : Change) (ids : List Nat) : Except WriteError Change :=
  (pairRows ch.writes ids).map fun writes => { ch with writes := writes }

end Syndra.Planner
