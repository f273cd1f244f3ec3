/-
Planning: what an apply would do to each subject, with nothing written.

One read of the target serves the whole request.
-/

import Syndra.TrueNAS.Apply

namespace Syndra.TrueNAS

open Foundation.Programs Foundation.Text

structure PlanSubject where
  subject : String
  email : String
  desired : List (String × RawValue)
deriving DecidableEq

def Snapshot.byName (snapshot : Snapshot) (name : String) : Option Subject :=
  (snapshot.subjects.filter fun subject => subject.username = name).getLast?

inductive Planned where
  | blocked (outcome : ApplyOutcome)
  | create (name : String) (desired : DesiredState)
  | converge (current : Subject) (desired : DesiredState) (change : Change) (quota : QuotaOwed)
deriving DecidableEq

def blockedPlan (subject detail : String) : ApplyOutcome := .of subject .blocked detail ""

def conflictPlan (server : Server) (subject name : String) (existing : Subject)
    (claimed : List (String × String)) : ApplyOutcome :=
  let owner := (claimant claimed name).getD ""
  { ApplyOutcome.of subject .blocked
      ("An account named " ++ name ++ " already exists and is not bound to anyone.")
      "Nothing would change. Adopt it, or create under a suffixed name." with
    username := name
    fingerprint := fingerprintSubject server (some existing)
    conflict := some
      { username := name, uid := existing.uid, adoptable := owner = "", boundTo := owner } }

def truncatedPlan (server : Server) (subject : String) : ApplyOutcome :=
  { ApplyOutcome.of subject .blocked truncatedDetail "Nothing would change." with
    fingerprint := fingerprintSubject server none }

def unreadHomePlan (server : Server) (subject : String) (current : Subject) (failure : Failure) :
    ApplyOutcome :=
  { ApplyOutcome.of subject .blocked
      ("Where the home folder would go could not be read: " ++ failure.text ++ ".")
      "Nothing would change." with
    username := current.username
    fingerprint := fingerprintSubject server (some current) }

/-- The plan for an account that is there. A limit that cannot be read is not planned. -/
def planConverge (server : Server) (subject : String) (desired : DesiredState)
    (current : Subject) : Call Planned := do
  match ← decideHome desired current.username current.home current.uid with
  | .error failure => return .blocked (unreadHomePlan server subject current failure)
  | .ok home =>
    let change := decideChange (some current) desired home
    match ← quotaOwed desired (change.applyTo current).home current.uid with
    | .error _ => return .converge current desired change .nothing
    | .ok quota => return .converge current desired change quota

/-- The plan once the name is known: an absence read out of a cut list is none. -/
def planNamed (server : Server) (subject name : String) (desired : DesiredState)
    (snapshot : Snapshot) : Option Subject → Call Planned
  | some current => planConverge server subject desired current
  | none =>
    if snapshot.truncated then .done (.blocked (truncatedPlan server subject))
    else .done (.create name desired)

def planDecide (server : Server) (req : PlanSubject) (snapshot : Snapshot)
    (claimed : List (String × String)) : Call Planned := do
  match ← decodeDesired server req.desired with
  | .error failure => return .blocked (blockedPlan req.subject failure.text)
  | .ok desired =>
    match ← getBinding req.subject with
    | .error _ =>
      return .blocked (blockedPlan req.subject "The local binding store could not be read.")
    | .ok (some binding) =>
      planNamed server req.subject binding.username desired snapshot
        (snapshot.byName binding.username)
    | .ok none =>
      let name := deriveUsername server req.email req.subject
        (claimedByOther claimed req.subject)
      match snapshot.byName name with
      | some existing =>
        return .blocked (conflictPlan server req.subject name existing claimed)
      | none => planNamed server req.subject name desired snapshot none

/-- The state a new account would be left in. Whether the folder is free is the
apply's read to make. -/
def projected (desired : DesiredState) (username : String) : Subject :=
  let blank : Subject :=
    { id := none, username := username, uid := 0, groups := [], home := "", enabled := true
      smbEnabled := false, passwordSet := false, builtinGroups := [] }
  let out := (decideChange none desired .nothing).applyTo blank
  if desired.asksHome && desired.homeRoot ≠ "" then
    { out with home := joinPath desired.homeRoot username }
  else out

def gained (before after : List String) : List String := after.filter fun name => name ∉ before

def lost (before after : List String) : List String := before.filter fun name => name ∉ after

def capitalized (text : String) : String :=
  match text.toList with
  | [] => ""
  | first :: rest => String.ofList (first.toUpper :: rest)

def describePlannedChange (before after : Subject) : String :=
  let home :=
    if after.home ≠ before.home && after.home ≠ "" then
      ["gets a home folder at " ++ after.home]
    else []
  let groups :=
    if sameSet before.groups after.groups then []
    else
      (if gained before.groups after.groups = [] then []
        else ["joins " ++ String.intercalate ", " (gained before.groups after.groups)]) ++
      (if lost before.groups after.groups = [] then []
        else ["leaves " ++ String.intercalate ", " (lost before.groups after.groups)])
  let lock :=
    if before.enabled = after.enabled then []
    else if after.enabled then ["account enabled"] else ["account disabled"]
  let smb :=
    if before.smbEnabled = after.smbEnabled then []
    else if after.smbEnabled then ["SMB enabled"] else ["SMB disabled"]
  match home ++ groups ++ lock ++ smb with
  | [] => "No change."
  | first :: rest => capitalized first ++ String.join (rest.map ("; " ++ ·)) ++ "."

def createPlan (server : Server) (subject name : String) (desired : DesiredState) : ApplyOutcome :=
  { ApplyOutcome.of subject .apply ("Creates " ++ name ++ ".")
      (describeHolding (projected desired name)) with
    username := name
    fingerprint := fingerprintSubject server none }

def convergePlan (server : Server) (subject : String) (current : Subject) (desired : DesiredState)
    (change : Change) (quota : QuotaOwed) : ApplyOutcome :=
  let after := change.applyTo current
  let outcome (effect : Effect) (detail : String) (holding : Subject) : ApplyOutcome :=
    { ApplyOutcome.of subject effect detail (describeHolding holding) with
      username := current.username
      fingerprint := fingerprintSubject server (some current) }
  if !change.writes && !quota.owed then
    let waits := desired.manages fieldSMBEnabled && desired.smbEnabled && !current.smbEnabled
    let detail := if waits then smbWaiting current else "Already in the requested state."
    outcome .noChange
      (if change.home.note = "" then detail else detail ++ " " ++ change.home.note) current
  else
    let detail := if change.writes then describePlannedChange current after else ""
    outcome .apply
      (if quota.owed then trimSpace (detail ++ " " ++ quotaWords server quota.want) else detail)
      after

def Planned.outcome (server : Server) (subject : String) : Planned → ApplyOutcome
  | .blocked outcome => outcome
  | .create name desired => createPlan server subject name desired
  | .converge current desired change quota =>
    convergePlan server subject current desired change quota

def planOne (server : Server) (req : PlanSubject) (snapshot : Snapshot)
    (claimed : List (String × String)) : Call ApplyOutcome := do
  let planned ← planDecide server req snapshot claimed
  return planned.outcome server req.subject

structure PlanResponse where
  outcomes : List ApplyOutcome
  /-- Planned against a live read, not the mirror. -/
  current : Bool
  truncated : Bool
deriving DecidableEq

inductive PlanReply where
  | scopeAcknowledgementRequired (subjects : Nat)
  | targetUnreadable (status : Nat) (failure : Failure)
  | storeUnreadable
  | planned (response : PlanResponse)

def perRequestSubjectCap : Nat := 200

def planAll (server : Server) (snapshot : Snapshot) (claimed : List (String × String)) :
    List PlanSubject → Call (List ApplyOutcome)
  | [] => .done []
  | req :: rest => do
      let outcome ← planOne server req snapshot claimed
      let later ← planAll server snapshot claimed rest
      return outcome :: later

def planAgainst (server : Server) (subjects : List PlanSubject) (snapshot : Snapshot)
    (current : Bool) : Call PlanReply := do
  match ← boundUsernames with
  | .error _ => return .storeUnreadable
  | .ok claimed =>
    let outcomes ← planAll server snapshot claimed subjects
    return .planned
      { outcomes := outcomes, current := current, truncated := snapshot.truncated }

def handlePlan (server : Server) (mirror : Option Snapshot) (subjects : List PlanSubject)
    (acknowledged : Bool) : Call PlanReply := do
  if subjects.length > perRequestSubjectCap && !acknowledged then
    return .scopeAcknowledgementRequired subjects.length
  else
    match ← readSubjects with
    | .ok snapshot => planAgainst server subjects snapshot true
    | .error failure =>
      match mirror with
      | none => return .targetUnreadable (statusFor failure) failure
      | some snapshot => planAgainst server subjects snapshot false

end Syndra.TrueNAS
