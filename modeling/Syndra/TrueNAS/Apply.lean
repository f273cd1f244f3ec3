/-
The convergence of one subject's account.

An apply carries a resolved desired state and the fingerprint its plan was made against.
-/

import Syndra.TrueNAS.Desired

namespace Syndra.TrueNAS

open Foundation.Programs Foundation.Text

structure ApplyRequest where
  subject : String
  email : String
  fingerprint : String
  desired : List (String × RawValue)
deriving DecidableEq

inductive Effect where
  | applied
  | noChange
  | blocked
  | apply
deriving DecidableEq

structure ApplyOutcome where
  subject : String
  effect : Effect
  detail : String
  consequence : String
  username : String
  uid : Int
  fingerprint : String
  observed : List (String × RawValue)
  unverified : Bool
  conflict : Option BindingConflict
deriving DecidableEq

def ApplyOutcome.of (subject : String) (effect : Effect) (detail consequence : String) :
    ApplyOutcome :=
  { subject := subject, effect := effect, detail := detail, consequence := consequence
    username := "", uid := 0, fingerprint := "", observed := [], unverified := false
    conflict := none }

structure ApplyReply where
  status : Nat
  result : Except Failure ApplyOutcome

def ApplyReply.failed (status : Nat) (failure : Failure) : ApplyReply :=
  { status := status, result := .error failure }

def ApplyReply.ok (outcome : ApplyOutcome) : ApplyReply :=
  { status := 200, result := .ok outcome }

def smbWaiting (current : Subject) : String :=
  if current.passwordSet then
    "Waiting for " ++ current.username ++ " to set their password again: TrueNAS switches SMB" ++
      " on only together with a new password."
  else "Waiting for " ++ current.username ++ " to set a password before SMB can be enabled."

def entitlementState (subject : Subject) : List (String × RawValue) :=
  [(fieldGroup, .strings (sortStrings subject.groups)),(fieldEnabled, .boolean subject.enabled),
    (fieldSMBEnabled, .boolean subject.smbEnabled),
    (fieldHome, .strings (if subject.home = "" then [] else ["true"]))]

def observedFields (desired : DesiredState) (subject : Subject) : List (String × RawValue) :=
  (entitlementState subject).filter fun entry => desired.manages entry.1

def describeHolding (subject : Subject) : String :=
  if !subject.enabled then
    "The account is disabled and reaches nothing until it is enabled again."
  else if subject.groups = [] then
    "The account is enabled and in no managed group, so it reaches nothing."
  else "Reaches " ++ String.intercalate ", " subject.groups ++ "."

def describeChange (update : UserUpdate) (groupNames : List String) : String :=
  let groups :=
    if update.groups.isNone then []
    else if groupNames = [] then ["removed from every managed group"]
    else ["groups set to " ++ String.intercalate ", " groupNames]
  let lock := update.locked.toList.map fun locked =>
    if locked then "account disabled" else "account enabled"
  let smb := update.smb.toList.map fun smb => if smb then "SMB enabled" else "SMB disabled"
  match groups ++ lock ++ smb with
  | [] => ""
  | parts => String.intercalate "; " parts ++ "."

def withNotes (base : String) (notes : List String) : String :=
  trimSpace (notes.foldl (fun text note => if note = "" then text else text ++ " " ++ note) base)

def builtinGroupRefused (server : Server) (name : String) : Failure :=
  badField (server.quoted name ++ " is a built-in group, which Syndra does not manage")

def noGroupNamed (server : Server) (name : String) : Failure :=
  badField ("this target has no group named " ++ server.quoted name)

def groupID (server : Server) (groups : List NasGroup) (name : String) : Except Failure ApiID :=
  if isBuiltinGroup groups name then .error (builtinGroupRefused server name)
  else
    match groupRecord groups name with
    | none => .error (noGroupNamed server name)
    | some id => .ok id

def groupIDsFor (server : Server) (names : List String) : Call (Except Failure (List ApiID)) := do
  if names = [] then return .ok []
  else
    match ← readGroups with
    | .error failure => return .error failure
    | .ok groups => return names.mapM (groupID server groups)

def groupWrite (server : Server) (names : Option (List String)) (kept : List ApiID) :
    Call (Except Failure (Option (List ApiID))) :=
  match names with
  | none => .done (.ok none)
  | some names => do
      match ← groupIDsFor server names with
      | .error failure => return .error failure
      | .ok ids => return .ok (some (ids ++ kept))

def updateOf (change : Change) (groups : Option (List ApiID)) : UserUpdate :=
  { groups := groups
    locked := change.locked
    smb := if change.smbOff then some false else none
    home := if change.home.path = "" then none else some change.home.path
    password := none
    passwordDisabled := none }

def notReadBack (username : String) : Failure :=
  { kind := .targetRefused
    text := "the target refused the call: " ++ username ++
      " is not on the target after being created" }

def readBack (username : String) : Call (Except Failure Subject) := do
  match ← subjectWhere (.username username) with
  | .error failure => return .error failure
  | .ok (none, _) => return .error (notReadBack username)
  | .ok (some found, _) => return .ok found

/-- No `user.update` to make: the limit may still be owed, and SMB still waited for. -/
def convergeUnwritten (server : Server) (subject : String) (desired : DesiredState)
    (current : Subject) (change : Change) : Call ApplyReply := do
  match ← convergeQuota server desired current.home current.uid with
  | .error failure => return .failed (statusFor failure) failure
  | .ok quota =>
    let outcome (effect : Effect) (detail consequence : String) : ApplyReply :=
      .ok { ApplyOutcome.of subject effect detail consequence with
        username := current.username
        uid := current.uid
        fingerprint := fingerprintSubject server (some current) }
    if quota ≠ "" then
      let notes := if change.smbPending then [change.home.note,smbWaiting current]
        else [change.home.note]
      return outcome .applied (withNotes quota notes) ""
    else if change.smbPending then
      return outcome .noChange (withNotes (smbWaiting current) [change.home.note])
        ("The account exists and is otherwise converged. TrueNAS switches SMB on " ++
          "only in the call that sets a password, so this completes itself when the member" ++
          " sets one.")
    else
      return outcome .noChange
        (withNotes "Already in the requested state." [change.home.note]) ""

def unverifiedOutcome (subject : String) (desired : DesiredState) (current : Subject)
    (update : UserUpdate) : ApplyOutcome :=
  { ApplyOutcome.of subject .applied
      (describeChange update desired.groups ++ " The account could not be read back" ++
        " afterwards, so what the target now holds has not been confirmed.")
      ("The change was written to " ++ current.username ++ " and the account could not be" ++
        " read back, so what the target now holds has not been confirmed. The next plan" ++
        " reads it fresh.") with
    username := current.username
    uid := current.uid
    unverified := true }

def quotaOrExcuse : Except Failure String → String
  | .ok words => words
  | .error failure => "The home folder limit could not be set yet: " ++ failure.text ++ "."

def convergeWritten (server : Server) (subject : String) (desired : DesiredState)
    (current : Subject) (change : Change) (update : UserUpdate) : Call ApplyReply := do
  match ← readBack current.username with
  | .error _ => return .ok (unverifiedOutcome subject desired current update)
  | .ok applied =>
    let homeAfter := if change.home.path = "" then current.home else change.home.path
    let quota := quotaOrExcuse (← convergeQuota server desired homeAfter current.uid)
    let made := if change.home.path = "" then []
      else ["Home folder created at " ++ change.home.path ++ "."]
    let detail := withNotes (describeChange update desired.groups)
      (change.home.note :: made ++ [quota])
    return .ok { ApplyOutcome.of subject .applied
        (if change.smbPending then detail ++ " " ++ smbWaiting current else detail)
        (describeHolding applied) with
      username := applied.username
      uid := applied.uid
      fingerprint := fingerprintSubject server (some applied)
      observed := observedFields desired applied }

def converge (server : Server) (subject : String) (desired : DesiredState) (current : Subject) :
    Call ApplyReply := do
  let wanted := decideChange (some current) desired .nothing
  match ← groupWrite server wanted.groups current.builtinGroups with
  | .error failure => return .failed 422 failure
  | .ok groups =>
    match ← decideHome desired current.username current.home current.uid with
    | .error failure => return .failed (statusFor failure) failure
    | .ok home =>
      let change := { wanted with home := home }
      if !change.writes then convergeUnwritten server subject desired current change
      else
        let update := updateOf change groups
        .ask (.userUpdate current.id update) fun answer =>
          match answer with
          | .error failure => .done (.failed (statusFor failure) failure)
          | .ok () => convergeWritten server subject desired current change update

def highestOf (first second : Option Int) : Int :=
  max (first.getD 0) (second.getD 0)

def nextIdentity (server : Server) : Call (Except Failure Int) :=
  .ask (.highestUid server.floor server.ceiling) fun answer =>
    match answer with
    | .error failure => .done (.error (failure.wrap "read the highest uid in range: "))
    | .ok users =>
      .ask (.highestGid server.floor server.ceiling) fun answer =>
        match answer with
        | .error failure => .done (.error (failure.wrap "read the highest gid in range: "))
        | .ok groups =>
          .ask (.claimID server.floor server.ceiling (highestOf users groups)) .done

def emptyGroupNamed (server : Server) (name : String) : Call (Option (ApiID × Int)) :=
  .ask (.groupNamed name) fun answer =>
    match answer with
    | .ok [found] =>
      if !found.group.builtin && found.users = [] && found.group.id.isSome &&
          server.owns found.group.gid then
        .done (some (found.group.id, found.group.gid))
      else .done none
    | _ => .done none

def undoGroup (id : ApiID) : Call Unit :=
  if id.isNone then .done () else .ask (.groupDelete id) fun _ => .done ()

structure PersonalGroup where
  id : ApiID
  number : Int
  adopted : Bool
deriving DecidableEq

def personalGroup (server : Server) (name : String) (number : Int) :
    Call (Except Failure PersonalGroup) :=
  .ask (.groupCreate name number) fun answer =>
    match answer with
    | .ok id => .done (.ok { id := id, number := number, adopted := false })
    | .error failure => do
        match ← emptyGroupNamed server name with
        | none => return .error (failure.wrap ("make " ++ name ++ "'s personal group: "))
        | some (id, gid) => return .ok { id := id, number := gid, adopted := true }

def createOf (change : Change) (username : String) (groups : Option (List ApiID))
    (group : PersonalGroup) (home : HomeDecision) : UserCreate :=
  { username := username
    fullName := username
    shell := "/usr/sbin/nologin"
    passwordDisabled := true
    smb := false
    locked := change.locked.getD false
    groups := groups
    uid := group.number
    group := group.id
    home := if home.path = "" then none else some home.path }

def bindIfFree (binding : Binding) : Call (Except Failure Unit) :=
  .ask (.bindIfFree binding) .done

def createdUid (created : Except Failure Subject) (number : Int) : Int :=
  match created with
  | .ok found => found.uid
  | .error _ => number

def reportCreated (server : Server) (subject : String) (desired : DesiredState)
    (username : String) (home : HomeDecision) : Except Failure Subject → Call ApplyReply
  | .error failure =>
    return .failed (statusFor failure) (failure.wrap ("account " ++ username ++
      " was created and could not be read back: "))
  | .ok found => do
      let quota := quotaOrExcuse (← convergeQuota server desired home.path found.uid)
      let made := if home.path = "" then ""
        else " Home folder created at " ++ home.path ++ "."
      let limit := if quota = "" then "" else " " ++ quota
      let note := if home.note = "" then "" else " " ++ home.note
      return .ok { ApplyOutcome.of subject .applied
          ("Created " ++ username ++ "." ++ made ++ limit ++ note)
          (describeHolding found) with
        username := username
        uid := found.uid
        fingerprint := fingerprintSubject server (some found)
        observed := observedFields desired found }

/-- The account is there: record whose it is, whether it could be read back or not. -/
def bindCreated (server : Server) (subject : String) (desired : DesiredState)
    (binding : Binding) (number : Int) (home : HomeDecision)
    (created : Except Failure Subject) : Call ApplyReply := do
  match ← bindIfFree
      { binding with subjectId := subject, uid := createdUid created number
                     boundBy := "apply" } with
  | .error failure =>
    return .failed 500 (failure.wrap ("account " ++ binding.username ++
      " was created and its binding could not be recorded: "))
  | .ok () => reportCreated server subject desired binding.username home created

def undoUnlessAdopted (group : PersonalGroup) : Call Unit :=
  if group.adopted then .done () else undoGroup group.id

def createAndConverge (server : Server) (subject : String) (desired : DesiredState)
    (binding : Binding) : Call ApplyReply := do
  if !validUsername binding.username then
    return .failed 422 (badField ("derived name " ++ server.quoted binding.username ++
      " is not valid on this target"))
  else
    let change := decideChange none desired .nothing
    match ← groupWrite server change.groups [] with
    | .error failure => return .failed 422 failure
    | .ok groups =>
      match ← nextIdentity server with
      | .error failure => return .failed (statusFor failure) failure
      | .ok number =>
        match ← personalGroup server binding.username number with
        | .error failure => return .failed (statusFor failure) failure
        | .ok group =>
          match ← decideHome desired binding.username "" (-1) with
          | .error failure =>
            undoUnlessAdopted group
            return .failed (statusFor failure) failure
          | .ok home =>
            .ask (.userCreate (createOf change binding.username groups group home))
              fun answer =>
                match answer with
                | .error failure => do
                    undoUnlessAdopted group
                    return .failed (statusFor failure) failure
                | .ok _ => do
                    let created ← readBack binding.username
                    bindCreated server subject desired binding group.number home created

def rememberWantedSMB (subject : String) (desired : DesiredState) (reply : ApplyReply) :
    Call Unit := do
  match reply.result with
  | .error _ => return ()
  | .ok _ =>
    if !desired.manages fieldSMBEnabled then return ()
    else
      match ← getBinding subject with
      | .ok (some binding) =>
        let _ ← putBinding { binding with wantsSMB := some desired.smbEnabled }
        return ()
      | _ => return ()

def staleFingerprint (subject : String) : Failure :=
  { kind := .staleFingerprint
    text := "the subject's state on the target has changed since the plan: " ++ subject }

def blocked (status : Nat) (outcome : ApplyOutcome) : ApplyReply :=
  { status := status, result := .ok outcome }

def noIdentityOutcome (subject : String) : ApplyOutcome :=
  .of subject .blocked
    "This subject has no account here and the call carried no identity to derive a name from."
    "Nothing was changed."

def conflictOutcome (subject : String) (conflict : BindingConflict) : ApplyOutcome :=
  { ApplyOutcome.of subject .blocked
      ("An account named " ++ conflict.username ++ " already exists and is not bound to anyone.")
      "Nothing was changed. Adopt it, or create under a suffixed name." with
    username := conflict.username
    conflict := some conflict }

def truncatedDetail : String :=
  "The account list was longer than one read returns, so this subject's absence from it" ++
    " proves nothing."

def applyTo (server : Server) (req : ApplyRequest) (desired : DesiredState) :
    Located → Call ApplyReply
  | .conflict conflict => .done (blocked 409 (conflictOutcome req.subject conflict))
  | .found current _ => do
      if req.fingerprint ≠ fingerprintSubject server (some current) then
        return .failed 409 (staleFingerprint req.subject)
      else
        let reply ← converge server req.subject desired current
        rememberWantedSMB req.subject desired reply
        return reply
  | .absent binding truncated => do
      if req.fingerprint ≠ fingerprintSubject server none then
        return .failed 409 (staleFingerprint req.subject)
      else if truncated then
        return blocked 409 (.of req.subject .blocked truncatedDetail "Nothing was changed.")
      else
        let reply ← createAndConverge server req.subject desired binding
        rememberWantedSMB req.subject desired reply
        return reply

def applyOne (server : Server) (req : ApplyRequest) : Call ApplyReply := do
  match ← decodeDesired server req.desired with
  | .error failure => return .failed 400 failure
  | .ok desired =>
    match ← locate server req.subject req.email with
    | .error failure =>
      if failure.kind = .noIdentityToDeriveFrom then
        return blocked 422 (noIdentityOutcome req.subject)
      else return .failed 502 failure
    | .ok located => applyTo server req desired located

end Syndra.TrueNAS
