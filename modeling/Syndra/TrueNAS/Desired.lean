/-
The state a subject should have, and what that asks of an account.

`decideChange` and `decideHome` are the decisions a plan and an apply share. A home
is never moved or removed, and a folder that belongs to another number is never
given to an account.
-/

import Mathlib.Data.List.Sort
import Syndra.TrueNAS.Accounts

namespace Syndra.TrueNAS

open Foundation.Programs Foundation.Text

def fieldGroup : String := "group"
def fieldEnabled : String := "enabled"
def fieldSMBEnabled : String := "smb_enabled"
def fieldHome : String := "home"
def fieldHomeQuota : String := "home_quota"

/-- A JSON value as far as the fields tell values apart. -/
inductive RawValue where
  | null
  | boolean (value : Bool)
  | strings (items : List String)
  | other
deriving DecidableEq

/-- A null leaves the zero value and is no error. -/
def RawValue.asStrings : RawValue → Option (List String)
  | .null => some []
  | .strings items => some items
  | _ => none

def RawValue.asBool : RawValue → Option Bool
  | .null => some false
  | .boolean value => some value
  | _ => none

structure DesiredState where
  groups : List String
  enabled : Bool
  smbEnabled : Bool
  wantsHome : Bool
  homeRoot : String
  homeQuota : Int
  homeUnlimited : Bool
  managed : List String
deriving DecidableEq

def DesiredState.manages (desired : DesiredState) (field : String) : Bool :=
  field ∈ desired.managed

def DesiredState.empty : DesiredState :=
  { groups := [], enabled := false, smbEnabled := false, wantsHome := false, homeRoot := ""
    homeQuota := 0, homeUnlimited := false, managed := [] }

def sortStrings (texts : List String) : List String := texts.insertionSort (· ≤ ·)

def badField (text : String) : Failure :=
  { kind := .other
    text := text }

def decodeLimit (server : Server) (desired : DesiredState) (limit : String) :
    Except Failure DesiredState :=
  match (parseInt (trimSpace limit)).filter (0 ≤ ·) with
  | none =>
    .error (badField ("field " ++ server.quoted fieldHomeQuota ++ ": " ++
      server.quoted limit ++ " is not a byte count"))
  | some number =>
    .ok { desired with
      homeUnlimited := desired.homeUnlimited || number = 0
      homeQuota := max desired.homeQuota number }

def decodeField (server : Server) (desired : DesiredState) (entry : String × RawValue) :
    Except Failure DesiredState :=
  let named := { desired with managed := entry.1 :: desired.managed }
  let mustBe (what : String) : Except Failure DesiredState :=
    .error (badField ("field " ++ server.quoted entry.1 ++ " must be " ++ what))
  if entry.1 = fieldGroup then
    match entry.2.asStrings with
    | none => mustBe "a list of group names"
    | some names => .ok { named with groups := sortStrings names }
  else if entry.1 = fieldEnabled then
    match entry.2.asBool with
    | none => mustBe "a boolean"
    | some value => .ok { named with enabled := value }
  else if entry.1 = fieldSMBEnabled then
    match entry.2.asBool with
    | none => mustBe "a boolean"
    | some value => .ok { named with smbEnabled := value }
  else if entry.1 = fieldHome then
    match entry.2.asStrings with
    | none => mustBe "a list of \"true\""
    | some gives =>
      match gives.find? (· ≠ "true") with
      | some other =>
        .error (badField ("field " ++ server.quoted entry.1 ++
          ": a role either gives a home folder (\"true\") or names nothing, not " ++
          server.quoted other))
      | none => .ok { named with wantsHome := gives ≠ [] }
  else if entry.1 = fieldHomeQuota then
    match entry.2.asStrings with
    | none => mustBe "a list of byte counts"
    | some limits => limits.foldlM (decodeLimit server) named
  else
    .error (badField ("field " ++ server.quoted entry.1 ++
      " is not in this add-on's entitlement schema"))

def decodeDesiredFields (server : Server) (raw : List (String × RawValue)) :
    Except Failure DesiredState :=
  raw.foldlM (decodeField server) DesiredState.empty

def decodeDesired (server : Server) (raw : List (String × RawValue)) :
    Call (Except Failure DesiredState) :=
  match decodeDesiredFields server raw with
  | .error failure => .done (.error failure)
  | .ok desired =>
    if desired.wantsHome then
      .ask .homeRoot fun answer =>
        match answer with
        | .error failure => .done (.error (failure.wrap "read where home folders go: "))
        | .ok root => .done (.ok { desired with homeRoot := root })
    else .done (.ok desired)

/-- The fields a fingerprint is taken of: the name, the number, the lock, SMB and
the groups. The home is not among them. -/
def fingerprintFields : Option Subject → List String
  | none => ["absent"]
  | some subject =>
    ["present",subject.username,toString subject.uid,toString subject.enabled,
      toString subject.smbEnabled] ++ sortStrings subject.groups

def fingerprintSubject (server : Server) (subject : Option Subject) : String :=
  hexadecimal (server.sha256 (Foundation.Framing.frameText (fingerprintFields subject)))

structure HomeDecision where
  /-- Where the home should be made, empty when it should not. -/
  path : String
  note : String
deriving DecidableEq

def HomeDecision.nothing : HomeDecision :=
  { path := "", note := "" }

def statOwner (path : String) : Call (Except Failure Int) :=
  .ask (.stat path) fun answer =>
    match answer with
    | .ok owner => .done (.ok owner)
    | .error failure =>
      if failure.kind = .noSuchPath then .done (.error failure)
      else .done (.error (failure.wrap ("read " ++ path ++ ": ")))

/-- Some role gives a home and the account is not being switched off. -/
def DesiredState.asksHome (desired : DesiredState) : Bool :=
  desired.manages fieldHome && desired.wantsHome &&
    !(desired.manages fieldEnabled && !desired.enabled)

def noPlaceNote (username : String) : String :=
  username ++ "'s role gives a home folder, and this system has no place for home folders" ++
    " chosen yet, so none was made."

def foreignFolderNote (path : String) (owner : Int) (username : String) : String :=
  "A folder already exists at " ++ path ++ " and belongs to someone else (uid " ++
    toString owner ++ "), so it was not made " ++ username ++ "'s home."

def homeAt (path username : String) (uid : Int) : Except Failure Int → Except Failure HomeDecision
  | .error failure =>
    if failure.kind = .noSuchPath then .ok { path := path, note := "" } else .error failure
  | .ok owner =>
    if 0 ≤ uid && owner = uid then .ok { path := path, note := "" }
    else .ok { path := "", note := foreignFolderNote path owner username }

/-- The number is the account's, or -1 for one that does not exist yet. -/
def decideHome (desired : DesiredState) (username current : String) (uid : Int) :
    Call (Except Failure HomeDecision) := do
  if !desired.asksHome then return .ok .nothing
  else if desired.homeRoot = "" then
    return .ok { path := "", note := noPlaceNote username }
  else if current ≠ "" then return .ok .nothing
  else
    let path := joinPath desired.homeRoot username
    return homeAt path username uid (← statOwner path)

structure Change where
  groups : Option (List String)
  locked : Option Bool
  smbOff : Bool
  smbPending : Bool
  home : HomeDecision
deriving DecidableEq

def sameSet (first second : List String) : Bool := sortStrings first = sortStrings second

/-- The pure half of a convergence; `none` is an account that does not exist yet. -/
def decideChange (current : Option Subject) (desired : DesiredState) (home : HomeDecision) :
    Change :=
  { groups :=
      if desired.manages fieldGroup &&
          current.all (fun subject => !sameSet subject.groups desired.groups) then
        some desired.groups
      else none
    locked :=
      if desired.manages fieldEnabled &&
          current.all (fun subject => subject.enabled ≠ desired.enabled) then
        some !desired.enabled
      else none
    smbOff :=
      desired.manages fieldSMBEnabled && !desired.smbEnabled &&
        current.any (fun subject => subject.smbEnabled)
    smbPending :=
      desired.manages fieldSMBEnabled && desired.smbEnabled &&
        current.any (fun subject => !subject.smbEnabled)
    home := home }

namespace Change

def writes (change : Change) : Bool :=
  change.groups.isSome || change.locked.isSome || change.smbOff || change.home.path ≠ ""

def applyTo (change : Change) (subject : Subject) : Subject :=
  { subject with
    groups := change.groups.getD subject.groups
    enabled := (change.locked.map not).getD subject.enabled
    smbEnabled := subject.smbEnabled && !change.smbOff
    home := if change.home.path = "" then subject.home else change.home.path }

end Change

def datasetOf (path : String) : String :=
  match path.toList with
  | '/' :: 'm' :: 'n' :: 't' :: '/' :: rest =>
    let trimmed := (rest.dropWhile (· = '/')).reverse.dropWhile (· = '/')
    String.ofList trimmed.reverse
  | _ => ""

structure QuotaOwed where
  dataset : String
  want : Int
  owed : Bool
deriving DecidableEq

def QuotaOwed.nothing : QuotaOwed :=
  { dataset := "", want := 0, owed := false }

def quotaHeld (rows : List QuotaRow) (uid want : Int) : Bool :=
  rows.any (fun row => row.uid = uid && row.quota = want) || (want = 0 && rows = [])

def quotaOwed (desired : DesiredState) (home : String) (uid : Int) :
    Call (Except Failure QuotaOwed) :=
  if !desired.manages fieldHomeQuota || home = "" ||
      (desired.homeQuota = 0 && !desired.homeUnlimited) then
    .done (.ok .nothing)
  else
    let want := if desired.homeUnlimited then 0 else desired.homeQuota
    .ask .homePlaces fun answer =>
      match answer with
      | .error failure => .done (.error (failure.wrap "read where home folders may go: "))
      | .ok places =>
        let dataset := datasetOf (parentPath home)
        if parentPath home ∉ places || dataset = "" then .done (.ok .nothing)
        else
          .ask (.getQuota dataset uid) fun answer =>
            match answer with
            | .error failure => .done (.error (failure.wrap "read the home folder limit: "))
            | .ok rows =>
              .done (.ok { dataset := dataset, want := want
                           owed := !quotaHeld rows uid want })

def quotaWords (server : Server) (want : Int) : String :=
  if want = 0 then "Home folder limit lifted."
  else "Home folder limit set to " ++ server.humanBytes want ++ "."

def convergeQuota (server : Server) (desired : DesiredState) (home : String) (uid : Int) :
    Call (Except Failure String) := do
  match ← quotaOwed desired home uid with
  | .error failure => return .error failure
  | .ok owed =>
    if !owed.owed then return .ok ""
    else
      .ask (.setQuota { dataset := owed.dataset, uid := uid, quota := owed.want })
        fun answer =>
          match answer with
          | .error failure => .done (.error (failure.wrap "set the home folder limit: "))
          | .ok () => .done (.ok (quotaWords server owed.want))

end Syndra.TrueNAS
