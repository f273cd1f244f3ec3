/-
Reading accounts off the target, and finding the one a subject is bound to.

Two procedures find a subject's account.
-/

import Syndra.TrueNAS.World

namespace Syndra.TrueNAS

open Foundation.Programs Foundation.Text

def getBinding (subject : String) : Call (Except Failure (Option Binding)) :=
  .ask (.getBinding subject) .done

def putBinding (binding : Binding) : Call (Except Failure Unit) :=
  .ask (.putBinding binding) .done

def boundUsernames : Call (Except Failure (List (String × String))) :=
  .ask .boundUsernames .done

def userQuery (filter : UserFilter) (limit : Nat) : Call (Except Failure (List NasUser)) :=
  .ask (.userQuery filter limit) .done

def subjectReadCap : Nat := 5000

def systemUIDCeiling : Int := 1000

structure Subject where
  id : ApiID
  username : String
  uid : Int
  groups : List String
  home : String
  enabled : Bool
  smbEnabled : Bool
  passwordSet : Bool
  /-- Memberships of the machine's own groups, as record keys. -/
  builtinGroups : List ApiID
deriving DecidableEq

structure Snapshot where
  subjects : List Subject
  truncated : Bool
deriving DecidableEq

def homeOf (raw : String) : String :=
  if raw = "" || raw = noHome || raw = "/nonexistent" then "" else raw

def NasUser.isSystem (user : NasUser) : Bool := user.builtin || user.uid < systemUIDCeiling

def withoutSystemAccounts (users : List NasUser) : List NasUser :=
  users.filter fun user => !user.isSystem

def groupsTruncated : Failure :=
  { kind := .other
    text := "the target has more groups than one read returns, so this list would be partial" }

def readGroups : Call (Except Failure (List NasGroup)) :=
  .ask (.groupQuery (subjectReadCap + 1)) fun answer =>
    match answer with
    | .error failure => .done (.error (failure.wrap "read groups: "))
    | .ok groups =>
      if groups.length > subjectReadCap then .done (.error groupsTruncated)
      else .done (.ok groups)

/-- The two directions of the group index. A later row replaces an earlier one. -/
def groupName (groups : List NasGroup) (id : ApiID) : Option String :=
  (groups.filter fun group => group.id = id).getLast?.map NasGroup.name

def groupRecord (groups : List NasGroup) (name : String) : Option ApiID :=
  (groups.filter fun group => group.name = name).getLast?.map NasGroup.id

def isBuiltinGroup (groups : List NasGroup) (name : String) : Bool :=
  groups.any fun group => group.name = name && group.builtin

def managedName (groups : List NasGroup) (id : ApiID) : Option String :=
  (groupName groups id).filter fun name => !isBuiltinGroup groups name

def NasUser.toSubject (groups : List NasGroup) (user : NasUser) : Subject :=
  { id := user.id
    username := user.username
    uid := user.uid
    groups := user.groups.filterMap (managedName groups)
    home := homeOf user.home
    enabled := !user.locked
    smbEnabled := user.smb
    passwordSet := !user.passwordDisabled
    builtinGroups := user.groups.filter fun id =>
      (groupName groups id).any (isBuiltinGroup groups) }

def snapshotOf (users : List NasUser) (groups : List NasGroup) : Snapshot :=
  { subjects := (withoutSystemAccounts (users.take subjectReadCap)).map
      (NasUser.toSubject groups)
    truncated := users.length > subjectReadCap }

def readSubjectsWhere (filter : UserFilter) : Call (Except Failure Snapshot) := do
  match ← userQuery filter (subjectReadCap + 1) with
  | .error failure => return .error failure
  | .ok users =>
    match ← readGroups with
    | .error failure => return .error failure
    | .ok groups => return .ok (snapshotOf users groups)

def readSubjects : Call (Except Failure Snapshot) := readSubjectsWhere .everyone

def UserFilter.names : UserFilter → Subject → Bool
  | .everyone, _ => false
  | .username name, subject => subject.username = name
  | .uid number, subject => subject.uid = number

/-- The one account the filter names, and whether the read was cut short. The
comparison is made on this side too. -/
def subjectWhere (filter : UserFilter) : Call (Except Failure (Option Subject × Bool)) := do
  match ← readSubjectsWhere filter with
  | .error failure => return .error failure
  | .ok snapshot => return .ok (snapshot.subjects.find? filter.names, snapshot.truncated)

def defaultIDFloor : Int := 200000

def defaultIDCeiling : Int := 999999

namespace Server

def floor (server : Server) : Int :=
  if server.idFloor ≤ 0 then defaultIDFloor else server.idFloor

def ceiling (server : Server) : Int :=
  if server.idCeiling ≤ 0 then defaultIDCeiling else server.idCeiling

def owns (server : Server) (uid : Int) : Bool := server.floor ≤ uid && uid ≤ server.ceiling

end Server

structure BindingConflict where
  username : String
  uid : Int
  adoptable : Bool
  boundTo : String
deriving DecidableEq

def claimant (claimed : List (String × String)) (name : String) : Option String :=
  (claimed.filter fun entry => entry.1 = name).getLast?.map Prod.snd

def claimedByOther (claimed : List (String × String)) (subject name : String) : Bool :=
  (claimant claimed name).any fun owner => owner ≠ subject

inductive Located where
  | found (current : Subject) (binding : Binding)
  | absent (binding : Binding) (truncated : Bool)
  | conflict (conflict : BindingConflict)
deriving DecidableEq

def noIdentityToDeriveFrom : Failure :=
  { kind := .noIdentityToDeriveFrom
    text := "no identity to derive a username from" }

def locateBound (server : Server) (binding : Binding) : Call (Except Failure Located) := do
  match ← subjectWhere (.username binding.username) with
  | .error failure => return .error failure
  | .ok (some found, _) =>
    if server.owns binding.uid && found.uid ≠ binding.uid then
      return .ok (.conflict
        { username := found.username, uid := found.uid, adoptable := false, boundTo := "" })
    else if !server.owns binding.uid && server.owns found.uid then
      let _ ← putBinding { binding with uid := found.uid }
      return .ok (.found found { binding with uid := found.uid })
    else return .ok (.found found binding)
  | .ok (none, cut) =>
    if !server.owns binding.uid then return .ok (.absent binding cut)
    else
      match ← subjectWhere (.uid binding.uid) with
      | .error failure => return .error failure
      | .ok (some byUID, _) =>
        let _ ← putBinding { binding with username := byUID.username }
        return .ok (.found byUID { binding with username := byUID.username })
      | .ok (none, cutUID) => return .ok (.absent binding (cut || cutUID))

def locateUnbound (server : Server) (subject email : String) : Call (Except Failure Located) := do
  if trimSpace email = "" then return .error noIdentityToDeriveFrom
  else
    match ← boundUsernames with
    | .error failure => return .error failure
    | .ok claimed =>
      let derived := deriveUsername server email subject (claimedByOther claimed subject)
      match ← subjectWhere (.username derived) with
      | .error failure => return .error failure
      | .ok (some existing, _) =>
        let owner := (claimant claimed derived).getD ""
        return .ok (.conflict
          { username := derived, uid := existing.uid, adoptable := owner = ""
            boundTo := owner })
      | .ok (none, cut) =>
        return .ok (.absent
          { subjectId := subject, username := derived, uid := 0, boundBy := ""
            wantsSMB := none } cut)

def locate (server : Server) (subject email : String) : Call (Except Failure Located) := do
  match ← getBinding subject with
  | .error failure => return .error failure
  | .ok (some binding) => locateBound server binding
  | .ok none => locateUnbound server subject email

def noSuchAccount (words : String) : Failure :=
  { kind := .noSuchAccount
    text := "the target has no such account: " ++ words }

def ambiguousAccount (words : String) : Failure :=
  { kind := .ambiguousAccount
    text := "more than one account on the target matches: " ++ words }

def UserFilter.words : UserFilter → String
  | .everyone => ""
  | .username name => "username=" ++ name
  | .uid number => "uid=" ++ toString number

def oneRecord (words : String) : List NasUser → Except Failure ApiID
  | [] => .error (noSuchAccount words)
  | [user] =>
    if user.id.isSome then .ok user.id
    else .error (noSuchAccount (words ++ " answered without a record id"))
  | users => .error (ambiguousAccount (words ++ " matched " ++ toString users.length))

def lookupOne (filter : UserFilter) : Call (Except Failure ApiID) := do
  match ← userQuery filter 2 with
  | .error failure => return .error failure
  | .ok rows => return oneRecord filter.words rows

def recordID (binding : Binding) : Call (Except Failure ApiID) := do
  if binding.uid = 0 then lookupOne (.username binding.username)
  else
    match ← lookupOne (.uid binding.uid) with
    | .ok id => return .ok id
    | .error failure =>
      if failure.kind = .noSuchAccount then lookupOne (.username binding.username)
      else return .error failure

end Syndra.TrueNAS
