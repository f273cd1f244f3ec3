/-
The add-on's store, the target it manages, and what it asks of the two.

The target is the part of a TrueNAS the add-on reads and writes: accounts, groups, who owns
a path, and quotas.
-/

import Mathlib.Data.String.Basic
import Syndra.Foundation.Buckets
import Syndra.Foundation.Programs
import Syndra.TrueNAS.Username

namespace Syndra.TrueNAS

open Foundation.Buckets Foundation.Programs

inductive FailureKind where
  | targetUnreachable
  | rateLimited
  | targetRefused
  | noSuchPath
  | noSuchAccount
  | ambiguousAccount
  | usernameBound
  | staleFingerprint
  | noIdentityToDeriveFrom
  | other
deriving DecidableEq

structure Failure where
  kind : FailureKind
  text : String
deriving DecidableEq

def Failure.wrap (words : String) (failure : Failure) : Failure :=
  { failure with text := words ++ failure.text }

def statusFor (failure : Failure) : Nat :=
  match failure.kind with
  | .targetUnreachable => 503
  | .rateLimited => 429
  | _ => 502

def refusal (method : String) : Failure :=
  { kind := .targetRefused
    text := method ++ ": the target refused the call" }

/-- A record key of the middleware, `none` where a row came without one. -/
abbrev ApiID := Option Nat

structure NasUser where
  id : ApiID
  username : String
  uid : Int
  locked : Bool
  smb : Bool
  passwordDisabled : Bool
  builtin : Bool
  group : ApiID
  groups : List ApiID
  home : String
deriving DecidableEq

structure NasGroup where
  id : ApiID
  gid : Int
  name : String
  builtin : Bool
deriving DecidableEq

structure QuotaRow where
  dataset : String
  uid : Int
  quota : Int
deriving DecidableEq

structure Target where
  users : List NasUser
  groups : List NasGroup
  /-- Record keys are counted up and never given again. -/
  nextUser : Nat
  nextGroup : Nat
  /-- The owner of each path that exists. -/
  owners : List (String × Int)
  homePlaces : List String
  quotas : List QuotaRow
  /-- The account the add-on authenticates as. -/
  self : Option String
deriving DecidableEq

inductive UserFilter where
  | everyone
  | username (name : String)
  | uid (number : Int)
deriving DecidableEq

def UserFilter.admits : UserFilter → NasUser → Bool
  | .everyone, _ => true
  | .username name, user => user.username = name
  | .uid number, user => user.uid = number

structure UserCreate where
  username : String
  fullName : String
  shell : String
  passwordDisabled : Bool
  smb : Bool
  locked : Bool
  groups : Option (List ApiID)
  uid : Int
  group : ApiID
  home : Option String
deriving DecidableEq

structure UserUpdate where
  groups : Option (List ApiID)
  locked : Option Bool
  smb : Option Bool
  home : Option String
  password : Option String
  passwordDisabled : Option Bool
deriving DecidableEq

def noHome : String := "/var/empty"

def NasUser.updated (fields : UserUpdate) (user : NasUser) : NasUser :=
  { user with
    groups := fields.groups.getD user.groups
    locked := fields.locked.getD user.locked
    smb := fields.smb.getD user.smb
    home := fields.home.getD user.home
    passwordDisabled := fields.passwordDisabled.getD user.passwordDisabled }

namespace Target

def ownerOf (target : Target) (path : String) : Option Int :=
  (target.owners.find? fun entry => entry.1 = path).map Prod.snd

/-- `home_create`: the folder is made for the account unless it is there. -/
def withHome (target : Target) (home : Option String) (uid : Int) : Target :=
  match home with
  | none => target
  | some path =>
    if (target.ownerOf path).isSome then target
    else { target with owners := (path, uid) :: target.owners }

def newUser (target : Target) (fields : UserCreate) : NasUser :=
  { id := some target.nextUser
    username := fields.username
    uid := fields.uid
    locked := fields.locked
    smb := fields.smb
    passwordDisabled := fields.passwordDisabled
    builtin := false
    group := fields.group
    groups := fields.groups.getD []
    home := fields.home.getD noHome }

def createUser (target : Target) (fields : UserCreate) : Except Failure ApiID × Target :=
  if target.users.any (fun user => user.username = fields.username || user.uid = fields.uid) then
    (.error (refusal "user.create"), target)
  else
    (.ok (some target.nextUser),
      { target.withHome fields.home fields.uid with
        users := target.users ++ [target.newUser fields]
        nextUser := target.nextUser + 1 })

def updateUser (target : Target) (id : ApiID) (fields : UserUpdate) :
    Except Failure Unit × Target :=
  match target.users.find? (fun user => user.id = id) with
  | none => (.error (refusal "user.update"), target)
  | some found =>
    (.ok (),
      { target.withHome fields.home found.uid with
        users := target.users.map fun user =>
          if user.id = id then user.updated fields else user })

def deleteUser (target : Target) (id : ApiID) : Except Failure Unit × Target :=
  if target.users.any (fun user => user.id = id) then
    (.ok (), { target with users := target.users.filter fun user => user.id ≠ id })
  else (.error (refusal "user.delete"), target)

def createGroup (target : Target) (name : String) (gid : Int) : Except Failure ApiID × Target :=
  if target.groups.any (fun group => group.name = name || group.gid = gid) then
    (.error (refusal "group.create"), target)
  else
    (.ok (some target.nextGroup),
      { target with
        groups := target.groups ++
          [{ id := some target.nextGroup, gid := gid, name := name, builtin := false }]
        nextGroup := target.nextGroup + 1 })

def deleteGroup (target : Target) (id : ApiID) : Except Failure Unit × Target :=
  if target.groups.any (fun group => group.id = id) then
    (.ok (), { target with groups := target.groups.filter fun group => group.id ≠ id })
  else (.error (refusal "group.delete"), target)

def members (target : Target) (group : NasGroup) : List ApiID :=
  (target.users.filter fun user => user.group = group.id || group.id ∈ user.groups).map
    NasUser.id

def highest (numbers : List Int) (floor ceiling : Int) : Option Int :=
  (numbers.filter fun number => floor ≤ number && number ≤ ceiling).foldl
    (fun found number => some (max (found.getD number) number)) none

def setQuota (target : Target) (row : QuotaRow) : Target :=
  { target with
    quotas := row :: target.quotas.filter fun other =>
      !(other.dataset = row.dataset && other.uid = row.uid) }

end Target

structure Binding where
  subjectId : String
  username : String
  uid : Int
  boundBy : String
  wantsSMB : Option Bool
deriving DecidableEq

structure Store where
  bindings : Bucket Binding.subjectId
  highWater : Option Int
  homeRoot : String

namespace Store

def usernameBound (username owner : String) : Failure :=
  { kind := .usernameBound
    text := username ++ " is already bound to another subject (" ++ owner ++ ")" }

def bindIfFree (store : Store) (binding : Binding) : Except Failure Unit × Store :=
  match store.bindings.rows.find? (fun other =>
      other.username = binding.username && other.subjectId ≠ binding.subjectId) with
  | some other => (.error (usernameBound binding.username other.subjectId), store)
  | none => (.ok (), { store with bindings := store.bindings.put binding })

def rangeUsedUp (floor ceiling : Int) : Failure :=
  { kind := .other
    text := "the identity range " ++ toString floor ++ "–" ++ toString ceiling ++
      " is used up; raise TRUENAS_ID_CEILING" }

def nextNumber (store : Store) (floor observedMax : Int) : Int :=
  max (max (floor - 1) (store.highWater.getD (floor - 1))) observedMax + 1

def claimID (store : Store) (floor ceiling observedMax : Int) : Except Failure Int × Store :=
  if store.nextNumber floor observedMax > ceiling then
    (.error (rangeUsedUp floor ceiling), store)
  else
    (.ok (store.nextNumber floor observedMax),
      { store with highWater := some (store.nextNumber floor observedMax) })

end Store

structure World where
  store : Store
  target : Target

inductive Request where
  | getBinding (subject : String)
  | putBinding (binding : Binding)
  | bindIfFree (binding : Binding)
  | deleteBinding (subject : String)
  | boundUsernames
  | homeRoot
  | claimID (floor ceiling observedMax : Int)
  | self
  | userQuery (filter : UserFilter) (limit : Nat)
  | highestUid (floor ceiling : Int)
  | highestGid (floor ceiling : Int)
  | groupQuery (limit : Nat)
  | groupNamed (name : String)
  | groupCreate (name : String) (gid : Int)
  | groupDelete (id : ApiID)
  | userCreate (fields : UserCreate)
  | userUpdate (id : ApiID) (fields : UserUpdate)
  | elevate (key : String)
  | userDelete (id : ApiID)
  | stat (path : String)
  | homePlaces
  | getQuota (dataset : String) (uid : Int)
  | setQuota (row : QuotaRow)
deriving DecidableEq

structure GroupMembers where
  group : NasGroup
  users : List ApiID

@[reducible] def Value : Request → Type
  | .getBinding _ => Option Binding
  | .boundUsernames => List (String × String)
  | .homeRoot => String
  | .claimID _ _ _ => Int
  | .self => String
  | .userQuery _ _ => List NasUser
  | .highestUid _ _ => Option Int
  | .highestGid _ _ => Option Int
  | .groupQuery _ => List NasGroup
  | .groupNamed _ => List GroupMembers
  | .groupCreate _ _ => ApiID
  | .userCreate _ => ApiID
  | .stat _ => Int
  | .homePlaces => List String
  | .getQuota _ _ => List QuotaRow
  | .putBinding _ | .bindIfFree _ | .deleteBinding _ | .groupDelete _ | .userUpdate _ _
  | .elevate _ | .userDelete _ | .setQuota _ => Unit

abbrev Answer (request : Request) : Type := Except Failure (Value request)

abbrev Call (Result : Type) : Type := Program Request Answer Result

namespace World

def withStore {Result : Type} (world : World) (outcome : Except Failure Result × Store) :
    Except Failure Result × World :=
  (outcome.1, { world with store := outcome.2 })

def withTarget {Result : Type} (world : World) (outcome : Except Failure Result × Target) :
    Except Failure Result × World :=
  (outcome.1, { world with target := outcome.2 })

def effect (world : World) : (request : Request) → Answer request × World
  | .getBinding subject => (.ok (world.store.bindings.get subject), world)
  | .putBinding binding =>
    (.ok (), { world with
      store := { world.store with bindings := world.store.bindings.put binding } })
  | .bindIfFree binding => world.withStore (world.store.bindIfFree binding)
  | .deleteBinding subject =>
    (.ok (), { world with
      store := { world.store with bindings := world.store.bindings.delete subject } })
  | .boundUsernames =>
    (.ok (world.store.bindings.rows.map fun binding => (binding.username, binding.subjectId)),
      world)
  | .homeRoot => (.ok world.store.homeRoot, world)
  | .claimID floor ceiling observedMax =>
    world.withStore (world.store.claimID floor ceiling observedMax)
  | .self =>
    match world.target.self with
    | some name => (.ok name, world)
    | none => (.error (refusal "auth.me"), world)
  | .userQuery filter limit =>
    (.ok ((world.target.users.filter filter.admits).take limit), world)
  | .highestUid floor ceiling =>
    (.ok (Target.highest (world.target.users.map NasUser.uid) floor ceiling), world)
  | .highestGid floor ceiling =>
    (.ok (Target.highest (world.target.groups.map NasGroup.gid) floor ceiling), world)
  | .groupQuery limit => (.ok (world.target.groups.take limit), world)
  | .groupNamed name =>
    (.ok (((world.target.groups.filter fun group => group.name = name).take 1).map
      fun group => { group := group, users := world.target.members group }), world)
  | .groupCreate name gid => world.withTarget (world.target.createGroup name gid)
  | .groupDelete id => world.withTarget (world.target.deleteGroup id)
  | .userCreate fields => world.withTarget (world.target.createUser fields)
  | .userUpdate id fields => world.withTarget (world.target.updateUser id fields)
  | .elevate _ => (.ok (), world)
  | .userDelete id => world.withTarget (world.target.deleteUser id)
  | .stat path =>
    match world.target.ownerOf path with
    | some owner => (.ok owner, world)
    | none =>
      (.error { kind := .noSuchPath, text := "the target refused the call: no such path" }, world)
  | .homePlaces => (.ok world.target.homePlaces, world)
  | .getQuota dataset uid =>
    (.ok (world.target.quotas.filter fun row => row.dataset = dataset && row.uid = uid), world)
  | .setQuota row => (.ok (), { world with target := world.target.setQuota row })

end World

/-- A request that failed before it did anything, or after. -/
inductive Mishap where
  | failed (failure : Failure)
  | lost (failure : Failure)
deriving DecidableEq

def World.answer (world : World) (request : Request) : Option Mishap → Answer request × World
  | none => world.effect request
  | some (.failed failure) => (.error failure, world)
  | some (.lost failure) => (.error failure, (world.effect request).2)

end Syndra.TrueNAS
