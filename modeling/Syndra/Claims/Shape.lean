/-
The shape of a token.

A profile's rows are rendered against what is known of one person in one project.
-/

import Mathlib.Data.List.Destutter
import Mathlib.Data.List.Sort
import Mathlib.Data.String.Basic
import Syndra.Foundation.Text

namespace Syndra.Claims

open Foundation.Text

inductive Kind where
  | roles
  | attribute
  | static
  | ifRole
  | bundles
  | roleEnds
  | unknown (name : String)
deriving DecidableEq

inductive Format where
  | array
  | csv
  | spaceDelimited
  | unknown (name : String)
deriving DecidableEq

/-- Where a profile's claims land. A profile that was never set has the empty name. -/
inductive Lands where
  | both
  | accessToken
  | userinfo
  | unknown (name : String)
deriving DecidableEq

inductive Attr where
  | userID
  | projectID
  | email
  | name
  | givenName
  | familyName
  | username
  | isServiceAccount
  | title
  | team
  | roleCount
  | compiledAt
  | unknown (name : String)
deriving DecidableEq

inductive Function where
  | preAccessToken
  | preUserinfo
  | other (name : String)
deriving DecidableEq

structure RoleMap where
  key : String
  sentAs : String
  included : Bool
deriving DecidableEq

structure Claim where
  path : List String
  kind : Kind
  source : Attr
  literal : Option String
  roles : List String
  format : Format
deriving DecidableEq

structure Profile where
  claims : List Claim
  roles : List RoleMap
  includeNew : Bool
  lands : Lands
deriving DecidableEq

structure Facts where
  roles : List String
  userID : String
  projectID : String
  email : String
  name : String
  givenName : String
  familyName : String
  username : String
  title : String
  team : String
  compiledAt : String
  bundles : List String
  roleEnds : List (String × String)
  isServiceAccount : Bool
  machine : Bool
deriving DecidableEq

def Facts.zero : Facts :=
  { roles := [], userID := "", projectID := "", email := "", name := "", givenName := "",
    familyName := "", username := "", title := "", team := "", compiledAt := "", bundles := [],
    roleEnds := [], isServiceAccount := false, machine := false }

structure Identity where
  human : Bool
  machine : Bool
  givenName : String
  familyName : String
  username : String
  email : String
deriving DecidableEq

inductive Value where
  | text (text : String)
  | list (items : List String)
  | bool (holds : Bool)
  | count (number : Nat)
  | raw (literal : String)
  | object (entries : List (String × Value))

abbrev Object := List (String × Value)

/-- A field the identity provider left empty keeps the facts' value. -/
def Facts.identify (f : Facts) (id : Identity) : Facts :=
  let f := if id.email ≠ "" then { f with email := id.email } else f
  let f := if id.username ≠ "" then { f with username := id.username } else f
  if id.machine then { f with givenName := "", familyName := "", name := "", machine := true }
  else if id.human then
    let f := if id.givenName ≠ "" then { f with givenName := id.givenName } else f
    let f := if id.familyName ≠ "" then { f with familyName := id.familyName } else f
    { f with name := f.givenName ++ " " ++ f.familyName }
  else f

def formatRoles (roles : List String) : Format → Value
  | .csv => .text (",".intercalate roles)
  | .spaceDelimited => .text (" ".intercalate roles)
  | .array | .unknown _ => .list roles

def RoleMap.word (m : RoleMap) : String :=
  if trimSpace m.sentAs ≠ "" then trimSpace m.sentAs else m.key

def addWord (out : List String) (word : String) : List String :=
  if word ∈ out then out else out ++ [word]

def roleSet (roles : List String) : List String :=
  (roles.insertionSort (· ≤ ·)).destutter (· ≠ ·)

namespace Profile

def words (p : Profile) (held : List String) : List String :=
  let mapped := p.roles.filterMap fun m =>
    if m.included && m.key ∈ held then some m.word else none
  let later := if p.includeNew then held.filter fun r => p.roles.all (·.key ≠ r) else []
  (mapped ++ later).foldl addWord []

def role (p : Profile) (key : String) : Bool × String :=
  match p.roles.find? (·.key = key) with
  | some m => (m.included, m.word)
  | none => (p.includeNew, key)

def landsIn (p : Profile) : Function → Bool
  | .preAccessToken => p.lands ≠ .userinfo
  | .preUserinfo => p.lands ≠ .accessToken
  | .other _ => true

end Profile

def fromToken (source : Attr) : Bool :=
  source ∈ [.userID,.projectID,.roleCount,.givenName,.familyName,.name,.username,.email]

def Claim.needsFacts (c : Claim) : Bool :=
  match c.kind with
  | .bundles | .roleEnds => true
  | .attribute => !fromToken c.source
  | _ => false

def Profile.rolesOnly (p : Profile) : Profile :=
  { p with claims := p.claims.filter fun c => !c.needsFacts }

def attributeValue (source : Attr) (f : Facts) : Option Value :=
  let text (s : String) : Option Value := if s ≠ "" then some (.text s) else none
  let name (s : String) : Option Value :=
    if s ≠ "" ∨ f.machine = true then some (.text s) else none
  match source with
  | .userID => text f.userID
  | .projectID => text f.projectID
  | .email => text f.email
  | .name => name f.name
  | .givenName => name f.givenName
  | .familyName => name f.familyName
  | .username => text f.username
  | .title => text f.title
  | .team => text f.team
  | .compiledAt => text f.compiledAt
  | .roleCount => some (.count f.roles.length)
  | .isServiceAccount => some (.bool f.isServiceAccount)
  | .unknown _ => none

def setEntry {A : Type} (key : String) (value : A) : List (String × A) → List (String × A)
  | [] => [(key, value)]
  | entry :: rest =>
    if entry.1 = key then (key, value) :: rest else entry :: setEntry key value rest

def Profile.ends (p : Profile) (f : Facts) : List (String × String) :=
  f.roles.foldl (fun ends r =>
    match f.roleEnds.lookup r with
    | none => ends
    | some date =>
      if (p.role r).1 then
        match ends.lookup (p.role r).2 with
        | some prev => if prev < date then setEntry (p.role r).2 date ends else ends
        | none => setEntry (p.role r).2 date ends
      else ends) []

def Claim.value (c : Claim) (p : Profile) (f : Facts) : Option Value :=
  match c.kind with
  | .roles => some (formatRoles (p.words f.roles) c.format)
  | .attribute => attributeValue c.source f
  | .static => c.literal.map .raw
  | .ifRole => some (.bool (f.roles.any (· ∈ c.roles)))
  | .bundles => some (.list f.bundles)
  | .roleEnds => some (.object ((p.ends f).map fun entry => (entry.1, .text entry.2)))
  | .unknown _ => none

/-- The roles claim's top-level key: that of the first roles row at the top level, else
that of the first inside an object. -/
def rolesKey (claims : List Claim) : String :=
  let heroes := claims.filter fun c => c.kind = .roles && c.path ≠ []
  match heroes.find? fun c => c.path.length = 1 with
  | some c => c.path.headD ""
  | none => (heroes.head?.map fun c => c.path.headD "").getD ""

section Order

variable (lower : String → String)

def keyLess (a b : String) : Ordering := (compare (lower a) (lower b)).then (compare a b)

def pathLess : List String → List String → Ordering
  | [], [] => .eq
  | [], _ :: _ => .lt
  | _ :: _, [] => .gt
  | a :: as, b :: bs => (keyLess lower a b).then (pathLess as bs)

def claimLess (hero : String) (a b : Claim) : Ordering :=
  match a.path, b.path with
  | x :: xs, y :: ys =>
    if x = hero ∧ y ≠ hero then .lt
    else if x ≠ hero ∧ y = hero then .gt
    else pathLess lower (x :: xs) (y :: ys)
  | xs, ys => compare xs.length ys.length

def ordered (claims : List Claim) : List Claim :=
  claims.insertionSort fun a b => claimLess lower (rolesKey claims) a b ≠ .gt

end Order

/-- Sets a leaf, sharing the parents on its way. A leaf that is taken, and a parent
that is no object, are left alone. -/
def place (v : Value) : List String → Object → Object
  | [], o => o
  | [leaf], o => if (o.lookup leaf).isSome then o else setEntry leaf v o
  | seg :: next :: rest, o =>
    match o.lookup seg with
    | none => setEntry seg (.object (place v (next :: rest) [])) o
    | some (.object child) => setEntry seg (.object (place v (next :: rest) child)) o
    | some _ => o

def placeRow (p : Profile) (f : Facts) (out : Object) (c : Claim) : Object :=
  match c.value p f with
  | some v => place v c.path out
  | none => out

def shape (lower : String → String) (p : Profile) (f : Facts) : Object :=
  (ordered lower p.claims).foldl (placeRow p f) []

end Syndra.Claims
