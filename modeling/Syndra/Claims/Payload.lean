/-
The payload of a call for a token's claims.

It is read field by field, so that what the identity provider adds or retypes costs no token
its claims.
-/

import Syndra.Claims.LastCopy

namespace Syndra.Claims

open Foundation.Text List

inductive Json where
  | null
  | bool (holds : Bool)
  | number (text : String)
  | string (text : String)
  | array (items : List Json)
  | object (fields : List (String × Json))

namespace Json

/-- The value under a name. A later value replaces an earlier one. -/
def last (name : String) (fields : List (String × Json)) : Option Json :=
  fields.reverse.lookup name

def stringOrNull : Json → Option String
  | .string text => some text
  | .null => some ""
  | _ => none

def isObject : Json → Bool
  | .object _ => true
  | _ => false

def isArrayOfObjects : Json → Bool
  | .array [] => false
  | .array (item :: items) => (item :: items).all fun item =>
    match item with
    | .object _ | .null => true
    | _ => false
  | _ => false

end Json

structure UserRef where
  id : String
  human : Bool
  identity : Identity
deriving DecidableEq

structure GrantRef where
  projectID : String
  roles : List String
deriving DecidableEq

structure Request where
  function : Function
  user : UserRef
  userGrants : List GrantRef
  clientID : String
deriving DecidableEq

def grantRoles : Option Json → Option (List String)
  | none | some .null => some []
  | some (.array items) => items.mapM Json.stringOrNull
  | some _ => none

def grantProject (fields : List (String × Json)) : Option String :=
  match Json.last "project_id" fields, Json.last "projectId" fields with
  | none, none => none
  | some v, none => v.stringOrNull
  | none, some w => w.stringOrNull
  | some v, some w =>
    match v.stringOrNull, w.stringOrNull with
    | some s, some t => some (if s = "" then t else s)
    | _, _ => none

def grantFromJSON : Json → Option GrantRef
  | .object fields =>
    match grantRoles (Json.last "roles" fields), grantProject fields with
    | some roles, some projectID => some { projectID := projectID, roles := roles }
    | _, _ => none
  | _ => none

/-- The rows up to the first that breaks the contract, and whether none did. -/
def decodeRows : List Json → List GrantRef × Bool
  | [] => ([], true)
  | row :: rest =>
    match grantFromJSON row with
    | none => ([], false)
    | some g => (g :: (decodeRows rest).1, (decodeRows rest).2)

def knownTopLevel : List String :=
  ["function","userinfo","user","user_metadata","org","user_grants","application","actor",
    "response"]

def functionOf (name : String) : Function :=
  if name = "function/preaccesstoken" then .preAccessToken
  else if name = "function/preuserinfo" then .preUserinfo
  else .other name

section Decode

variable (fold : String → String)

def field (name : String) (value : Option Json) : Option Json :=
  match value with
  | some (.object fields) =>
    (fields.reverse.find? fun entry => fold entry.1 = fold name).map Prod.snd
  | _ => none

def textField (name : String) (value : Option Json) : String :=
  match value with
  | some (.object fields) =>
    (fields.reverse.findSome? fun entry =>
      match entry.2 with
      | .string text => if fold entry.1 = fold name then some text else none
      | _ => none).getD ""
  | _ => ""

def textOf (value : Option Json) : String := (value.bind Json.stringOrNull).getD ""

def decodeUser (value : Option Json) : UserRef :=
  let humanBlock := field fold "human" value
  let isHuman := humanBlock.any Json.isObject
  let isMachine := (field fold "machine" value).any Json.isObject
  let human := isHuman && !isMachine
  let name (key : String) : String := if human then textOf (field fold key humanBlock) else ""
  { id := textOf (field fold "id" value)
    human := human
    identity :=
      { human := human
        machine := isMachine && !isHuman
        givenName := name "first_name"
        familyName := name "last_name"
        username := textOf (field fold "username" value)
        email := name "email" } }

def emptyRequest : Request :=
  { function := .other "", user := ⟨"",false,⟨false,false,"","","",""⟩⟩, userGrants := [],
    clientID := "" }

/-- `body` is the one JSON value of the body, if it is one. No outcome is a payload
that can be used. -/
def decode (body : Option Json) : Request × Option Outcome :=
  match body with
  | some (.object top) =>
    let req : Request :=
      { function := functionOf (textOf (Json.last "function" top))
        user := decodeUser fold (Json.last "user" top)
        userGrants := []
        clientID := textField fold "client_id" (Json.last "application" top) }
    if trimSpace req.user.id = "" then (req, some .contractFault)
    else
      match Json.last "user_grants" top with
      | none =>
        if top.any fun entry => !(entry.1 ∈ knownTopLevel) &&
            (Json.last entry.1 top).any Json.isArrayOfObjects then
          (req, some .contractFault)
        else (req, none)
      | some .null => (req, none)
      | some (.array rows) =>
        ({ req with userGrants := (decodeRows rows).1 },
          if (decodeRows rows).2 then none else some .contractFault)
      | some _ => (req, some .contractFault)
  | _ => (emptyRequest, some .badRequest)

end Decode

namespace Request

def roles (r : Request) (projectID : String) : List String :=
  roleSet ((r.userGrants.filter fun g => trimSpace g.projectID = projectID).flatMap GrantRef.roles)

end Request

def Json.Lists (projectID role : String) (row : Json) : Prop :=
  ∃ fields items project, row = .object fields ∧ Json.last "roles" fields = some (.array items) ∧
    grantProject fields = some project ∧ trimSpace project = projectID ∧
    ∃ item ∈ items, item.stringOrNull = some role

def PayloadLists (body : Option Json) (projectID role : String) : Prop :=
  ∃ top rows, body = some (.object top) ∧ Json.last "user_grants" top = some (.array rows) ∧
    ∃ row ∈ rows, row.Lists projectID role

section Lists

variable {role projectID : String}

theorem mem_mapM {items : List Json} {texts : List String}
    (read : items.mapM Json.stringOrNull = some texts) (mem : role ∈ texts) :
    ∃ item ∈ items, item.stringOrNull = some role := by
  induction items generalizing texts with
  | nil =>
    cases read
    cases mem
  | cons item rest ih =>
    rw [mapM_cons] at read
    cases isText : item.stringOrNull with
    | none =>
      rw [isText] at read
      cases read
    | some =>
      rw [isText] at read
      cases later : rest.mapM Json.stringOrNull with
      | none =>
        rw [later] at read
        cases read
      | some =>
        rw [later] at read
        cases read
        rcases mem_cons.mp mem with rfl | inOthers
        · exact ⟨item,mem_cons_self,isText⟩
        · obtain ⟨found,inRest,isFound⟩ := ih later inOthers
          exact ⟨found,mem_cons_of_mem _ inRest,isFound⟩

variable {g : GrantRef}

theorem lists_of_grant {row : Json} (read : grantFromJSON row = some g)
    (named : trimSpace g.projectID = projectID) (mem : role ∈ g.roles) :
    row.Lists projectID role := by
  cases row with
  | object fields =>
    rw [grantFromJSON] at read
    split at read
    · next roles project isRoles isProject =>
      cases read
      unfold grantRoles at isRoles
      split at isRoles
      · cases isRoles
        cases mem
      · cases isRoles
        cases mem
      · next items isItems =>
        exact ⟨fields,items,project,rfl,isItems,isProject,named, mem_mapM isRoles mem⟩
      · cases isRoles
    · cases read
  | _ => cases read

theorem mem_decodeRows {rows : List Json} (mem : g ∈ (decodeRows rows).1) :
    ∃ row ∈ rows, grantFromJSON row = some g := by
  induction rows with
  | nil => cases mem
  | cons row _ ih =>
    rw [decodeRows] at mem
    split at mem
    · cases mem
    rename_i first isFirst
    rcases mem_cons.mp mem with rfl | inRest
    · exact ⟨row,mem_cons_self,isFirst⟩
    · obtain ⟨found,inRows,isFound⟩ := ih inRest
      exact ⟨found,mem_cons_of_mem _ inRows,isFound⟩

theorem mem_roleSet {roles : List String} (mem : role ∈ roleSet roles) : role ∈ roles :=
  (mem_insertionSort _).mp ((destutter_sublist _ _).subset mem)

theorem payloadLists_of_roles {fold : String → String} {body : Option Json}
    (mem : role ∈ (decode fold body).1.roles projectID) :
    PayloadLists body projectID role := by
  obtain ⟨_,kept,inRoles⟩ := mem_flatMap.mp (mem_roleSet mem)
  obtain ⟨inGrants,named⟩ := mem_filter.mp kept
  clear kept mem
  unfold decode at inGrants
  split at inGrants
  · next top =>
    dsimp only at inGrants
    split at inGrants
    · cases inGrants
    split at inGrants
    · split at inGrants <;> cases inGrants
    · cases inGrants
    · next rows isRows =>
      obtain ⟨row,inRows,isRow⟩ := mem_decodeRows inGrants
      exact ⟨top,rows,rfl,isRows,row,inRows, lists_of_grant isRow (of_decide_eq_true named) inRoles⟩
    · cases inGrants
  · cases inGrants

end Lists

end Syndra.Claims
