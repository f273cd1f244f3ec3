/-
The one-shot operations on a subject's account.

Setting or rotating a password and purging act on the record `recordID` resolves
the binding to. Adopting binds an account that exists and releasing forgets a
binding; neither touches the account.
-/

import Syndra.TrueNAS.Apply

namespace Syndra.TrueNAS

open Foundation.Programs Foundation.Text

structure OperationResult where
  operation : String
  subject : String
  detail : String
  rotated : Bool
  accountUID : Int
deriving DecidableEq

structure OperationReply where
  status : Nat
  result : Except Failure OperationResult

namespace OperationReply

def failed (status : Nat) (failure : Failure) : OperationReply :=
  { status := status, result := .error failure }

def refused (status : Nat) (text : String) : OperationReply :=
  .failed status (badField text)

def succeeded (operation subject detail : String) : OperationReply :=
  { status := 200
    result := .ok
      { operation := operation, subject := subject, detail := detail, rotated := false
        accountUID := 0 } }

end OperationReply

def statusForLookup (failure : Failure) : Nat :=
  match failure.kind with
  | .noSuchAccount => 422
  | .ambiguousAccount => 409
  | _ => statusFor failure

def lookupRefusal (failure : Failure) : Failure :=
  match failure.kind with
  | .noSuchAccount => badField "the bound account no longer exists on the target"
  | .ambiguousAccount => badField "more than one account on the target matches the binding"
  | _ => badField "the bound account could not be located on the target"

def requireSecret (value : Option String) (name : String) : Except Failure String :=
  match value.filter fun text => trimSpace text ≠ "" with
  | none => .error (badField (name ++ " is required"))
  | some text => .ok text

def boundAccount (subject : String) : Call (Except Failure Binding) := do
  match ← getBinding subject with
  | .error failure => return .error failure
  | .ok none => return .error (badField "no account is bound to this subject yet")
  | .ok (some binding) => return .ok binding

def desiredSMB (subject : String) : Call Bool := do
  match ← getBinding subject with
  | .ok (some binding) => return binding.wantsSMB.getD false
  | _ => return false

def passwordUpdate (password : String) (smb : Bool) : UserUpdate :=
  { groups := none
    locked := none
    smb := if smb then some true else none
    home := none
    password := some password
    passwordDisabled := some false }

def setPassword (subject : String) (password : Option String) : Call OperationReply := do
  match requireSecret password "password" with
  | .error failure => return .failed 400 failure
  | .ok password =>
    match ← boundAccount subject with
    | .error failure => return .failed 422 failure
    | .ok binding =>
      match ← recordID binding with
      | .error failure => return .failed (statusForLookup failure) (lookupRefusal failure)
      | .ok id =>
        let smb ← desiredSMB subject
        .ask (.userUpdate id (passwordUpdate password smb)) fun answer =>
          match answer with
          | .error failure =>
            .done (.refused (statusFor failure) "the target refused the credential change")
          | .ok () =>
            .done (.succeeded "password.set" subject
              ("The credential was set on " ++ binding.username ++ "."))

/-- `minted` is the new credential, `none` where none could be made. -/
def rotatePassword (subject : String) (minted : Option String) : Call OperationReply := do
  match ← boundAccount subject with
  | .error failure => return .failed 422 failure
  | .ok binding =>
    match minted with
    | none => return .refused 500 "could not mint a credential"
    | some credential =>
      match ← recordID binding with
      | .error failure => return .failed (statusForLookup failure) (lookupRefusal failure)
      | .ok id =>
        .ask (.userUpdate id (passwordUpdate credential false)) fun answer =>
          match answer with
          | .error failure =>
            .done (.refused (statusFor failure) "the target refused the rotation")
          | .ok () =>
            .done
              { status := 200
                result := .ok
                  { operation := "password.rotate", subject := subject
                    detail := "A new credential was set on " ++ binding.username ++
                      ". Established sessions end when they next reconnect, not" ++
                      " immediately."
                    rotated := true, accountUID := 0 } }

def self : Call (Option String) :=
  .ask .self fun answer =>
    match answer with
    | .ok name => .done (if name = "" then none else some name)
    | .error _ => .done none

def selfRefusal (name : String) : String :=
  name ++ " is the account this add-on authenticates to the target with; adopting or deleting" ++
    " it would remove Syndra's own access and cannot be undone"

def isSelf (known : Option String) (username : String) : Option String :=
  known.filter fun name => equalFold (trimSpace username) name

def releaseAccount (subject : String) : Call OperationReply := do
  match ← getBinding subject with
  | .error failure => return .failed 500 failure
  | .ok none =>
    return .succeeded "account.release" subject "No account was bound to this subject."
  | .ok (some binding) =>
    .ask (.deleteBinding subject) fun answer =>
      match answer with
      | .error _ => .done (.refused 500 "the binding could not be released")
      | .ok () =>
        .done (.succeeded "account.release" subject
          ("Syndra no longer manages " ++ binding.username ++
            ". Nothing on the target was changed — the account still exists and still works."))

def purgeRecord (subject : String) (binding : Binding) (key : String) (id : ApiID) :
    Call OperationReply :=
  .ask (.elevate key) fun answer =>
    match answer with
    | .error _ => .done (.refused 502 "the elevated session could not be established")
    | .ok () =>
      .ask (.userDelete id) fun answer =>
        match answer with
        | .error failure =>
          .done (.refused (statusFor failure) "the target refused the deletion")
        | .ok () =>
          .ask (.deleteBinding subject) fun answer =>
            let left := match answer with
              | .ok () => ""
              | .error _ => " The binding to this subject could not be removed and is" ++
                  " still recorded; release it before the next apply."
            .done (.succeeded "account.purge" subject
              ("Deleted " ++ binding.username ++ "." ++ left))

def purgeAccount (subject : String) (elevatedKey : Option String) : Call OperationReply := do
  match requireSecret elevatedKey "elevated_key" with
  | .error failure => return .failed 400 failure
  | .ok key =>
    match ← boundAccount subject with
    | .error failure => return .failed 422 failure
    | .ok binding =>
      match ← self with
      | none =>
        return .refused 422 ("this add-on could not confirm which target account it" ++
          " authenticates as, so it will not delete one; try again shortly")
      | some name =>
        match isSelf (some name) binding.username with
        | some name => return .refused 422 (selfRefusal name)
        | none =>
          match ← recordID binding with
          | .error failure =>
            return .failed (statusForLookup failure) (lookupRefusal failure)
          | .ok id => purgeRecord subject binding key id

def adoptFound (subject actor : String) (account : Subject) : Call OperationReply := do
  match ← bindIfFree
      { subjectId := subject, username := account.username, uid := account.uid
        boundBy := actor, wantsSMB := none } with
  | .error failure =>
    return .failed (if failure.kind = .usernameBound then 409 else 500) failure
  | .ok () =>
    return { status := 200
             result := .ok
               { operation := "account.adopt", subject := subject
                 detail := account.username ++ " is now bound to this subject. Nothing on" ++
                   " the account was changed."
                 rotated := false, accountUID := account.uid } }

def adoptFree (subject actor username : String) : Call OperationReply := do
  match ← boundUsernames with
  | .error failure => return .failed 500 failure
  | .ok claimed =>
    match claimant claimed username with
    | some owner => return .failed 409 (Store.usernameBound username owner)
    | none =>
      match ← readSubjects with
      | .error failure => return .failed (statusFor failure) failure
      | .ok snapshot =>
        match snapshot.subjects.find? fun account => account.username = username with
        | none =>
          return .refused 404 ("the target has no adoptable account named " ++
            username ++ " (system accounts are never adoptable)")
        | some account => adoptFound subject actor account

def adoptAccount (subject actor param : String) : Call OperationReply := do
  let username := trimSpace param
  if username = "" then return .refused 400 "no account named"
  else if trimSpace subject = "" then return .refused 400 "no subject to bind it to"
  else
    match isSelf (← self) username with
    | some name => return .refused 422 (selfRefusal name)
    | none =>
      match ← getBinding subject with
      | .error failure => return .failed 500 failure
      | .ok (some existing) =>
        if existing.username = username then
          return { status := 200
                   result := .ok
                     { operation := "account.adopt", subject := subject
                       detail := username ++ " was already bound to this subject."
                       rotated := false, accountUID := existing.uid } }
        else
          return .refused 409 ("this subject is already bound to " ++ existing.username)
      | .ok none => adoptFree subject actor username

end Syndra.TrueNAS
