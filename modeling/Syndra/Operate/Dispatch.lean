/-
Operations dispatched side by side.

A dispatcher commits a record, claims it, sends one request and settles the record. A token
names a record and copies freely, so any caller may hold one.
-/

import Syndra.Foundation.Runs
import Syndra.Foundation.Text
import Syndra.Operate.Transport

namespace Syndra.Operate

open Foundation.Text

structure EffectiveOperation where
  confirm : Bool
  member : Bool
deriving DecidableEq

structure Request where
  target : String
  operation : String
  actorId : String
  subjectId : String
  confirmed : Bool
  about : String
  retryOf : Option Nat
deriving DecidableEq

inductive DispatchError where
  | notCallable
  | confirmationRequired
  | subjectNotActor
  | badParams
  | rateLimited
deriving DecidableEq

def bindSubjectToActor (member : Bool) (actor subject : String) : Option DispatchError :=
  if !member then none
  else if trimSpace actor = "" then some .subjectNotActor
  else if trimSpace subject = "" then some .subjectNotActor
  else if actor ≠ subject then some .subjectNotActor
  else none

def withinSubjectRate (member : Bool) (recent : Option Nat) (limit : Nat) : Option DispatchError :=
  if !member then none
  else
    match recent with
    | none => some .rateLimited
    | some count => if limit ≤ count then some .rateLimited else none

def Request.refusal (req : Request) (op : Option EffectiveOperation) (paramsValid : Bool)
    (recent : Option Nat) (limit : Nat) : Option DispatchError :=
  match op with
  | none => some .notCallable
  | some op =>
    if op.confirm && !req.confirmed then some .confirmationRequired
    else
      match bindSubjectToActor op.member req.actorId req.subjectId with
      | some refused => some refused
      | none =>
        if !paramsValid then some .badParams
        else if req.retryOf.isNone then withinSubjectRate op.member recent limit
        else none

def aboutOperations : List String :=
  ["account.adopt","account.release","account.purge","setting.put"]

def Request.params (req : Request) : AddonOperationParams :=
  { target := req.target
    operation := req.operation
    actorId := req.actorId
    subjectId := req.subjectId
    about := if req.operation ∈ aboutOperations then req.about else ""
    retryOf := req.retryOf }

structure DispatchRecord where
  callId : Nat
  call : CallKey
deriving DecidableEq

def DispatchRecord.authorises (record : DispatchRecord) (call : CallKey) : Bool :=
  record.call = call

structure CallRequest where
  call : CallKey
  /-- `none` is a token nobody minted. -/
  record : Option DispatchRecord
deriving DecidableEq

inductive CallError where
  | notCallable
  | badParams
  | noCallRecord
  | recordMismatch
  | notRegistered
  | encoding
  | circuitOpen
  | noCredential
deriving DecidableEq

structure Gate where
  callable : Bool
  paramsValid : Bool
  registered : Bool
  encodes : Bool
  breakerAllows : Bool
  credential : Bool
deriving DecidableEq

def sendRefusal (gate : Gate) (skipBreaker : Bool) : Option CallError :=
  if !skipBreaker && !gate.breakerAllows then some .circuitOpen
  else if !gate.credential then some .noCredential
  else none

def CallRequest.admitted (request : CallRequest) (gate : Gate) : Except CallError DispatchRecord :=
  if !gate.callable then .error .notCallable
  else if !gate.paramsValid then .error .badParams
  else
    match request.record with
    | none => .error .noCallRecord
    | some record =>
      if !record.authorises request.call then .error .recordMismatch
      else if !gate.registered then .error .notRegistered
      else if !gate.encodes then .error .encoding
      else
        match sendRefusal gate false with
        | some refused => .error refused
        | none => .ok record

/-- A one-shot operation goes through `Call`; a setting or lifecycle change owns its
record and goes straight to the pipe. -/
inductive Path where
  | call
  | operate (skipBreaker : Bool)
deriving DecidableEq

inductive Phase where
  | starting (params : AddonOperationParams)
  | calling (request : CallRequest)
  | sending (record : DispatchRecord)
  | answered (outcome : Outcome)
  | over
deriving DecidableEq

/-- `own` is the record the caller settles; a holder of a token settles none. -/
structure Caller where
  path : Path
  own : Option Nat
  phase : Phase
deriving DecidableEq

inductive Event where
  | committed (id : Nat) (call : CallKey)
  | claimed (id : Nat)
  | sent (id : Nat) (call : CallKey)
  | ended (id : Nat) (outcome : Outcome)
deriving DecidableEq

structure System where
  table : Table
  now : Nat
  callers : List Caller
  log : List Event

inductive Mishap where
  | failed
  | lost
deriving DecidableEq

inductive Move where
  | dispatch (req : Request) (op : Option EffectiveOperation) (paramsValid : Bool)
      (recent : Option Nat) (limit : Nat)
  | operate (params : AddonOperationParams) (skipBreaker : Bool)
  | hold (request : CallRequest)
  | begin (index id : Nat) (mishap : Option Mishap)
  | claim (index : Nat) (gate : Gate) (mishap : Option Mishap)
  | request (index : Nat) (network : Network)
  | settle (index : Nat) (mishap : Option Mishap)
  | settleUnclaimed (target : String) (grace : Nat)
  | resolve (target : String) (id : Nat) (happened : Bool) (actor : String) (grace : Nat)
  | supersede (confirmed : Nat)
  | tick
deriving DecidableEq

namespace System

def join (system : System) (caller : Caller) : System :=
  { system with callers := system.callers ++ [caller] }

def put (system : System) (index : Nat) (caller : Caller) : System :=
  { system with callers := system.callers.set index caller }

def beginStep (system : System) (index id : Nat) (caller : Caller)
    (params : AddonOperationParams) : Option Mishap → System
  | some .failed => system.put index { caller with phase := .over }
  | mishap =>
    match insertAddonOperation system.table system.now id params with
    | .error _ => system.put index { caller with phase := .over }
    | .ok table =>
      let next : Caller :=
        if mishap = some .lost then { caller with phase := .over }
        else
          { caller with
            own := some id
            phase := .calling
              { call := params.call, record := some { callId := id, call := params.call } } }
      { system.put index next with
        table := table
        log := system.log ++ [.committed id params.call] }

def admitted (path : Path) (request : CallRequest) (gate : Gate) :
    Except CallError DispatchRecord :=
  match path with
  | .call => request.admitted gate
  | .operate skipBreaker =>
    match sendRefusal gate skipBreaker, request.record with
    | some refused, _ => .error refused
    | none, none => .error .noCallRecord
    | none, some record => .ok record

def claimStep (system : System) (index : Nat) (caller : Caller) (request : CallRequest)
    (gate : Gate) (mishap : Option Mishap) : System :=
  let refused := { caller with phase := .answered .unreached }
  match admitted caller.path request gate with
  | .error _ => system.put index refused
  | .ok record =>
    if mishap = some .failed then system.put index refused
    else
      match claimAddonOperation system.table system.now record.callId record.call with
      | .error _ => system.put index refused
      | .ok table =>
        { system.put index
            (if mishap = some .lost then refused else { caller with phase := .sending record })
          with
          table := table
          log := system.log ++ [.claimed record.callId] }

/-- The request as the pipe makes it: a body that can be read again, and the record's
id as its idempotency key. -/
def httpRequest (path : Path) (record : DispatchRecord) : HttpRequest :=
  { method := match path with
      | .operate false => .put
      | _ => .post
    rereadable := true
    idempotencyKey := some record.callId }

def requestStep (system : System) (index : Nat) (caller : Caller) (record : DispatchRecord)
    (network : Network) : System :=
  let answer := doAuthenticated (httpRequest caller.path record) network
  { system.put index { caller with phase := .answered answer.2 } with
    log := system.log ++ List.replicate answer.1 (.sent record.callId record.call) ++
      [.ended record.callId answer.2] }

def settleStep (system : System) (index id : Nat) (caller : Caller) (outcome : Outcome)
    (mishap : Option Mishap) : System :=
  let done := system.put index { caller with phase := .over }
  if mishap = some .failed then done
  else
    match settleAddonOperation system.table system.now id (statusFor outcome) with
    | .error _ => done
    | .ok table => { done with table := table }

def step (system : System) : Move → Option System
  | .dispatch req op paramsValid recent limit =>
    match req.refusal op paramsValid recent limit with
    | some _ => none
    | none => some (system.join { path := .call, own := none, phase := .starting req.params })
  | .operate params skipBreaker =>
    some (system.join
      { path := .operate skipBreaker, own := none, phase := .starting params })
  | .hold request =>
    some (system.join { path := .call, own := none, phase := .calling request })
  | .begin index id mishap =>
    match system.callers[index]? with
    | some caller =>
      match caller.phase with
      | .starting params => some (system.beginStep index id caller params mishap)
      | _ => none
    | none => none
  | .claim index gate mishap =>
    match system.callers[index]? with
    | some caller =>
      match caller.phase with
      | .calling request => some (system.claimStep index caller request gate mishap)
      | _ => none
    | none => none
  | .request index network =>
    match system.callers[index]? with
    | some caller =>
      match caller.phase with
      | .sending record => some (system.requestStep index caller record network)
      | _ => none
    | none => none
  | .settle index mishap =>
    match system.callers[index]? with
    | some caller =>
      match caller.phase, caller.own with
      | .answered outcome, some id => some (system.settleStep index id caller outcome mishap)
      | _, _ => none
    | none => none
  | .settleUnclaimed target grace =>
    (settleUnclaimedAddonOperations system.table system.now target grace).map fun table =>
      { system with table := table }
  | .resolve target id happened actor grace =>
    match resolveAddonOperation system.table system.now target id happened actor grace with
    | .error _ => none
    | .ok table => some { system with table := table }
  | .supersede confirmed =>
    (supersedeAddonOperations system.table system.now confirmed).map fun table =>
      { system with table := table }
  | .tick => some { system with now := system.now + 1 }

end System

end Syndra.Operate
