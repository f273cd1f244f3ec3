/-
Calls to a system that is not ours.

A call is tried a bounded number of times. Each try is handled by the server, or refused
before it is handled, or its answer is lost and nobody knows whether it was handled.
-/

import Mathlib.Logic.Basic

namespace Syndra.Remote

def retryableStatus (code : Nat) : Bool :=
  code = 408 || code = 429 || decide (500 ≤ code)

/-- The error a call ends with: an answer's status, no answer, or a failure that no other
try could fix. -/
inductive CallError where
  | status (code : Nat) (message : String)
  | noAnswer (message : String)
  | other (message : String)
deriving DecidableEq

namespace CallError

def code : CallError → Option Nat
  | .status code _ => some code
  | .noAnswer _ => none
  | .other _ => none

def text : CallError → String
  | .status code message =>
    if message = "" then "zitadel api " ++ toString code
    else "zitadel api " ++ toString code ++ ": " ++ message
  | .noAnswer message => message
  | .other message => message

def retryable : CallError → Bool
  | .status code _ => retryableStatus code
  | .noAnswer _ => true
  | .other _ => false

def Unsaid : CallError → Prop
  | .status code _ => retryableStatus code = true ∧ code ≠ 429
  | .noAnswer _ => True
  | .other _ => True

end CallError

/-- What one request comes to besides what the server makes of it. -/
inductive Fate where
  | answered
  | refused (code : Nat) (message : String) (proper : ¬(200 ≤ code ∧ code < 300))
  | lost (error : CallError) (unsaid : error.Unsaid) (landed : Bool)

/-- A conflict is only ever what the server answers. -/
def ConflictsAnswered (fates : Nat → Fate) : Prop :=
  ∀ number code message proper, fates number = .refused code message proper → code ≠ 409

structure Line (Server : Type*) where
  server : Server
  sent : Nat

abbrev Handler (Server Answer : Type*) := Nat → Server → Server × Except CallError Answer

abbrev ReadBack (Server Answer : Type*) :=
  Line Server → Line Server × Except CallError (Option Answer)

section Calls

variable {Server Answer : Type*} (fates : Nat → Fate) (handler : Handler Server Answer)
  (idempotent : Bool) (readBack : Option (ReadBack Server Answer))

def send (line : Line Server) : Line Server × Except CallError Answer :=
  let handled := handler line.sent line.server
  match fates line.sent with
  | .answered => ({ server := handled.1, sent := line.sent + 1 }, handled.2)
  | .refused code message _ =>
    ({ server := line.server, sent := line.sent + 1 }, .error (.status code message))
  | .lost error _ landed =>
    ({ server := if landed then handled.1 else line.server, sent := line.sent + 1 }, .error error)

def unauthorized : Except CallError Answer → Bool
  | .error (.status code _) => code = 401
  | _ => false

/-- One try. The token is refreshed once a call, and the request sent again. -/
def attempt (refreshed : Bool) (line : Line Server) :
    Line Server × Except CallError Answer × Bool :=
  let first := send fates handler line
  if !refreshed && unauthorized first.2 then
    let second := send fates handler first.1
    (second.1, second.2, true)
  else (first.1, first.2, refreshed)

/-- A write whose answer was lost: read back, or handed to the caller. -/
def lostWrite (error : CallError) (line : Line Server) : Line Server × Except CallError Answer :=
  match readBack with
  | none => (line, .error error)
  | some back =>
    match back line with
    | (after, .ok (some answer)) => (after, .ok answer)
    | (after, _) => (after, .error error)

def tryThen (again : Option (Bool → Line Server → Line Server × Except CallError Answer))
    (refreshed : Bool) (line : Line Server) : Line Server × Except CallError Answer :=
  let tried := attempt fates handler refreshed line
  match tried.2.1 with
  | .ok answer => (tried.1, .ok answer)
  | .error error =>
    if !error.retryable then (tried.1, .error error)
    else if !idempotent && error.code ≠ some 429 then lostWrite readBack error tried.1
    else
      match again with
      | none => (tried.1, .error error)
      | some rest => rest tried.2.2 tried.1

def call : (more : Nat) → (refreshed : Bool) → Line Server → Line Server × Except CallError Answer
  | 0 => tryThen fates handler idempotent readBack none
  | more + 1 => tryThen fates handler idempotent readBack (some (call more))

def Handled (inv : Server → Prop) (after : Server) (answer : Except CallError Answer) : Prop :=
  ∃ number before, inv before ∧ handler number before = (after, answer)

def ReadsBack (inv : Server → Prop) (after : Line Server) (answer : Answer) : Prop :=
  ∃ back line, readBack = some back ∧ inv line.server ∧ back line = (after, .ok (some answer))

structure Tried (inv : Server → Prop) (after : Server) (answer : Except CallError Answer) :
    Prop where
  kept : inv after
  success : ∀ value, answer = .ok value → Handled handler inv after answer
  conflict : ∀ error, answer = .error error → error.code = some 409 →
    Handled handler inv after answer

variable {fates handler readBack}

variable {inv : Server → Prop} {line : Line Server}

theorem send_tried (told : ConflictsAnswered fates) (keeps : ∀ number before, inv before →
      inv (handler number before).1) (holds : inv line.server) :
    Tried handler inv (send fates handler line).1.server (send fates handler line).2 := by
  unfold send
  cases fate : fates line.sent with
  | answered =>
    exact ⟨keeps _ _ holds,fun _ _ => ⟨_,_,holds,rfl⟩,fun _ _ _ => ⟨_,_,holds,rfl⟩⟩
  | refused =>
    refine ⟨holds,fun value impossible => (nomatch impossible),fun error same conflict => ?_⟩
    cases same
    exact absurd (Option.some.inj conflict) (told _ _ _ _ fate)
  | lost error unsaid landed =>
    refine ⟨?_,fun value impossible => (nomatch impossible),fun other same conflict => ?_⟩
    · cases landed with
      | false => exact holds
      | true => exact keeps _ _ holds
    cases same
    cases error with
    | status =>
      cases Option.some.inj conflict
      exact absurd unsaid.1 Bool.false_ne_true
    | noAnswer | other => cases conflict

theorem attempt_tried (told : ConflictsAnswered fates) (keeps : ∀ number before, inv before →
      inv (handler number before).1) (refreshed : Bool) (holds : inv line.server) :
    Tried handler inv (attempt fates handler refreshed line).1.server
      (attempt fates handler refreshed line).2.1 := by
  have first := send_tried told keeps holds
  unfold attempt
  by_cases again : (!refreshed && unauthorized (send fates handler line).2) = true
  · rw [if_pos again]
    exact send_tried told keeps first.kept
  · rw [if_neg again]
    exact first

/-- What a call's answer says about the server, for a condition that handling and reading
back keep. -/
structure Concluded (handler : Handler Server Answer) (readBack : Option (ReadBack Server Answer))
    (inv : Server → Prop) (after : Line Server) (answer : Except CallError Answer) : Prop where
  kept : inv after.server
  success : ∀ value, answer = .ok value →
    Handled handler inv after.server answer ∨ ReadsBack readBack inv after value
  conflict : ∀ error, answer = .error error → error.code = some 409 →
    Handled handler inv after.server answer

theorem Tried.concluded {after : Line Server} {answer : Except CallError Answer}
    (tried : Tried handler inv after.server answer) :
    Concluded handler readBack inv after answer :=
  ⟨tried.kept,fun value same => .inl (tried.success value same),tried.conflict⟩

variable {error : CallError}

theorem code_of_retryable (again : error.retryable = true) : error.code ≠ some 409:= by
  intro conflict
  cases error with
  | status =>
    cases Option.some.inj conflict
    exact absurd again Bool.false_ne_true
  | noAnswer | other => cases conflict

theorem lostWrite_concluded
    (reads : ∀ back, readBack = some back → ∀ line, inv line.server → inv (back line).1.server)
    (again : error.retryable = true) (holds : inv line.server) :
    Concluded handler readBack inv (lostWrite readBack error line).1
      (lostWrite readBack error line).2 := by
  have unconflicted : ∀ after : Line Server, inv after.server →
      Concluded handler readBack inv after (.error error) := by
    intro after kept
    refine ⟨kept,fun value impossible => (nomatch impossible),fun other same conflict => ?_⟩
    cases same
    exact absurd conflict (code_of_retryable again)
  unfold lostWrite
  cases readBack with
  | none => exact unconflicted line holds
  | some back =>
    have kept := reads back rfl line holds
    dsimp only
    cases said : back line with
    | mk after landed =>
      rw [said] at kept
      rcases landed with _ | (_ | _)
      · exact unconflicted after kept
      · exact unconflicted after kept
      refine ⟨kept,fun value same => .inr ?_,nofun⟩
      cases same
      exact ⟨back,line,rfl,holds,said⟩

section

variable (told : ConflictsAnswered fates)
  (keeps : ∀ number before, inv before → inv (handler number before).1)
include told keeps

theorem tryThen_concluded
    (reads : ∀ back, readBack = some back → ∀ line, inv line.server → inv (back line).1.server)
    {again : Option (Bool → Line Server → Line Server × Except CallError Answer)}
    (further : ∀ rest, again = some rest → ∀ refreshed line, inv line.server →
      Concluded handler readBack inv (rest refreshed line).1 (rest refreshed line).2)
    (refreshed : Bool) (holds : inv line.server) :
    Concluded handler readBack inv
      (tryThen fates handler idempotent readBack again refreshed line).1
      (tryThen fates handler idempotent readBack again refreshed line).2 := by
  have tried := attempt_tried told keeps refreshed holds
  unfold tryThen
  generalize attempt fates handler refreshed line = outcome at tried ⊢
  obtain ⟨_,answer,_⟩ := outcome
  cases answer with
  | ok => exact tried.concluded
  | error error =>
    dsimp only
    by_cases final : (!error.retryable) = true
    · rw [if_pos final]
      exact tried.concluded
    rw [if_neg final]
    by_cases lost : (!idempotent && error.code ≠ some 429) = true
    · rw [if_pos lost]
      exact lostWrite_concluded reads (by simpa using final) tried.kept
    rw [if_neg lost]
    cases again with
    | none => exact tried.concluded
    | some next => exact further next rfl _ _ tried.kept

theorem call_concluded
    (reads : ∀ back, readBack = some back → ∀ line, inv line.server → inv (back line).1.server)
    (more : Nat) :
    ∀ (refreshed : Bool) (line : Line Server), inv line.server → Concluded handler readBack inv
        (call fates handler idempotent readBack more refreshed line).1
        (call fates handler idempotent readBack more refreshed line).2 := by
  induction more with
  | zero =>
    intro refreshed line holds
    refine tryThen_concluded idempotent told keeps reads (fun rest impossible => ?_) refreshed holds
    cases impossible
  | succ _ further =>
    intro refreshed _ holds
    refine tryThen_concluded idempotent told keeps reads (fun rest same => ?_) refreshed holds
    cases same
    exact further

theorem call_tried (more : Nat) (refreshed : Bool) (line : Line Server)
    (holds : inv line.server) :
    Tried handler inv (call fates handler idempotent none more refreshed line).1.server
      (call fates handler idempotent none more refreshed line).2 := by
  have concluded : Concluded handler none inv _ _ :=
    call_concluded idempotent told keeps (fun back impossible => by cases impossible) more
      refreshed line holds
  refine ⟨concluded.kept,fun value said => ?_,concluded.conflict⟩
  rcases concluded.success value said with handled | ⟨_,_,impossible,_⟩
  · exact handled
  · cases impossible

end

end Calls

end Syndra.Remote
