/-
One authenticated request, and what it comes to.

The HTTP client repeats a request whose kept-alive connection fails, if nothing of it was
written, or if it counts as replayable and the connection closes before the first byte of an
answer.
-/

import Syndra.Operate.Records

namespace Syndra.Operate

inductive Outcome where
  | succeeded
  | rejected
  | unreached
  | indeterminate
deriving DecidableEq

def statusFor : Outcome → Status
  | .succeeded => .succeeded
  | .rejected => .rejected
  | .unreached => .unreached
  | .indeterminate => .indeterminate

inductive Method where
  | get
  | post
  | put
deriving DecidableEq

structure HttpRequest where
  method : Method
  /-- The body is absent or can be read again. -/
  rereadable : Bool
  idempotencyKey : Option Nat
deriving DecidableEq

def HttpRequest.isReplayable (request : HttpRequest) : Bool :=
  request.rereadable && (request.method = .get || request.idempotencyKey.isSome)

inductive Ending where
  | dialFailed
  | nothingWritten
  | closedUnanswered
  | lost
  | answered (code : Nat) (retryAfter : Bool) (whole : Bool)
deriving DecidableEq

structure Try where
  reused : Bool
  ending : Ending
deriving DecidableEq

def Try.shouldRetry (request : HttpRequest) (attempt : Try) : Bool :=
  attempt.reused &&
    match attempt.ending with
    | .nothingWritten => request.rereadable
    | .closedUnanswered => request.isReplayable
    | _ => false

def Try.written (attempt : Try) : Bool :=
  match attempt.ending with
  | .dialFailed | .nothingWritten => false
  | .closedUnanswered | .lost | .answered _ _ _ => true

def roundTrip (request : HttpRequest) : List Try → Nat × Ending
  | [] => (0, .lost)
  | attempt :: later =>
    let count := if attempt.written then 1 else 0
    if attempt.shouldRetry request then
      (count + (roundTrip request later).1, (roundTrip request later).2)
    else (count, attempt.ending)

def classifyStatus (code : Nat) (retryAfter : Bool) : Outcome :=
  if 200 ≤ code && code < 300 then .succeeded
  else if code = 429 then .unreached
  else if code = 408 then .indeterminate
  else if code = 503 && retryAfter then .unreached
  else if 500 ≤ code then .indeterminate
  else .rejected

/-- A success whose body was cut off says that the add-on acted, not what it did. -/
def Ending.outcome : Ending → Outcome
  | .dialFailed => .unreached
  | .nothingWritten | .closedUnanswered | .lost => .indeterminate
  | .answered code retryAfter whole =>
    let lifecycle := code = 503 && retryAfter
    match classifyStatus code lifecycle with
    | .succeeded => if whole then .succeeded else .indeterminate
    | outcome => outcome

structure Network where
  cancelled : Bool
  tries : List Try
deriving DecidableEq

def doAuthenticated (request : HttpRequest) (network : Network) : Nat × Outcome :=
  if network.cancelled then (0, .unreached)
  else ((roundTrip request network.tries).1, (roundTrip request network.tries).2.outcome)

def Network.Steady (network : Network) : Prop :=
  ∀ attempt ∈ network.tries, ¬ (attempt.reused = true ∧ attempt.ending = .closedUnanswered)

instance (network : Network) : Decidable network.Steady := by
  unfold Network.Steady
  infer_instance

variable {request : HttpRequest} {tries : List Try}

theorem roundTrip_sent
    (steady : ∀ attempt ∈ tries, ¬ (attempt.reused = true ∧ attempt.ending = .closedUnanswered)) :
    (roundTrip request tries).1 ≤ 1 := by
  induction tries with
  | nil => exact Nat.zero_le 1
  | cons attempt _ ih =>
    have settled := steady attempt (List.mem_cons_self)
    have rest := ih fun other mem => steady other (List.mem_cons_of_mem attempt mem)
    unfold roundTrip
    dsimp only
    split
    · next again =>
      have unwritten : attempt.written = false := by
        unfold Try.shouldRetry at again
        rw [Bool.and_eq_true] at again
        unfold Try.written
        cases ending : attempt.ending with
        | dialFailed | nothingWritten => rfl
        | closedUnanswered => exact absurd ⟨again.1,ending⟩ settled
        | lost | answered =>
          rw [ending] at again
          exact absurd again.2 Bool.false_ne_true
      rw [unwritten,if_neg (by decide),Nat.zero_add]
      exact rest
    · split
      · exact Nat.le_refl 1
      · exact Nat.zero_le 1

theorem doAuthenticated_sent (request : HttpRequest) {network : Network}
    (steady : network.Steady) : (doAuthenticated request network).1 ≤ 1 := by
  unfold doAuthenticated
  split
  · exact Nat.zero_le 1
  · exact roundTrip_sent steady

theorem roundTrip_answered {code : Nat} {retryAfter whole : Bool}
    (ended : (roundTrip request tries).2 = .answered code retryAfter whole) :
    0 < (roundTrip request tries).1 := by
  induction tries with
  | nil => cases ended
  | cons attempt _ ih =>
    unfold roundTrip at ended ⊢
    dsimp only at ended ⊢
    split
    · next again =>
      rw [if_pos again] at ended
      have left := ih ended
      omega
    · next last =>
      rw [if_neg last] at ended
      have written : attempt.written = true := by
        unfold Try.written
        rw [show attempt.ending = .answered code retryAfter whole from ended]
      rw [written]
      exact Nat.zero_lt_one

theorem doAuthenticated_answered {request : HttpRequest} {network : Network}
    (answered : (doAuthenticated request network).2 = .succeeded ∨
      (doAuthenticated request network).2 = .rejected) :
    0 < (doAuthenticated request network).1 := by
  unfold doAuthenticated at answered ⊢
  split at answered
  · rcases answered with succeeded | rejected
    · cases succeeded
    · cases rejected
  rename_i live
  rw [if_neg live]
  cases ended : (roundTrip request network.tries).2 with
  | answered => exact roundTrip_answered ended
  | _ =>
    rw [ended] at answered
    rcases answered with succeeded | rejected
    · cases succeeded
    · cases rejected

end Syndra.Operate
