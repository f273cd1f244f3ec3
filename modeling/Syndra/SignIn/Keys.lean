/-
The keys tokens are checked against.

The store keeps the key set of the last good fetch and when it came. A check reads the store
if it is fresh.
-/

import Mathlib.Algebra.Group.Nat.Defs
import Syndra.Foundation.Runs

namespace Syndra.SignIn

def second : Int := 1000000000
def minRefetch : Int := 60 * second
def failRetry : Int := 5 * second
def ttl : Int := 60 * 60 * second

structure Jwk where
  kty : String
  use : String
  kid : String
  n : String
  e : String
deriving DecidableEq

structure PublicKey where
  n : Nat
  e : Int
deriving DecidableEq

abbrev KeySet := List (String × PublicKey)

inductive Response where
  | unreachable
  | status (code : Nat)
  | unreadable
  | keys (keys : List Jwk)
deriving DecidableEq

inductive FetchError where
  | fetch
  | status (code : Nat)
  | decode
  | parse (kid : String)
deriving DecidableEq

def int64 (value : Nat) : Int := Int.bmod value (2 ^ 64)

section Fetch

variable (decode : String → Option Nat)

def jwkToRSA (k : Jwk) : Option PublicKey :=
  match decode k.n, decode k.e with
  | some n, some e => if int64 e = 0 then none else some { n := n, e := int64 e }
  | _, _ => none

/-- Keys of another kind or use are passed over; one that cannot be read fails them all. -/
def keySet : List Jwk → Except FetchError KeySet
  | [] => .ok []
  | k :: rest =>
    if k.kty ≠ "RSA" ∨ k.use ≠ "sig" then keySet rest
    else
      match jwkToRSA decode k with
      | none => .error (.parse k.kid)
      | some pub => (keySet rest).map fun keys => keys ++ [(k.kid, pub)]

def refresh : Response → Except FetchError KeySet
  | .unreachable => .error .fetch
  | .status code => .error (.status code)
  | .unreadable => .error .decode
  | .keys keys => keySet decode keys

end Fetch

inductive Phase where
  | asked (rsa : Bool) (kid : String)
  | missed (kid : String)
  | fetching (kid : String)
  | stored (kid : String)
  | failing
  | reading (kid : String)
  | verified (key : PublicKey)
  | refused
deriving DecidableEq

def Phase.holds : Phase → Bool
  | .fetching _ | .stored _ | .failing => true
  | _ => false

inductive Event where
  | started (at_ : Int)
  | fetched (at_ : Int) (keys : KeySet)
  | succeeded (at_ : Int)
  | failed (at_ : Int)
  | used (at_ : Int) (kid : String) (key : PublicKey)
deriving DecidableEq

structure KeyStore where
  keys : KeySet
  fetchedAt : Option Int
  nextTry : Option Int
  fetchMu : Option Nat
  now : Int
  callers : List Phase
  log : List Event
deriving DecidableEq

inductive Move where
  | ask (rsa : Bool) (kid : String)
  | turn (index : Nat) (response : Response)
  | wait (time : Nat)
deriving DecidableEq

namespace KeyStore

def fresh (s : KeyStore) : Bool := s.fetchedAt.any fun at_ => s.now - at_ < ttl

def notDue (s : KeyStore) : Bool := s.nextTry.any fun next => s.now < next

def put (s : KeyStore) (index : Nat) (phase : Phase) : KeyStore :=
  { s with callers := s.callers.set index phase }

def use (s : KeyStore) (index : Nat) (kid : String) (key : PublicKey) : KeyStore :=
  { s.put index (.verified key) with log := s.log ++ [.used s.now kid key] }

/-- The next step of one check. `response` is what a fetch comes to. -/
def advance (decode : String → Option Nat) (s : KeyStore) (index : Nat) (response : Response) :
    Phase → Option KeyStore
  | .asked rsa kid =>
    if !rsa then some (s.put index .refused)
    else
      match if s.fresh then s.keys.lookup kid else none with
      | some key => some (s.use index kid key)
      | none => some (s.put index (.missed kid))
  | .missed kid =>
    if s.fetchMu.isSome then none
    else if s.notDue then some (s.put index (.reading kid))
    else
      some
        { s.put index (.fetching kid) with
          fetchMu := some index
          log := s.log ++ [.started s.now] }
  | .fetching kid =>
    match refresh decode response with
    | .error _ => some (s.put index .failing)
    | .ok keys =>
      some
        { s.put index (.stored kid) with
          keys := keys
          fetchedAt := some s.now
          log := s.log ++ [.fetched s.now keys] }
  | .stored kid =>
    some
      { s.put index (.reading kid) with
        nextTry := some (s.now + minRefetch)
        fetchMu := none
        log := s.log ++ [.succeeded s.now] }
  | .failing =>
    some
      { s.put index .refused with
        nextTry := some (s.now + failRetry)
        fetchMu := none
        log := s.log ++ [.failed s.now] }
  | .reading kid =>
    match s.keys.lookup kid with
    | some key => some (s.use index kid key)
    | none => some (s.put index .refused)
  | .verified _ | .refused => none

def step (decode : String → Option Nat) (s : KeyStore) : Move → Option KeyStore
  | .ask rsa kid => some { s with callers := s.callers ++ [.asked rsa kid] }
  | .turn index response =>
    match s.callers[index]? with
    | none => none
    | some phase => s.advance decode index response phase
  | .wait time => some { s with now := s.now + time }

def start (now : Int) : KeyStore :=
  { keys := [], fetchedAt := none, nextTry := none, fetchMu := none, now := now, callers := [],
    log := [] }

end KeyStore

end Syndra.SignIn
