/-
The configuration a data plane answers from: every project's shapes and failure mode,
the signing keys, the watched sign-ins and the welcome switch.
-/

import Syndra.Claims.Shape

namespace Syndra.Claims

/-- Nanoseconds. -/
abbrev Time := Int

def second : Time := 1000000000

def unix (now : Time) : Int := now / second

def previousKeyKeep : Time := 15 * 60 * second

/-- An empty text is no key. `previousUntil` and `changedAt` are unix seconds. -/
structure Keyring where
  current : String
  previous : String
  previousUntil : Int
  changedAt : Int
deriving DecidableEq

structure SlotKey where
  slot : String
  key : String
deriving DecidableEq

namespace Keyring

def empty : Keyring := { current := "", previous := "", previousUntil := 0, changedAt := 0 }

/-- The keyring after a read of `key`. A read of the key just moved off is stale. -/
def next (k : Keyring) (key : String) (now : Time) : Keyring :=
  if key = "" ∨ key = k.current ∨ (key = k.previous ∧ unix now < k.previousUntil) then k
  else if k.current ≠ "" then
    { current := key
      previous := k.current
      previousUntil := unix (now + previousKeyKeep)
      changedAt := unix now }
  else { empty with current := key }

def hold (k : Keyring) (until_ : Time) : Keyring :=
  if k.previous ≠ "" ∧ k.previousUntil < unix until_ then { k with previousUntil := unix until_ }
  else k

def keys (k : Keyring) (now : Time) : List SlotKey :=
  (if k.current ≠ "" then [{ slot := "current", key := k.current }] else []) ++
    if k.previous ≠ "" ∧ unix now < k.previousUntil then
      [{ slot := "previous", key := k.previous }]
    else []

end Keyring

structure AppShape where
  applicationID : String
  version : Int
  templateID : String
  profile : Profile
deriving DecidableEq

structure ProjectShapes where
  default : Profile
  defaultSource : String
  byClient : List (String × AppShape)
deriving DecidableEq

def ProjectShapes.for_ (ps : ProjectShapes) (clientID : String) : AppShape × Bool :=
  match ps.byClient.lookup clientID with
  | some s => if clientID ≠ "" then (s, true) else (⟨"",0,"",ps.default⟩, false)
  | none => (⟨"",0,"",ps.default⟩, false)

inductive FailureMode where
  | failClosed
  | minimalSafe
  | unknown (name : String)
deriving DecidableEq

structure Mode where
  mode : FailureMode
  minimalSafeClaims : Object
  lkgMaxAgeS : Int

def Mode.unset : Mode := { mode := .unknown "", minimalSafeClaims := [], lkgMaxAgeS := 0 }

def defaultLKGMaxAge : Time := 6 * 60 * 60 * second

def Mode.lkgMaxAge (m : Mode) : Time :=
  if 0 < m.lkgMaxAgeS then m.lkgMaxAgeS * second else defaultLKGMaxAge

def Mode.claims (m : Mode) : Object :=
  if m.mode = .minimalSafe then m.minimalSafeClaims.insertionSort (fun a b => a.1 ≤ b.1) else []

structure Project where
  shapes : ProjectShapes
  mode : Mode

structure Welcome where
  on : Bool
  facts : List (String × Facts)
  clients : List (String × String)
deriving DecidableEq

def Welcome.off : Welcome := { on := false, facts := [], clients := [] }

structure DebugWatch where
  userID : String
  ends : Int
deriving DecidableEq

structure Config where
  gen : Int
  builtAt : Time
  projects : List (String × Project)
  keys : Keyring
  debug : List (String × DebugWatch)
  welcome : Welcome

end Syndra.Claims
