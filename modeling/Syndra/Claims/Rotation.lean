/-
The signing key, replaced and followed.

The identity provider signs with one key and never gives a key twice. The ring hears of it
through reads that may lag and come out of order, and keeps two keys.
-/

import Syndra.Claims.Config
import Syndra.Foundation.Runs

namespace Syndra.Claims

open Foundation List Prod

/-- `history` holds the keys signed with and since when, the latest first. -/
structure Signing where
  ring : Keyring
  now : Time
  history : List (Time × String)
  observed : List String
deriving DecidableEq

inductive SigningMove where
  | wait (time : Nat)
  | replace (key : String)
  | observe (asOf stamp : Time)
  | hold (until_ : Time)
deriving DecidableEq

namespace Signing

def key (s : Signing) : String := (s.history.head?.map Prod.snd).getD ""

def keyAt (s : Signing) (asOf : Time) : String :=
  ((s.history.find? fun entry => entry.1 ≤ asOf).map Prod.snd).getD ""

/-- A read shows the key of less than `previousKeyKeep` ago; `stamp` is the time the
caller took for it. -/
def step (s : Signing) : SigningMove → Option Signing
  | .wait time => some { s with now := s.now + time }
  | .replace key =>
    if key ≠ "" ∧ key ∉ s.history.map Prod.snd then
      some { s with history := (s.now, key) :: s.history }
    else none
  | .observe asOf stamp =>
    if asOf ≤ s.now ∧ s.now - asOf < previousKeyKeep ∧ stamp ≤ s.now then
      some
        { s with
          ring := s.ring.next (s.keyAt asOf) stamp
          observed := s.keyAt asOf :: s.observed }
    else none
  | .hold until_ => some { s with ring := s.ring.hold until_ }

def Accepted (s : Signing) : Prop :=
  s.key ∈ s.observed → s.key ∈ (s.ring.keys s.now).map SlotKey.key

instance (s : Signing) : Decidable s.Accepted := by
  unfold Accepted
  infer_instance

def Follows (s : Signing) : SigningMove → Prop
  | .observe asOf stamp =>
    s.keyAt asOf = s.key ∨ s.keyAt asOf = s.ring.current ∨
      (s.keyAt asOf = s.ring.previous ∧ unix stamp < s.ring.previousUntil)
  | _ => True

instance (s : Signing) (move : SigningMove) : Decidable (s.Follows move) := by
  cases move with
  | observe asOf stamp =>
    unfold Follows
    infer_instance
  | _ => exact instDecidableTrue

def start (now : Time) (key : String) : Signing :=
  { ring := Keyring.empty, now := now, history := [(now, key)], observed := [] }

end Signing

structure Signing.Followed (s : Signing) : Prop where
  named : s.key ≠ ""
  seen : ∀ key ∈ s.observed, key = "" ∨ key ∈ s.history.map Prod.snd
  current : s.ring.current = "" ∨ s.ring.current ∈ s.history.map Prod.snd
  previous : s.ring.previous = "" ∨ s.ring.previous ∈ s.history.map Prod.snd
  moved : s.ring.previous ≠ s.key
  adopted : s.key ∈ s.observed → s.ring.current = s.key

section Steps

variable {s : Signing}

theorem keyAt_mem (s : Signing) (asOf : Time) :
    s.keyAt asOf = "" ∨ s.keyAt asOf ∈ s.history.map snd := by
  unfold Signing.keyAt
  cases found : s.history.find? fun entry => entry.1 ≤ asOf with
  | none => exact .inl rfl
  | some => exact .inr (mem_map_of_mem (mem_of_find?_eq_some found))

theorem Signing.Followed.replace {key : String} (followed : s.Followed) (named : key ≠ "")
    (fresh : key ∉ s.history.map snd) :
    Signing.Followed { s with history := (s.now, key) :: s.history } := by
  have old {other : String} (known : other = "" ∨ other ∈ s.history.map snd) :
      other = "" ∨ other ∈ ((s.now, key) :: s.history).map snd :=
    known.imp_right (mem_cons_of_mem _)
  have apart {other : String} (known : other = "" ∨ other ∈ s.history.map snd) :
      other ≠ key := by
    rintro rfl
    exact known.elim named fresh
  exact ⟨named,fun other mem => old (followed.seen other mem),old followed.current,
    old followed.previous,apart followed.previous,
    fun mem => absurd rfl (apart (followed.seen key mem))⟩

theorem Signing.Followed.observe {asOf stamp : Time} (followed : s.Followed)
    (follows : s.Follows (.observe asOf stamp)) :
    Signing.Followed
      { s with
        ring := s.ring.next (s.keyAt asOf) stamp
        observed := s.keyAt asOf :: s.observed } := by
  have seen : ∀ key ∈ s.keyAt asOf :: s.observed, key = "" ∨ key ∈ s.history.map snd := by
    intro key mem
    rcases mem_cons.mp mem with rfl | earlier
    · exact keyAt_mem s asOf
    · exact followed.seen key earlier
  by_cases passed : s.keyAt asOf = "" ∨ s.keyAt asOf = s.ring.current ∨
      (s.keyAt asOf = s.ring.previous ∧ unix stamp < s.ring.previousUntil)
  · have same : s.ring.next (s.keyAt asOf) stamp = s.ring := if_pos passed
    rw [same]
    refine ⟨followed.named,seen,followed.current,followed.previous,followed.moved,?_⟩
    intro mem
    rcases mem_cons.mp mem with here | earlier
    · rcases passed with blank | isCurrent | ⟨isPrevious,-⟩
      · exact absurd (here.trans blank) followed.named
      · exact isCurrent.symm.trans here.symm
      · exact absurd (isPrevious.symm.trans here.symm) followed.moved
    · exact followed.adopted earlier
  · have shown : s.keyAt asOf = s.key := by
      rcases follows with isKey | known
      · exact isKey
      · exact absurd (.inr known) passed
    have other : s.ring.current ≠ s.key := fun same =>
      passed (.inr (.inl (shown.trans same.symm)))
    have mem := (keyAt_mem s asOf).resolve_left fun blank => passed (.inl blank)
    unfold Keyring.next
    rw [if_neg passed]
    split
    · exact ⟨followed.named,seen,.inr mem,followed.current,other,fun _ => shown⟩
    · exact ⟨followed.named,seen,.inr mem,.inl rfl,Ne.symm followed.named, fun _ => shown⟩

theorem Signing.Followed.hold (until_ : Time) (followed : s.Followed) :
    Signing.Followed { s with ring := s.ring.hold until_ } := by
  have ring : (s.ring.hold until_).current = s.ring.current ∧
      (s.ring.hold until_).previous = s.ring.previous := by
    unfold Keyring.hold
    split <;> exact ⟨rfl,rfl⟩
  refine ⟨followed.named,followed.seen,?_,?_,?_,fun mem => ?_⟩
  · rw [ring.1]
    exact followed.current
  · rw [ring.2]
    exact followed.previous
  · rw [ring.2]
    exact followed.moved
  · rw [ring.1]
    exact followed.adopted mem

theorem Signing.Followed.step {move : SigningMove} {next : Signing} (followed : s.Followed)
    (follows : s.Follows move) (taken : s.step move = some next) : next.Followed := by
  cases move with
  | wait =>
    cases taken
    exact ⟨followed.named,followed.seen,followed.current,followed.previous,followed.moved,
      followed.adopted⟩
  | replace =>
    rw [Signing.step] at taken
    split at taken
    · next fresh =>
      cases taken
      exact followed.replace fresh.1 fresh.2
    · cases taken
  | observe =>
    rw [Signing.step] at taken
    split at taken
    · cases taken
      exact followed.observe follows
    · cases taken
  | hold until_ =>
    cases taken
    exact followed.hold until_

theorem Signing.Followed.accepted (followed : s.Followed) : s.Accepted := by
  intro mem
  have current := followed.adopted mem
  have named : s.ring.current ≠ "" := by
    rw [current]
    exact followed.named
  unfold Keyring.keys
  rw [if_pos named,map_append,mem_append]
  exact .inl (mem_singleton.mpr current.symm)

end Steps

/-- In every run whose reads show the key signed with, or a key the ring passes over,
the key signed with verifies from its first read on. -/
theorem signingKey_accepted (now : Time) (key : String) (moves : List SigningMove)
    (final : Signing) (named : key ≠ "")
    (follows : Runs.Throughout Signing.step Signing.Follows (Signing.start now key) moves)
    (reached : Runs.run Signing.step (Signing.start now key) moves = some final) :
    final.Accepted := by
  have first : (Signing.start now key).Followed :=
    ⟨named,nofun,.inl rfl,.inl rfl,Ne.symm named, nofun⟩
  have followed := Runs.run_invariant Signing.Followed Signing.Followed.step first follows reached
  exact followed.accepted

def replacedOnce : List SigningMove :=
  [.observe 0 0,.wait 60000000000,.replace "B",.observe 60000000000 60000000000,
    .wait 60000000000,.observe 59000000000 120000000000,.hold 700000000000000,
    .wait 2000000000000]

theorem signingKey_replacedOnce :
    ∃ final, Runs.run Signing.step (Signing.start 0 "A") replacedOnce = some final ∧
      final.key = "B" ∧ final.key ∈ final.observed ∧ final.Accepted := by
  refine Runs.exists_reached_both (by decide +kernel) fun final reached _ _ => ?_
  exact signingKey_accepted 0 "A" replacedOnce final (by decide) (by decide +kernel) reached

/-- Replaced twice within two minutes; a read two minutes late shows the first key, and
the next read shows the key signed with. -/
def replacedTwice : List SigningMove :=
  [.observe 0 0,.wait 60000000000,.replace "B",.observe 60000000000 60000000000,
    .wait 60000000000,.replace "C",.observe 120000000000 120000000000,
    .wait 60000000000,.observe 59000000000 180000000000,
    .wait 60000000000,.observe 240000000000 240000000000,.wait 840000000000]

theorem signingKey_replacedTwice :
    ∃ final, Runs.run Signing.step (Signing.start 0 "A") replacedTwice = some final ∧
      final.key = "C" ∧ final.key ∈ final.observed ∧
      (final.ring.keys final.now).map SlotKey.key = ["A"] ∧ ¬ final.Accepted := by
  exact Runs.exists_reached (by decide +kernel)

end Syndra.Claims
