/-
How old a key can be that a token is checked against.

Fetches are one at a time and spaced whatever happens.
-/

import Syndra.Foundation.Places
import Syndra.SignIn.Keys

namespace Syndra.SignIn

open Foundation List KeyStore Option Places

def Spaced : Event → Event → Prop
  | .succeeded ended, .started at_ => ended + minRefetch ≤ at_
  | .failed ended, .started at_ => ended + failRetry ≤ at_
  | _, _ => True

structure KeysFresh (s : KeyStore) : Prop where
  used : ∀ at_ kid key, .used at_ kid key ∈ s.log →
    ∃ fetched keys, .fetched fetched keys ∈ s.log ∧ fetched ≤ at_ ∧ at_ - fetched < ttl ∧
      keys.lookup kid = some key
  oneFetch : ∀ (first second : Nat) (one other : String),
    s.callers[first]? = some (.fetching one) → s.callers[second]? = some (.fetching other) →
      first = second
  spaced : s.log.Pairwise Spaced

/-- The next fetch is due before the set is stale, and no check is held up between the
gate and its last read until it is. -/
def KeyStore.Prompt (s : KeyStore) : Move → Prop
  | .ask _ _ => True
  | .turn index _ =>
    match s.callers[index]? with
    | some (.stored _) => ∀ at_ ∈ s.fetchedAt, s.now + minRefetch ≤ at_ + ttl
    | some .failing => ∀ at_ ∈ s.fetchedAt, s.now + failRetry ≤ at_ + ttl
    | _ => True
  | .wait time =>
    (∃ phase ∈ s.callers, phase matches .reading _) → ∀ at_ ∈ s.fetchedAt, s.now + time < at_ + ttl

instance (s : KeyStore) (move : Move) : Decidable (s.Prompt move) := by
  cases move with
  | ask rsa kid => exact instDecidableTrue
  | turn index response =>
    unfold KeyStore.Prompt
    dsimp only
    split
    · infer_instance
    · infer_instance
    · exact instDecidableTrue
  | wait time =>
    unfold KeyStore.Prompt
    infer_instance

def Event.until : Event → Option Int
  | .succeeded ended => some (ended + minRefetch)
  | .failed ended => some (ended + failRetry)
  | _ => none

structure Gate (s : KeyStore) : Prop where
  holder : ∀ (index : Nat) (phase : Phase), s.callers[index]? = some phase → phase.holds = true →
    s.fetchMu = some index
  due : s.fetchMu.isSome → ∀ next ∈ s.nextTry, next ≤ s.now
  kept : ∀ at_, s.fetchedAt = some at_ → at_ ≤ s.now ∧ .fetched at_ s.keys ∈ s.log
  empty : s.fetchedAt = none → s.keys = []
  ended : ∀ event ∈ s.log, ∀ time ∈ event.until, ∃ next, s.nextTry = some next ∧ time ≤ next
  spaced : s.log.Pairwise Spaced
  used : ∀ at_ kid key, .used at_ kid key ∈ s.log →
    ∃ fetched keys, .fetched fetched keys ∈ s.log ∧ fetched ≤ at_ ∧ at_ - fetched < ttl ∧
      keys.lookup kid = some key
  dueInTime : ∀ next at_, s.nextTry = some next → s.fetchedAt = some at_ → next ≤ at_ + ttl
  readInTime : ∀ (index : Nat) (kid : String), s.callers[index]? = some (.reading kid) →
    ∀ at_, s.fetchedAt = some at_ → s.now < at_ + ttl

section Steps

variable {s : KeyStore} {index : Nat}

theorem Gate.put (gate : Gate s) (phase : Phase)
    (held : phase.holds = true → s.fetchMu = some index)
    (inTime : ∀ kid, phase = .reading kid → ∀ at_, s.fetchedAt = some at_ → s.now < at_ + ttl) :
    Gate (s.put index phase) := by
  refine ⟨?_,gate.due,gate.kept,gate.empty,gate.ended,gate.spaced,gate.used, gate.dueInTime,?_⟩
  · intro place other there holds
    rcases of_set there with ⟨rfl,rfl⟩ | ⟨-,old⟩
    · exact held holds
    · exact gate.holder place other old holds
  · intro place kid there
    rcases of_set there with ⟨-,rfl⟩ | ⟨-,old⟩
    · exact inTime kid rfl
    · exact gate.readInTime place kid old

theorem Gate.note (gate : Gate s) (event : Event) (plain : event.until = none)
    (spaced : ∀ earlier ∈ s.log, Spaced earlier event)
    (isFresh : ∀ at_ kid key, event = .used at_ kid key →
      ∃ fetched keys, .fetched fetched keys ∈ s.log ∧ fetched ≤ at_ ∧ at_ - fetched < ttl ∧
        keys.lookup kid = some key) :
    Gate { s with log := s.log ++ [event] } := by
  refine ⟨gate.holder,gate.due,?_,gate.empty,?_,?_,?_,gate.dueInTime,gate.readInTime⟩
  · intro at_ isAt
    exact ⟨(gate.kept at_ isAt).1,mem_append_left _ (gate.kept at_ isAt).2⟩
  · intro other mem
    rcases mem_append.mp mem with old | new
    · exact gate.ended other old
    cases mem_singleton.mp new
    rw [plain]
    exact nofun
  · refine pairwise_append.mpr ⟨gate.spaced,pairwise_singleton _ _,?_⟩
    intro earlier mem _ isLast
    cases mem_singleton.mp isLast
    exact spaced earlier mem
  intro at_ kid key mem
  have found : ∃ fetched keys, .fetched fetched keys ∈ s.log ∧ fetched ≤ at_ ∧
      at_ - fetched < ttl ∧ keys.lookup kid = some key := by
    rcases mem_append.mp mem with old | new
    · exact gate.used at_ kid key old
    · exact isFresh at_ kid key (mem_singleton.mp new).symm
  obtain ⟨fetched,keys,inLog,rest⟩ := found
  exact ⟨fetched,keys,mem_append_left _ inLog,rest⟩

variable {kid : String} {phase : Phase} {decode : String → Option Nat} {next : KeyStore}

theorem Gate.use {key : PublicKey} (gate : Gate s)
    (isFresh : ∀ at_, s.fetchedAt = some at_ → s.now < at_ + ttl)
    (found : s.keys.lookup kid = some key) : Gate (s.use index kid key) := by
  refine (gate.put (.verified key) nofun
    nofun).note _ rfl (fun earlier _ => by cases earlier <;> trivial) ?_
  intro _ _ _ same
  cases same
  cases isAt : s.fetchedAt with
  | none =>
    rw [gate.empty isAt] at found
    cases found
  | some fetched =>
    obtain ⟨before,inLog⟩ := gate.kept fetched isAt
    have young := isFresh fetched isAt
    exact ⟨fetched,s.keys,inLog,before,by omega,found⟩

theorem Gate.begin (gate : Gate s) (kid : String) (free : s.fetchMu = none)
    (isDue : s.notDue = false) :
    Gate
      { s.put index (.fetching kid) with
        fetchMu := some index
        log := s.log ++ [.started s.now] } := by
  have due : ∀ next ∈ s.nextTry, next ≤ s.now := by
    intro next isNext
    unfold notDue at isDue
    rw [mem_def.mp isNext,any_some,decide_eq_false_iff_not] at isDue
    omega
  have started := gate.note (.started s.now) rfl (fun earlier mem => ?_) nofun
  · refine ⟨?_,fun _ => due,started.kept,started.empty,started.ended,started.spaced,
      started.used,started.dueInTime,?_⟩
    · intro place phase there holds
      rcases of_set there with ⟨rfl,-⟩ | ⟨-,old⟩
      · rfl
      · cases free.symm.trans (gate.holder place phase old holds)
    · intro place other there
      rcases of_set there with ⟨-,same⟩ | ⟨-,old⟩
      · cases same
      · exact gate.readInTime place other old
  · cases earlier with
    | succeeded ended =>
      obtain ⟨next,isNext,bound⟩ := gate.ended _ mem (ended + minRefetch) rfl
      exact Int.le_trans bound (due next isNext)
    | failed ended =>
      obtain ⟨next,isNext,bound⟩ := gate.ended _ mem (ended + failRetry) rfl
      exact Int.le_trans bound (due next isNext)
    | _ => trivial

theorem ttl_pos : 0 < ttl := by decide

theorem Gate.store (gate : Gate s) (keys : KeySet) (holder : s.fetchMu = some index) : Gate
      { s.put index (.stored kid) with
        keys := keys
        fetchedAt := some s.now
        log := s.log ++ [.fetched s.now keys] } := by
  have positive := ttl_pos
  have stored := (gate.put (.stored kid) (fun _ => holder) nofun).note (.fetched s.now keys) rfl
    (fun earlier _ => by cases earlier <;> trivial) nofun
  refine ⟨stored.holder,stored.due,?_,nofun,stored.ended,stored.spaced,
    stored.used,?_,?_⟩
  · rintro at_ ⟨⟩
    exact ⟨Int.le_refl _,mem_append_right _ mem_cons_self⟩
  · rintro next at_ isNext ⟨⟩
    have due := gate.due (by rw [holder]; rfl) next isNext
    omega
  · rintro _ _ - _ ⟨⟩
    change s.now < s.now + ttl
    omega

theorem Gate.settle {event : Event} {delay : Int} (gate : Gate s)
    (holder : s.fetchMu = some index) (released : phase.holds = false) (positive : 0 < delay)
    (waits : event.until = some (s.now + delay)) (unstarted : ∀ earlier, Spaced earlier event)
    (unused : ∀ at_ kid key, event ≠ .used at_ kid key)
    (inTime : ∀ at_ ∈ s.fetchedAt, s.now + delay ≤ at_ + ttl) :
    Gate
      { s.put index phase with
        nextTry := some (s.now + delay)
        fetchMu := none
        log := s.log ++ [event] } := by
  refine ⟨?_,nofun,?_,gate.empty,?_,?_,?_,?_,?_⟩
  · intro place other there holds
    rcases of_set there with ⟨-,rfl⟩ | ⟨elsewhere,old⟩
    · rw [released] at holds
      cases holds
    · cases holder.symm.trans (gate.holder place other old holds)
      exact absurd rfl elsewhere
  · intro at_ isAt
    exact ⟨(gate.kept at_ isAt).1,mem_append_left _ (gate.kept at_ isAt).2⟩
  · intro other mem time isTime
    refine ⟨s.now + delay,rfl,?_⟩
    rcases mem_append.mp mem with old | new
    · obtain ⟨next,isNext,bound⟩ := gate.ended other old time isTime
      have due := gate.due (by rw [holder]; rfl) next isNext
      omega
    · cases mem_singleton.mp new
      cases waits.symm.trans isTime
      exact Int.le_refl _
  · refine pairwise_append.mpr ⟨gate.spaced,pairwise_singleton _ _,?_⟩
    intro earlier _ _ isLast
    cases mem_singleton.mp isLast
    exact unstarted earlier
  · intro at_ kid key mem
    rcases mem_append.mp mem with old | new
    · obtain ⟨fetched,keys,inLog,rest⟩ := gate.used at_ kid key old
      exact ⟨fetched,keys,mem_append_left _ inLog,rest⟩
    · exact absurd (mem_singleton.mp new).symm (unused at_ kid key)
  · rintro _ at_ ⟨⟩ isAt
    exact inTime at_ isAt
  intro _ _ _ at_ isAt
  have bound := inTime at_ isAt
  change s.now < at_ + ttl
  omega

theorem Gate.advance {response : Response} (gate : Gate s) (found : s.callers[index]? = some phase)
    (prompt : s.Prompt (.turn index response))
    (taken : s.advance decode index response phase = some next) : Gate next := by
  unfold KeyStore.Prompt at prompt
  dsimp only at prompt
  rw [found] at prompt
  cases phase with
  | asked =>
    rw [KeyStore.advance] at taken
    split at taken
    · cases taken
      exact gate.put _ nofun nofun
    split at taken
    · next key isKey =>
      cases taken
      split at isKey
      · next isFresh =>
        refine gate.use (fun at_ isAt => ?_) isKey
        unfold fresh at isFresh
        rw [isAt,any_some,decide_eq_true_eq] at isFresh
        omega
      · cases isKey
    · cases taken
      exact gate.put _ nofun nofun
  | missed kid =>
    rw [KeyStore.advance] at taken
    split at taken
    · cases taken
    rename_i free
    split at taken
    · next notDue =>
      cases taken
      refine gate.put _ nofun fun _ _ at_ isAt => ?_
      obtain ⟨due,isDue,before⟩ := (any_eq_true _ _).mp notDue
      have inTime := gate.dueInTime due at_ isDue isAt
      have before := of_decide_eq_true before
      omega
    · next isDue =>
      cases taken
      exact gate.begin kid (not_isSome_iff_eq_none.mp free)
        (Bool.eq_false_iff.mpr isDue)
  | fetching =>
    have holder := gate.holder index _ found rfl
    rw [KeyStore.advance] at taken
    split at taken
    · cases taken
      exact gate.put _ (fun _ => holder) nofun
    · cases taken
      exact gate.store _ holder
  | stored | failing =>
    cases taken
    exact gate.settle (gate.holder index _ found rfl) rfl (by decide) rfl
      (fun earlier => by cases earlier <;> trivial) nofun prompt
  | reading kid =>
    rw [KeyStore.advance] at taken
    split at taken
    · next isKey =>
      cases taken
      exact gate.use (gate.readInTime index kid found) isKey
    · cases taken
      exact gate.put _ nofun nofun
  | verified | refused => cases taken

theorem Gate.step {move : Move}
    (gate : Gate s) (prompt : s.Prompt move) (taken : s.step decode move = some next) :
    Gate next := by
  cases move with
  | ask =>
    cases taken
    refine ⟨?_,gate.due,gate.kept,gate.empty,gate.ended,gate.spaced,gate.used, gate.dueInTime,?_⟩
    · intro place phase there holds
      rcases of_append there with old | ⟨-,rfl⟩
      · exact gate.holder place phase old holds
      · cases holds
    · intro place other there
      rcases of_append there with old | ⟨-,same⟩
      · exact gate.readInTime place other old
      · cases same
  | turn =>
    rw [KeyStore.step] at taken
    split at taken
    · cases taken
    · next phase found => exact gate.advance found prompt taken
  | wait time =>
    cases taken
    refine ⟨gate.holder,?_,?_,gate.empty,gate.ended,gate.spaced,gate.used, gate.dueInTime,?_⟩
    · intro held next isNext
      have due := gate.due held next isNext
      change next ≤ s.now + time
      omega
    · intro at_ isAt
      obtain ⟨_,inLog⟩ := gate.kept at_ isAt
      refine ⟨?_,inLog⟩
      change at_ ≤ s.now + time
      omega
    · intro _ _ there at_ isAt
      exact prompt ⟨_,mem_of_getElem? there,rfl⟩ at_ isAt

end Steps

theorem gate_start (now : Int) : Gate (start now) :=
  ⟨nofun,nofun,nofun,
    fun _ => rfl,nofun,Pairwise.nil,nofun,nofun,nofun⟩

/-- In every run in which the next fetch is due in time and no check is held up, tokens
are checked against fresh keys, and fetches are one at a time and spaced. -/
theorem keysFresh_run (decode : String → Option Nat) (now : Int) (moves : List Move)
    (final : KeyStore)
    (prompt : Runs.Throughout (KeyStore.step decode) KeyStore.Prompt (KeyStore.start now) moves)
    (reached : Runs.run (KeyStore.step decode) (KeyStore.start now) moves = some final) :
    KeysFresh final := by
  have gate := Runs.run_invariant Gate Gate.step (gate_start now) prompt reached
  refine ⟨gate.used,fun first second one other atFirst atSecond => ?_,gate.spaced⟩
  have holdsFirst := gate.holder first _ atFirst rfl
  have holdsSecond := gate.holder second _ atSecond rfl
  exact Option.some.inj (holdsFirst.symm.trans holdsSecond)

def oneKey : Response :=
  .keys [{ kty := "RSA", use := "sig", kid := "k1", n := "modulus", e := "exponent" }]

def byLength (text : String) : Option Nat := some text.length

def freshMoves : List Move :=
  .ask true "k1" :: replicate 5 (.turn 0 oneKey) ++
    .ask true "k2" :: replicate 3 (.turn 1 oneKey) ++
    [.wait 3599000000000,.ask true "k1",.turn 2 oneKey]

theorem keysFresh_freshMoves :
    ∃ final, Runs.run (KeyStore.step byLength) (KeyStore.start 0) freshMoves = some final ∧
      final.callers = [.verified ⟨7,8⟩,.refused,.verified ⟨7,8⟩] ∧ KeysFresh final := by
  refine Runs.exists_reached_and (by decide +kernel) fun final reached _ => ?_
  exact keysFresh_run byLength 0 freshMoves final (by decide +kernel) reached

def staleMoves : List Move :=
  .ask true "k1" :: replicate 5 (.turn 0 oneKey) ++
    .wait 3600000000000 :: .ask true "k1" :: replicate 4 (.turn 1 .unreachable) ++
    .ask true "k1" :: replicate 3 (.turn 2 .unreachable)

/-- The next token is checked against the key fetched an hour before. -/
theorem keysStale_staleMoves :
    ∃ final, Runs.run (KeyStore.step byLength) (KeyStore.start 0) staleMoves = some final ∧
      final.callers = [.verified ⟨7,8⟩,.refused,.verified ⟨7,8⟩] ∧
      ¬ KeysFresh final := by
  have ran : (Runs.run (KeyStore.step byLength) (KeyStore.start 0) staleMoves).any
      (fun final => decide (final.callers = [.verified ⟨7,8⟩,.refused,.verified ⟨7,8⟩] ∧ final.log =
          [.started 0,.fetched 0 [("k1", ⟨7,8⟩)],.succeeded 0,.used 0 "k1" ⟨7,8⟩,
            .started ttl,.failed ttl,.used ttl "k1" ⟨7,8⟩])) = true := by
    decide +kernel
  obtain ⟨final,reached,callers,log⟩ := Runs.exists_reached ran
  refine ⟨final,reached,callers,fun fresh => ?_⟩
  obtain ⟨fetched,keys,inLog,-,young,-⟩ := fresh.used ttl "k1" ⟨7,8⟩ (by rw [log]; decide)
  rw [log] at inLog
  simp only [mem_cons,Event.fetched.injEq,reduceCtorEq,not_mem_nil,or_false, false_or] at inLog
  rw [inLog.1] at young
  exact Int.lt_irrefl _ young

end Syndra.SignIn
