/-
The map and the list behind the last copies.

The list orders the elements, the most recent first; an element is named by its key. The
map leads from a key to its element and so to what the element holds.
-/

import Syndra.Claims.Config

namespace Syndra.Claims.Recency

open List

structure Cache where
  cap : Nat
  order : List String
  items : String → Option (Facts × Time)

namespace Cache

def put (c : Cache) (key : String) (f : Facts) (at_ : Time) : Cache :=
  let items := Function.update c.items key (some (f, at_))
  if (c.items key).isSome then { c with order := key :: c.order.erase key, items := items }
  else
    let order := key :: c.order
    if c.cap < order.length then
      let last := order.getLast (cons_ne_nil key c.order)
      { c with order := order.erase last, items := Function.update items last none }
    else { c with order := order, items := items }

def get (c : Cache) (key : String) : Option (Facts × Time) × Cache :=
  match c.items key with
  | none => (none, c)
  | some v => (some v, { c with order := key :: c.order.erase key })

def drop (c : Cache) (key : String) : Cache :=
  if (c.items key).isSome then
    { c with order := c.order.erase key, items := Function.update c.items key none }
  else c

end Cache

inductive Call where
  | put (key : String) (f : Facts) (at_ : Time)
  | get (key : String)
  | drop (key : String)

def Call.touches (key : String) : Call → Bool
  | put name _ _ | get name => name = key
  | drop _ => false

def Cache.step (c : Cache) : Call → Cache
  | .put key f at_ => c.put key f at_
  | .get key => (c.get key).2
  | .drop key => c.drop key

/-- The cache after these calls, the latest first. -/
def after (cap : Nat) (calls : List Call) : Cache :=
  calls.foldr (fun call c => c.step call) { cap := cap, order := [], items := fun _ => none }

/-- What the last put of the key gave. -/
def lastPut (key : String) : List Call → Option (Facts × Time)
  | [] => none
  | .put name f at_ :: earlier => if name = key then some (f, at_) else lastPut key earlier
  | _ :: earlier => lastPut key earlier

/-- How many calls there were since the key was last put or got. -/
def age (calls : List Call) (key : String) : Nat := calls.findIdx (Call.touches key)

/-- None of the keys was put or got longer ago. -/
def Oldest (calls : List Call) (keys : List String) (key : String) : Prop :=
  key ∈ keys ∧ ∀ other ∈ keys, age calls other ≤ age calls key

instance (calls : List Call) (keys : List String) (key : String) :
    Decidable (Oldest calls keys key) :=
  inferInstanceAs (Decidable (_ ∧ _))

/-- The keys held, by the calls and the capacity alone: besides what is dropped only the
oldest leaves, when a put makes them one too many. -/
def held (cap : Nat) : List Call → List String
  | [] => []
  | .put key f at_ :: earlier =>
    let keys := key :: (held cap earlier).erase key
    if keys.length ≤ cap then keys
    else keys.filter fun name => ¬ Oldest (.put key f at_ :: earlier) keys name
  | .get _ :: earlier => held cap earlier
  | .drop key :: earlier => (held cap earlier).erase key

structure Kept (cap : Nat) (calls : List Call) (c : Cache) : Prop where
  sized : c.cap = cap
  indexed : ∀ key, (c.items key).isSome = true ↔ key ∈ c.order
  stored : ∀ key ∈ c.order, c.items key = lastPut key calls
  sorted : c.order.Pairwise fun one other => age calls one < age calls other
  bounded : c.order.length ≤ cap
  holds : c.order.Perm (held cap calls)

section Kept

variable {cap : Nat} {calls : List Call} {call : Call} {c : Cache} {key : String}

theorem Kept.distinct (kept : Kept cap calls c) : c.order.Nodup :=
  kept.sorted.imp fun less same => absurd (congrArg _ same) (Nat.ne_of_lt less)

theorem age_cons : age (call :: calls) key = if call.touches key then 0 else age calls key + 1 := by
  unfold age
  rw [findIdx_cons]
  cases call.touches key <;> rfl

/-- The touched key goes before the others, which all grow older by the call. -/
theorem Kept.front (kept : Kept cap calls c) (call : Call)
    (touched : ∀ name, call.touches name = decide (key = name)) :
    (key :: c.order.erase key).Pairwise
      fun one other => age (call :: calls) one < age (call :: calls) other := by
  have others (name : String) (mem : name ∈ c.order.erase key) :
      age (call :: calls) name = age calls name + 1 := by
    have different := (kept.distinct.mem_erase_iff.mp mem).1
    rw [age_cons,touched,decide_eq_false different.symm]
    rfl
  rw [pairwise_cons]
  constructor
  · intro name mem
    rw [others name mem,age_cons,touched]
    simp
  · refine (kept.sorted.sublist erase_sublist).imp_of_mem fun mem mem' less => ?_
    rw [others _ mem,others _ mem']
    omega

theorem Kept.older (kept : Kept cap calls c) (call : Call)
    (untouched : ∀ name ∈ c.order, call.touches name = false) :
    c.order.Pairwise fun one other => age (call :: calls) one < age (call :: calls) other := by
  refine kept.sorted.imp_of_mem fun mem mem' less => ?_
  rw [age_cons,age_cons,untouched _ mem,untouched _ mem']
  simpa using less

/-- The last of an ordered list of keys is the one oldest of them. -/
theorem oldest_iff_last {keys : List String} (filled : keys ≠ [])
    (sorted : keys.Pairwise fun one other => age calls one < age calls other) :
    Oldest calls keys key ↔ key = keys.getLast filled := by
  have older (other : String) (mem : other ∈ keys) :
      other = keys.getLast filled ∨ age calls other < age calls (keys.getLast filled) := by
    rw [← dropLast_append_getLast filled] at sorted mem
    rcases mem_append.mp mem with earlier | last
    · exact .inr ((pairwise_append.mp sorted).2.2 other earlier _ (mem_singleton.mpr rfl))
    · exact .inl (mem_singleton.mp last)
  constructor
  · rintro ⟨mem,oldest⟩
    have least := oldest _ (getLast_mem filled)
    rcases older key mem with same | less
    · exact same
    · omega
  · rintro rfl
    refine ⟨getLast_mem filled,fun other mem => ?_⟩
    rcases older other mem with rfl | less
    · exact Nat.le_refl _
    · exact Nat.le_of_lt less

theorem oldest_perm {first second : List String} (perm : first.Perm second) :
    Oldest calls first key ↔ Oldest calls second key := by
  simp only [Oldest,perm.mem_iff]

theorem Kept.put (kept : Kept cap calls c) (key : String) (f : Facts) (at_ : Time) :
    Kept cap (.put key f at_ :: calls) (c.put key f at_) := by
  have distinct := kept.distinct
  have front := kept.front (.put key f at_) fun _ => rfl
  have same := (kept.holds.erase key).cons key
  obtain ⟨rfl,indexed,stored,_,bounded,_⟩ := kept
  unfold Cache.put
  by_cases known : (c.items key).isSome
  · have mem := (indexed key).mp known
    have room : (key :: c.order.erase key).length ≤ c.cap := by grind
    rw [if_pos known]
    refine ⟨rfl,?_,?_,front,room,?_⟩
    · grind [Nodup.mem_erase_iff]
    · grind [lastPut]
    · rw [held,if_pos (same.length_eq ▸ room)]
      exact same
  have unknown : key ∉ c.order := fun mem => known ((indexed key).mpr mem)
  rw [erase_of_not_mem unknown] at front same
  have pushed : (key :: c.order).Nodup := nodup_cons.mpr ⟨unknown,distinct⟩
  rw [if_neg known]
  dsimp only
  by_cases full : c.cap < (key :: c.order).length
  · have oldest (name : String) :
        ¬ Oldest (.put key f at_ :: calls) (key :: (held c.cap calls).erase key) name ↔
          name ≠ (key :: c.order).getLast (cons_ne_nil key c.order) :=
      not_congr ((oldest_perm same.symm).trans (oldest_iff_last _ front))
    rw [if_pos full]
    refine ⟨rfl,?_,?_,front.sublist erase_sublist,?_,?_⟩
    · intro name
      rw [pushed.mem_erase_iff]
      grind
    · intro name mem
      grind [lastPut,pushed.mem_erase_iff.mp mem]
    · grind [getLast_mem (cons_ne_nil key c.order)]
    · rw [held,if_neg (same.length_eq ▸ Nat.not_le.mpr full),pushed.erase_eq_filter]
      simp only [oldest,bne,decide_not]
      exact same.filter _
  · have room := Nat.le_of_not_lt full
    rw [if_neg full]
    refine ⟨rfl,?_,?_,front,room,?_⟩
    · grind
    · grind [lastPut]
    · rw [held,if_pos (same.length_eq ▸ room)]
      exact same

theorem Kept.get (kept : Kept cap calls c) (key : String) :
    Kept cap (.get key :: calls) (c.get key).2 := by
  have distinct := kept.distinct
  have front := kept.front (.get key) fun _ => rfl
  have older := kept.older (.get key)
  obtain ⟨rfl,indexed,stored,_,bounded,holds⟩ := kept
  unfold Cache.get
  split
  next missed =>
    refine ⟨rfl,indexed,stored,older ?_,bounded,holds⟩
    grind [Call.touches]
  next v found =>
    have mem := (indexed key).mp (by rw [found]; rfl)
    have moved := perm_cons_erase mem
    refine ⟨rfl,?_,?_,front,?_,moved.symm.trans holds⟩
    · exact fun name => (indexed name).trans moved.mem_iff
    · exact fun name within => stored name (moved.mem_iff.mpr within)
    · exact moved.length_eq ▸ bounded

theorem Kept.drop (kept : Kept cap calls c) (key : String) :
    Kept cap (.drop key :: calls) (c.drop key) := by
  have distinct := kept.distinct
  have older := kept.older (.drop key) fun _ _ => rfl
  have same := kept.holds.erase key
  obtain ⟨rfl,indexed,stored,_,bounded,holds⟩ := kept
  unfold Cache.drop
  split
  · refine ⟨rfl,?_,?_,older.sublist erase_sublist,?_,same⟩
    · grind [Nodup.mem_erase_iff]
    · grind [lastPut,Nodup.mem_erase_iff]
    · grind
  next missing =>
    have strange : key ∉ c.order := fun mem => missing ((indexed key).mpr mem)
    refine ⟨rfl,indexed,stored,older,bounded,?_⟩
    rwa [erase_of_not_mem strange] at same

theorem kept_after (cap : Nat) (calls : List Call) : Kept cap calls (after cap calls) := by
  induction calls with
  | nil => exact ⟨rfl,fun _ => by simp [after],nofun,Pairwise.nil,Nat.zero_le cap,.refl _⟩
  | cons call calls ih =>
    cases call with
    | put key f at_ => exact ih.put key f at_
    | get key => exact ih.get key
    | drop key => exact ih.drop key

theorem Kept.get_eq (kept : Kept cap calls c) (key : String) :
    (c.get key).1 = if key ∈ held cap calls then lastPut key calls else none := by
  have value : (c.get key).1 = c.items key := by
    unfold Cache.get
    split
    next missed => exact missed.symm
    next found => exact found.symm
  rw [value]
  split
  next mem => exact kept.stored key (kept.holds.mem_iff.mpr mem)
  next strange =>
    rw [← kept.holds.mem_iff,← kept.indexed] at strange
    exact Option.not_isSome_iff_eq_none.mp strange

/-- A put of a new key where the capacity is reached takes out one key, the oldest. -/
theorem Kept.evicts_one (kept : Kept cap calls c) {name : String} (f : Facts) (at_ : Time)
    (new : name ∉ held cap calls) (full : (held cap calls).length = cap) :
    ∃ oldest, Oldest (.put name f at_ :: calls) (name :: held cap calls) oldest ∧
      held cap (.put name f at_ :: calls) = (name :: held cap calls).erase oldest := by
  have front := kept.front (.put name f at_) fun _ => rfl
  have strange : name ∉ c.order := new ∘ kept.holds.mem_iff.mp
  rw [erase_of_not_mem strange] at front
  have same := kept.holds.cons name
  have last (key : String) := (oldest_perm same.symm).trans
    (oldest_iff_last (cons_ne_nil name c.order) front : _ ↔ key = _)
  have distinct : (name :: held cap calls).Nodup :=
    same.nodup_iff.mp (nodup_cons.mpr ⟨strange,kept.distinct⟩)
  refine ⟨_,(last _).mpr rfl,?_⟩
  rw [held,erase_of_not_mem new,if_neg (by simp [full]),distinct.erase_eq_filter]
  simp only [last,bne,decide_not]
  rfl

end Kept

/-- After every sequence of calls the map and the list hold the same keys, each once and
no more than the capacity, and these are the keys held by the calls alone; a get gives what
the last put of a held key gave, and a put that makes the keys one too many takes out just
the one put or got the longest time ago. -/
theorem recency_bounded (cap : Nat) (calls : List Call) :
    (∀ key, ((after cap calls).items key).isSome = true ↔ key ∈ (after cap calls).order) ∧
      (after cap calls).order.Nodup ∧ (after cap calls).order.length ≤ cap ∧
      (after cap calls).order.Perm (held cap calls) ∧
      (∀ key, ((after cap calls).get key).1 =
        if key ∈ held cap calls then lastPut key calls else none) ∧
      ∀ name f at_, name ∉ held cap calls → (held cap calls).length = cap →
        ∃ oldest, Oldest (.put name f at_ :: calls) (name :: held cap calls) oldest ∧
          held cap (.put name f at_ :: calls) = (name :: held cap calls).erase oldest := by
  have kept := kept_after cap calls
  exact ⟨kept.indexed,kept.distinct,kept.bounded,kept.holds,kept.get_eq,
    fun _ f at_ => kept.evicts_one f at_⟩

def twoCopies : List Call :=
  [.get "ada",.put "bea" Facts.zero 2,.put "ada" Facts.zero 1]

theorem recency_bounded_twoCopies :
    (∃ oldest, Oldest (.put "cyd" Facts.zero 3 :: twoCopies) ["cyd","bea","ada"] oldest ∧
      held 2 (.put "cyd" Facts.zero 3 :: twoCopies) = ["cyd","bea","ada"].erase oldest) ∧
      Oldest (.put "cyd" Facts.zero 3 :: twoCopies) ["cyd","bea","ada"] "bea" := by
  have evicted := (recency_bounded 2 twoCopies).2.2.2.2.2 "cyd" Facts.zero 3
  exact ⟨evicted (by decide +kernel) (by decide +kernel),by decide +kernel⟩

end Syndra.Claims.Recency
