/-
When a word ends.

A role held with no end is absent from the ends, and the claim goes through the roles that
have one. So a word two roles share is given the end of the one that ends, though the other
keeps it.
-/

import Syndra.Claims.Layout

namespace Syndra.Claims

open List

variable (c : Claim) (p : Profile) (f : Facts)

def endTold (word : String) : Option Value := (c.value p f).bind (·.inside [word])

def HeldAs (word role : String) : Prop := role ∈ f.roles ∧ p.Sends role word

structure EndsTold : Prop where
  told : ∀ word, (endTold c p f word).isSome = true ↔ (∃ role, HeldAs p f word role) ∧
    ∀ role, HeldAs p f word role → (f.roleEnds.lookup role).isSome = true
  latest : ∀ word value, endTold c p f word = some value → ∃ date, value = .text date ∧
    (∃ role, HeldAs p f word role ∧ f.roleEnds.lookup role = some date) ∧
    ∀ role other, HeldAs p f word role → f.roleEnds.lookup role = some other → other ≤ date
  among : ∀ word, (endTold c p f word).isSome = true → word ∈ p.words f.roles

def EndTogether : Prop :=
  ∀ word one other, HeldAs p f word one → HeldAs p f word other →
    (f.roleEnds.lookup one).isSome = true → (f.roleEnds.lookup other).isSome = true

def endsOf (word : String) : List String :=
  f.roles.filterMap fun role =>
    if p.role role = (true, word) then f.roleEnds.lookup role else none

def endStep (word : String) (known : Option String) (role : String) : Option String :=
  ((if p.role role = (true, word) then f.roleEnds.lookup role else none).elim known
    fun date => some (known.elim date (max · date)))

variable {p f}

variable {word : String}

theorem foldl_endStep (known : Option String) (roles : List String) :
    roles.foldl (endStep p f word) known = (known.toList ++ roles.filterMap fun role =>
        if p.role role = (true, word) then f.roleEnds.lookup role else none).max? := by
  induction roles generalizing known with
  | nil =>
    cases known with
    | none | some => rfl
  | cons role _ ih =>
    rw [foldl_cons,ih,filterMap_cons,endStep]
    cases if p.role role = (true, word) then f.roleEnds.lookup role else none with
    | none => rfl
    | some =>
      cases known with
      | none | some => rfl

theorem lookup_ends : (p.ends f).lookup word = (endsOf p f word).max? := by
  have folded : f.roles.foldl (endStep p f word) none = (endsOf p f word).max? :=
    foldl_endStep none f.roles
  rw [← folded]
  refine (foldl_hom (fun ends : List (String × String) => ends.lookup word) ?_).symm
  intro ends role
  unfold endStep
  cases isEnd : f.roleEnds.lookup role with
  | none => simp
  | some date =>
    cases sent : p.role role with
    | mk included other =>
      cases included with
      | false => simp
      | true =>
        by_cases same : other = word
        · subst same
          cases known : ends.lookup other with
          | none => simp [lookup_setEntry]
          | some prev =>
            by_cases later : prev < date
            · simp [later,later.le,lookup_setEntry]
            · simp [known,later,not_lt.mp later]
        · have kept : ∀ date, (setEntry other date ends).lookup word = ends.lookup word :=
            fun date => by rw [lookup_setEntry,if_neg (Ne.symm same)]
          simp only [Prod.mk.injEq,same,and_false,if_false,if_true]
          split
          · split
            · exact (kept date).symm
            · rfl
          · exact (kept date).symm

variable {c}

theorem mem_endsOf (distinct : (p.roles.map RoleMap.key).Nodup) {date : String} :
    date ∈ endsOf p f word ↔ ∃ role, HeldAs p f word role ∧ f.roleEnds.lookup role = some date := by
  unfold endsOf HeldAs
  simp only [mem_filterMap,← role_eq_true distinct]
  constructor
  · rintro ⟨role,held,isEnd⟩
    split at isEnd
    · next sent => exact ⟨role,⟨held,sent⟩,isEnd⟩
    · cases isEnd
  · rintro ⟨role,⟨held,sent⟩,isEnd⟩
    exact ⟨role,held,by rw [if_pos sent,isEnd]⟩

theorem endTold_eq (kind : c.kind = .roleEnds) :
    endTold c p f word = ((endsOf p f word).max?).map .text := by
  rw [← lookup_ends,endTold,Claim.value,kind]
  change (map _ (p.ends f)).lookup word = _
  induction p.ends f with
  | nil => rfl
  | cons _ _ ih =>
    rw [map_cons,lookup_entry,lookup_entry,ih]
    split <;> rfl

/-- The claim tells the ends of words right exactly where roles that share a word end
together. -/
theorem ends_told_iff (host : Host) (c : Claim) (p : Profile) (f : Facts)
    (accepted : validate host p = none) (kind : c.kind = .roleEnds) :
    EndsTold c p f ↔ EndTogether p f := by
  have distinct := (keys_of_accepted (accepted_iff.mp accepted).2.1).1
  have told : ∀ word, (endTold c p f word).isSome = true ↔
      ∃ role, HeldAs p f word role ∧ (f.roleEnds.lookup role).isSome = true := by
    intro word
    rw [endTold_eq kind,Option.isSome_map]
    constructor
    · intro some
      obtain ⟨date,isMax⟩ := Option.isSome_iff_exists.mp some
      obtain ⟨role,held,isEnd⟩ := (mem_endsOf distinct).mp (max?_eq_some_iff.mp isMax).1
      exact ⟨role,held,isEnd ▸ rfl⟩
    · rintro ⟨role,held,ends⟩
      obtain ⟨date,isEnd⟩ := Option.isSome_iff_exists.mp ends
      exact isSome_max?_of_mem ((mem_endsOf distinct).mpr ⟨role,held,isEnd⟩)
  constructor
  · intro right word one other oneHeld otherHeld ends
    exact ((right.told word).mp ((told word).mpr ⟨one,oneHeld,ends⟩)).2 other otherHeld
  · intro together
    refine ⟨fun word => ?_,fun word value isEnd => ?_,fun word isEnd => ?_⟩
    · rw [told]
      constructor
      · rintro ⟨role,held,ends⟩
        exact ⟨⟨role,held⟩,fun other otherHeld => together word role other held otherHeld ends⟩
      · rintro ⟨⟨role,held⟩,all⟩
        exact ⟨role,held,all role held⟩
    · rw [endTold_eq kind,Option.map_eq_some_iff] at isEnd
      obtain ⟨date,isMax,rfl⟩ := isEnd
      obtain ⟨mem,most⟩ := max?_eq_some_iff.mp isMax
      exact ⟨date,rfl,(mem_endsOf distinct).mp mem,fun role other held isOther =>
        most other ((mem_endsOf distinct).mpr ⟨role,held,isOther⟩)⟩
    · obtain ⟨role,held,_⟩ := (told word).mp isEnd
      exact mem_words.mpr ⟨role,held.1,held.2⟩

namespace Shared

def profile : Profile :=
  { claims := [⟨["ends"],.roleEnds,.unknown "",none,[],.unknown ""⟩]
    roles := [⟨"laser","maker",true⟩,⟨"print","maker",true⟩]
    includeNew := false
    lands := .both }

def row : Claim := ⟨["ends"],.roleEnds,.unknown "",none,[],.unknown ""⟩

def facts : Facts :=
  { Facts.zero with roles := ["laser","print"], roleEnds := [("print", "2026-11-30")] }

theorem ends_told_together : validate Endings.host profile = none ∧ EndsTold row profile
    { facts with roleEnds := [("laser", "2026-10-31"),("print", "2026-11-30")] } := by
  have accepted : validate Endings.host profile = none := by decide +kernel
  refine ⟨accepted,(ends_told_iff Endings.host row profile _ accepted rfl).mpr ?_⟩
  rintro _ _ _ - ⟨held,-⟩ -
  rcases mem_pair.mp held with rfl | rfl <;> decide

theorem kept_word_ends : validate Endings.host profile = none ∧ row ∈ profile.claims ∧
    ¬ EndsTold row profile facts := by
  refine ⟨by decide +kernel,mem_cons_self,?_⟩
  intro right
  have ends := ((right.told "maker").mp (by decide +kernel)).2 "laser"
    ⟨mem_cons_self,.inl ⟨_,mem_cons_self,rfl,rfl,by decide +kernel⟩⟩
  cases ends

end Shared

end Syndra.Claims
