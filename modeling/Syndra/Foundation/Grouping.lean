/-
Collections that a loop builds up.

`foldl_collects` says what a loop that only ever adds has collected, and `le_foldl_max` and
`foldl_max_mem` what a loop that keeps a maximum has.
-/

import Mathlib.Data.List.AList

namespace Syndra.Foundation.Grouping

open List

theorem foldl_collects {Item Out Entry : Type*} (has : Out → Entry → Prop)
    (step : Out → Item → Out) (adds : Item → Entry → Prop)
    (stepped : ∀ out item entry, has (step out item) entry ↔ adds item entry ∨ has out entry)
    (items : List Item) (out : Out) (entry : Entry) :
    has (items.foldl step out) entry ↔ (∃ item ∈ items, adds item entry) ∨ has out entry := by
  induction items generalizing out with
  | nil => simp
  | cons _ _ ih =>
    rw [foldl_cons,ih,stepped,exists_mem_cons_iff,← or_assoc]
    exact or_congr_left or_comm

theorem le_foldl_max {numbers : List Nat} (start : Nat) :
    start ≤ numbers.foldl max start ∧ ∀ number ∈ numbers, number ≤ numbers.foldl max start := by
  induction numbers generalizing start with
  | nil => exact ⟨Nat.le_refl _,nofun⟩
  | cons first _ ih =>
    obtain ⟨above,each⟩ := ih (max start first)
    refine ⟨Nat.le_trans (Nat.le_max_left _ _) above,?_⟩
    intro number mem
    rcases mem_cons.mp mem with rfl | later
    · exact Nat.le_trans (Nat.le_max_right _ _) above
    · exact each number later

theorem foldl_max_mem (numbers : List Nat) (start : Nat) :
    numbers.foldl max start = start ∨ numbers.foldl max start ∈ numbers := by
  induction numbers generalizing start with
  | nil => exact .inl rfl
  | cons first _ ih =>
    rw [foldl_cons]
    rcases ih (max start first) with same | later
    · rw [same]
      rcases Nat.le_total start first with below | above
      · rw [Nat.max_eq_right below]
        exact .inr mem_cons_self
      · exact .inl (Nat.max_eq_left above)
    · exact .inr (mem_cons_of_mem _ later)

variable {Group Entry : Type} [DecidableEq Group] [DecidableEq Entry]

abbrev Grouped (Group Entry : Type) := AList (fun _ : Group => List Entry)

def under (groups : Grouped Group Entry) (group : Group) : List Entry :=
  (groups.lookup group).getD []

def addUnder (groups : Grouped Group Entry) (group : Group) (entry : Entry) : Grouped Group Entry :=
  if entry ∈ under groups group then groups
  else groups.insert group (under groups group ++ [entry])

omit [DecidableEq Entry] in
@[simp] theorem under_empty (group : Group) : under (∅ : Grouped Group Entry) group = [] := by
  unfold under
  rw [AList.lookup_empty]
  rfl

variable {groups : Grouped Group Entry} {group other : Group}

omit [DecidableEq Entry] in
theorem under_insert {entries : List Entry} : under (groups.insert group entries) other =
      if group = other then entries else under groups other := by
  unfold under
  split
  · next same =>
    subst same
    rw [AList.lookup_insert]
    rfl
  · next apart => rw [AList.lookup_insert_ne (Ne.symm apart)]

theorem mem_under_addUnder {entry held : Entry} :
    held ∈ under (addUnder groups group entry) other ↔
      (group = other ∧ entry = held) ∨ held ∈ under groups other := by
  unfold addUnder
  split
  · next present =>
    constructor
    · exact .inr
    rintro (⟨rfl,rfl⟩ | mem)
    · exact present
    · exact mem
  · rw [under_insert]
    split
    · next same =>
      subst same
      rw [mem_append,mem_singleton,or_comm,eq_comm]
      simp only [true_and]
    · next apart => exact ⟨.inr,fun mem => mem.resolve_left fun both => apart both.1⟩

end Syndra.Foundation.Grouping
