/-
Replaying a log of partial writes over a store.

A row writes some keys and leaves the rest alone. Replaying a log lets the last
row that writes a key decide it, and rows that do not write it can be left out.
-/

import Mathlib.Data.List.Basic

namespace Syndra.Foundation.Overlay

open List

variable {Row Key Value : Type*}

/-- What one row does to a store: `effect row key` is the value it writes. -/
def overlay (effect : Row → Key → Option Value) (row : Row)
    (store : Key → Value) : Key → Value :=
  fun key => (effect row key).getD (store key)

def replay (effect : Row → Key → Option Value) : List Row → (Key → Value) → (Key → Value)
  | [], store => store
  | row :: rest, store => replay effect rest (overlay effect row store)

def lastWrite (effect : Row → Key → Option Value) : List Row → Key → Option Value
  | [], _ => none
  | row :: rest, key => (lastWrite effect rest key).or (effect row key)

theorem replay_apply (effect : Row → Key → Option Value) (rows : List Row)
    (store : Key → Value) (key : Key) :
    replay effect rows store key = (lastWrite effect rows key).getD (store key) := by
  induction rows generalizing store with
  | nil => rfl
  | cons _ rest ih =>
    simp only [replay,lastWrite,ih]
    cases lastWrite effect rest key <;> rfl

variable {effect : Row → Key → Option Value} {rows : List Row}

theorem lastWrite_filter (key : Key)
    (keep : Row → Bool) (silent : ∀ row ∈ rows, keep row = false → effect row key = none) :
    lastWrite effect (rows.filter keep) key = lastWrite effect rows key := by
  induction rows with
  | nil => rfl
  | cons row _ ih =>
    have before := ih fun other mem => silent other (mem_cons_of_mem row mem)
    rw [filter_cons]
    split
    · rw [lastWrite,lastWrite,before]
    rename_i dropped
    rw [lastWrite,before,silent row mem_cons_self (Bool.eq_false_iff.mpr dropped), Option.or_none]

theorem lastWrite_eq_getLast (key : Key)
    (value : Row → Value) (writes : ∀ row ∈ rows, effect row key = some (value row)) :
    lastWrite effect rows key = rows.getLast?.map value := by
  induction rows with
  | nil => rfl
  | cons row rest ih =>
    have later := ih fun other mem => writes other (mem_cons_of_mem row mem)
    rw [lastWrite,later,writes row mem_cons_self]
    cases rest with
    | nil => rfl
    | cons next others =>
      rw [getLast?_cons_cons]
      cases found : (next :: others).getLast? with
      | none => rw [getLast?_eq_none_iff] at found; cases found
      | some => rfl

end Syndra.Foundation.Overlay
