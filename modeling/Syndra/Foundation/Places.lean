/-
Places in a list that grows at its end or has one item replaced.
-/

import Mathlib.Data.List.Basic

namespace Syndra.Foundation.Places

open List

variable {A : Type*} {items : List A} {item new : A} {index place : Nat}

theorem of_append (found : (items ++ [new])[place]? = some item) :
    items[place]? = some item ∨ place = items.length ∧ item = new := by
  rcases Nat.lt_trichotomy place items.length with inside | rfl | _
  · rw [getElem?_append_left inside] at found
    exact .inl found
  · rw [getElem?_concat_length] at found
    exact .inr ⟨rfl,(Option.some.inj found).symm⟩
  rw [getElem?_eq_none (by simp only [length_append,length_singleton]; omega)]
    at found
  cases found

theorem of_set (found : (items.set index new)[place]? = some item) :
    place = index ∧ item = new ∨ place ≠ index ∧ items[place]? = some item := by
  rw [getElem?_set] at found
  split at found
  · next same =>
    split at found
    · exact .inl ⟨same.symm,(Option.some.inj found).symm⟩
    · cases found
  · next different => exact .inr ⟨Ne.symm different,found⟩

end Syndra.Foundation.Places
