/-
Lines of a file.

A line ends at a mark. What follows the last mark is the tail, which a write cut short
leaves.
-/

import Mathlib.Data.List.Basic

namespace Syndra.Foundation.Lines

open List

variable {A : Type} [DecidableEq A]

def split (mark : A) : List A → List (List A) × List A
  | [] => ([], [])
  | item :: rest =>
    if item = mark then ([] :: (split mark rest).1, (split mark rest).2)
    else
      match split mark rest with
      | ([], tail) => ([], item :: tail)
      | (line :: lines, tail) => ((item :: line) :: lines, tail)

def join (mark : A) (lines : List (List A)) : List A := lines.flatMap fun line => line ++ [mark]

variable {mark : A}

variable {tail : List A}

theorem split_tail (unmarked : mark ∉ tail) : split mark tail = ([], tail) := by
  induction tail with
  | nil => rfl
  | cons _ _ ih =>
    rw [mem_cons,not_or] at unmarked
    rw [split,if_neg (Ne.symm unmarked.1),ih unmarked.2]

theorem split_line {line : List A} (unmarked : mark ∉ line) {rest : List A} :
    split mark (line ++ mark :: rest) = (line :: (split mark rest).1, (split mark rest).2) := by
  induction line with
  | nil =>
    rw [nil_append,split,if_pos rfl]
  | cons _ _ ih =>
    rw [mem_cons,not_or] at unmarked
    rw [cons_append,split,if_neg (Ne.symm unmarked.1),ih unmarked.2]

theorem split_join {lines : List (List A)} (unmarked : ∀ line ∈ lines, mark ∉ line)
    (tailUnmarked : mark ∉ tail) :
    split mark (join mark lines ++ tail) = (lines, tail) := by
  induction lines with
  | nil => exact split_tail tailUnmarked
  | cons line _ ih =>
    unfold join at ih ⊢
    rw [flatMap_cons,append_assoc,append_assoc,singleton_append,
      split_line (unmarked line mem_cons_self),
      ih fun other later => unmarked other (mem_cons_of_mem _ later)]

end Syndra.Foundation.Lines
