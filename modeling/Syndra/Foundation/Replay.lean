/-
Replaying what was said.

Each item of a list tells a value or nothing, and the last word stands. In a list ordered
by number, a value stands when the items that tell otherwise all come before one that tells
it.
-/

import Mathlib.Data.List.Induction

namespace Syndra.Foundation.Replay

open List

variable {Item Value : Type*}

def replay (word : Item → Option Value) (start : Value) (items : List Item) : Value :=
  items.foldl (fun held item => (word item).getD held) start

variable {start : Value}

variable {word : Item → Option Value}

theorem replay_append {first second : List Item} :
    replay word start (first ++ second) = replay word (replay word start first) second :=
  foldl_append

variable {items : List Item}

theorem replay_concat {item : Item} {value : Value} (said : word item = some value) :
    replay word start (items ++ [item]) = value := by
  rw [replay_append]
  change (word item).getD _ = value
  rw [said]
  rfl

theorem replay_eq_last : replay word start items =
      match (items.filter fun item => (word item).isSome).getLast? with
      | some item => (word item).getD start
      | none => start := by
  induction items using reverseRecOn with
  | nil => rfl
  | append_singleton earlier item ih =>
    rw [replay_append,filter_append]
    change (word item).getD (replay word start earlier) = _
    cases said : word item with
    | none =>
      have silent : [item].filter (fun item => (word item).isSome) = [] :=
        filter_cons_of_neg (by rw [said]; exact Bool.false_ne_true)
      rw [silent,append_nil]
      exact ih
    | some =>
      have kept : [item].filter (fun item => (word item).isSome) = [item] :=
        filter_cons_of_pos (by rw [said]; rfl)
      rw [kept,getLast?_concat]
      dsimp only
      rw [said]
      rfl

theorem replay_iff_last {word : Item → Option Bool} {number : Item → Nat}
    (ordered : items.Pairwise fun earlier later => number earlier < number later) :
    replay word false items = true ↔ ∃ item ∈ items, word item = some true ∧
        ∀ other ∈ items, word other = some false → number other < number item := by
  induction items using reverseRecOn with
  | nil =>
    refine ⟨fun impossible => (nomatch impossible),?_⟩
    rintro ⟨item,impossible,-⟩
    exact absurd impossible not_mem_nil
  | append_singleton earlier item ih =>
    obtain ⟨before,-,cross⟩ := pairwise_append.mp ordered
    have atEnd : item ∈ earlier ++ [item] := mem_append_right _ mem_cons_self
    rw [replay_append]
    change (word item).getD (replay word false earlier) = true ↔ _
    cases said : word item with
    | none =>
      refine Iff.trans (ih before) ⟨?_,?_⟩
      · rintro ⟨found,mem,gives,last⟩
        refine ⟨found,mem_append_left _ mem,gives,fun other isOther takes => ?_⟩
        rcases mem_append.mp isOther with old | new
        · exact last other old takes
        · rw [mem_singleton.mp new,said] at takes
          cases takes
      · rintro ⟨found,mem,gives,last⟩
        rcases mem_append.mp mem with old | new
        · exact ⟨found,old,gives,fun other isOther =>
            last other (mem_append_left _ isOther)⟩
        · rw [mem_singleton.mp new,said] at gives
          cases gives
    | some value =>
      cases value with
      | true =>
        refine ⟨fun _ => ⟨item,atEnd,said,fun other isOther takes => ?_⟩,fun _ => rfl⟩
        rcases mem_append.mp isOther with old | new
        · exact cross other old item mem_cons_self
        · rw [mem_singleton.mp new,said] at takes
          cases takes
      | false =>
        refine ⟨fun impossible => (nomatch impossible),?_⟩
        rintro ⟨found,mem,_,last⟩
        have after := last item atEnd said
        rcases mem_append.mp mem with old | new
        · exact absurd (cross found old item mem_cons_self) (Nat.lt_asymm after)
        · rw [mem_singleton.mp new] at after
          exact absurd after (Nat.lt_irrefl _)

end Syndra.Foundation.Replay
