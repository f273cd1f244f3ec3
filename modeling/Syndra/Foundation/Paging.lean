/-
Reading a list page by page while it changes.

A page is a window of the list as it is at the moment of the request.
-/

import Mathlib.Data.List.TakeDrop

namespace Syndra.Foundation.Paging

open List

variable {Item : Type*}

def page (items : List Item) (offset limit : Nat) : List Item :=
  (items.drop offset).take limit

variable {items : List Item} {offset : Nat}

variable {limit : Nat}

theorem take_append_page :
    items.take offset ++ page items offset limit = items.take (offset + limit) :=
  take_add.symm

theorem take_append_short_page (short : (page items offset limit).length < limit) :
    items.take offset ++ page items offset limit = items := by
  have rest : (items.drop offset).length ≤ limit := by
    unfold page at short
    rw [length_take] at short
    omega
  unfold page
  rw [take_of_length_le rest,take_append_drop]

theorem mem_take_of_insert {front back : List Item} {inserted item : Item}
    (mem : item ∈ (front ++ inserted :: back).take offset) :
    item = inserted ∨ item ∈ (front ++ back).take offset := by
  rw [take_append,mem_append] at mem
  rw [take_append,mem_append]
  rcases mem with before | after
  · exact .inr (.inl before)
  cases room : offset - front.length with
  | zero =>
    rw [room] at after
    cases after
  | succ left =>
    rw [room,take_succ_cons,mem_cons] at after
    rcases after with same | later
    · exact .inl same
    · exact .inr (.inr ((take_sublist_take_left (Nat.le_succ left)).subset later))

theorem take_filter_of_spared {keep : Item → Bool}
    (spared : ∀ item ∈ items.take offset, keep item = true) :
    (items.filter keep).take offset = items.take offset := by
  have front : (items.take offset).filter keep = items.take offset := filter_eq_self.mpr spared
  conv_lhs => rw [← take_append_drop offset items,filter_append,front]
  rw [take_append]
  by_cases long : offset ≤ items.length
  · rw [length_take,Nat.min_eq_left long,Nat.sub_self,take_zero,append_nil, take_take,Nat.min_self]
  · rw [drop_eq_nil_of_le (Nat.le_of_not_le long),filter_nil,take_nil,
      append_nil,take_take,Nat.min_self]

end Syndra.Foundation.Paging
