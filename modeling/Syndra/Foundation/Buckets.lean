/-
Buckets: rows kept in the order of their keys, one row a key.
-/

import Mathlib.Order.Lattice
import Mathlib.Data.List.Pairwise

namespace Syndra.Foundation.Buckets

open List

variable {Key Value : Type*} [LinearOrder Key]

structure Bucket (key : Value → Key) where
  rows : List Value
  ordered : rows.Pairwise fun first second => key first < key second

def place (key : Value → Key) (value : Value) : List Value → List Value
  | [] => [value]
  | row :: rest =>
    if key value < key row then value :: row :: rest
    else if key value = key row then value :: rest
    else row :: place key value rest

variable {key : Value → Key} {value : Value} {rows : List Value}

theorem mem_place {other : Value}
    (ordered : rows.Pairwise fun first second => key first < key second) :
    other ∈ place key value rows ↔ other = value ∨ other ∈ rows ∧ key other ≠ key value := by
  induction rows with
  | nil => simp [place]
  | cons row rest ih =>
    obtain ⟨below,later⟩ := pairwise_cons.mp ordered
    unfold place
    split
    · next smaller =>
      have apart (mem : other ∈ row :: rest) : key other ≠ key value := by
        rcases mem_cons.mp mem with rfl | inRest
        · exact smaller.ne'
        · exact (smaller.trans (below other inRest)).ne'
      rw [mem_cons]
      exact or_congr_right ⟨fun mem => ⟨mem,apart mem⟩,And.left⟩
    · split
      · next same =>
        rw [mem_cons,mem_cons]
        constructor
        · rintro (rfl | inRest)
          · exact .inl rfl
          · exact .inr ⟨.inr inRest,same ▸ (below other inRest).ne'⟩
        rintro (rfl | ⟨rfl | inRest,apart⟩)
        · exact .inl rfl
        · exact absurd same.symm apart
        · exact .inr inRest
      · next notSmaller notSame =>
        rw [mem_cons,ih later,mem_cons]
        constructor
        · rintro (rfl | rfl | ⟨inRest,apart⟩)
          · exact .inr ⟨.inl rfl,fun same => notSame same.symm⟩
          · exact .inl rfl
          · exact .inr ⟨.inr inRest,apart⟩
        · rintro (rfl | ⟨rfl | inRest,apart⟩)
          · exact .inr (.inl rfl)
          · exact .inl rfl
          · exact .inr (.inr ⟨inRest,apart⟩)

theorem place_ordered (ordered : rows.Pairwise fun first second => key first < key second) :
    (place key value rows).Pairwise fun first second => key first < key second := by
  induction rows with
  | nil => exact pairwise_singleton _ _
  | cons _ _ ih =>
    obtain ⟨below,later⟩ := pairwise_cons.mp ordered
    unfold place
    split
    · next smaller =>
      refine pairwise_cons.mpr ⟨fun other mem => ?_,ordered⟩
      rcases mem_cons.mp mem with rfl | inRest
      · exact smaller
      · exact smaller.trans (below other inRest)
    · split
      · next same =>
        exact pairwise_cons.mpr
          ⟨fun other inRest => same ▸ below other inRest,later⟩
      rename_i notSmaller notSame
      refine pairwise_cons.mpr ⟨fun other mem => ?_,ih later⟩
      rcases (mem_place later).mp mem with rfl | ⟨inRest,-⟩
      · exact lt_of_le_of_ne (not_lt.mp notSmaller) (fun same => notSame same.symm)
      · exact below other inRest

namespace Bucket

variable {key : Value → Key}

def get (bucket : Bucket key) (sought : Key) : Option Value :=
  bucket.rows.find? fun row => key row = sought

def put (bucket : Bucket key) (value : Value) : Bucket key :=
  { rows := place key value bucket.rows
    ordered := place_ordered bucket.ordered }

def delete (bucket : Bucket key) (gone : Key) : Bucket key :=
  { rows := bucket.rows.filter fun row => key row ≠ gone
    ordered := bucket.ordered.filter _ }

variable {bucket : Bucket key} {sought : Key} {value : Value}

theorem eq_of_key_eq {first second : Value} (inFirst : first ∈ bucket.rows)
    (inSecond : second ∈ bucket.rows) (same : key first = key second) : first = second := by
  by_contra apart
  rcases pairwise_iff_getElem.mp bucket.ordered with ordered
  obtain ⟨i,iBound,rfl⟩ := getElem_of_mem inFirst
  obtain ⟨j,jBound,rfl⟩ := getElem_of_mem inSecond
  rcases Nat.lt_trichotomy i j with before | rfl | after
  · exact absurd same (ordered i j iBound jBound before).ne
  · exact apart rfl
  · exact absurd same (ordered j i jBound iBound after).ne'

theorem get_eq_some :
    bucket.get sought = some value ↔ value ∈ bucket.rows ∧ key value = sought := by
  constructor
  · intro found
    have same := find?_some found
    exact ⟨mem_of_find?_eq_some found,of_decide_eq_true same⟩
  rintro ⟨mem,rfl⟩
  cases found : bucket.get (key value) with
  | none =>
    have missed := find?_eq_none.mp found value mem
    exact absurd (decide_eq_true rfl) missed
  | some =>
    have inRows := mem_of_find?_eq_some found
    have same := find?_some found
    rw [eq_of_key_eq inRows mem (of_decide_eq_true same)]

variable {other : Value} {gone : Key}

theorem mem_put : other ∈ (bucket.put value).rows ↔
      other = value ∨ other ∈ bucket.rows ∧ key other ≠ key value :=
  mem_place bucket.ordered

theorem mem_delete :
    other ∈ (bucket.delete gone).rows ↔ other ∈ bucket.rows ∧ key other ≠ gone := by
  unfold delete
  rw [mem_filter,decide_eq_true_eq]

theorem get_put_self : (bucket.put value).get (key value) = some value :=
  get_eq_some.mpr ⟨mem_put.mpr (.inl rfl),rfl⟩

theorem get_put_of_ne (apart : sought ≠ key value) :
    (bucket.put value).get sought = bucket.get sought := by
  apply Option.ext
  intro _
  rw [get_eq_some,get_eq_some,mem_put]
  constructor
  · rintro ⟨rfl | ⟨mem,-⟩,same⟩
    · exact absurd same.symm apart
    · exact ⟨mem,same⟩
  · rintro ⟨mem,rfl⟩
    exact ⟨.inr ⟨mem,apart⟩,rfl⟩

theorem get_delete_of_ne (apart : sought ≠ gone) :
    (bucket.delete gone).get sought = bucket.get sought := by
  apply Option.ext
  intro _
  rw [get_eq_some,get_eq_some,mem_delete]
  constructor
  · rintro ⟨⟨mem,-⟩,same⟩
    exact ⟨mem,same⟩
  · rintro ⟨mem,rfl⟩
    exact ⟨⟨mem,apart⟩,rfl⟩

end Bucket

end Syndra.Foundation.Buckets
