/-
Length-prefixed framing of a list of fields.

Each field is written as its size, a mark the sizes never contain, and the field itself.
-/

import Mathlib.Data.List.Basic

namespace Syndra.Foundation.Framing

open List

variable {A : Type*}

def frame (size : Nat → List A) (mark : A) (fields : List (List A)) : List A :=
  fields.flatMap fun field => size field.length ++ mark :: field

variable {mark : A} {digit : Char} {number : Nat}

theorem append_mark_inj {first second : List A} :
    ∀ {left right : List A}, mark ∉ left → mark ∉ right →
      left ++ mark :: first = right ++ mark :: second → left = right ∧ first = second
  | [], [], _, _, same => ⟨rfl,(cons.inj same).2⟩
  | [], item :: right, _, unmarked, same =>
    absurd ((cons.inj same).1 ▸ mem_cons_self) unmarked
  | item :: left, [], unmarked, _, same =>
    absurd ((cons.inj same).1 ▸ mem_cons_self) unmarked
  | item :: left, other :: right, leftUnmarked, rightUnmarked, same => by
      obtain ⟨rfl,rest⟩ := cons.inj same
      obtain ⟨rfl,tails⟩ := append_mark_inj
        (fun later => leftUnmarked (mem_cons_of_mem _ later))
        (fun later => rightUnmarked (mem_cons_of_mem _ later)) rest
      exact ⟨rfl,tails⟩

theorem frame_injective {size : Nat → List A} (sized : Function.Injective size)
    (unmarked : ∀ number, mark ∉ size number) : Function.Injective (frame size mark) := by
  intro first
  induction first with
  | nil =>
    intro second same
    cases second with
    | nil => rfl
    | cons field rest =>
      have marked : mark ∈ frame size mark (field :: rest) := by
        simp [frame]
      rw [← same] at marked
      cases marked
  | cons field rest ih =>
    intro second same
    cases second with
    | nil =>
      have marked : mark ∈ frame size mark (field :: rest) := by
        simp [frame]
      rw [same] at marked
      cases marked
    | cons =>
      simp only [frame,flatMap_cons,append_assoc] at same
      obtain ⟨sizes,tails⟩ := append_mark_inj (unmarked _) (unmarked _) same
      obtain ⟨rfl,later⟩ := append_inj tails (sized sizes)
      rw [ih later]

def utf8 (text : String) : List UInt8 := text.toUTF8.data.toList

def decimal (number : Nat) : List UInt8 :=
  (Nat.toDigits 10 number).map fun digit => digit.toNat.toUInt8

def colon : UInt8 := 58

def frameText (fields : List String) : List UInt8 := frame decimal colon (fields.map utf8)

theorem utf8_injective : Function.Injective utf8 := by
  intro _ _ same
  apply String.toByteArray_inj.mp
  apply ByteArray.ext
  exact Array.toList_inj.mp same

private theorem digit_bounds (mem : digit ∈ Nat.toDigits 10 number) :
    48 ≤ digit.toNat ∧ digit.toNat ≤ 57 := by
  have isDigit := Nat.isDigit_of_mem_toDigits (by decide) (by decide) mem
  simp only [Char.isDigit,Bool.and_eq_true,decide_eq_true_eq] at isDigit
  exact isDigit

private theorem ofNat_digit (mem : digit ∈ Nat.toDigits 10 number) :
    Char.ofNat digit.toNat.toUInt8.toNat = digit := by
  obtain ⟨_,small⟩ := digit_bounds mem
  rw [UInt8.toNat_ofNat_of_lt' (Nat.lt_of_le_of_lt small (by decide))]
  exact Char.ofNat_toNat digit

theorem decimal_injective : Function.Injective decimal := by
  have read (number : Nat) :
      (decimal number).map (fun byte => Char.ofNat byte.toNat) = Nat.toDigits 10 number := by
    unfold decimal
    rw [map_map]
    exact (map_congr_left fun digit => ofNat_digit).trans (map_id _)
  intro first second same
  have digits : Nat.toDigits 10 first = Nat.toDigits 10 second := by
    rw [← read first,← read second,same]
  calc first
      = Nat.ofDigitChars 10 (Nat.toDigits 10 first) 0 := Nat.ofDigitChars_ten_toDigits.symm
    _ = Nat.ofDigitChars 10 (Nat.toDigits 10 second) 0 := by rw [digits]
    _ = second := Nat.ofDigitChars_ten_toDigits

theorem colon_notMem_decimal (number : Nat) : colon ∉ decimal number := by
  intro mem
  obtain ⟨digit,isDigit,same⟩ := mem_map.mp mem
  obtain ⟨_,small⟩ := digit_bounds isDigit
  have value := congrArg UInt8.toNat same
  rw [UInt8.toNat_ofNat_of_lt' (Nat.lt_of_le_of_lt small (by decide))] at value
  change digit.toNat = 58 at value
  omega

theorem frameText_injective : Function.Injective frameText :=
  (frame_injective decimal_injective colon_notMem_decimal).comp
    (map_injective_iff.mpr utf8_injective)

end Syndra.Foundation.Framing
