/-
Texts as the host language and its database read them.
-/

import Mathlib.Algebra.Group.Int.Defs
import Mathlib.Algebra.GroupWithZero.Nat
import Mathlib.Data.List.Sublists
import Mathlib.Data.List.TakeWhile

namespace Syndra.Foundation.Text

open List String

/-- `strings.ToLower` where it gives ASCII letters: those of ASCII, the Kelvin sign and the
dotted capital I. Letters beyond ASCII with another lower case are left as they are. -/
def toLower (text : String) : String :=
  String.ofList (text.toList.map fun char =>
    if char = '\u212A' then 'k' else if char = '\u0130' then 'i' else char.toLower)

/-- `strings.EqualFold` where one of the two is ASCII. -/
def equalFold (first second : String) : Bool :=
  let fold (char : Char) :=
    if char = '\u212A' then 'k' else if char = '\u017F' then 's' else char.toLower
  first.toList.map fold = second.toList.map fold

/-- The characters of the Unicode property White_Space. -/
def isSpace (char : Char) : Bool :=
  char.toNat ∈ [0x20,0x85,0xA0,0x1680,0x2028,0x2029,0x202F,0x205F,0x3000] ||
    (9 ≤ char.toNat && char.toNat ≤ 13) || (0x2000 ≤ char.toNat && char.toNat ≤ 0x200A)

def trimSpace (text : String) : String :=
  String.ofList ((text.toList.dropWhile isSpace).reverse.dropWhile isSpace).reverse

theorem isSpace_of_trimSpace_eq {text : String} (blank : trimSpace text = "") :
    ∀ char ∈ text.toList, isSpace char = true := by
  unfold trimSpace at blank
  have trimmed : (text.toList.dropWhile isSpace).reverse.dropWhile isSpace = [] := by
    rw [← reverse_eq_nil_iff,← toList_ofList (l := reverse _),blank]
    rfl
  have rest := dropWhile_eq_nil_iff.mp trimmed
  intro char mem
  rw [← takeWhile_append_dropWhile (p := isSpace) (l := text.toList), mem_append] at mem
  rcases mem with front | back
  · exact mem_takeWhile_imp front
  · exact rest char (mem_reverse.mpr back)

/-- SQL `LIKE`, pattern first: `%` any run of characters, `_` any one, and a
backslash takes the next character as it stands. -/
def like : List Char → List Char → Bool
  | [], text => text.isEmpty
  | '%' :: rest, text => text.tails.any (like rest)
  | '_' :: rest, text =>
    match text with
    | [] => false
    | _ :: later => like rest later
  | '\\' :: escaped :: rest, text =>
    match text with
    | [] => false
    | first :: later => first = escaped && like rest later
  | plain :: rest, text =>
    match text with
    | [] => false
    | first :: later => first = plain && like rest later

def byteLength (text : String) : Nat := (text.toList.map Char.utf8Size).sum

def before (mark : Char) (text : String) : String :=
  String.ofList (text.toList.takeWhile (· ≠ mark))

private def digitsValue : List Char → Option Nat
  | [] => none
  | digits =>
    if digits.all Char.isDigit then
      some (digits.foldl (fun sum digit => 10 * sum + (digit.toNat - 48)) 0)
    else none

def parseInt (text : String) : Option Int :=
  let number : Option Int :=
    match text.toList with
    | '-' :: digits => (digitsValue digits).map fun value => -(value : Int)
    | '+' :: digits => (digitsValue digits).map fun value => (value : Int)
    | digits => (digitsValue digits).map fun value => (value : Int)
  number.filter fun value => -(2 ^ 63 : Int) ≤ value && value < (2 ^ 63 : Int)

def segments : List Char → List (List Char)
  | [] => [[]]
  | char :: rest =>
    if char = '/' then [] :: segments rest
    else
      match segments rest with
      | [] => [[char]]
      | first :: others => (char :: first) :: others

/-- One name read after those already kept, the latest first: a dot stays, two
dots go back, from the root nowhere. -/
def follow (rooted : Bool) (kept : List (List Char)) (name : List Char) : List (List Char) :=
  if name = [] ∨ name = ['.'] then kept
  else if name = ['.','.'] then
    match kept with
    | [] => if rooted then [] else [name]
    | last :: others => if last = ['.','.'] then name :: kept else others
  else name :: kept

def cleanPath (path : String) : String :=
  let rooted := path.toList.head? = some '/'
  let kept := ((segments path.toList).foldl (follow rooted) []).reverse
  let words := (kept.map String.ofList).intersperse "/"
  if rooted then String.join ("/" :: words)
  else if kept = [] then "." else String.join words

def joinPath (first second : String) : String :=
  if first = "" then (if second = "" then "" else cleanPath second)
  else if second = "" then cleanPath first
  else cleanPath (first ++ "/" ++ second)

def parentPath (path : String) : String :=
  cleanPath (String.ofList (path.toList.reverse.dropWhile (· ≠ '/')).reverse)

def hexadecimal (bytes : List UInt8) : String :=
  String.ofList (bytes.flatMap fun byte =>
    [Nat.digitChar (byte.toNat / 16),Nat.digitChar (byte.toNat % 16)])

variable {first second : Nat}

private theorem digitChar_inj (one : first < 16) (two : second < 16)
    (same : Nat.digitChar first = Nat.digitChar second) : first = second := by
  have all : ∀ a : Fin 16, ∀ b : Fin 16, Nat.digitChar a = Nat.digitChar b → a = b := by decide
  exact congrArg Fin.val (all ⟨first,one⟩ ⟨second,two⟩ same)

theorem hexadecimal_injective : Function.Injective hexadecimal := by
  intro first second same
  have digits := ofList_injective same
  clear same
  induction first generalizing second with
  | nil =>
    cases second with
    | nil => rfl
    | cons => cases digits
  | cons byte _ ih =>
    cases second with
    | nil => cases digits
    | cons other =>
      rw [flatMap_cons,flatMap_cons] at digits
      simp only [cons_append,cons.injEq] at digits
      obtain ⟨high,low,later⟩ := digits
      have small := byte.toNat_lt
      have smallToo := other.toNat_lt
      have highs := digitChar_inj (by omega) (by omega) high
      have lows := digitChar_inj (by omega) (by omega) low
      have bytes : byte = other := UInt8.toNat_inj.mp (by omega)
      rw [bytes,ih later]

private def bitsOf (byte : UInt8) : List Bool :=
  (range 8).reverse.map byte.toNat.testBit

private def quintet (bits : List Bool) : Char :=
  let number := bits.foldl (fun sum bit => 2 * sum + bit.toNat) 0
  if number < 26 then Char.ofNat (97 + number) else Char.ofNat (24 + number)

private def quintets : List Bool → List Char
  | one :: two :: three :: four :: five :: rest =>
    quintet [one,two,three,four,five] :: quintets rest
  | [] => []
  | few => [quintet (few ++ replicate (5 - few.length) false)]

def base32 (bytes : List UInt8) : List Char := quintets (bytes.flatMap bitsOf)

private theorem quintet_alphabet : ∀ one two three four five : Bool,
    'a' ≤ quintet [one,two,three,four,five] ∧ quintet [one,two,three,four,five] ≤ 'z' ∨
      '0' ≤ quintet [one,two,three,four,five] ∧ quintet [one,two,three,four,five] ≤ '9' := by
  decide

theorem base32_alphabet {bytes : List UInt8} {char : Char} (mem : char ∈ base32 bytes) :
    'a' ≤ char ∧ char ≤ 'z' ∨ '0' ≤ char ∧ char ≤ '9' := by
  have each (bits : List Bool) : char ∈ quintets bits →
      'a' ≤ char ∧ char ≤ 'z' ∨ '0' ≤ char ∧ char ≤ '9' := by
    fun_induction quintets bits with
    | case1 _ _ _ _ _ _ ih =>
      intro here
      rcases mem_cons.mp here with rfl | later
      · exact quintet_alphabet _ _ _ _ _
      · exact ih later
    | case2 => exact nofun
    | case3 few short nonempty =>
      intro here
      rw [mem_singleton] at here
      subst here
      match few, short, nonempty with
      | [], _, nonempty => exact absurd rfl nonempty
      | [_], _, _ | [_,_], _, _ | [_,_,_], _, _ | [_,_,_,_], _, _ =>
        exact quintet_alphabet _ _ _ _ _
      | _ :: _ :: _ :: _ :: _ :: _, short, _ => exact absurd rfl (short _ _ _ _ _ _)
  exact each _ mem

theorem toString_nat_injective : Function.Injective (toString : Nat → String) := by
  intro first second same
  have digits : Nat.toDigits 10 first = Nat.toDigits 10 second := ofList_injective same
  calc first
      = Nat.ofDigitChars 10 (Nat.toDigits 10 first) 0 := Nat.ofDigitChars_ten_toDigits.symm
    _ = Nat.ofDigitChars 10 (Nat.toDigits 10 second) 0 := by rw [digits]
    _ = second := Nat.ofDigitChars_ten_toDigits

private theorem minus_ne_digits : "-" ++ toString first ≠ toString second := by
  intro same
  have digits : (toString second).toList = Nat.toDigits 10 second := toList_ofList
  have minus : '-' ∈ Nat.toDigits 10 second := by
    rw [← digits,← same]
    simp
  have digit := Nat.isDigit_of_mem_toDigits (by decide) (by decide) minus
  exact absurd digit (by decide)

theorem toString_int_injective : Function.Injective (toString : Int → String) := by
  intro first second same
  cases first with
  | ofNat =>
    cases second with
    | ofNat => rw [toString_nat_injective same]
    | negSucc => exact absurd same.symm minus_ne_digits
  | negSucc first =>
    cases second with
    | ofNat => exact absurd same minus_ne_digits
    | negSucc second =>
      have digits : toString (first + 1) = toString (second + 1) :=
        (append_right_inj "-").mp same
      have numbers := toString_nat_injective digits
      rw [Nat.succ.inj numbers]

end Syndra.Foundation.Text
