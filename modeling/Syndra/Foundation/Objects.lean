/-
Compact JSON of flat objects.

An object is a list of names with texts or natural numbers.
-/

import Mathlib.Data.List.TakeWhile
import Mathlib.Data.Nat.Digits.Defs
import Syndra.Foundation.Framing

namespace Syndra.Foundation.Objects

open Framing List

inductive Scalar where
  | text (content : String)
  | number (value : Nat)
deriving DecidableEq

abbrev Entry := String × Scalar

def hex4 (number : Nat) : List Char :=
  [Nat.digitChar (number / 4096 % 16),Nat.digitChar (number / 256 % 16),
    Nat.digitChar (number / 16 % 16),Nat.digitChar (number % 16)]

def shortEscapes : List (Char × Char) :=
  [('"', '"'),('\\', '\\'),('\n', 'n'),('\r', 'r'),('\t', 't'),(Char.ofNat 8, 'b'),
    (Char.ofNat 12, 'f')]

/-- Control characters, `<`, `>`, `&` and the two Unicode line breaks. -/
def longEscaped (char : Char) : Bool :=
  char.toNat < 0x20 || char.toNat ∈ [0x3C,0x3E,0x26,0x2028,0x2029]

def escape (char : Char) : List Char :=
  match shortEscapes.lookup char with
  | some letter => ['\\',letter]
  | none => if longEscaped char then '\\' :: 'u' :: hex4 char.toNat else [char]

def quote (text : String) : List Char := '"' :: (text.toList.flatMap escape ++ ['"'])

def Scalar.print : Scalar → List Char
  | .text content => quote content
  | .number value => Nat.toDigits 10 value

def printEntry (entry : Entry) : List Char := quote entry.1 ++ ':' :: entry.2.print

def printEntries : List Entry → List Char
  | [] => []
  | [entry] => printEntry entry
  | entry :: next :: rest => printEntry entry ++ ',' :: printEntries (next :: rest)

def print (entries : List Entry) : List Char := '{' :: (printEntries entries ++ ['}'])

def hexDigit (char : Char) : Option Nat :=
  (range 16).find? fun digit => Nat.digitChar digit = char

def readText : List Char → Option (List Char × List Char)
  | [] => none
  | '"' :: rest => some ([], rest)
  | '\\' :: 'u' :: a :: b :: c :: d :: rest =>
    match hexDigit a, hexDigit b, hexDigit c, hexDigit d, readText rest with
    | some a, some b, some c, some d, some (text, later) =>
      some (Char.ofNat (4096 * a + 256 * b + 16 * c + d) :: text, later)
    | _, _, _, _, _ => none
  | '\\' :: letter :: rest =>
    match shortEscapes.find? fun pair => pair.2 = letter, readText rest with
    | some pair, some (text, later) => some (pair.1 :: text, later)
    | _, _ => none
  | char :: rest =>
    if char.toNat < 0x20 then none
    else
      match readText rest with
      | some (text, later) => some (char :: text, later)
      | none => none

def readScalar : List Char → Option (Scalar × List Char)
  | '"' :: rest =>
    match readText rest with
    | some (text, later) => some (.text (String.ofList text), later)
    | none => none
  | chars =>
    match chars.takeWhile Char.isDigit with
    | [] => none
    | digit :: digits =>
      some (.number (Nat.ofDigitChars 10 (digit :: digits) 0), chars.dropWhile Char.isDigit)

def readEntry : List Char → Option (Entry × List Char)
  | '"' :: rest =>
    match readText rest with
    | some (name, mark :: later) =>
      if mark = ':' then
        (readScalar later).map fun found => ((String.ofList name, found.1), found.2)
      else none
    | _ => none
  | _ => none

def readEntries : Nat → List Char → Option (List Entry)
  | 0, _ => none
  | fuel + 1, chars =>
    match readEntry chars with
    | some (entry, mark :: later) =>
      if mark = ',' then (readEntries fuel later).map (entry :: ·)
      else if mark = '}' ∧ later = [] then some [entry]
      else none
    | _ => none

def read (chars : List Char) : Option (List Entry) :=
  match chars with
  | ['{','}'] => some []
  | '{' :: rest => readEntries rest.length rest
  | _ => none

theorem hexDigit_digitChar {digit : Nat} (small : digit < 16) :
    hexDigit (Nat.digitChar digit) = some digit := by
  have all : ∀ digit : Fin 16, hexDigit (Nat.digitChar digit) = some digit.val := by decide
  exact all ⟨digit,small⟩

variable {char : Char}

theorem longEscaped_small (escaped : longEscaped char = true) : char.toNat < 65536 := by
  unfold longEscaped at escaped
  rw [Bool.or_eq_true,decide_eq_true_eq,decide_eq_true_eq] at escaped
  rcases escaped with _ | listed
  · omega
  · simp only [List.mem_cons,List.not_mem_nil,or_false] at listed
    omega

theorem lookup_shortEscapes {letter : Char} (found : shortEscapes.lookup char = some letter) :
    (char, letter) ∈ shortEscapes := by
  obtain ⟨_,_,split,-⟩ := List.lookup_eq_some_iff.mp found
  rw [split]
  exact List.mem_append_right _ List.mem_cons_self

theorem plain_of_escape (noShort : shortEscapes.lookup char = none)
    (noLong : longEscaped char = false) : char ≠ '"' ∧ char ≠ '\\' ∧ ¬ char.toNat < 0x20 := by
  refine ⟨?_,?_,?_⟩
  · rintro rfl
    exact absurd noShort (by decide)
  · rintro rfl
    exact absurd noShort (by decide)
  intro control
  unfold longEscaped at noLong
  rw [decide_eq_true control] at noLong
  cases noLong

variable {rest chars : List Char}

theorem readText_escape : readText (escape char ++ rest) =
      (readText rest).map fun found => (char :: found.1, found.2) := by
  unfold escape
  cases short : shortEscapes.lookup char with
  | some =>
    have listed := lookup_shortEscapes short
    simp only [shortEscapes,mem_cons,not_mem_nil,or_false] at listed
    rcases listed with ⟨rfl,rfl⟩ | ⟨rfl,rfl⟩ | ⟨rfl,rfl⟩ | ⟨rfl,rfl⟩ | ⟨rfl,rfl⟩ | ⟨rfl,rfl⟩ |
      ⟨rfl,rfl⟩ <;>
    cases readRest : readText rest <;> simp [readText,readRest,shortEscapes]
  | none =>
    dsimp only
    split
    · next escaped =>
      have small := longEscaped_small escaped
      have value : 4096 * (char.toNat / 4096 % 16) + 256 * (char.toNat / 256 % 16) +
          16 * (char.toNat / 16 % 16) + char.toNat % 16 = char.toNat := by omega
      unfold hex4
      simp only [cons_append,nil_append]
      rw [readText]
      rw [hexDigit_digitChar (Nat.mod_lt _ (by decide)),hexDigit_digitChar (Nat.mod_lt _ (by decide)),
        hexDigit_digitChar (Nat.mod_lt _ (by decide)),hexDigit_digitChar (Nat.mod_lt _ (by decide))]
      cases readRest : readText rest with
      | none => rfl
      | some =>
        dsimp only [Option.map_some]
        rw [value,Char.ofNat_toNat]
    · next plain =>
      obtain ⟨_,_,noControl⟩ := plain_of_escape short (Bool.eq_false_iff.mpr plain)
      rw [singleton_append,readText]
      · rw [if_neg noControl]
        cases readText rest with
        | none | some => rfl
      all_goals simp_all

theorem readText_quoted : readText (chars.flatMap escape ++ '"' :: rest) = some (chars, rest) := by
  induction chars with
  | nil => rfl
  | cons _ _ ih =>
    rw [List.flatMap_cons,List.append_assoc,readText_escape,ih]
    rfl

def EndsNumber (rest : List Char) : Prop := ∀ char later, rest = char :: later → char.isDigit = false

theorem readScalar_print {value : Scalar} (ends : EndsNumber rest) :
    readScalar (value.print ++ rest) = some (value, rest) := by
  cases value with
  | text =>
    unfold Scalar.print quote
    rw [List.cons_append,readScalar,List.append_assoc,List.singleton_append,readText_quoted]
    dsimp only
    rw [String.ofList_toList]
  | number number =>
    change readScalar (Nat.toDigits 10 number ++ rest) = _
    have digits : ∀ char ∈ Nat.toDigits 10 number, char.isDigit = true := fun char mem =>
      Nat.isDigit_of_mem_toDigits (by decide) (by decide) mem
    have taken : (Nat.toDigits 10 number ++ rest).takeWhile Char.isDigit =
        Nat.toDigits 10 number := by
      rw [List.takeWhile_append_of_pos digits]
      cases rest with
      | nil => exact List.append_nil _
      | cons char later =>
        rw [List.takeWhile_cons_of_neg (Bool.eq_false_iff.mp (ends char later rfl))]
        exact List.append_nil _
    have dropped : (Nat.toDigits 10 number ++ rest).dropWhile Char.isDigit = rest := by
      rw [List.dropWhile_append_of_pos digits]
      cases rest with
      | nil => rfl
      | cons char later =>
        exact List.dropWhile_cons_of_neg (Bool.eq_false_iff.mp (ends char later rfl))
    rw [readScalar]
    · rw [taken,dropped]
      cases split : Nat.toDigits 10 number with
      | nil => exact absurd split Nat.toDigits_ne_nil
      | cons =>
        dsimp only
        rw [← split,Nat.ofDigitChars_ten_toDigits]
    · intro _ quoted
      cases split : Nat.toDigits 10 number with
      | nil => exact absurd split Nat.toDigits_ne_nil
      | cons digit =>
        rw [split,List.cons_append,List.cons.injEq] at quoted
        have isDigit := digits digit (split ▸ List.mem_cons_self)
        rw [quoted.1] at isDigit
        exact absurd isDigit (by decide)

variable {entry : Entry} {text : String}

theorem readEntry_print (ends : EndsNumber rest) :
    readEntry (printEntry entry ++ rest) = some (entry, rest) := by
  unfold printEntry quote
  rw [List.cons_append,List.cons_append,readEntry,List.append_assoc,List.append_assoc,
    List.singleton_append,readText_quoted,List.cons_append]
  dsimp only
  rw [if_pos rfl,readScalar_print ends,Option.map_some,String.ofList_toList]

theorem endsNumber_brace : EndsNumber ['}'] := by
  intro _ _ same
  rw [List.cons.injEq] at same
  rw [← same.1]
  decide

theorem endsNumber_comma : EndsNumber (',' :: rest) := by
  intro _ _ same
  rw [List.cons.injEq] at same
  rw [← same.1]
  decide

theorem readEntries_print (entry : Entry) (rest : List Entry) (fuel : Nat)
    (enough : rest.length < fuel) :
    readEntries fuel (printEntries (entry :: rest) ++ ['}']) = some (entry :: rest) := by
  induction rest generalizing entry fuel with
  | nil =>
    obtain ⟨fuel,rfl⟩ := Nat.exists_eq_succ_of_ne_zero (Nat.ne_of_gt enough)
    rw [printEntries,readEntries,readEntry_print endsNumber_brace]
    rfl
  | cons next _ ih =>
    obtain ⟨fuel,rfl⟩ := Nat.exists_eq_succ_of_ne_zero (Nat.ne_zero_of_lt enough)
    rw [printEntries,List.append_assoc,List.cons_append,readEntries,
      readEntry_print endsNumber_comma]
    dsimp only
    rw [ih next fuel (Nat.lt_of_succ_lt_succ enough)]
    rfl

variable (entries : List Entry)

theorem length_le_printEntries : entries.length ≤ (printEntries entries).length := by
  induction entries with
  | nil => exact Nat.le_refl _
  | cons entry rest =>
    have one : 1 ≤ (printEntry entry).length := by
      unfold printEntry quote
      exact Nat.succ_le_succ (Nat.zero_le _)
    cases rest with
    | nil => exact one
    | cons =>
      rw [printEntries,List.length_append,List.length_cons (a := ','),
        List.length_cons (a := entry)]
      omega

theorem read_print : read (print entries) = some entries := by
  cases entries with
  | nil => rfl
  | cons entry rest =>
    unfold print
    rw [read]
    · refine readEntries_print entry rest _ ?_
      have long := length_le_printEntries (entry :: rest)
      rw [List.length_append]
      rw [List.length_cons] at long
      omega
    · intro closed
      have long := length_le_printEntries (entry :: rest)
      have short := congrArg List.length closed
      rw [List.length_append] at short
      rw [List.length_cons] at long
      omega

theorem newline_notMem_escape : '\n' ∉ escape char := by
  unfold escape
  cases short : shortEscapes.lookup char with
  | some =>
    have listed := lookup_shortEscapes short
    simp only [shortEscapes,List.mem_cons,List.not_mem_nil,or_false] at listed
    rcases listed with ⟨-,rfl⟩ | ⟨-,rfl⟩ | ⟨-,rfl⟩ | ⟨-,rfl⟩ | ⟨-,rfl⟩ | ⟨-,rfl⟩ | ⟨-,rfl⟩ <;>
    exact List.not_mem_cons_of_ne_of_not_mem (by decide)
      (List.not_mem_cons_of_ne_of_not_mem (by decide) List.not_mem_nil)
  | none =>
    dsimp only
    split
    · have noDigit : ∀ digit : Fin 16, '\n' ≠ Nat.digitChar digit := by decide
      have apart (number : Nat) : '\n' ≠ Nat.digitChar (number % 16) :=
        noDigit ⟨number % 16,Nat.mod_lt _ (by decide)⟩
      unfold hex4
      simp only [List.mem_cons,List.not_mem_nil,or_false,not_or]
      exact ⟨by decide,by decide,apart _,apart _,apart _,apart _⟩
    · next plain =>
      obtain ⟨-,-,noControl⟩ := plain_of_escape short (Bool.eq_false_iff.mpr plain)
      rw [List.mem_singleton]
      rintro rfl
      exact noControl (by decide)

theorem newline_notMem_quote : '\n' ∉ quote text := by
  unfold quote
  rw [List.mem_cons,List.mem_append,not_or,not_or]
  refine ⟨by decide,fun inside => ?_,by decide⟩
  obtain ⟨char,-,escaped⟩ := List.mem_flatMap.mp inside
  exact newline_notMem_escape escaped

theorem newline_notMem_printEntry : '\n' ∉ printEntry entry := by
  unfold printEntry
  rw [List.mem_append,List.mem_cons,not_or,not_or]
  refine ⟨newline_notMem_quote,by decide,?_⟩
  cases entry.2 with
  | text content => exact newline_notMem_quote
  | number =>
    intro inside
    have isDigit := Nat.isDigit_of_mem_toDigits (by decide) (by decide) inside
    exact absurd isDigit (by decide)

theorem newline_notMem_printEntries : '\n' ∉ printEntries entries := by
  induction entries with
  | nil => exact List.not_mem_nil
  | cons entry rest ih =>
    cases rest with
    | nil => exact newline_notMem_printEntry
    | cons =>
      rw [printEntries,List.mem_append,List.mem_cons,not_or,not_or]
      exact ⟨newline_notMem_printEntry,by decide,ih⟩

theorem newline_notMem_print : '\n' ∉ print entries := by
  unfold print
  rw [List.mem_cons,List.mem_append,not_or,not_or]
  exact ⟨by decide,newline_notMem_printEntries entries,by decide⟩

def newline : UInt8 := 10

def bytes (entries : List Entry) : List UInt8 := utf8 (String.ofList (print entries))

def textOf (data : List UInt8) : Option String := String.fromUTF8? ⟨data.toArray⟩

theorem textOf_utf8 : textOf (utf8 text) = some text := by
  exact dif_pos text.isValidUTF8

theorem utf8_ofList : utf8 (String.ofList chars) = chars.flatMap String.utf8EncodeChar := by
  unfold utf8
  rw [String.toUTF8_eq_toByteArray,String.toByteArray_ofList,List.utf8Encode,
    List.toList_data_toByteArray]

theorem newline_ne_ofNat {number : Nat} (small : number < 256) (other : number ≠ 10) :
    newline ≠ UInt8.ofNat number := by
  intro same
  have nats := congrArg UInt8.toNat same
  rw [UInt8.toNat_ofNat_of_lt' small] at nats
  exact other nats.symm

theorem eq_newline_of_mem (mem : newline ∈ String.utf8EncodeChar char) : char = '\n' := by
  unfold String.utf8EncodeChar at mem
  dsimp only at mem
  split at mem
  · next ascii =>
    rw [List.mem_singleton] at mem
    by_contra other
    refine newline_ne_ofNat (Nat.lt_of_le_of_lt ascii (by decide)) (fun ten => other ?_) mem
    exact Char.ext (UInt32.toNat_inj.mp ten)
  · split at mem
    · simp only [List.mem_cons,List.not_mem_nil,or_false] at mem
      rcases mem with first | second
      · exact absurd first (newline_ne_ofNat (by omega) (by omega))
      · exact absurd second (newline_ne_ofNat (by omega) (by omega))
    split at mem
    · simp only [List.mem_cons,List.not_mem_nil,or_false] at mem
      rcases mem with first | second | third
      · exact absurd first (newline_ne_ofNat (by omega) (by omega))
      · exact absurd second (newline_ne_ofNat (by omega) (by omega))
      · exact absurd third (newline_ne_ofNat (by omega) (by omega))
    · simp only [List.mem_cons,List.not_mem_nil,or_false] at mem
      rcases mem with first | second | third | fourth
      · exact absurd first (newline_ne_ofNat (by omega) (by omega))
      · exact absurd second (newline_ne_ofNat (by omega) (by omega))
      · exact absurd third (newline_ne_ofNat (by omega) (by omega))
      · exact absurd fourth (newline_ne_ofNat (by omega) (by omega))

theorem newline_notMem_bytes : newline ∉ bytes entries := by
  unfold bytes
  rw [utf8_ofList]
  intro inside
  obtain ⟨_,mem,encoded⟩ := List.mem_flatMap.mp inside
  rw [eq_newline_of_mem encoded] at mem
  exact newline_notMem_print entries mem

def width (chars : List Char) : Nat := (chars.map Char.utf8Size).sum

@[simp] theorem width_cons (char : Char) (rest : List Char) :
    width (char :: rest) = char.utf8Size + width rest := List.sum_cons

@[simp] theorem width_append (first second : List Char) :
    width (first ++ second) = width first + width second := by
  unfold width
  rw [List.map_append,List.sum_append]

theorem length_utf8_ofList : (utf8 (String.ofList chars)).length = width chars := by
  rw [utf8_ofList]
  induction chars with
  | nil => rfl
  | cons _ _ ih =>
    rw [List.flatMap_cons,List.length_append,ih,width_cons,String.length_utf8EncodeChar]

theorem width_printEntries {entries : List Entry} (some : entries ≠ []) :
    width (printEntries entries) + 1 =
      (entries.map fun entry => width (printEntry entry) + 1).sum := by
  induction entries with
  | nil => exact absurd rfl some
  | cons _ rest ih =>
    cases rest with
    | nil => rfl
    | cons =>
      have comma : Char.utf8Size ',' = 1 := by decide
      rw [printEntries,width_append,width_cons,comma,List.map_cons,List.sum_cons,
        ← ih (List.cons_ne_nil _ _)]
      omega

theorem length_bytes {entries : List Entry} (some : entries ≠ []) :
    (bytes entries).length = (entries.map fun entry => width (printEntry entry) + 1).sum + 1 := by
  have opened : Char.utf8Size '{' = 1 := by decide
  have closed : width ['}'] = 1 := by decide
  unfold bytes print
  rw [length_utf8_ofList,width_cons,width_append,← width_printEntries some]
  omega

theorem width_text {name : String} {content : List Char} :
    width (printEntry (name, .text (String.ofList content))) =
      width (printEntry (name, .text "")) + width (content.flatMap escape) := by
  unfold printEntry Scalar.print quote
  dsimp only
  rw [String.toList_ofList]
  simp only [width_append,width_cons]
  have nothing : width (List.flatMap escape "".toList) = 0 := rfl
  omega

end Syndra.Foundation.Objects
