/-
JSON texts as Go reads them into a value and writes the value back.

A number is read into a float64 and written in the fewest digits that read back as it. An
object keeps the last value of a name and is written with its names in order.
-/

import Syndra.Foundation.Objects

namespace Syndra.Foundation

open List Objects

namespace Decimals

/-- A finite float64, of the size `mantissa * 2 ^ exponent`. -/
structure Double where
  negative : Bool
  mantissa : Nat
  exponent : Int
deriving DecidableEq

/-- The fraction times a power of the base. -/
def shift (base : Nat) (value : Nat × Nat) (power : Int) : Nat × Nat :=
  (value.1 * base ^ power.toNat, value.2 * base ^ (-power).toNat)

/-- The nearest whole number, of two the even one. -/
def nearest (value : Nat × Nat) : Nat :=
  let down := value.1 / value.2
  let twice := 2 * (value.1 % value.2)
  if value.2 < twice ∨ twice = value.2 ∧ down % 2 = 1 then down + 1 else down

/-- The greatest power of the base that is not above the fraction. -/
def magnitude (base : Nat) (value : Nat × Nat) : Int :=
  let guess : Int := (Nat.toDigits base value.1).length - (Nat.toDigits base value.2).length
  let left := shift base value (-guess)
  if left.1 < left.2 then guess - 1 else guess

/-- The mantissa and the exponent of the nearest float64, if it is not infinite. -/
def round (value : Nat × Nat) : Option (Nat × Int) :=
  let exponent := max (-1074) (magnitude 2 value - 52)
  let mantissa := nearest (shift 2 value (-exponent))
  let rounded := if mantissa = 2 ^ 53 then (2 ^ 52, exponent + 1) else (mantissa, exponent)
  if 971 < rounded.2 then none else some rounded

def digitsValue (digits : List Char) : Nat := Nat.ofDigitChars 10 digits 0

/-- The digits up to the first other character, at least one. -/
def readDigits (chars : List Char) : Option (List Char × List Char) :=
  match chars.takeWhile Char.isDigit with
  | [] => none
  | digits => some (digits, chars.dropWhile Char.isDigit)

def readFraction : List Char → Option (List Char × List Char)
  | '.' :: rest => readDigits rest
  | chars => some ([], chars)

def readExponent : List Char → Option Int
  | [] => some 0
  | mark :: rest =>
    let digits := match rest with
      | '+' :: digits | '-' :: digits => digits
      | digits => digits
    match readDigits digits with
    | some (digits, []) =>
      if mark = 'e' ∨ mark = 'E' then
        some (if rest.head? = some '-' then -digitsValue digits else digitsValue digits)
      else none
    | _ => none

def readNumber (chars : List Char) : Option Double := do
  let negative := chars.head? = some '-'
  let (whole, rest) ← readDigits (if negative then chars.tail else chars)
  if 1 < whole.length ∧ whole.head? = some '0' then none
  else
    let (fraction, rest) ← readFraction rest
    let exponent ← readExponent rest
    let (mantissa, binary) ←
      round (shift 10 (digitsValue (whole ++ fraction), 1) (exponent - fraction.length))
    some { negative := negative, mantissa := mantissa, exponent := binary }

/-- The decimal of so many digits that reads back as the float64: the nearest one if that
does, or else the one on the other side. -/
def decimalOf (float : Nat × Int) (digits : Nat) : Option (Nat × Int) :=
  let value := shift 2 (float.1, 1) float.2
  let power := magnitude 10 value - digits
  let near := nearest (shift 10 value (-power))
  ([near,near - 1,near + 1].find? fun decimal =>
    round (shift 10 (decimal, 1) power) = some float).map fun decimal => (decimal, power)

def shortest (float : Nat × Int) : Nat × Int :=
  ((range 17).findSome? (decimalOf float)).getD (0, 0)

/-- The digits with the point after so many of them. -/
def printPlain (digits : List Char) (point : Int) : List Char :=
  let whole := digits.take point.toNat ++ replicate (point.toNat - digits.length) '0'
  let fraction := replicate (-point).toNat '0' ++ digits.drop point.toNat
  (if whole = [] then ['0'] else whole) ++ if fraction = [] then [] else '.' :: fraction

def printScientific (digits : List Char) (power : Int) : List Char :=
  digits.take 1 ++ (if digits.length = 1 then [] else '.' :: digits.drop 1) ++
    'e' :: (if power < 0 then '-' else '+') :: Nat.toDigits 10 power.natAbs

def Double.print (number : Double) : List Char :=
  let sign := if number.negative then ['-'] else []
  if number.mantissa = 0 then sign ++ ['0']
  else
    let decimal := shortest (number.mantissa, number.exponent)
    let all := Nat.toDigits 10 decimal.1
    let digits := (all.reverse.dropWhile (· = '0')).reverse
    let power := all.length + decimal.2 - 1
    sign ++ if power < -6 ∨ 21 ≤ power then printScientific digits power
      else printPlain digits (power + 1)

end Decimals

inductive Json where
  | null
  | boolean (value : Bool)
  | number (value : Decimals.Double)
  | text (content : String)
  | array (items : List Json)
  | object (fields : List (String × Json))

namespace Json

mutual

def print : Json → List Char
  | .null => "null".toList
  | .boolean value => (toString value).toList
  | .number value => value.print
  | .text content => quote content
  | .array items => '[' :: printItems items
  | .object fields => '{' :: printFields fields

def printItems : List Json → List Char
  | [] => [']']
  | [item] => print item ++ [']']
  | item :: rest => print item ++ ',' :: printItems rest

def printFields : List (String × Json) → List Char
  | [] => ['}']
  | [(name, value)] => quote name ++ ':' :: print value ++ ['}']
  | (name, value) :: rest => quote name ++ ':' :: print value ++ ',' :: printFields rest

end

/-- A marks character, a run of other characters, or a text. -/
inductive Token where
  | mark (char : Char)
  | word (chars : List Char)
  | text (content : String)

/-- What the reader is in: nothing, a word, a text, an escape in it, or its code. -/
inductive Mode where
  | between
  | word (soFar : List Char)
  | text (soFar : List Nat)
  | escape (soFar : List Nat)
  | code (soFar digits : List Nat)

/-- A pair of surrogates is one character, and one alone the replacement character. -/
def characters : List Nat → List Char
  | high :: low :: rest =>
    if 0xD800 ≤ high ∧ high < 0xDC00 ∧ 0xDC00 ≤ low ∧ low < 0xE000 then
      Char.ofNat (0x10000 + (high - 0xD800) * 1024 + (low - 0xDC00)) :: characters rest
    else (if 0xD800 ≤ high ∧ high < 0xE000 then Char.ofNat 0xFFFD else Char.ofNat high) ::
      characters (low :: rest)
  | [code] => [if 0xD800 ≤ code ∧ code < 0xE000 then Char.ofNat 0xFFFD else Char.ofNat code]
  | [] => []

def Mode.flush : Mode → List Token → List Token
  | .word soFar, tokens => .word soFar.reverse :: tokens
  | _, tokens => tokens

def tokens : Mode → List Char → Option (List Token)
  | .between, [] => some []
  | .word soFar, [] => some [.word soFar.reverse]
  | _, [] => none
  | .text soFar, char :: rest =>
    if char = '"' then
      (tokens .between rest).map (.text (String.ofList (characters soFar.reverse)) :: ·)
    else if char = '\\' then tokens (.escape soFar) rest
    else if char.toNat < 0x20 then none
    else tokens (.text (char.toNat :: soFar)) rest
  | .escape soFar, char :: rest =>
    if char = 'u' then tokens (.code soFar []) rest
    else
      match (('/', '/') :: shortEscapes).find? fun pair => pair.2 = char with
      | some pair => tokens (.text (pair.1.toNat :: soFar)) rest
      | none => none
  | .code soFar digits, char :: rest =>
    match hexDigit char.toLower with
    | none => none
    | some digit =>
      if digits.length < 3 then tokens (.code soFar (digits ++ [digit])) rest
      else tokens (.text ((digits ++ [digit]).foldl (16 * · + ·) 0 :: soFar)) rest
  | mode, char :: rest =>
    if char.isWhitespace then (tokens .between rest).map mode.flush
    else if char = '"' then (tokens (.text []) rest).map mode.flush
    else if char ∈ ['[',']','\x7b','\x7d',',',':'] then
      (tokens .between rest).map fun later => mode.flush (.mark char :: later)
    else
      match mode with
      | .word soFar => tokens (.word (char :: soFar)) rest
      | _ => tokens (.word [char]) rest

/-- An array or an object that is being read, its items or fields so far; the fields have
distinct names in order. -/
inductive Frame where
  | array (items : List Json)
  | object (fields : List (String × Json)) (name : String)

def setField (name : String) (value : Json) : List (String × Json) → List (String × Json)
  | [] => [(name, value)]
  | field :: rest =>
    if name < field.1 then (name, value) :: field :: rest
    else if name = field.1 then (name, value) :: rest
    else field :: setField name value rest

/-- What comes next: a value, a name, the colon after it, or what follows a value. Only a
first item or name may be missing. -/
inductive Stage where
  | value (first : Bool)
  | name (first : Bool)
  | colon
  | after (value : Json)

def word (chars : List Char) : Option Json :=
  if chars = "null".toList then some .null
  else if chars = "true".toList then some (.boolean true)
  else if chars = "false".toList then some (.boolean false)
  else (Decimals.readNumber chars).map .number

def maxNestingDepth : Nat := 10000

def build : Stage → List Frame → List Token → Option Json
  | .after value, [], [] => some value
  | _, _, [] => none
  | .value first, stack, .mark char :: rest =>
    if char = '[' ∧ stack.length < maxNestingDepth then
      build (.value true) (.array [] :: stack) rest
    else if char = '\x7b' ∧ stack.length < maxNestingDepth then
      build (.name true) (.object [] "" :: stack) rest
    else
      match stack with
      | .array _ :: stack =>
        if first ∧ char = ']' then build (.after (.array [])) stack rest else none
      | _ => none
  | .value _, stack, .text content :: rest => build (.after (.text content)) stack rest
  | .value _, stack, .word chars :: rest =>
    match word chars with
    | some value => build (.after value) stack rest
    | none => none
  | .name first, .object fields _ :: stack, token :: rest =>
    match token with
    | .text name => build .colon (.object fields name :: stack) rest
    | .mark char =>
      if first ∧ char = '\x7d' then build (.after (.object fields)) stack rest else none
    | .word _ => none
  | .colon, stack, .mark char :: rest =>
    if char = ':' then build (.value false) stack rest else none
  | .after value, .array items :: stack, .mark char :: rest =>
    if char = ',' then build (.value false) (.array (items ++ [value]) :: stack) rest
    else if char = ']' then build (.after (.array (items ++ [value]))) stack rest
    else none
  | .after value, .object fields name :: stack, .mark char :: rest =>
    if char = ',' then build (.name false) (.object (setField name value fields) "" :: stack) rest
    else if char = '\x7d' then build (.after (.object (setField name value fields))) stack rest
    else none
  | _, _, _ => none

def read (text : String) : Option Json :=
  (tokens .between text.toList).bind (build (.value false) [])

def isArray : Json → Bool
  | .array _ => true
  | _ => false

def Frame.isArray : Frame → Bool
  | .array _ => true
  | .object _ _ => false

/-- The first character besides space opens an array. -/
def opens (chars : List Char) : Bool := (chars.dropWhile Char.isWhitespace).head? = some '['

def Token.opens : Token → Bool
  | .mark char => char = '['
  | _ => false

variable {chars : List Char} {first : Token} {rest : List Token} {mode : Mode} {stage : Stage}
  {stack : List Frame} {value found : Json}

theorem not_opens_of_word (inside : mode ≠ .between)
    (read : tokens mode chars = some (first :: rest)) : first.opens = false := by
  induction chars generalizing mode first rest with
  | nil =>
    cases mode with
    | _ => grind [tokens,Token.opens]
  | cons char chars ih =>
    cases mode with
    | _ => grind [tokens,Token.opens,Mode.flush,Option.map_eq_some_iff]

theorem opens_tokens (read : tokens .between chars = some (first :: rest)) :
    first.opens = opens chars := by
  induction chars with
  | nil => cases read
  | cons char chars ih =>
    unfold tokens at read
    unfold opens at ih ⊢
    rw [dropWhile_cons]
    split at read
    next space =>
      obtain ⟨_,later,same⟩ := Option.map_eq_some_iff.mp read
      rw [if_pos space]
      exact ih (later.trans (congrArg some same))
    next space =>
      rw [if_neg space]
      grind [not_opens_of_word,Token.opens,Option.map_eq_some_iff,Mode.flush]

theorem build_after (read : build (.after value) [] rest = some found) : found = value := by
  cases rest with
  | nil => exact (Option.some.inj read).symm
  | cons token =>
    cases token with
    | _ => cases read

/-- What is read is an array if the frame at the bottom is one. -/
theorem isArray_build {kind : Bool} (bottom : (stack.map Frame.isArray).getLast? = some kind)
    (read : build stage stack rest = some found) : found.isArray = kind := by
  fun_induction build stage stack rest with
  | _ => grind [build_after,isArray,Frame.isArray]

theorem isArray_read {text : String} (isRead : read text = some found) :
    found.isArray = opens text.toList := by
  obtain ⟨list,scanned,built⟩ := Option.bind_eq_some_iff.mp isRead
  cases list with
  | nil => cases built
  | cons first rest =>
    rw [← opens_tokens scanned]
    cases first with
    | mark char =>
      unfold build at built
      split at built
      next array =>
        rw [isArray_build rfl built]
        simp [Token.opens,Frame.isArray,array]
      split at built
      next object =>
        rw [isArray_build rfl built]
        simp [Token.opens,Frame.isArray,object]
      · cases built
    | word chars =>
      unfold build at built
      grind [build_after,Token.opens,word,isArray,Option.map_eq_some_iff]
    | text content =>
      rw [build_after built]
      rfl

theorem bracket_notMem_print (number : Decimals.Double) : '[' ∉ number.print := by
  have digits (value : Nat) : '[' ∉ Nat.toDigits 10 value := fun mem =>
    absurd (Nat.isDigit_of_mem_toDigits (by decide) (by decide) mem) (by decide)
  have trimmed (value : Nat) :
      '[' ∉ ((Nat.toDigits 10 value).reverse.dropWhile (· = '0')).reverse := fun mem =>
    digits value (mem_reverse.mp ((dropWhile_sublist _).mem (mem_reverse.mp mem)))
  unfold Decimals.Double.print Decimals.printScientific Decimals.printPlain
  dsimp only
  generalize Decimals.shortest _ = decimal
  have rest := trimmed decimal.1
  generalize ((Nat.toDigits 10 decimal.1).reverse.dropWhile (· = '0')).reverse = shown at rest ⊢
  have part (count : Nat) : '[' ∉ shown.take count ∧ '[' ∉ shown.drop count :=
    ⟨rest ∘ mem_of_mem_take,rest ∘ mem_of_mem_drop⟩
  grind

theorem opens_print (value : Json) : opens value.print = value.isArray := by
  cases value with
  | null => rfl
  | boolean value => cases value <;> rfl
  | number value =>
    refine decide_eq_false fun first => bracket_notMem_print value ?_
    exact (dropWhile_sublist _).mem (mem_of_head? first)
  | text content => rfl
  | array items => rfl
  | object fields => rfl

end Json

end Syndra.Foundation
