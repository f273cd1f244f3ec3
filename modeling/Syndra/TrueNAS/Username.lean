/-
Deriving a TrueNAS username.

The target generates no names, so the add-on derives one from the local part of an email
address, once, when it creates the account.
-/

import Syndra.Foundation.Framing
import Syndra.Foundation.Text

namespace Syndra.TrueNAS

open List Foundation.Text Bool

structure Server where
  idFloor : Int
  idCeiling : Int
  sha256 : List UInt8 → List UInt8
  toLower : Char → Char
  quoted : String → String
  humanBytes : Int → String

def usernameMaxLen : Nat := 32

def suffixLen : Nat := 5

private def isLowerOrDigit (char : Char) : Bool :=
  ('a' ≤ char && char ≤ 'z') || ('0' ≤ char && char ≤ '9')

private def isUpper (char : Char) : Bool := 'A' ≤ char && char ≤ 'Z'

/-- Lower case, without a tag, every other character replaced. Empty when no
letter or digit is left. -/
def normalizeLocalpart (server : Server) (email : String) : String :=
  let lowered := (trimSpace (before '@' email)).toList.map server.toLower
  let out := (before '+' (String.ofList lowered)).toList.map fun char =>
    if isLowerOrDigit char || char = '_' || char = '.' || char = '-' then char else '_'
  match out.any isLowerOrDigit, out with
  | true, first :: _ =>
    if isLowerOrDigit first || first = '_' then String.ofList out
    else String.ofList ('u' :: out)
  | _, _ => ""

/-- The names clamped here are single-byte throughout, so characters are bytes. -/
def clampUsername (name : String) (size : Nat) : String :=
  String.ofList ((name.toList.take (max size 1)).reverse.dropWhile
    fun char => char = '.' || char = '-').reverse

def digestSuffix (server : Server) (subjectId : String) (size : Nat) : String :=
  String.ofList ((base32 (server.sha256 (Foundation.Framing.utf8 subjectId))).take size)

def deriveUsername (server : Server) (email subjectId : String) (collides : String → Bool) :
    String :=
  let local_ := normalizeLocalpart server email
  let base := if local_ = "" then "u" ++ digestSuffix server subjectId 8 else local_
  let candidate := clampUsername base usernameMaxLen
  if collides candidate then
    clampUsername base (usernameMaxLen - suffixLen) ++ "_" ++ digestSuffix server subjectId 4
  else candidate

/-- The pattern of TrueNAS: the first character is narrower than the rest, and
the last may be a dollar sign. -/
def validUsername (name : String) : Bool :=
  if name = "" || byteLength name > usernameMaxLen then false
  else
    let body := if name.toList.getLast? = some '$' then name.toList.dropLast else name.toList
    match body with
    | [] => false
    | first :: rest =>
      (isLowerOrDigit first || isUpper first || first = '_') &&
        rest.all fun char =>
          isLowerOrDigit char || isUpper char || char = '_' || char = '.' || char = '-'

structure Plain (name : List Char) : Prop where
  head : ∃ first rest, name = first :: rest ∧ (isLowerOrDigit first || first = '_') = true
  chars : ∀ char ∈ name,
    (isLowerOrDigit char || char = '_' || char = '.' || char = '-') = true

private theorem utf8Size_plain {char : Char}
    (plain : (isLowerOrDigit char || char = '_' || char = '.' || char = '-') = true) :
    char.utf8Size = 1 := by
  have small : char ≤ 'z' := by
    simp only [isLowerOrDigit,or_eq_true,and_eq_true,decide_eq_true_eq] at plain
    rcases plain with (((⟨_,lower⟩ | ⟨_,digit⟩) | rfl) | rfl) | rfl
    · exact lower
    · exact Char.le_trans digit (by decide)
    all_goals decide
  have ascii : char.val ≤ 0x7F := UInt32.le_trans small (by decide)
  exact if_pos ascii

variable {name email : String} {server : Server}

theorem Plain.valid (plain : Plain name.toList)
    (fits : name.toList.length ≤ usernameMaxLen) : validUsername name = true := by
  obtain ⟨⟨_,_,isName,_⟩,chars⟩ := plain
  have bytes : byteLength name = name.toList.length := by
    rw [byteLength,map_congr_left fun char mem => utf8Size_plain (chars char mem)]
    simp
  have short : ¬ byteLength name > usernameMaxLen := bytes ▸ Nat.not_lt.mpr fits
  have proper : name ≠ "" := by
    rintro rfl
    cases isName
  have last : name.toList.getLast? ≠ some '$' := by
    intro dollar
    exact absurd (chars '$' (mem_of_getLast? dollar)) (by decide)
  unfold validUsername
  rw [if_neg (by simp only [proper,short,decide_false,Bool.or_self,Bool.false_eq_true,
    not_false_eq_true]),if_neg last,isName]
  simp only [and_eq_true,all_eq_true]
  refine ⟨?_,fun char mem => ?_⟩
  · grind
  · have plain := chars char (isName ▸ mem_cons_of_mem _ mem)
    grind

theorem Plain.clamp (plain : Plain name.toList) (size : Nat) (room : 0 < size) :
    Plain (clampUsername name size).toList ∧ (clampUsername name size).toList.length ≤ size := by
  obtain ⟨⟨first,rest,isName,starts⟩,chars⟩ := plain
  have stays : (decide (first = '.') || decide (first = '-')) = false := by
    by_contra drops
    simp only [not_eq_false,or_eq_true,decide_eq_true_eq] at drops
    rcases drops with rfl | rfl <;> exact absurd starts (by decide)
  obtain ⟨size,rfl⟩ := Nat.exists_eq_add_one_of_ne_zero room.ne'
  have tail (drops : Char → Bool) :
      ((rest.take size).reverse.dropWhile drops).reverse <+: rest.take size := by
    rw [← reverse_suffix,reverse_reverse]
    exact dropWhile_suffix drops
  have cut : ∃ later, (clampUsername name (size + 1)).toList = first :: later ∧
      later <+: rest.take size := by
    unfold clampUsername
    rw [String.toList_ofList,Nat.max_eq_left room,isName,take_succ_cons,reverse_cons,
      dropWhile_append,dropWhile_cons_of_neg (by rw [stays]; decide)]
    split
    · exact ⟨[],rfl, nil_prefix⟩
    · exact ⟨_,by rw [reverse_append]; rfl,tail _⟩
  obtain ⟨later,isCut,within⟩ := cut
  rw [isCut]
  refine ⟨⟨⟨first,later,rfl,starts⟩,fun char member => chars char ?_⟩,?_⟩
  · rw [isName]
    rcases mem_cons.mp member with rfl | inLater
    · exact mem_cons_self
    · exact mem_cons_of_mem _ (mem_of_mem_take (within.mem inLater))
  · have taken := within.length_le.trans (length_take_le size rest)
    rw [length_cons]
    omega

theorem plain_digest (server : Server) (subjectId : String) (size : Nat) :
    ∀ char ∈ (digestSuffix server subjectId size).toList, isLowerOrDigit char = true := by
  intro _ mem
  rw [digestSuffix,String.toList_ofList] at mem
  simpa [isLowerOrDigit] using base32_alphabet (mem_of_mem_take mem)

theorem plain_localpart (usable : normalizeLocalpart server email ≠ "") :
    Plain (normalizeLocalpart server email).toList := by
  unfold normalizeLocalpart at usable ⊢
  dsimp only at usable ⊢
  generalize isOut : map _ (before '+' _).toList = out at usable ⊢
  have chars : ∀ char ∈ out,
      (isLowerOrDigit char || char = '_' || char = '.' || char = '-') = true := by
    intro char mem
    rw [← isOut] at mem
    obtain ⟨_,_,rfl⟩ := mem_map.mp mem
    split
    · assumption
    · decide
  split at usable
  · next first rest letters =>
    split
    · next starts =>
      rw [String.toList_ofList]
      exact ⟨⟨first,rest,rfl,starts⟩,chars⟩
    · rw [String.toList_ofList]
      refine ⟨⟨'u',_,rfl,by decide⟩,fun char mem => ?_⟩
      rcases mem_cons.mp mem with rfl | inOut
      · decide
      · exact chars char inOut
  · exact absurd rfl usable

def usernameBase (server : Server) (email subjectId : String) : String :=
  if normalizeLocalpart server email = "" then "u" ++ digestSuffix server subjectId 8
  else normalizeLocalpart server email

theorem plain_base (server : Server) (email subjectId : String) :
    Plain (usernameBase server email subjectId).toList := by
  unfold usernameBase
  split
  · rw [String.toList_append]
    refine ⟨⟨'u',_,rfl,by decide⟩,fun char mem => ?_⟩
    rcases mem_cons.mp mem with rfl | inDigest
    · decide
    · rw [plain_digest server subjectId 8 char inDigest]
      rfl
  · next usable => exact plain_localpart usable

theorem valid_derived {subjectId : String} {collides : String → Bool} :
    validUsername (deriveUsername server email subjectId collides) = true := by
  have base := plain_base server email subjectId
  unfold deriveUsername
  dsimp only
  rw [← usernameBase]
  split
  · obtain ⟨⟨⟨first,_,isStem,starts⟩,chars⟩,fits⟩ :=
      base.clamp (usernameMaxLen - suffixLen) (by decide)
    have digest := plain_digest server subjectId 4
    have few : (digestSuffix server subjectId 4).toList.length ≤ 4 := by
      rw [digestSuffix,String.toList_ofList]
      exact length_take_le 4 _
    apply Plain.valid
    · rw [String.toList_append,String.toList_append]
      refine ⟨⟨first,_,by rw [isStem]; rfl,starts⟩,fun char mem => ?_⟩
      rcases mem_append.mp mem with inStem | inDigest
      · rcases mem_append.mp inStem with inStem | isMark
        · exact chars char inStem
        · rw [mem_singleton.mp isMark]
          decide
      · rw [digest char inDigest]
        rfl
    · rw [String.toList_append,String.toList_append,length_append,length_append]
      have mark : "_".toList.length = 1 := rfl
      have room : usernameMaxLen - suffixLen + 1 + 4 = usernameMaxLen := rfl
      omega
  · obtain ⟨plain,fits⟩ := base.clamp usernameMaxLen (by decide)
    exact plain.valid fits

/-- A derived name is valid, and free unless both the name and its suffixed form are taken. -/
theorem derived_free_iff (server : Server) (email subjectId : String) (collides : String → Bool) :
    let base := usernameBase server email subjectId
    (validUsername (deriveUsername server email subjectId collides) = true ∧
        collides (deriveUsername server email subjectId collides) = false) ↔
      ¬ (collides (clampUsername base usernameMaxLen) = true ∧
        collides (clampUsername base (usernameMaxLen - suffixLen) ++ "_" ++
          digestSuffix server subjectId 4) = true) := by
  intro base
  rw [and_iff_right valid_derived]
  simp only [deriveUsername]
  rw [← usernameBase]
  by_cases taken : collides (clampUsername base usernameMaxLen)
  all_goals simp [base,taken]

/-- Where accounts of others hold a name and its suffixed form, no server derives a free one. -/
theorem suffixed_taken : ¬ ∃ server : Server,
    let base := usernameBase server "ada@lab" "318"
    let names := [clampUsername base usernameMaxLen,
      clampUsername base (usernameMaxLen - suffixLen) ++ "_" ++ digestSuffix server "318" 4]
    deriveUsername server "ada@lab" "318" (· ∈ names) ∉ names := by
  rintro ⟨server,free⟩
  refine free ?_
  unfold deriveUsername
  dsimp only
  rw [← usernameBase]
  split
  · exact mem_cons_of_mem _ mem_cons_self
  · exact mem_cons_self

end Syndra.TrueNAS
