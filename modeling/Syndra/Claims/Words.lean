/-
The words an application is sent.

A held role is sent under the word of its entry in the map, or under its own key where
new roles are included and the map does not name it. A word two roles share is sent
once.
-/

import Syndra.Claims.Shape

namespace Syndra.Claims

open List

variable {words : List String} {word : String}

variable {out : List String}

theorem mem_foldl_addWord :
    word ∈ words.foldl addWord out ↔ word ∈ out ∨ word ∈ words := by
  induction words generalizing out with
  | nil => simp
  | cons _ _ ih =>
    rw [foldl_cons,ih,addWord,mem_cons]
    split
    · next known =>
      constructor
      · exact fun held => held.imp_right .inr
      · rintro (old | rfl | later)
        · exact .inl old
        · exact .inl known
        · exact .inr later
    · rw [mem_append,mem_singleton,or_assoc]

theorem foldl_addWord_sublist (out : List String) : words.foldl addWord out <+ out ++ words := by
  induction words generalizing out with
  | nil => rw [append_nil,foldl_nil]
  | cons first rest ih =>
    refine (ih _).trans ?_
    rw [addWord]
    split
    · exact (sublist_cons_self first rest).append_left out
    · rw [append_assoc,singleton_append]

theorem nodup_foldl_addWord (distinct : out.Nodup) : (words.foldl addWord out).Nodup:= by
  induction words generalizing out with
  | nil => exact distinct
  | cons _ _ ih =>
    refine ih ?_
    rw [addWord]
    split
    · exact distinct
    · next fresh => exact concat_eq_append ▸ distinct.concat fresh

def Profile.Sends (p : Profile) (role word : String) : Prop :=
  (∃ m ∈ p.roles, m.key = role ∧ m.included = true ∧ m.word = word) ∨
    (p.includeNew = true ∧ (∀ m ∈ p.roles, m.key ≠ role) ∧ word = role)

variable {p : Profile} {held : List String} {role : String}

theorem mem_words : word ∈ p.words held ↔ ∃ role ∈ held, p.Sends role word := by
  constructor
  · intro mem
    rcases mem_foldl_addWord.mp mem with nothing | inWords
    · cases nothing
    rcases mem_append.mp inWords with mapped | later
    · obtain ⟨m,inMap,sent⟩ := mem_filterMap.mp mapped
      split at sent
      · next shown =>
        obtain ⟨included,inHeld⟩ := Bool.and_eq_true_iff.mp shown
        exact ⟨m.key,of_decide_eq_true inHeld, .inl ⟨m,inMap,rfl,included,Option.some.inj sent⟩⟩
      · cases sent
    · split at later
      · next includes =>
        obtain ⟨inHeld,unmapped⟩ := mem_filter.mp later
        exact ⟨word,inHeld,.inr ⟨includes,
          fun m inMap => of_decide_eq_true (all_eq_true.mp unmapped m inMap),rfl⟩⟩
      · cases later
  · rintro ⟨_,inHeld,⟨m,inMap,rfl,included,rfl⟩ | ⟨includes,unmapped,rfl⟩⟩
    · refine mem_foldl_addWord.mpr (.inr (mem_append_left _ (mem_filterMap.mpr ⟨m,inMap,?_⟩)))
      rw [if_pos (by simp [included,inHeld])]
    · refine mem_foldl_addWord.mpr (.inr (mem_append_right _ ?_))
      rw [if_pos includes]
      exact mem_filter.mpr ⟨inHeld,all_eq_true.mpr fun m inMap => decide_eq_true (unmapped m inMap)⟩

theorem role_eq_true (distinct : (p.roles.map RoleMap.key).Nodup) :
    p.role role = (true, word) ↔ p.Sends role word := by
  unfold Profile.role
  cases found : p.roles.find? (·.key = role) with
  | none =>
    have unmapped : ∀ m ∈ p.roles, m.key ≠ role := by
      simpa using find?_eq_none.mp found
    constructor
    · intro same
      obtain ⟨includes,rfl⟩ := Prod.mk.inj same
      exact .inr ⟨includes,unmapped,rfl⟩
    · rintro (⟨m,inMap,named,_⟩ | ⟨includes,_,rfl⟩)
      · exact absurd named (unmapped m inMap)
      · rw [includes]
  | some m =>
    have inMap := mem_of_find?_eq_some found
    have named : m.key = role := by simpa using find?_some found
    constructor
    · intro same
      obtain ⟨included,isWord⟩ := Prod.mk.inj same
      exact .inl ⟨m,inMap,named,included,isWord⟩
    · rintro (⟨_,otherIn,otherNamed,included,rfl⟩ | ⟨_,unmapped,_⟩)
      · rw [inj_on_of_nodup_map distinct inMap otherIn (named.trans otherNamed.symm),← included]
      · exact absurd named (unmapped m inMap)

end Syndra.Claims
