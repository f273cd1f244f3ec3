/-
What a token carries.

Rows whose paths do not meet are all there: the token holds, at the path of every row
that has a value, that value.
-/

import Syndra.Claims.Shape

namespace Syndra.Claims

open List

def tokenAt : List String → Object → Option Value
  | [], _ => none
  | [leaf], o => o.lookup leaf
  | seg :: next :: rest, o =>
    match o.lookup seg with
    | some (.object child) => tokenAt (next :: rest) child
    | _ => none

def Apart (one other : List String) : Prop := ¬ one <+: other ∧ ¬ other <+: one

def DistinctPaths (claims : List Claim) : Prop :=
  (∀ c ∈ claims, c.path ≠ []) ∧ claims.Pairwise fun one other => Apart one.path other.path

theorem Apart.symm {one other : List String} (apart : Apart one other) : Apart other one :=
  ⟨apart.2,apart.1⟩

instance : Std.Symm fun one other : Claim => Apart one.path other.path :=
  ⟨fun _ _ => Apart.symm⟩

theorem DistinctPaths.apart {claims : List Claim} (distinct : DistinctPaths claims)
    {one other : Claim} (oneIn : one ∈ claims) (otherIn : other ∈ claims)
    (different : one ≠ other) : Apart one.path other.path :=
  distinct.2.forall oneIn otherIn different

section Place

variable {v : Value} {o : Object} {other : String}

variable {key : String} {rest : List String} {value : Value}

theorem lookup_entry {A : Type} {entry : String × A} {rest : List (String × A)} :
    (entry :: rest).lookup key = if key = entry.1 then some entry.2 else rest.lookup key := by
  rw [lookup_cons]
  by_cases same : key = entry.1
  · rw [if_pos same,same,beq_self_eq_true]
  · rw [if_neg same,beq_false_of_ne same]

theorem lookup_setEntry {A : Type} {value : A} {o : List (String × A)} :
    (setEntry key value o).lookup other = if other = key then some value else o.lookup other := by
  induction o with
  | nil =>
    rw [setEntry,lookup_entry]
  | cons _ _ ih =>
    rw [setEntry]
    split
    · next here =>
      rw [lookup_entry,lookup_entry,here]
      split <;> rfl
    · next elsewhere =>
      rw [lookup_entry,lookup_entry,ih]
      by_cases same : other = key
      · rw [if_neg fun isEntry => elsewhere (isEntry.symm.trans same),if_pos same,if_pos same]
      · rw [if_neg same,if_neg same]

def Free : List String → Object → Prop
  | [], _ => False
  | [leaf], o => o.lookup leaf = none
  | seg :: next :: rest, o =>
    o.lookup seg = none ∨ ∃ child, o.lookup seg = some (.object child) ∧ Free (next :: rest) child

variable {path : List String} {seg : String}

theorem free_nil (proper : path ≠ []) : Free path [] := by
  match path with
  | [] => exact proper rfl
  | [leaf] => rfl
  | seg :: next :: rest => exact .inl rfl

theorem tokenAt_place (free : Free path o) : tokenAt path (place v path o) = some v := by
  induction path generalizing o with
  | nil => exact free.elim
  | cons seg rest ih =>
    match rest with
    | [] =>
      have unset : o.lookup seg = none := free
      rw [place,unset,Option.isSome_none,if_neg Bool.false_ne_true,tokenAt,
        lookup_setEntry,if_pos rfl]
    | next :: rest =>
      rcases free with unset | ⟨_,isChild,freeChild⟩
      · rw [place,unset,tokenAt,lookup_setEntry,if_pos rfl]
        exact ih (free_nil (cons_ne_nil next rest))
      · rw [place,isChild,tokenAt,lookup_setEntry,if_pos rfl]
        exact ih freeChild

theorem apart_cons {one two : List String} (apart : Apart (seg :: one) (other :: two)) :
    seg ≠ other ∨ Apart one two := by
  by_cases same : seg = other
  · refine .inr ⟨fun lies => apart.1 ?_,fun lies => apart.2 ?_⟩
    all_goals
      rw [same]
      exact (prefix_cons_inj other).mpr lies
  · exact .inl same

theorem tokenAt_setEntry (different : other ≠ seg) :
    tokenAt (other :: rest) (setEntry seg value o) = tokenAt (other :: rest) o := by
  match rest with
  | [] => rw [tokenAt,tokenAt,lookup_setEntry,if_neg different]
  | next :: rest => rw [tokenAt,tokenAt,lookup_setEntry,if_neg different]

theorem free_setEntry (different : other ≠ seg) :
    Free (other :: rest) (setEntry seg value o) ↔ Free (other :: rest) o := by
  match rest with
  | [] => rw [Free,Free,lookup_setEntry,if_neg different]
  | next :: rest => rw [Free,Free,lookup_setEntry,if_neg different]

theorem place_apart {other : List String} (apart : Apart path other) :
    tokenAt other (place v path o) = tokenAt other o ∧
      (Free other o → Free other (place v path o)) := by
  induction path generalizing o other with
  | nil => exact absurd nil_prefix apart.1
  | cons seg rest ih =>
    cases other with
    | nil => exact absurd nil_prefix apart.2
    | cons key later =>
      by_cases same : key = seg
      · subst same
        have inner := (apart_cons apart).resolve_left fun different => different rfl
        cases rest with
        | nil => exact absurd nil_prefix inner.1
        | cons next rest =>
          cases later with
          | nil => exact absurd nil_prefix inner.2
          | cons after later =>
            rw [place]
            split
            · next unset =>
              have nothing : tokenAt (after :: later) (place v (next :: rest) []) = none := by
                rw [(ih inner).1]
                cases later with
                | nil | cons => rfl
              rw [tokenAt,tokenAt,lookup_setEntry,if_pos rfl,unset,Free,Free,
                lookup_setEntry,if_pos rfl]
              exact ⟨nothing,fun _ => .inr ⟨_,rfl, (ih inner).2 (free_nil (cons_ne_nil _ _))⟩⟩
            · next child isChild =>
              rw [tokenAt,tokenAt,lookup_setEntry,if_pos rfl,isChild,Free,Free,
                lookup_setEntry,if_pos rfl,isChild]
              refine ⟨(ih inner).1,?_⟩
              rintro (unset | ⟨_,isOther,free⟩)
              · cases unset
              · cases isOther
                exact .inr ⟨_,rfl,(ih inner).2 free⟩
            · exact ⟨rfl,id⟩
      · have kept : ∀ value : Value,
            tokenAt (key :: later) (setEntry seg value o) = tokenAt (key :: later) o ∧
              (Free (key :: later) o → Free (key :: later) (setEntry seg value o)) :=
          fun value => ⟨tokenAt_setEntry same,(free_setEntry same).mpr⟩
        cases rest with
        | nil =>
          rw [place]
          split
          · exact ⟨rfl,id⟩
          · exact kept v
        | cons =>
          rw [place]
          split
          · exact kept _
          · exact kept _
          · exact ⟨rfl,id⟩

end Place

section Rows

variable {p : Profile} {f : Facts}

variable {c : Claim} {o : Object}

variable {path : List String} {rows : List Claim}

theorem placeRow_apart (apart : Apart c.path path) (free : Free path o) :
    Free path (placeRow p f o c) := by
  unfold placeRow
  split
  · exact (place_apart apart).2 free
  · exact free

theorem tokenAt_foldl (apart : ∀ c ∈ rows, (c.value p f).isSome = true → Apart c.path path) :
    tokenAt path (rows.foldl (placeRow p f) o) = tokenAt path o := by
  induction rows generalizing o with
  | nil => rfl
  | cons row _ ih =>
    rw [foldl_cons,ih fun c mem => apart c (mem_cons_of_mem _ mem),placeRow]
    split
    · next isValue => exact (place_apart (apart row mem_cons_self (isValue ▸ rfl))).1
    · rfl

theorem tokenAt_row {v : Value}
    (pairwise : rows.Pairwise fun one other => Apart one.path other.path)
    (free : ∀ row ∈ rows, Free row.path o) (mem : c ∈ rows) (isValue : c.value p f = some v) :
    tokenAt c.path (rows.foldl (placeRow p f) o) = some v := by
  induction rows generalizing o with
  | nil => cases mem
  | cons _ _ ih =>
    obtain ⟨apart,later⟩ := pairwise_cons.mp pairwise
    rw [foldl_cons]
    rcases mem_cons.mp mem with rfl | inRest
    · rw [tokenAt_foldl fun other inRest _ => (apart other inRest).symm]
      unfold placeRow
      rw [isValue]
      exact tokenAt_place (free c mem_cons_self)
    · refine ih later (fun other inRest => ?_) inRest
      exact placeRow_apart (apart other inRest) (free other (mem_cons_of_mem _ inRest))

theorem tokenAt_shape (lower : String → String) {v : Value} (distinct : DistinctPaths p.claims)
    (mem : c ∈ p.claims) (isValue : c.value p f = some v) :
    tokenAt c.path (shape lower p f) = some v := by
  have sorted : (ordered lower p.claims).Perm p.claims := perm_insertionSort _ _
  refine tokenAt_row ((sorted.pairwise_iff Apart.symm).mpr distinct.2) (fun row inRows => ?_)
    (sorted.mem_iff.mpr mem) isValue
  exact free_nil (distinct.1 row (sorted.mem_iff.mp inRows))

end Rows

end Syndra.Claims
