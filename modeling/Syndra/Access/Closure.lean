/-
The mapping-rule closure, with when each role ends.

`ends` is the dated fixpoint of the access package: at most as many passes as there are
rules, each pass following every rule in place, and an early stop when a pass changed
nothing.
-/

import Mathlib.Data.List.AList
import Mathlib.Order.Lattice.Nat
import Mathlib.Algebra.Order.Monoid.Unbundled.WithTop
import Syndra.Foundation.Saturation

namespace Syndra.Access

open Foundation List AList Function Saturation

structure Role where
  projectId : String
  roleKey : String
deriving DecidableEq

structure MappingRule where
  id : String
  sourceProject : String
  sourceRole : String
  targetProject : String
  targetRole : String
deriving DecidableEq

abbrev Time := Nat

/-- When something held ends; the source's zero time, never, is the top. -/
abbrev EndTime := WithTop Time

def later (a b : EndTime) : EndTime :=
  match a, b with
  | none, _ => ⊤
  | _, none => ⊤
  | some first, some second => if first < second then some second else some first

theorem later_eq_sup : ∀ a b : EndTime, later a b = a ⊔ b
  | none, b => (top_sup_eq b).symm
  | some first, none => (sup_top_eq (first : EndTime)).symm
  | some first, some second => by
      change (if first < second then (second : EndTime) else (first : EndTime)) =
        (first : EndTime) ⊔ (second : EndTime)
      split
      · next before => exact (sup_eq_right.mpr (WithTop.coe_le_coe.mpr (Nat.le_of_lt before))).symm
      · next after => exact (sup_eq_left.mpr (WithTop.coe_le_coe.mpr (Nat.le_of_not_lt after))).symm

section Fixpoint

variable {K : Type} [DecidableEq K]

abbrev Dated (K : Type) := AList (fun _ : K => EndTime)

def followRule (key : String → String → K) (out : Dated K × Bool)
    (rule : MappingRule) : Dated K × Bool :=
  match out.1.lookup (key rule.sourceProject rule.sourceRole) with
  | none => out
  | some source =>
    match out.1.lookup (key rule.targetProject rule.targetRole) with
    | none => (out.1.insert (key rule.targetProject rule.targetRole) source, true)
    | some current =>
      if later current source = current then out
      else (out.1.insert (key rule.targetProject rule.targetRole) (later current source), true)

def endsPass (key : String → String → K) (rules : List MappingRule) (out : Dated K) :
    Dated K × Bool :=
  rules.foldl (followRule key) (out, false)

def endsPasses (key : String → String → K) (rules : List MappingRule) : Nat → Dated K → Dated K
  | 0, out => out
  | passes + 1, out =>
    match endsPass key rules out with
    | (next, true) => endsPasses key rules passes next
    | (next, false) => next

def ends (key : String → String → K) (base : Dated K) (rules : List MappingRule) : Dated K :=
  endsPasses key rules rules.length base

def undated (base : List K) : Dated K :=
  base.foldr (fun role out => out.insert role ⊤) ∅

/-- Base and every role the rules reach. The keys of a map: no key twice. -/
def closure (key : String → String → K) (base : List K) (rules : List MappingRule) : List K :=
  (ends key (undated base) rules).keys

def fired (key : String → String → K) (held : List K) (rules : List MappingRule) :
    List MappingRule :=
  rules.filter fun rule => key rule.sourceProject rule.sourceRole ∈ held

def ruleEdge (key : String → String → K) (rule : MappingRule) : K × K :=
  (key rule.sourceProject rule.sourceRole, key rule.targetProject rule.targetRole)

def Reaches (key : String → String → K) (rules : List MappingRule) : K → K → Prop :=
  Saturation.Reaches (rules.map (ruleEdge key))

def levels (out : Dated K) : K → WithBot EndTime := fun role => out.lookup role

omit [DecidableEq K] in
theorem Reaches.refl (key : String → String → K) (rules : List MappingRule) (role : K) :
    Reaches key rules role role :=
  Saturation.Reaches.refl _ role

variable {key : String → String → K}

variable {rules : List MappingRule} {ending : EndTime} {out : Dated K × Bool} {base : List K}

omit [DecidableEq K] in
theorem Reaches.trans {first second third : K}
    (one : Reaches key rules first second) (two : Reaches key rules second third) :
    Reaches key rules first third :=
  Relation.ReflTransGen.trans one two

variable {role : K}

theorem levels_insert {out : Dated K} :
    levels (out.insert role ending) = update (levels out) role (ending : WithBot EndTime) := by
  funext other
  by_cases same : other = role
  · subst same
    rw [update_self]
    exact lookup_insert out
  · rw [update_of_ne same]
    exact lookup_insert_ne same

theorem levels_followRule {rule : MappingRule} :
    levels (followRule key out rule).1 = relax (levels out.1) (ruleEdge key rule) := by
  unfold followRule relax
  cases held : out.1.lookup (key rule.sourceProject rule.sourceRole) with
  | none =>
    have bottom : levels out.1 (ruleEdge key rule).1 = ⊥ := held
    rw [bottom,sup_bot_eq,update_eq_self]
  | some source =>
    have sourceLevel : levels out.1 (ruleEdge key rule).1 = (source : WithBot EndTime) := held
    rw [sourceLevel]
    cases has : out.1.lookup (key rule.targetProject rule.targetRole) with
    | none =>
      have bottom : levels out.1 (ruleEdge key rule).2 = ⊥ := has
      rw [bottom]
      exact levels_insert
    | some current =>
      have targetLevel : levels out.1 (ruleEdge key rule).2 = (current : WithBot EndTime) := has
      rw [targetLevel,← WithBot.coe_sup,← later_eq_sup]
      change levels (if later current source = current then out
        else (out.1.insert _ (later current source), true)).1 = _
      split
      · next unchanged =>
        rw [unchanged,← targetLevel,update_eq_self]
      · exact levels_insert

private theorem levels_foldl : levels (rules.foldl (followRule key) out).1 =
      pass (rules.map (ruleEdge key)) (levels out.1) := by
  induction rules generalizing out with
  | nil => rfl
  | cons _ _ ih =>
    rw [foldl_cons,ih,levels_followRule]
    rfl

theorem levels_endsPass (key : String → String → K) (rules : List MappingRule)
    (out : Dated K) :
    levels (endsPass key rules out).1 = pass (rules.map (ruleEdge key)) (levels out) :=
  levels_foldl

private theorem foldl_unchanged (key : String → String → K) (rules : List MappingRule)
    (out : Dated K × Bool) (quiet : (rules.foldl (followRule key) out).2 = false) :
    rules.foldl (followRule key) out = out := by
  induction rules generalizing out with
  | nil => rfl
  | cons rule _ ih =>
    have first := ih (followRule key out rule) quiet
    rw [foldl_cons,first] at quiet
    rw [foldl_cons,first]
    unfold followRule at quiet ⊢
    cases held : out.1.lookup (key rule.sourceProject rule.sourceRole) with
    | none => rfl
    | some =>
      cases has : out.1.lookup (key rule.targetProject rule.targetRole) with
      | none => simp only [held,has,Bool.true_eq_false] at quiet
      | some =>
        simp only [held,has] at quiet ⊢
        split at quiet
        · next unchanged => rw [if_pos unchanged]
        · cases quiet

theorem endsPass_unchanged (key : String → String → K) (rules : List MappingRule)
    (out : Dated K) (quiet : (endsPass key rules out).2 = false) :
    (endsPass key rules out).1 = out :=
  congrArg Prod.fst (foldl_unchanged key rules (out, false) quiet)

theorem levels_endsPasses (key : String → String → K) (rules : List MappingRule)
    (passes : Nat) (out : Dated K) :
    levels (endsPasses key rules passes out) =
      (pass (rules.map (ruleEdge key)))^[passes] (levels out) := by
  induction passes generalizing out with
  | zero => rfl
  | succ passes ih =>
    rw [iterate_succ_apply,← levels_endsPass]
    unfold endsPasses
    match passed : endsPass key rules out with
    | (next, true) => exact ih next
    | (next, false) =>
      have same : next = out := by
        have quiet := endsPass_unchanged key rules out (by rw [passed])
        rwa [passed] at quiet
      subst same
      have fixed : pass (rules.map (ruleEdge key)) (levels next) = levels next := by
        rw [← levels_endsPass,passed]
      exact (iterate_fixed fixed passes).symm

theorem endsPasses_isLUB {base : Dated K} {passes : Nat} (enough : rules.length ≤ passes) :
    IsLUB {level | ∃ start, Reaches key rules start role ∧ levels base start = level}
      (levels (endsPasses key rules passes base) role) := by
  rw [levels_endsPasses]
  exact isLUB_passes
    (by rw [length_map]; exact enough)

theorem ends_isLUB (key : String → String → K) (base : Dated K) (rules : List MappingRule)
    (role : K) :
    IsLUB {level | ∃ start, Reaches key rules start role ∧ levels base start = level}
      (levels (ends key base rules) role) :=
  endsPasses_isLUB (Nat.le_refl _)

theorem mem_ends_iff (key : String → String → K) (base : Dated K) (rules : List MappingRule)
    (role : K) :
    role ∈ ends key base rules ↔ ∃ start ∈ base, Reaches key rules start role := by
  have bound := ends_isLUB key base rules role
  have held (out : Dated K) (other : K) : other ∈ out ↔ levels out other ≠ ⊥ := by
    rw [← lookup_isSome]
    exact Option.isSome_iff_ne_none
  rw [held]
  constructor
  · intro present
    by_contra none
    apply present
    apply le_bot_iff.mp
    apply bound.2
    rintro _ ⟨start,reached,rfl⟩
    by_contra above
    exact none ⟨start,(held base start).mpr (fun bottom => above (le_of_eq bottom)),reached⟩
  · rintro ⟨start,mem,reached⟩ bottom
    have below := bound.1 ⟨start,reached,rfl⟩
    rw [bottom] at below
    exact (held base start).mp mem (le_bot_iff.mp below)

theorem mem_undated (base : List K) (role : K) : role ∈ undated base ↔ role ∈ base := by
  induction base with
  | nil => simp [undated]
  | cons first rest ih =>
    change role ∈ insert first ⊤ (undated rest) ↔ _
    rw [mem_insert,ih,mem_cons]

/-- The specification of `closure`. Each rule has one source, so the closure of
a base is the union of what its members reach. -/
theorem mem_closure_iff :
    role ∈ closure key base rules ↔ ∃ start ∈ base, Reaches key rules start role := by
  unfold closure
  rw [← AList.mem_keys,mem_ends_iff]
  simp only [mem_undated]

theorem closure_nodup : (closure key base rules).Nodup :=
  keys_nodup _

theorem subset_closure (key : String → String → K) (base : List K)
    (rules : List MappingRule) : base ⊆ closure key base rules :=
  fun role mem =>
    mem_closure_iff.mpr ⟨role,mem,Reaches.refl key rules role⟩

theorem mem_ends_iff_fired (key : String → String → K) (base : Dated K)
    (rules : List MappingRule) (role : K) :
    role ∈ ends key base rules ↔ role ∈ base ∨ ∃ rule ∈ fired key (ends key base rules).keys rules,
        key rule.targetProject rule.targetRole = role := by
  constructor
  · intro mem
    obtain ⟨start,based,reached⟩ := (mem_ends_iff key base rules role).mp mem
    cases reached with
    | refl => exact .inl based
    | @tail source _ before edge =>
      obtain ⟨rule,listed,same⟩ := mem_map.mp edge
      obtain ⟨sourceSame,targetSame⟩ := Prod.mk.inj same
      refine .inr ⟨rule,mem_filter.mpr ⟨listed,?_⟩,targetSame⟩
      rw [decide_eq_true_eq,sourceSame]
      exact (mem_ends_iff key base rules source).mpr ⟨start,based,before⟩
  · rintro (based | ⟨rule,applies,rfl⟩)
    · exact (mem_ends_iff key base rules role).mpr ⟨role,based,Reaches.refl key rules role⟩
    obtain ⟨listed,held⟩ := mem_filter.mp applies
    rw [decide_eq_true_eq] at held
    obtain ⟨start,based,reached⟩ := (mem_ends_iff key base rules _).mp held
    have edge : ruleEdge key rule ∈ rules.map (ruleEdge key) := mem_map_of_mem listed
    exact (mem_ends_iff key base rules _).mpr
      ⟨start,based,Saturation.Reaches.tail reached edge⟩

theorem mem_closure_iff_fired :
    role ∈ closure key base rules ↔ role ∈ base ∨ ∃ rule ∈ fired key (closure key base rules) rules,
        key rule.targetProject rule.targetRole = role := by
  rw [← mem_undated base role]
  exact AList.mem_keys.symm.trans (mem_ends_iff_fired key (undated base) rules role)

/-- A role is held when a chain of rules leads to it from the base, until the last of the
base roles that lead to it ends. -/
structure BestEnds (key : String → String → K) (base : Dated K) (rules : List MappingRule)
    (out : Dated K) : Prop where
  held : ∀ role, role ∈ out ↔ ∃ start ∈ base, Reaches key rules start role
  best : ∀ role ending, out.lookup role = some ending →
    IsLUB {other | ∃ start, Reaches key rules start role ∧ base.lookup start = some other} ending

theorem lookup_isLUB {base : Dated K} (found : (ends key base rules).lookup role = some ending) :
    IsLUB {other | ∃ start, Reaches key rules start role ∧ base.lookup start = some other}
      ending := by
  have bound := ends_isLUB key base rules role
  have level : levels (ends key base rules) role = (ending : WithBot EndTime) := found
  rw [level] at bound
  constructor
  · rintro other ⟨start,reached,isOther⟩
    exact WithBot.coe_le_coe.mp (bound.1 ⟨start,reached,isOther⟩)
  intro _ above
  refine WithBot.coe_le_coe.mp (bound.2 ?_)
  rintro _ ⟨start,reached,rfl⟩
  cases isOther : base.lookup start with
  | none =>
    have bottom : levels base start = ⊥ := isOther
    rw [bottom]
    exact bot_le
  | some other =>
    have isLevel : levels base start = (other : WithBot EndTime) := isOther
    rw [isLevel]
    exact WithBot.coe_le_coe.mpr (above ⟨start,reached,isOther⟩)

omit [DecidableEq K] in
theorem reaches_congr {other : List MappingRule} (same : ∀ rule, rule ∈ other ↔ rule ∈ rules)
    {start : K} :
    Reaches key other start role ↔ Reaches key rules start role := by
  have edges (edge : K × K) : edge ∈ other.map (ruleEdge key) ↔ edge ∈ rules.map (ruleEdge key) := by
    simp only [mem_map,same]
  constructor
  · exact Relation.ReflTransGen.mono (fun _ _ => (edges _).mp) _ _
  · exact Relation.ReflTransGen.mono (fun _ _ => (edges _).mpr) _ _

/-- `ends` carries the best end along all chains. More passes change nothing, and neither
does the order of the rules or how often one is listed. -/
theorem ends_best (key : String → String → K) (base : Dated K) (rules : List MappingRule) :
    (∀ first second : EndTime, later first second = first ⊔ second) ∧
    BestEnds key base rules (ends key base rules) ∧
    (∀ passes, rules.length ≤ passes → ∀ role,
      (endsPasses key rules passes base).lookup role = (ends key base rules).lookup role) ∧
    ∀ other : List MappingRule, (∀ rule, rule ∈ other ↔ rule ∈ rules) → ∀ role,
      (ends key base other).lookup role = (ends key base rules).lookup role := by
  refine ⟨later_eq_sup,⟨mem_ends_iff key base rules,fun role ending => lookup_isLUB⟩,?_,?_⟩
  · intro _ enough role
    exact (endsPasses_isLUB enough).unique (ends_isLUB key base rules role)
  intro other same role
  have bound := ends_isLUB key base other role
  simp only [reaches_congr same] at bound
  exact bound.unique (ends_isLUB key base rules role)

end Fixpoint

namespace BothWays

def entry : Role := ⟨"doors","entry"⟩

def laser : Role := ⟨"shop","laser"⟩

def base : Dated Role := AList.insert laser (some 7) (AList.insert entry (some 3) ∅)

def rules : List MappingRule :=
  [⟨"1","doors","entry","shop","laser"⟩,⟨"2","shop","laser","doors","entry"⟩]

theorem ends_best_bothWays : (ends Role.mk base rules).lookup entry = some (some 7) ∧
      (ends Role.mk base rules.reverse).lookup entry = (ends Role.mk base rules).lookup entry ∧
      (endsPasses Role.mk rules 5 base).lookup entry = (ends Role.mk base rules).lookup entry := by
  refine ⟨rfl,?_,?_⟩
  · exact (ends_best Role.mk base rules).2.2.2 _ (fun _ => mem_reverse) _
  · exact (ends_best Role.mk base rules).2.2.1 5 (by decide) _

end BothWays

end Syndra.Access
