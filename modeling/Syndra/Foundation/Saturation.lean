/-
Carrying levels along the edges of a finite list.

Each pass relaxes every edge once, in the list's order and in place: the target takes the
join of its own level and its source's.
-/

import Mathlib.Data.Finset.Card
import Mathlib.Order.Bounds.Basic

namespace Syndra.Foundation.Saturation

open List Function

variable {Node Level : Type*}

def Reaches (edges : List (Node × Node)) : Node → Node → Prop :=
  Relation.ReflTransGen fun source target => (source, target) ∈ edges

theorem Reaches.refl (edges : List (Node × Node)) (node : Node) : Reaches edges node node :=
  Relation.ReflTransGen.refl

theorem Reaches.tail {edges : List (Node × Node)} {start source target : Node}
    (reached : Reaches edges start source) (edge : (source, target) ∈ edges) :
    Reaches edges start target :=
  Relation.ReflTransGen.tail reached edge

variable [DecidableEq Node]

def stage (edges : List (Node × Node)) (start : Node) : Nat → Finset Node
  | 0 => {start}
  | rounds + 1 =>
    stage edges start rounds ∪
      ((edges.filter (fun edge => edge.1 ∈ stage edges start rounds)).map Prod.snd).toFinset

theorem mem_stage_succ (edges : List (Node × Node)) (start node : Node) (rounds : Nat) :
    node ∈ stage edges start (rounds + 1) ↔ node ∈ stage edges start rounds ∨
        ∃ source ∈ stage edges start rounds, (source, node) ∈ edges := by
  simp only [stage,Finset.mem_union,mem_toFinset,mem_map,mem_filter, decide_eq_true_eq]
  constructor
  · rintro (earlier | ⟨⟨source,target⟩,⟨edge,known⟩,same⟩)
    · exact .inl earlier
    subst same
    exact .inr ⟨source,known,edge⟩
  · rintro (earlier | ⟨source,known,edge⟩)
    · exact .inl earlier
    · exact .inr ⟨(source, node),⟨edge,known⟩,rfl⟩

theorem stage_subset_succ (edges : List (Node × Node)) (start : Node) (rounds : Nat) :
    stage edges start rounds ⊆ stage edges start (rounds + 1) :=
  fun _ mem => (mem_stage_succ edges start _ rounds).mpr (.inl mem)

variable {rounds : Nat} {start : Node} {edges : List (Node × Node)}

theorem start_mem_stage : start ∈ stage edges start rounds := by
  induction rounds with
  | zero => exact Finset.mem_singleton_self start
  | succ rounds ih => exact stage_subset_succ edges start rounds ih

private theorem stage_subset_targets (edges : List (Node × Node)) (start : Node)
    (rounds : Nat) :
    stage edges start rounds ⊆ insert start (edges.map Prod.snd).toFinset := by
  induction rounds with
  | zero =>
    intro node mem
    rw [stage,Finset.mem_singleton] at mem
    rw [mem]
    exact Finset.mem_insert_self start _
  | succ rounds ih =>
    intro node mem
    rcases (mem_stage_succ edges start node rounds).mp mem with earlier | arrived
    · exact ih earlier
    obtain ⟨source,_known,edge⟩ := arrived
    apply Finset.mem_insert_of_mem
    exact mem_toFinset.mpr (mem_map.mpr ⟨(source, node),edge,rfl⟩)

private theorem stage_stable_add
    (stable : stage edges start (rounds + 1) = stage edges start rounds) (more : Nat) :
    stage edges start (rounds + more) = stage edges start rounds := by
  induction more with
  | zero => rfl
  | succ _ ih =>
    rw [← Nat.add_assoc,stage,ih]
    exact stable

private theorem card_stage_of_growing
    (growing : ∀ earlier < rounds, stage edges start (earlier + 1) ≠ stage edges start earlier) :
    rounds + 1 ≤ (stage edges start rounds).card := by
  induction rounds with
  | zero => simp only [stage,Finset.card_singleton,Nat.le_refl]
  | succ rounds ih =>
    have before := ih (fun earlier within => growing earlier (Nat.lt_succ_of_lt within))
    have strict : stage edges start rounds ⊂ stage edges start (rounds + 1) :=
      (stage_subset_succ edges start rounds).ssubset_of_ne
        (fun same => growing rounds (Nat.lt_succ_self rounds) same.symm)
    have grew := Finset.card_lt_card strict
    omega

theorem stage_length_stable :
    stage edges start (edges.length + 1) = stage edges start edges.length := by
  by_contra unstable
  have growing : ∀ earlier < edges.length + 1,
      stage edges start (earlier + 1) ≠ stage edges start earlier := by
    intro earlier within stable
    have level := stage_stable_add stable
    have atLength := level (edges.length - earlier)
    have beyond := level (edges.length + 1 - earlier)
    rw [Nat.add_sub_of_le (Nat.le_of_lt_succ within)] at atLength
    rw [Nat.add_sub_of_le (Nat.le_of_lt within)] at beyond
    exact unstable (beyond.trans atLength.symm)
  have large := card_stage_of_growing growing
  have bounded := Finset.card_le_card (stage_subset_targets edges start (edges.length + 1))
  have targets : (insert start (edges.map Prod.snd).toFinset).card ≤ edges.length + 1 := by
    refine (Finset.card_insert_le start _).trans (Nat.succ_le_succ ?_)
    exact (toFinset_card_le _).trans (by rw [length_map])
  omega

variable {node : Node} {levels : Node → Level}

theorem mem_stage_length_of_reaches (reached : Reaches edges start node) :
    node ∈ stage edges start edges.length := by
  induction reached with
  | refl => exact start_mem_stage
  | @tail source target _ edge ih =>
    rw [← stage_length_stable]
    exact (mem_stage_succ edges start target edges.length).mpr (.inr ⟨source,ih,edge⟩)

variable [SemilatticeSup Level]

def relax (levels : Node → Level) (edge : Node × Node) : Node → Level :=
  Function.update levels edge.2 (levels edge.2 ⊔ levels edge.1)

def pass (edges : List (Node × Node)) (levels : Node → Level) : Node → Level :=
  edges.foldl relax levels

theorem le_relax (levels : Node → Level) (edge : Node × Node) (node : Node) :
    levels node ≤ relax levels edge node := by
  unfold relax
  by_cases same : node = edge.2
  · subst same
    rw [update_self]
    exact le_sup_left
  · rw [update_of_ne same]

theorem le_pass (edges : List (Node × Node)) (levels : Node → Level) (node : Node) :
    levels node ≤ pass edges levels node := by
  induction edges generalizing levels with
  | nil => exact le_rfl
  | cons edge _ ih => exact (le_relax levels edge node).trans (ih (relax levels edge))

theorem source_le_pass (levels : Node → Level) {source target : Node}
    (edge : (source, target) ∈ edges) :
    levels source ≤ pass edges levels target := by
  induction edges generalizing levels with
  | nil => cases edge
  | cons first rest ih =>
    rcases mem_cons.mp edge with same | later
    · subst same
      refine le_trans ?_ (le_pass rest (relax levels (source, target)) target)
      unfold relax
      rw [update_self]
      exact le_sup_right
    · exact (le_relax levels first source).trans (ih (relax levels first) later)

theorem le_iterate_of_mem_stage :
    ∀ node ∈ stage edges start rounds, levels start ≤ (pass edges)^[rounds] levels node := by
  induction rounds with
  | zero =>
    intro node mem
    rw [stage,Finset.mem_singleton] at mem
    rw [mem]
    exact le_rfl
  | succ rounds ih =>
    intro node mem
    rw [iterate_succ_apply']
    rcases (mem_stage_succ edges start node rounds).mp mem with earlier | arrived
    · exact (ih node earlier).trans (le_pass edges _ node)
    · obtain ⟨source,known,edge⟩ := arrived
      exact (ih source known).trans (source_le_pass _ edge)

private theorem relax_le_of_bound (initial : Node → Level) (levels : Node → Level)
    (edge : Node × Node) (mem : edge ∈ edges)
    (within : ∀ node bound, (∀ start, Reaches edges start node → initial start ≤ bound) →
      levels node ≤ bound) :
    ∀ node bound, (∀ start, Reaches edges start node → initial start ≤ bound) →
      relax levels edge node ≤ bound := by
  intro node bound above
  unfold relax
  by_cases same : node = edge.2
  · subst same
    rw [update_self]
    exact sup_le (within edge.2 bound above)
      (within edge.1 bound (fun start reached => above start (reached.tail mem)))
  · rw [update_of_ne same]
    exact within node bound above

private theorem pass_le_of_bound (initial : Node → Level) (some : List (Node × Node))
    (subset : some ⊆ edges) (levels : Node → Level)
    (within : ∀ node bound, (∀ start, Reaches edges start node → initial start ≤ bound) →
      levels node ≤ bound) :
    ∀ node bound, (∀ start, Reaches edges start node → initial start ≤ bound) →
      pass some levels node ≤ bound := by
  induction some generalizing levels with
  | nil => exact within
  | cons edge _ ih =>
    have here : edge ∈ edges := subset mem_cons_self
    exact ih (fun _ mem => subset (mem_cons_of_mem edge mem)) (relax levels edge)
      (relax_le_of_bound initial levels edge here within)

theorem iterate_le_of_bound {initial : Node → Level} :
    ∀ node bound, (∀ start, Reaches edges start node → initial start ≤ bound) →
      (pass edges)^[rounds] initial node ≤ bound := by
  induction rounds with
  | zero =>
    intro node _ above
    exact above node (Reaches.refl edges node)
  | succ _ ih =>
    rw [iterate_succ_apply']
    exact pass_le_of_bound initial edges (Subset.refl edges) _ ih

theorem stage_mono {few many : Nat} (le : few ≤ many) :
    stage edges start few ⊆ stage edges start many := by
  induction le with
  | refl => exact Finset.Subset.refl _
  | step _ ih => exact ih.trans (stage_subset_succ edges start _)

/-- As many passes as edges, or more, leave at every node the join of the levels of the
nodes that reach it. -/
theorem isLUB_passes (enough : edges.length ≤ rounds) :
    IsLUB {level | ∃ start, Reaches edges start node ∧ levels start = level}
      ((pass edges)^[rounds] levels node) := by
  constructor
  · rintro _ ⟨start,reached,rfl⟩
    exact le_iterate_of_mem_stage node
      (stage_mono enough (mem_stage_length_of_reaches reached))
  · intro bound above
    exact iterate_le_of_bound node bound
      (fun start reached => above ⟨start,reached,rfl⟩)

end Syndra.Foundation.Saturation
