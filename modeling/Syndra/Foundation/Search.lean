/-
Depth-first search, and graphs without a cycle.

The search keeps the nodes it has visited and stops at the goal. With fuel for each node it
finds the goal exactly when a path leads there.
-/

import Mathlib.Data.Finset.Card

namespace Syndra.Foundation.Search

open List Finset

variable {Node : Type} [DecidableEq Node]

/-- `none` once the goal was found, else the nodes visited. -/
def visit (next : Node → List Node) (goal : Node) : Nat → Node → List Node → Option (List Node)
  | 0, _, visited => some visited
  | fuel + 1, current, visited =>
    if current = goal then none
    else if current ∈ visited then some visited
    else
      (next current).foldlM (fun visited neighbor => visit next goal fuel neighbor visited)
        (current :: visited)

def finds (next : Node → List Node) (size : Nat) (start goal : Node) : Bool :=
  (visit next goal (size + 1) start []).isNone

abbrev Leads (next : Node → List Node) : Node → Node → Prop :=
  Relation.ReflTransGen fun source target => target ∈ next source

variable {visited before after : List Node} {next : Node → List Node} {goal : Node} {fuel : Nat}
  {nodes : Finset Node}

omit [DecidableEq Node] in
theorem foldlM_none {step : List Node → Node → Option (List Node)} {nodes : List Node}
    (found : nodes.foldlM step visited = none) :
    ∃ node ∈ nodes, ∃ before, step before node = none := by
  induction nodes generalizing visited with
  | nil => cases found
  | cons node _ ih =>
    rw [foldlM_cons] at found
    cases taken : step visited node with
    | none => exact ⟨node,mem_cons_self,visited,taken⟩
    | some =>
      rw [taken] at found
      obtain ⟨other,mem,before,isNone⟩ := ih found
      exact ⟨other,mem_cons_of_mem _ mem,before,isNone⟩

theorem leads_of_visit {current : Node} (found : visit next goal fuel current visited = none) :
    Leads next current goal := by
  induction fuel generalizing current visited with
  | zero => cases found
  | succ _ ih =>
    unfold visit at found
    split at found
    · next isGoal =>
      rw [isGoal]
    split at found
    · cases found
    · obtain ⟨_,edge,_,isNone⟩ := foldlM_none found
      exact Relation.ReflTransGen.head edge (ih isNone)

structure Explored (next : Node → List Node) (goal : Node) (before after : List Node) : Prop where
  grows : ∀ node ∈ before, node ∈ after
  followed : ∀ node ∈ after, node ∉ before → node ≠ goal ∧ ∀ neighbor ∈ next node, neighbor ∈ after

omit [DecidableEq Node] in
theorem Explored.refl (next : Node → List Node) (goal : Node) (visited : List Node) :
    Explored next goal visited visited :=
  ⟨fun _ mem => mem,fun _ => absurd⟩

theorem Explored.trans {middle : List Node}
    (first : Explored next goal before middle) (second : Explored next goal middle after) :
    Explored next goal before after := by
  refine ⟨fun node mem => second.grows node (first.grows node mem),fun node mem fresh => ?_⟩
  by_cases early : node ∈ middle
  · obtain ⟨other,inside⟩ := first.followed node early fresh
    exact ⟨other,fun neighbor edge => second.grows neighbor (inside neighbor edge)⟩
  · exact second.followed node mem early

def unvisited (nodes : Finset Node) (visited : List Node) : Nat := (nodes \ visited.toFinset).card

theorem unvisited_le
    (grows : ∀ node ∈ before, node ∈ after) : unvisited nodes after ≤ unvisited nodes before := by
  refine card_le_card (sdiff_subset_sdiff (Finset.Subset.refl _) ?_)
  intro node mem
  exact mem_toFinset.mpr (grows node (mem_toFinset.mp mem))

theorem unvisited_cons {node : Node} (inside : node ∈ nodes) (fresh : node ∉ visited) :
    unvisited nodes (node :: visited) < unvisited nodes visited := by
  refine card_lt_card ⟨?_,fun subset => ?_⟩
  · refine sdiff_subset_sdiff (Finset.Subset.refl _) fun other mem => ?_
    exact mem_toFinset.mpr (mem_cons_of_mem _ (mem_toFinset.mp mem))
  have here : node ∈ nodes \ visited.toFinset :=
    mem_sdiff.mpr ⟨inside,fun mem => fresh (mem_toFinset.mp mem)⟩
  exact (mem_sdiff.mp (subset here)).2 (mem_toFinset.mpr mem_cons_self)

theorem explored_foldlM
    (each : ∀ node ∈ nodes, ∀ visited after, unvisited nodes visited < fuel →
      visit next goal fuel node visited = some after →
        Explored next goal visited after ∧ node ∈ after)
    {neighbors : List Node} (inside : ∀ node ∈ neighbors, node ∈ nodes)
    (enough : unvisited nodes before < fuel)
    (explored : neighbors.foldlM
      (fun visited neighbor => visit next goal fuel neighbor visited) before = some after) :
    Explored next goal before after ∧ ∀ node ∈ neighbors, node ∈ after := by
  induction neighbors generalizing before with
  | nil =>
    cases explored
    exact ⟨Explored.refl _ _ _,nofun⟩
  | cons node _ ih =>
    rw [foldlM_cons] at explored
    cases taken : visit next goal fuel node before with
    | none =>
      rw [taken] at explored
      cases explored
    | some middle =>
      rw [taken] at explored
      obtain ⟨first,here⟩ := each node (inside node mem_cons_self) before middle enough taken
      obtain ⟨later,others⟩ := ih (fun other mem => inside other (mem_cons_of_mem _ mem))
        (Nat.lt_of_le_of_lt (unvisited_le first.grows) enough) explored
      refine ⟨first.trans later,fun other mem => ?_⟩
      rcases mem_cons.mp mem with rfl | mem
      · exact later.grows other here
      · exact others other mem

theorem explored_visit
    (closed : ∀ node ∈ nodes, ∀ neighbor ∈ next node, neighbor ∈ nodes) :
    ∀ current ∈ nodes, ∀ visited after, unvisited nodes visited < fuel →
      visit next goal fuel current visited = some after →
        Explored next goal visited after ∧ current ∈ after := by
  induction fuel with
  | zero => exact fun _ _ _ _ impossible => absurd impossible (Nat.not_lt_zero _)
  | succ _ ih =>
    intro current inside visited after enough explored
    unfold visit at explored
    split at explored
    · cases explored
    rename_i notGoal
    split at explored
    · next seen =>
      cases explored
      exact ⟨Explored.refl _ _ _,seen⟩
    rename_i fresh
    have fewer := unvisited_cons inside fresh
    obtain ⟨rest,neighbors⟩ := explored_foldlM ih (closed current inside) (by omega) explored
    have here : current ∈ after := rest.grows current mem_cons_self
    refine ⟨⟨fun node mem => rest.grows node (mem_cons_of_mem _ mem),?_⟩,here⟩
    intro node mem new
    by_cases same : node = current
    · subst same
      exact ⟨notGoal,neighbors⟩
    refine rest.followed node mem fun seen => ?_
    rcases mem_cons.mp seen with impossible | old
    · exact same impossible
    · exact new old

/-- With fuel for every node that can be met, the search is exact. -/
theorem finds_iff {nodes : List Node}
    (closed : ∀ node ∈ nodes, ∀ neighbor ∈ next node, neighbor ∈ nodes) {start : Node}
    (inside : start ∈ nodes) {size : Nat} (fueled : nodes.length ≤ size) :
    finds next size start goal = true ↔ Leads next start goal := by
  unfold finds
  rw [Option.isNone_iff_eq_none]
  refine ⟨leads_of_visit,fun leads => ?_⟩
  by_contra missed
  obtain ⟨after,explored⟩ := Option.ne_none_iff_exists'.mp missed
  have enough : unvisited nodes.toFinset [] < size + 1 :=
    Nat.lt_succ_of_le (((card_le_card sdiff_subset).trans
      (toFinset_card_le _)).trans fueled)
  obtain ⟨whole,here⟩ := explored_visit
    (fun node mem neighbor edge =>
      mem_toFinset.mpr (closed node (mem_toFinset.mp mem) neighbor edge))
    start (mem_toFinset.mpr inside) [] after enough explored
  have stays : ∀ node, Leads next start node → node ∈ after := by
    intro _ path
    induction path with
    | refl => exact here
    | tail _ edge ih => exact (whole.followed _ ih not_mem_nil).2 _ edge
  have reached := stays goal leads
  exact (whole.followed goal reached not_mem_nil).1 rfl

section Cycles

variable {V : Type} {Edge Wider : V → V → Prop} {source target : V}

def Acyclic (Edge : V → V → Prop) : Prop := ∀ node, ¬ Relation.TransGen Edge node node

def CycleThrough (Edge : V → V → Prop) (source target : V) : Prop :=
  ∃ node, Relation.ReflTransGen Edge node source ∧ Edge source target ∧
    Relation.ReflTransGen Edge target node

theorem Acyclic.mono (acyclic : Acyclic Wider) (subset : ∀ one two, Edge one two → Wider one two) :
    Acyclic Edge :=
  fun node cycle => acyclic node (Relation.TransGen.mono subset _ _ cycle)

theorem path_cases (added : ∀ one two, Wider one two → Edge one two ∨ one = source ∧ two = target)
    {start finish : V} (path : Relation.ReflTransGen Wider start finish) :
    Relation.ReflTransGen Edge start finish ∨
      Relation.ReflTransGen Edge start source ∧ Relation.ReflTransGen Edge target finish := by
  induction path using Relation.ReflTransGen.head_induction_on with
  | refl => exact .inl .refl
  | head edge _ ih =>
    rcases added _ _ edge with old | ⟨rfl,rfl⟩
    · exact ih.imp (.head old) fun passes => ⟨.head old passes.1,passes.2⟩
    · exact .inr ⟨.refl,ih.elim id And.right⟩

theorem cycleThrough_iff (edge : Wider source target)
    (subset : ∀ one two, Edge one two → Wider one two)
    (added : ∀ one two, Wider one two → Edge one two ∨ one = source ∧ two = target) :
    CycleThrough Wider source target ↔ Relation.ReflTransGen Edge target source := by
  constructor
  · rintro ⟨_,arrives,-,leaves⟩
    rcases path_cases added (leaves.trans arrives) with around | ⟨first,-⟩
    · exact around
    · exact first
  · intro back
    exact ⟨source,.refl,edge,Relation.ReflTransGen.mono subset _ _ back⟩

theorem Acyclic.insert (acyclic : Acyclic Edge)
    (back : ¬ Relation.ReflTransGen Edge target source)
    (added : ∀ one two, Wider one two → Edge one two ∨ one = source ∧ two = target) :
    Acyclic Wider := by
  intro node cycle
  obtain ⟨_,edge,path⟩ := Relation.TransGen.head'_iff.mp cycle
  rcases added _ _ edge with old | ⟨rfl,rfl⟩
  · rcases path_cases added path with around | ⟨first,last⟩
    · exact acyclic node (Relation.TransGen.head' old around)
    · exact back (last.trans (.head old first))
  · rcases path_cases added path with around | ⟨first,-⟩
    · exact back around
    · exact back first

end Cycles

end Syndra.Foundation.Search
