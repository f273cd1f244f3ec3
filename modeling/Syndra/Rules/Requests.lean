/-
Requests on the mapping rules.

A create or an update first checks, against the rules then active, that its edge closes no
cycle, and writes later under the lock. Other requests may come between.
-/

import Syndra.Access.Closure
import Syndra.Foundation.Runs
import Syndra.Foundation.Search
import Syndra.Foundation.Text

namespace Syndra.Rules

open Access Foundation Foundation.Runs Foundation.Text List Role Function

def neighbors (edges : List (Role × Role)) (node : Role) : List Role :=
  (edges.filter fun edge => edge.1 = node).map Prod.snd

def hasCycleWithRules (rules : List MappingRule) (source target : Role) : Bool :=
  let edges := rules.map (ruleEdge Role.mk) ++ [(source, target)]
  let nodes := edges.flatMap fun edge => [edge.1,edge.2]
  Search.finds (neighbors edges) nodes.length target source

def excludeRuleFromGraph (rules : List MappingRule) (excludeRuleId : String) : List MappingRule :=
  rules.filter fun rule => rule.id ≠ excludeRuleId

structure Row where
  rule : MappingRule
  retired : Bool
deriving DecidableEq

abbrev Table := List Row

def activeMappingRules (table : Table) : List MappingRule :=
  (table.filter fun row => !row.retired).map Row.rule

inductive RuleError where
  | idRequired
  | required
  | selfReference
  | cycleDetected
  | notFound
  | retired
  | conflict
deriving DecidableEq

structure Proposal where
  sourceProject : String
  sourceRole : String
  targetProject : String
  targetRole : String
deriving DecidableEq

namespace Proposal

def trimmed (proposal : Proposal) : Proposal :=
  { sourceProject := trimSpace proposal.sourceProject, sourceRole := trimSpace proposal.sourceRole
    targetProject := trimSpace proposal.targetProject, targetRole := trimSpace proposal.targetRole }

def source (proposal : Proposal) : Role := ⟨proposal.sourceProject,proposal.sourceRole⟩

def target (proposal : Proposal) : Role := ⟨proposal.targetProject,proposal.targetRole⟩

def rule (proposal : Proposal) (id : String) : MappingRule :=
  { id := id, sourceProject := proposal.sourceProject, sourceRole := proposal.sourceRole
    targetProject := proposal.targetProject, targetRole := proposal.targetRole }

def validate (proposal : Proposal) : Except RuleError Unit :=
  if proposal.sourceProject = "" ∨ proposal.targetProject = "" ∨ proposal.sourceRole = "" ∨
      proposal.targetRole = "" then .error .required
  else if proposal.source = proposal.target then .error .selfReference
  else .ok ()

end Proposal

inductive Request where
  | create (proposal : Proposal)
  | update (id : String) (proposal : Proposal)
deriving DecidableEq

def Request.proposal : Request → Proposal
  | .create proposal => proposal.trimmed
  | .update _ proposal => proposal.trimmed

def Request.graph (rules : List MappingRule) : Request → List MappingRule
  | .create _ => rules
  | .update id _ => excludeRuleFromGraph rules id

def detectCycle (table : Table) (request : Request) : Except RuleError Unit :=
  if hasCycleWithRules (request.graph (activeMappingRules table)) request.proposal.source
      request.proposal.target then .error .cycleDetected
  else .ok ()

def check (table : Table) : Request → Except RuleError Unit
  | .create proposal => do
      proposal.trimmed.validate
      detectCycle table (.create proposal)
  | .update id proposal => do
      if trimSpace id = "" then .error .idRequired
      proposal.trimmed.validate
      match table.find? fun row => row.rule.id = id with
      | none => .error .notFound
      | some row => if row.retired then .error .retired
      detectCycle table (.update id proposal)

def taken (table : Table) (proposal : Proposal) (id : String) : Bool :=
  table.any fun row => !row.retired && decide (row.rule.id ≠ id) &&
    decide (ruleEdge Role.mk row.rule = (proposal.source, proposal.target))

def write (table : Table) (newId : String) : Request → Except RuleError Table
  | .create proposal =>
    if taken table proposal.trimmed newId then .error .conflict
    else .ok (table ++ [{ rule := proposal.trimmed.rule newId, retired := false }])
  | .update id proposal =>
    if ¬ table.any fun row => row.rule.id = id && !row.retired then .error .notFound
    else if taken table proposal.trimmed id then .error .conflict
    else
      .ok (table.map fun row =>
        if row.rule.id = id ∧ row.retired = false then { row with rule := proposal.trimmed.rule id }
        else row)

def retire (table : Table) (id : String) : Except RuleError Table :=
  if trimSpace id = "" then .error .idRequired
  else
    match table.find? fun row => row.rule.id = id with
    | none => .error .notFound
    | some row =>
      if row.retired then .error .retired
      else
        .ok (table.map fun row => if row.rule.id = id then { row with retired := true } else row)

structure Checked where
  request : Request
  read : List MappingRule
deriving DecidableEq

structure System where
  table : Table
  inFlight : List Checked
deriving DecidableEq

inductive Event where
  | check (request : Request)
  | write (position : Nat) (newId : String)
  | retire (id : String)
deriving DecidableEq

def step (system : System) : Event → Option System
  | .check request =>
    match check system.table request with
    | .error _ => some system
    | .ok () =>
      some { system with
        inFlight := system.inFlight ++ [⟨request,activeMappingRules system.table⟩] }
  | .write position newId =>
    match system.inFlight[position]? with
    | none => none
    | some checked =>
      if system.table.any fun row => row.rule.id = newId then none
      else
        let waiting := system.inFlight.eraseIdx position
        match write system.table newId checked.request with
        | .error _ => some { system with inFlight := waiting }
        | .ok table => some { table := table, inFlight := waiting }
  | .retire id =>
    match retire system.table id with
    | .error _ => some system
    | .ok table => some { system with table := table }

/-- No rule was created or changed since the check of a request that is written. -/
def Event.Undisturbed (system : System) : Event → Prop
  | .write position _ =>
    ∀ checked ∈ system.inFlight[position]?,
      ∀ rule ∈ activeMappingRules system.table, rule ∈ checked.read
  | _ => True

instance (system : System) : (event : Event) → Decidable (event.Undisturbed system)
  | .write position _ =>
    inferInstanceAs (Decidable (∀ checked ∈ system.inFlight[position]?,
      ∀ rule ∈ activeMappingRules system.table, rule ∈ checked.read))
  | .check _ => inferInstanceAs (Decidable True)
  | .retire _ => inferInstanceAs (Decidable True)

def Acyclic (rules : List MappingRule) : Prop :=
  Search.Acyclic fun source target : Role => (source, target) ∈ rules.map (ruleEdge Role.mk)

variable {source target : Role} {request : Request} {fewer more : List MappingRule}

theorem mem_neighbors {edges : List (Role × Role)} :
    target ∈ neighbors edges source ↔ (source, target) ∈ edges := by
  unfold neighbors
  constructor
  · intro mem
    obtain ⟨⟨one,_⟩,inside,rfl⟩ := mem_map.mp mem
    obtain ⟨edge,same⟩ := mem_filter.mp inside
    have isSource : one = source := of_decide_eq_true same
    rwa [isSource] at edge
  · intro edge
    exact mem_map.mpr
      ⟨(source, target),mem_filter.mpr ⟨edge,decide_eq_true rfl⟩,rfl⟩

def checkedEdges (rules : List MappingRule) (source target : Role) : List (Role × Role) :=
  rules.map (ruleEdge Role.mk) ++ [(source, target)]

variable {rules : List MappingRule}

theorem finds_iff_reaches {size : Nat}
    (fueled : ((checkedEdges rules source target).flatMap fun edge => [edge.1,edge.2]).length ≤
      size) :
    Search.finds (neighbors (checkedEdges rules source target)) size target source = true ↔
      Reaches mk rules target source := by
  have inside : target ∈ (checkedEdges rules source target).flatMap
      fun edge => [edge.1,edge.2] :=
    mem_flatMap.mpr ⟨(source, target),mem_append_right _ mem_cons_self,
      mem_cons_of_mem _ mem_cons_self⟩
  rw [Search.finds_iff (fun _ _ neighbor edge => mem_flatMap.mpr
    ⟨_,mem_neighbors.mp edge,mem_cons_of_mem _ mem_cons_self⟩) inside fueled]
  constructor
  · intro leads
    have added : ∀ one two, two ∈ neighbors (checkedEdges rules source target) one →
        (one, two) ∈ rules.map (ruleEdge mk) ∨ one = source ∧ two = target := by
      intro _ _ edge
      rcases mem_append.mp (mem_neighbors.mp edge) with old | new
      · exact .inl old
      · exact .inr (Prod.mk.inj (mem_singleton.mp new))
    exact (Search.path_cases added leads).elim id And.left
  · intro reaches
    exact Relation.ReflTransGen.mono
      (fun _ _ edge => mem_neighbors.mpr (mem_append_left _ edge)) _ _ reaches

theorem hasCycleWithRules_iff :
    hasCycleWithRules rules source target = true ↔ Reaches mk rules target source :=
  finds_iff_reaches (Nat.le_refl _)

def CycleThrough (rules : List MappingRule) (source target : Role) : Prop :=
  Search.CycleThrough (fun one two : Role => (one, two) ∈ rules.map (ruleEdge Role.mk)) source target

def edited (rules : List MappingRule) (id : String) (source target : Role) : List MappingRule :=
  rules.map fun old =>
    if old.id = id then
      { id := id, sourceProject := source.projectId, sourceRole := source.roleKey
        targetProject := target.projectId, targetRole := target.roleKey }
    else old

theorem mem_edges_edited {id : String} (found : ∃ rule ∈ rules, rule.id = id)
    {edge : Role × Role} :
    edge ∈ (edited rules id source target).map (ruleEdge mk) ↔
      edge ∈ (excludeRuleFromGraph rules id).map (ruleEdge mk) ∨ edge = (source, target) := by
  unfold edited excludeRuleFromGraph
  rw [map_map]
  constructor
  · intro mem
    obtain ⟨old,listed,rfl⟩ := mem_map.mp mem
    by_cases same : old.id = id
    · rw [comp_apply,if_pos same]
      exact .inr rfl
    · rw [comp_apply,if_neg same]
      exact .inl (mem_map_of_mem (mem_filter.mpr ⟨listed,decide_eq_true same⟩))
  · rintro (kept | rfl)
    · obtain ⟨old,among,rfl⟩ := mem_map.mp kept
      obtain ⟨listed,other⟩ := mem_filter.mp among
      refine mem_map.mpr ⟨old,listed,?_⟩
      rw [comp_apply,if_neg (of_decide_eq_true other)]
    · obtain ⟨old,listed,same⟩ := found
      refine mem_map.mpr ⟨old,listed,?_⟩
      rw [comp_apply,if_pos same]
      rfl

/-- The check of a create answers whether its edge would be on a cycle, that of an update
whether the edited edge would be, and the search never runs short. -/
theorem cycleCheck_exact (rules : List MappingRule) (source target : Role) :
    (∀ id, hasCycleWithRules rules source target = true ↔
      CycleThrough (rules ++ [⟨id,source.projectId,source.roleKey,target.projectId,
        target.roleKey⟩]) source target) ∧
    (∀ id, (∃ rule ∈ rules, rule.id = id) →
      (hasCycleWithRules (excludeRuleFromGraph rules id) source target = true ↔
        CycleThrough (edited rules id source target) source target)) ∧
    ∀ size, ((checkedEdges rules source target).flatMap fun edge => [edge.1,edge.2]).length ≤
        size →
      Search.finds (neighbors (checkedEdges rules source target)) size target source =
        hasCycleWithRules rules source target := by
  refine ⟨fun id => ?_,fun id found => ?_,fun size fueled => ?_⟩
  · rw [hasCycleWithRules_iff]
    refine (Search.cycleThrough_iff ?_ ?_ ?_).symm
    · rw [map_append]
      exact mem_append_right _ (mem_singleton.mpr rfl)
    · intro one two edge
      rw [map_append]
      exact mem_append_left _ edge
    intro one two edge
    rw [map_append] at edge
    rcases mem_append.mp edge with old | new
    · exact .inl old
    · exact .inr (Prod.mk.inj (mem_singleton.mp new))
  · rw [hasCycleWithRules_iff]
    refine (Search.cycleThrough_iff ((mem_edges_edited found).mpr (.inr rfl)) ?_ ?_).symm
    · intro one two edge
      exact (mem_edges_edited found).mpr (.inl edge)
    intro _ _ edge
    rcases (mem_edges_edited found).mp edge with old | new
    · exact .inl old
    · exact .inr (Prod.mk.inj new)
  · rw [Bool.eq_iff_iff,finds_iff_reaches fueled,hasCycleWithRules_iff]

theorem cycleCheck_exact_turned :
    let rules : List MappingRule := [⟨"1","doors","entry","shop","laser"⟩]
    (hasCycleWithRules rules ⟨"shop","laser"⟩ ⟨"doors","entry"⟩ = true ∧
      hasCycleWithRules (excludeRuleFromGraph rules "1") ⟨"shop","laser"⟩ ⟨"doors","entry"⟩ =
        false) ∧
    ¬ CycleThrough (edited rules "1" ⟨"shop","laser"⟩ ⟨"doors","entry"⟩) ⟨"shop","laser"⟩
      ⟨"doors","entry"⟩ := by
  intro rules
  have answers : hasCycleWithRules rules ⟨"shop","laser"⟩ ⟨"doors","entry"⟩ = true ∧
      hasCycleWithRules (excludeRuleFromGraph rules "1") ⟨"shop","laser"⟩ ⟨"doors","entry"⟩ =
        false := by
    decide +kernel
  refine ⟨answers,fun cycle => ?_⟩
  have found := ((cycleCheck_exact rules ⟨"shop","laser"⟩ ⟨"doors","entry"⟩).2.1 "1"
    ⟨_,mem_singleton.mpr rfl,rfl⟩).mpr cycle
  rw [answers.2] at found
  cases found

section Steps

variable {table after : Table} {request : Request} {newId id : String} {rule : MappingRule}

theorem mem_activeMappingRules :
    rule ∈ activeMappingRules table ↔ ∃ row ∈ table, row.retired = false ∧ row.rule = rule := by
  unfold activeMappingRules
  constructor
  · intro mem
    obtain ⟨row,inside,isRule⟩ := mem_map.mp mem
    obtain ⟨listed,active⟩ := mem_filter.mp inside
    exact ⟨row,listed,Bool.not_eq_true' _ ▸ active,isRule⟩
  · rintro ⟨row,listed,active,isRule⟩
    refine mem_map.mpr ⟨row,mem_filter.mpr ⟨listed,?_⟩,isRule⟩
    rw [active]
    rfl

theorem detectCycle_ok (passed : detectCycle table request = .ok ()) :
    ¬ Reaches mk (request.graph (activeMappingRules table)) request.proposal.target
      request.proposal.source := by
  unfold detectCycle at passed
  split at passed
  · cases passed
  · next noCycle => exact fun reaches => noCycle (hasCycleWithRules_iff.mpr reaches)

theorem detectCycle_of_check (passed : check table request = .ok ()) :
    detectCycle table request = .ok () := by
  unfold check at passed
  cases request with
  | create proposal =>
    dsimp only at passed
    cases valid : proposal.trimmed.validate with
    | error =>
      rw [valid] at passed
      cases passed
    | ok =>
      rw [valid] at passed
      exact passed
  | update id proposal =>
    dsimp only at passed
    split at passed
    · cases passed
    cases valid : proposal.trimmed.validate with
    | error =>
      rw [valid] at passed
      cases passed
    | ok =>
      rw [valid] at passed
      cases found : table.find? fun row => row.rule.id = id with
      | none =>
        rw [found] at passed
        cases passed
      | some row =>
        rw [found] at passed
        cases isRetired : row.retired with
        | true =>
          dsimp only at passed
          rw [isRetired] at passed
          cases passed
        | false =>
          dsimp only at passed
          rw [isRetired] at passed
          exact passed

theorem active_write (written : write table newId request = .ok after)
    (active : rule ∈ activeMappingRules after) :
    rule ∈ request.graph (activeMappingRules table) ∨
      ruleEdge mk rule = (request.proposal.source, request.proposal.target) := by
  obtain ⟨row,listed,isActive,rfl⟩ := mem_activeMappingRules.mp active
  unfold write at written
  cases request with
  | create =>
    dsimp only at written
    split at written
    · cases written
    cases written
    rcases mem_append.mp listed with old | new
    · exact .inl (mem_activeMappingRules.mpr ⟨row,old,isActive,rfl⟩)
    · rw [mem_singleton.mp new]
      exact .inr rfl
  | update =>
    dsimp only at written
    split at written
    · cases written
    split at written
    · cases written
    cases written
    obtain ⟨before,wasListed,rfl⟩ := mem_map.mp listed
    split
    · exact .inr rfl
    rename_i untouched
    rw [if_neg untouched] at isActive
    refine .inl (mem_filter.mpr ⟨mem_activeMappingRules.mpr ⟨before,wasListed,isActive,rfl⟩,?_⟩)
    exact decide_eq_true fun same => untouched ⟨same,isActive⟩

theorem active_retire (retired : retire table id = .ok after)
    (active : rule ∈ activeMappingRules after) : rule ∈ activeMappingRules table := by
  obtain ⟨row,listed,isActive,rfl⟩ := mem_activeMappingRules.mp active
  unfold retire at retired
  split at retired
  · cases retired
  split at retired
  · cases retired
  split at retired
  · cases retired
  cases retired
  obtain ⟨before,wasListed,rfl⟩ := mem_map.mp listed
  split at isActive
  · cases isActive
  rename_i kept
  rw [if_neg kept]
  exact mem_activeMappingRules.mpr ⟨before,wasListed,isActive,rfl⟩

end Steps

theorem graph_subset
    (subset : ∀ rule ∈ fewer, rule ∈ more) :
    ∀ rule ∈ request.graph fewer, rule ∈ request.graph more := by
  intro rule mem
  cases request with
  | create => exact subset rule mem
  | update =>
    obtain ⟨listed,other⟩ := mem_filter.mp mem
    exact mem_filter.mpr ⟨subset rule listed,other⟩

theorem graph_subset_self : ∀ rule ∈ request.graph rules, rule ∈ rules := by
  intro _ mem
  cases request with
  | create => exact mem
  | update => exact (mem_filter.mp mem).1

theorem Acyclic.subset (acyclic : Acyclic more)
    (subset : ∀ rule ∈ fewer, rule ∈ more) : Acyclic fewer :=
  Search.Acyclic.mono acyclic fun _ _ edge => map_subset _ subset edge

structure Held (system : System) : Prop where
  acyclic : Acyclic (activeMappingRules system.table)
  passed : ∀ checked ∈ system.inFlight,
    ¬ Reaches Role.mk (checked.request.graph checked.read) checked.request.proposal.target
      checked.request.proposal.source

theorem acyclic_write {table after : Table} {newId : String} {checked : Checked}
    (acyclic : Acyclic (activeMappingRules table))
    (passed : ¬ Reaches mk (checked.request.graph checked.read)
      checked.request.proposal.target checked.request.proposal.source)
    (undisturbed : ∀ rule ∈ activeMappingRules table, rule ∈ checked.read)
    (written : write table newId checked.request = .ok after) :
    Acyclic (activeMappingRules after) := by
  have others : Acyclic (checked.request.graph (activeMappingRules table)) :=
    acyclic.subset graph_subset_self
  have back : ¬ Reaches mk (checked.request.graph (activeMappingRules table))
      checked.request.proposal.target checked.request.proposal.source := by
    intro leads
    refine passed (Relation.ReflTransGen.mono (fun _ _ edge => ?_) _ _ leads)
    exact map_subset _ (graph_subset undisturbed) edge
  refine Search.Acyclic.insert others back fun one two edge => ?_
  obtain ⟨rule,active,isEdge⟩ := mem_map.mp edge
  rcases active_write written active with old | new
  · exact .inl (mem_map.mpr ⟨rule,old,isEdge⟩)
  · rw [isEdge] at new
    exact .inr (Prod.mk.inj new)

theorem held_step {system next : System} {event : Event} (held : Held system)
    (undisturbed : event.Undisturbed system) (taken : step system event = some next) :
    Held next := by
  unfold step at taken
  cases event with
  | check =>
    dsimp only at taken
    split at taken
    · cases taken
      exact held
    rename_i passed
    cases taken
    refine ⟨held.acyclic,fun checked mem => ?_⟩
    rcases mem_append.mp mem with old | new
    · exact held.passed checked old
    · rw [mem_singleton.mp new]
      exact detectCycle_ok (detectCycle_of_check passed)
  | write position =>
    dsimp only at taken
    split at taken
    · cases taken
    rename_i checked isChecked
    split at taken
    · cases taken
    have waiting : ∀ other ∈ system.inFlight.eraseIdx position,
        ¬ Reaches mk (other.request.graph other.read) other.request.proposal.target
          other.request.proposal.source :=
      fun other mem => held.passed other (mem_of_mem_eraseIdx mem)
    split at taken
    · cases taken
      exact ⟨held.acyclic,waiting⟩
    rename_i written
    cases taken
    have passed := held.passed checked (mem_of_getElem? isChecked)
    exact ⟨acyclic_write held.acyclic passed (undisturbed checked isChecked) written, waiting⟩
  | retire =>
    dsimp only at taken
    split at taken
    · cases taken
      exact held
    rename_i retired
    cases taken
    exact ⟨held.acyclic.subset fun _ => active_retire retired,held.passed⟩

theorem acyclic_run (table : Table) (acyclic : Acyclic (activeMappingRules table))
    (events : List Event) (final : System)
    (undisturbed : Throughout step (fun system event => event.Undisturbed system)
      { table := table, inFlight := [] } events)
    (reached : run step { table := table, inFlight := [] } events = some final) :
    Acyclic (activeMappingRules final.table) := by
  have begins : Held { table := table, inFlight := [] } :=
    ⟨acyclic,nofun⟩
  exact (run_invariant Held held_step begins undisturbed reached).acyclic

namespace TwoRequests

def gives (sourceRole targetRole : String) : Request :=
  .create { sourceProject := "lab", sourceRole := sourceRole, targetProject := "lab"
            targetRole := targetRole }

def inTurn : List Event :=
  [.check (gives "member" "door"),.write 0 "r1",.check (gives "staff" "member"),.retire "r1",
    .write 0 "r2",.check (gives "member" "staff")]

theorem acyclic_run_inTurn : ∃ final, run step { table := [], inFlight := [] } inTurn = some final ∧
      (activeMappingRules final.table).length = 1 ∧ final.inFlight = [] ∧
      Acyclic (activeMappingRules final.table) := by
  have empty : Acyclic (activeMappingRules []) := by
    intro _ cycle
    obtain ⟨_,edge,-⟩ := Relation.TransGen.head'_iff.mp cycle
    exact absurd edge not_mem_nil
  refine exists_reached_both (by decide +kernel) fun final reached _ _ => ?_
  exact acyclic_run [] empty inTurn final (by decide +kernel) reached

def crossing : List Event :=
  [.check (gives "member" "staff"),.check (gives "staff" "member"),.write 0 "r1",.write 0 "r2"]

theorem cycle_crossing : ∃ final, run step { table := [], inFlight := [] } crossing = some final ∧
      ¬ Acyclic (activeMappingRules final.table) := by
  have ran : (run step { table := [], inFlight := [] } crossing).any (fun final =>
      decide ((⟨"lab","member"⟩, ⟨"lab","staff"⟩) ∈
          (activeMappingRules final.table).map (ruleEdge Role.mk) ∧
        (⟨"lab","staff"⟩, ⟨"lab","member"⟩) ∈
          (activeMappingRules final.table).map (ruleEdge Role.mk))) = true := by
    decide +kernel
  obtain ⟨final,reached,facts⟩ := exists_reached ran
  exact ⟨final,reached,fun acyclic => acyclic _ (.tail (.single facts.1) facts.2)⟩

end TwoRequests

end Syndra.Rules
