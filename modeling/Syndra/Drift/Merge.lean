/-
A hand edit and the passes that see it.

Each managed field of a subject is compared three ways: what Syndra wants, what the target
has, and the base, what the target was last seen holding.
-/

import Mathlib.Data.List.Dedup
import Mathlib.Data.List.Sort
import Mathlib.Data.String.Basic
import Syndra.Foundation.Json

namespace Syndra.Merge

open List Foundation

abbrev Raw := String

abbrev FieldMap := List (String × Raw)

/-- An array is compared without its order: as the list of its items' texts, sorted. -/
def canonical (raw : Raw) : Option String :=
  (Json.read raw).map fun value => String.ofList <| Json.print <|
    match value with
    | .array items =>
      .array (((items.map fun item => String.ofList item.print).insertionSort (· ≤ ·)).map .text)
    | value => value

def sameValue (a b : Raw) : Bool :=
  if a = "" ∨ b = "" then a = b
  else
    match canonical a, canonical b with
    | some ca, some cb => ca = cb
    | _, _ => a = b

/-- What the comparison looks at. -/
def key (a : Raw) : Raw ⊕ String :=
  if a = "" then .inl a
  else
    match canonical a with
    | some ca => .inr ca
    | none => .inl a

theorem sameValue_eq (a b : Raw) : sameValue a b = decide (key a = key b) := by
  by_cases same : a = b
  · subst same
    unfold sameValue
    split
    · simp
    · cases canonical a with
      | _ => simp
  unfold sameValue key
  by_cases first : a = ""
  · have second : b ≠ "" := fun isEmpty => same (first.trans isEmpty.symm)
    cases canonical b with
    | _ => simp [first,second]
  by_cases second : b = ""
  · cases canonical a with
    | _ => simp [first,second]
  · cases canonical a with
    | _ =>
      cases canonical b with
      | _ => simp [first,second,same]

def isArray (raw : Raw) : Bool := Json.opens raw.toList

theorem sort_eq_of_perm {first second : List String} (perm : first.Perm second) :
    first.insertionSort (· ≤ ·) = second.insertionSort (· ≤ ·) :=
  Perm.eq_of_pairwise (fun _ _ _ _ => le_antisymm) (pairwise_insertionSort _ _)
    (pairwise_insertionSort _ _)
    ((perm_insertionSort _ _).trans (perm.trans (perm_insertionSort _ _).symm))

theorem key_perm {a a' : Raw} {items items' : List Json} (read : Json.read a = some (.array items))
    (read' : Json.read a' = some (.array items')) (perm : items.Perm items') : key a = key a' := by
  have filled {raw : Raw} {value : Json} (isRead : Json.read raw = some value) : raw ≠ "" := by
    rintro rfl
    cases isRead
  rw [key,key,if_neg (filled read),if_neg (filled read'),canonical,canonical,read,read']
  simp only [Option.map_some,sort_eq_of_perm (perm.map _)]

theorem isArray_key (a : Raw) : (key a).elim isArray isArray = isArray a := by
  unfold key canonical
  split
  · rfl
  cases read : Json.read a with
  | none => rfl
  | some value =>
    rw [isArray,← Json.isArray_read read]
    cases value with
    | array => simp [isArray,Json.opens_print,Json.isArray]
    | _ => simp [isArray,Json.opens_print]

/-- Sameness is an equivalence on all texts. It is blind to the order of an array that can
be read, and it never takes an array for another value. -/
theorem sameValue_equivalence :
    (∀ a, sameValue a a = true) ∧ (∀ a b, sameValue a b = sameValue b a) ∧
      (∀ a b c, sameValue a b = true → sameValue b c = true → sameValue a c = true) ∧
      (∀ a a' items items', Json.read a = some (.array items) →
        Json.read a' = some (.array items') → items.Perm items' →
          ∀ b, sameValue a b = sameValue a' b ∧ sameValue b a = sameValue b a') ∧
      ∀ a b, isArray a = true → isArray b = false → sameValue a b = false := by
  simp only [sameValue_eq,decide_eq_true_eq,decide_eq_false_iff_not]
  refine ⟨fun _ => trivial,fun a b => decide_eq_decide.mpr eq_comm,fun _ _ _ => Eq.trans,
    fun a a' items items' read read' perm b => ?_,fun a b array other same => ?_⟩
  · rw [key_perm read read' perm]
    exact ⟨rfl,rfl⟩
  · rw [← isArray_key,same,isArray_key,other] at array
    cases array

theorem sameValue_numbers : sameValue "[2,1,2e1]" "[20, 1.0, 2]" = true ∧
    sameValue "[1]" "1" = false := by
  obtain ⟨same,_,_,order,different⟩ := sameValue_equivalence
  let items : List Json := [.number ⟨false,5629499534213120,-48⟩,.number ⟨false,2 ^ 52,-52⟩,
    .number ⟨false,2 ^ 52,-51⟩]
  have permuted := (order "[2,1,2e1]" "[20, 1.0, 2]" items.reverse items rfl rfl
    (reverse_perm items) "[20, 1.0, 2]").1
  exact ⟨permuted.trans (same _),different "[1]" "1" (by decide +kernel) (by decide +kernel)⟩

/-- An array with a number beyond float64 is compared as a text, order and all. -/
theorem sameValue_ordered : sameValue "[1e400,1]" "[1e400,1]" = true ∧
    sameValue "[1e400,1]" "[1,1e400]" = false := by
  exact ⟨by decide +kernel,by decide +kernel⟩

inductive Outcome where
  | unchanged
  | fastForward
  | alreadyMerged
  | theirsOnly
  | conflict
  | noBase
  | deletedUpstream
deriving DecidableEq

def Outcome.resolvable : Outcome → Bool
  | .unchanged | .fastForward | .alreadyMerged | .noBase => true
  | _ => false

def Outcome.isFinding (outcome : Outcome) : Bool :=
  outcome = .conflict || outcome = .theirsOnly

structure FieldOutcome where
  field : String
  outcome : Outcome
  base : Option Raw
  ours : Raw
  theirs : Option Raw
deriving DecidableEq

structure SubjectFinding where
  subjectId : String
  field : String
  outcome : Outcome
  base : Option Raw
  ours : Option Raw
  theirs : Option Raw
deriving DecidableEq

structure Subject where
  subjectId : String
  fields : List FieldOutcome
  absent : Bool
deriving DecidableEq

namespace Subject

/-- An apply carries every managed field, so all have to be ones a pass may resolve. -/
def convergeable (s : Subject) : Bool :=
  !s.absent && s.fields.all (·.outcome.resolvable)

def findings (s : Subject) : List SubjectFinding :=
  if s.absent then [⟨s.subjectId,"",.deletedUpstream,none,none,none⟩]
  else
    (s.fields.filter (·.outcome.isFinding)).map fun f =>
      ⟨s.subjectId,f.field,f.outcome,f.base,some f.ours,f.theirs⟩

end Subject

def absent (subjectId : String) : Subject := ⟨subjectId,[],true⟩

def classifyField (ours : Raw) : Option Raw → Option Raw → Outcome
  | theirs, none => if theirs.any (sameValue ours) then .unchanged else .noBase
  | none, some _ => .theirsOnly
  | some theirs, some base =>
    if sameValue ours theirs then
      if sameValue base theirs then .unchanged else .alreadyMerged
    else if sameValue base theirs then .fastForward
    else if sameValue base ours then .theirsOnly
    else .conflict

def classifyRow (ours theirs base : FieldMap) (field : String) : FieldOutcome :=
  let o := (ours.lookup field).getD ""
  ⟨field,classifyField o (theirs.lookup field) (base.lookup field),base.lookup field,o,
    theirs.lookup field⟩

def classify (subjectId : String) (ours theirs base : FieldMap) : Subject :=
  ⟨subjectId,((ours.map Prod.fst).dedup.insertionSort (· ≤ ·)).map
    (classifyRow ours theirs base),false⟩

abbrev Bases := String → Option FieldMap

/-- What one pass meets: the bound subjects, whether the bases could be read, what is
wanted for each unless that fails, what the target reports of each if it does, and whether
a base could be saved. -/
structure Pass where
  bindings : List String
  basesRead : Bool
  resolve : String → Option FieldMap
  reported : String → Option FieldMap
  saves : String → Bool

structure PassResult where
  findings : List SubjectFinding
  asked : List String
  bases : Bases

def observeState (pass : Pass) (subjectId : String) (managed theirs : FieldMap) (bases : Bases) :
    Bases :=
  let observed := theirs.filter fun entry => managed.any (·.1 = entry.1)
  if observed = [] || !pass.saves subjectId then bases
  else Function.update bases subjectId (some observed)

/-- Without a reported state nothing is compared, so the base is dropped. -/
def Pass.classifies (pass : Pass) (read : Bases) (subjectId : String) (wanted : FieldMap) : Subject :=
  match pass.reported subjectId with
  | some theirs => classify subjectId wanted theirs ((read subjectId).getD [])
  | none => classify subjectId wanted [] []

def Pass.observes (pass : Pass) (state : Subject) (wanted : FieldMap) (bases : Bases) : Bases :=
  match pass.reported state.subjectId with
  | some theirs =>
    if state.findings = [] then observeState pass state.subjectId wanted theirs bases else bases
  | none => bases

/-- The subjects one after another; one that cannot be resolved ends the pass. -/
def convergeSubjects (pass : Pass) (read : Bases) : List String → Bases → PassResult
  | [], bases => ⟨[],[],bases⟩
  | subjectId :: rest, bases =>
    match pass.resolve subjectId with
    | none => ⟨[],[],bases⟩
    | some wanted =>
      let state := pass.classifies read subjectId wanted
      if !state.convergeable then
        let later := convergeSubjects pass read rest bases
        ⟨state.findings ++ later.findings,later.asked,later.bases⟩
      else
        let later := convergeSubjects pass read rest (pass.observes state wanted bases)
        ⟨state.findings ++ later.findings,subjectId :: later.asked,later.bases⟩

/-- Bases that could not be read are none. -/
def convergeBound (pass : Pass) (bases : Bases) : PassResult :=
  convergeSubjects pass (if pass.basesRead then bases else fun _ => none) pass.bindings bases

structure Classified (ours theirs base : FieldMap) (s : Subject) : Prop where
  convergeable : s.convergeable = true ↔ s.findings = []
  agreed : s.convergeable = true → ∀ field o b, ours.lookup field = some o →
    base.lookup field = some b → ∃ t, theirs.lookup field = some t ∧
      (sameValue b t = true ∨ sameValue o t = true)
  once : (s.fields.map FieldOutcome.field).Nodup
  managed : ∀ field, field ∈ s.fields.map FieldOutcome.field ↔ field ∈ ours.map Prod.fst

/-- The target moved a field away from its base, to a value Syndra did not agree to, or
stopped reporting it. -/
def Moved (bases : Bases) (subjectId field : String) (ours : Raw) (theirs : Option Raw) : Prop :=
  ∃ base b, bases subjectId = some base ∧ base.lookup field = some b ∧
    ∀ t ∈ theirs, sameValue b t = false ∧ sameValue ours t = false

def Pass.Leaves (pass : Pass) (subjectId field : String) (ours : Raw) (theirs : Option Raw) :
    Prop :=
  (∀ wanted ∈ pass.resolve subjectId, ∃ o, wanted.lookup field = some o ∧
    sameValue ours o = true) ∧
  ∃ state, pass.reported subjectId = some state ∧
    Option.Rel (fun was now => sameValue was now = true) theirs (state.lookup field)

def Pass.Classifies (pass : Pass) (subjectId : String) : Prop :=
  subjectId ∈ pass.bindings.takeWhile fun id => (pass.resolve id).isSome

/-- As long as the passes meet the same two values, the field is a finding of each that
gets as far as the subject, and none has the subject planned. -/
def Kept (subjectId field : String) (ours : Raw) (theirs : Option Raw) : Bases → List Pass → Prop
  | _, [] => True
  | bases, pass :: rest =>
    pass.Leaves subjectId field ours theirs →
      (pass.Classifies subjectId → ∃ f ∈ (convergeBound pass bases).findings,
        f.subjectId = subjectId ∧ f.field = field) ∧
      subjectId ∉ (convergeBound pass bases).asked ∧
      Kept subjectId field ours theirs (convergeBound pass bases).bases rest

variable {ours theirs base : FieldMap} {subjectId field : String} {o : Raw}
  {t : Option Raw}

theorem mem_classify {f : FieldOutcome} : f ∈ (classify subjectId ours theirs base).fields ↔
      ∃ field ∈ ours.map Prod.fst, classifyRow ours theirs base field = f := by
  simp only [classify,mem_map,mem_insertionSort,mem_dedup]

theorem mem_keys_of_lookup (here : ours.lookup field = some o) : field ∈ ours.map Prod.fst := by
  obtain ⟨_,_,rfl,_⟩ := lookup_eq_some_iff.mp here
  simp

theorem resolvable_classifyField {b : Option Raw} :
    (classifyField o t b).resolvable = !(classifyField o t b).isFinding := by
  have known : classifyField o t b ≠ .deletedUpstream := by
    unfold classifyField
    grind
  cases outcome : classifyField o t b with
  | deletedUpstream => exact absurd outcome known
  | _ => rfl

theorem convergeable_iff : (classify subjectId ours theirs base).convergeable = true ↔
    ∀ field ∈ ours.map Prod.fst,
      (classifyRow ours theirs base field).outcome.isFinding = false := by
  have present : (classify subjectId ours theirs base).absent = false := rfl
  rw [Subject.convergeable,present,Bool.not_false,Bool.true_and,all_eq_true]
  constructor
  · intro each field mem
    have may := each _ (mem_classify.mpr ⟨field,mem,rfl⟩)
    rwa [classifyRow,resolvable_classifyField,Bool.not_eq_true'] at may
  · intro none _ mem
    obtain ⟨field,isKey,rfl⟩ := mem_classify.mp mem
    rw [classifyRow,resolvable_classifyField,Bool.not_eq_true']
    exact none field isKey

theorem findings_eq_nil : (classify subjectId ours theirs base).findings = [] ↔
    (classify subjectId ours theirs base).convergeable = true := by
  have present : (classify subjectId ours theirs base).absent = false := rfl
  rw [convergeable_iff,Subject.findings,present,if_neg Bool.false_ne_true,map_eq_nil_iff,
    filter_eq_nil_iff]
  constructor
  · intro none field mem
    exact Bool.eq_false_of_not_eq_true (none _ (mem_classify.mpr ⟨field,mem,rfl⟩))
  · intro none _ mem
    obtain ⟨field,isKey,rfl⟩ := mem_classify.mp mem
    rw [none field isKey]
    exact Bool.false_ne_true

theorem classified (subjectId : String) (ours theirs base : FieldMap) :
    Classified ours theirs base (classify subjectId ours theirs base) where
  convergeable := findings_eq_nil.symm
  agreed converges field o b isOurs isBase := by
    have settled := convergeable_iff.mp converges field (mem_keys_of_lookup isOurs)
    rw [classifyRow,isOurs,isBase] at settled
    cases seen : theirs.lookup field with
    | none =>
      rw [seen] at settled
      cases settled
    | some t =>
      refine ⟨t,rfl,?_⟩
      rw [seen] at settled
      by_contra differs
      rw [not_or] at differs
      simp only [Option.getD_some,classifyField,differs,Bool.false_eq_true,if_false] at settled
      split at settled <;> cases settled
  once := by
    have names : ((classify subjectId ours theirs base).fields.map FieldOutcome.field) =
        (ours.map Prod.fst).dedup.insertionSort (· ≤ ·) := by
      rw [classify,map_map]
      exact map_id _
    rw [names]
    exact (perm_insertionSort _ _).nodup_iff.mpr (nodup_dedup _)
  managed field := by
    simp only [mem_map (f := FieldOutcome.field),mem_classify]
    constructor
    · rintro ⟨_,⟨_,mem,rfl⟩,rfl⟩
      exact mem
    · intro mem
      exact ⟨_,⟨field,mem,rfl⟩,rfl⟩

variable {bases read : Bases} {pass : Pass} {b : Raw}

theorem isFinding_of_moved {o' : Raw} {t' : Option Raw}
    (moved : ∀ t₁ ∈ t, sameValue b t₁ = false ∧ sameValue o t₁ = false)
    (sameOurs : sameValue o o' = true)
    (sameTheirs : Option.Rel (fun was now => sameValue was now = true) t t') :
    (classifyField o' t' (some b)).isFinding = true := by
  cases sameTheirs with
  | none => rfl
  | @some t₁ t₂ same =>
    obtain ⟨base,ours⟩ := moved t₁ rfl
    simp only [sameValue_eq,decide_eq_true_eq] at base ours same sameOurs
    simp only [classifyField,sameValue_eq,← same,← sameOurs,base,ours,
      Bool.false_eq_true,if_false]
    split <;> rfl

variable (subjectId) in
theorem finding_of_moved (isBase : base.lookup field = some b)
    (isOurs : ours.lookup field = some o)
    (moved : (classifyField o (theirs.lookup field) (some b)).isFinding = true) :
    (classify subjectId ours theirs base).convergeable = false ∧
      ∃ f ∈ (classify subjectId ours theirs base).findings,
        f.subjectId = subjectId ∧ f.field = field := by
  have isFinding : (classifyRow ours theirs base field).outcome.isFinding = true := by
    rw [classifyRow,isOurs,isBase]
    exact moved
  have mem := mem_keys_of_lookup isOurs
  constructor
  · apply Bool.eq_false_of_not_eq_true
    intro converges
    rw [convergeable_iff.mp converges field mem] at isFinding
    cases isFinding
  · have present : (classify subjectId ours theirs base).absent = false := rfl
    exact ⟨_,mem_map_of_mem (mem_filter.mpr ⟨mem_classify.mpr ⟨field,mem,rfl⟩,isFinding⟩),rfl,rfl⟩

variable {wanted : FieldMap}

theorem observes_other {state : Subject} {other : String}
    (different : other ≠ state.subjectId) : pass.observes state wanted bases other =
    bases other := by
  unfold Pass.observes
  cases pass.reported state.subjectId with
  | none => rfl
  | some =>
    dsimp only
    split
    · unfold observeState
      split
      · rfl
      · exact Function.update_of_ne different _ _
    · rfl

theorem subjectId_classifies : (pass.classifies read subjectId wanted).subjectId = subjectId:= by
  unfold Pass.classifies
  split <;> rfl

theorem convergeSubjects_keeps (isRead : read subjectId = some base)
    (isBase : base.lookup field = some b)
    (moved : ∀ t₁ ∈ t, sameValue b t₁ = false ∧ sameValue o t₁ = false)
    (leaves : pass.Leaves subjectId field o t) (subjects : List String) (bases : Bases) :
    (subjectId ∈ subjects.takeWhile (fun id => (pass.resolve id).isSome) →
        ∃ f ∈ (convergeSubjects pass read subjects bases).findings,
          f.subjectId = subjectId ∧ f.field = field) ∧
      subjectId ∉ (convergeSubjects pass read subjects bases).asked ∧
      (convergeSubjects pass read subjects bases).bases subjectId = bases subjectId := by
  induction subjects generalizing bases with
  | nil => exact ⟨by simp,not_mem_nil,rfl⟩
  | cons first rest ih =>
    rw [convergeSubjects]
    cases resolved : pass.resolve first with
    | none => exact ⟨by simp [resolved],not_mem_nil,rfl⟩
    | some wanted =>
      rw [takeWhile_cons_of_pos (by rw [resolved]; rfl)]
      by_cases same : first = subjectId
      · subst same
        obtain ⟨sameOurs,state,isReported,sameTheirs⟩ := leaves
        obtain ⟨_,isOurs,same⟩ := sameOurs wanted resolved
        obtain ⟨stuck,f,isFinding,named⟩ := finding_of_moved first isBase isOurs
          (isFinding_of_moved moved same sameTheirs)
        obtain ⟨_,unasked,kept⟩ := ih bases
        have isState : pass.classifies read first wanted =
            classify first wanted state base := by
          rw [Pass.classifies,isReported,isRead]
          rfl
        simp only [isState,stuck]
        exact ⟨fun _ => ⟨f,mem_append_left _ isFinding,named⟩,unasked,kept⟩
      · have later (reached : subjectId ∈ first :: rest.takeWhile fun id =>
            (pass.resolve id).isSome) := (mem_cons.mp reached).resolve_left (Ne.symm same)
        dsimp only
        split
        · obtain ⟨found,unasked,kept⟩ := ih bases
          refine ⟨fun reached => ?_,unasked,kept⟩
          obtain ⟨f,isFinding,named⟩ := found (later reached)
          exact ⟨f,mem_append_right _ isFinding,named⟩
        · obtain ⟨found,unasked,kept⟩ :=
            ih (pass.observes (pass.classifies read first wanted) wanted bases)
          refine ⟨fun reached => ?_,?_,kept.trans (observes_other ?_)⟩
          · obtain ⟨f,isFinding,named⟩ := found (later reached)
            exact ⟨f,mem_append_right _ isFinding,named⟩
          · rw [mem_cons,not_or]
            exact ⟨Ne.symm same,unasked⟩
          · rw [subjectId_classifies]
            exact Ne.symm same

/-- Every classification is exact, and a hand edit stays a finding in every run of passes
that read the bases. -/
theorem hand_edit_kept (passes : List Pass) : (∀ subjectId ours theirs base,
      Classified ours theirs base (classify subjectId ours theirs base)) ∧
    (∀ subjectId, (absent subjectId).convergeable = false ∧ (absent subjectId).findings ≠ []) ∧
    ((∀ pass ∈ passes, pass.basesRead = true) →
      ∀ bases subjectId field ours theirs, Moved bases subjectId field ours theirs →
        Kept subjectId field ours theirs bases passes) := by
  refine ⟨classified,fun _ => ⟨rfl,cons_ne_nil _ _⟩,?_⟩
  induction passes with
  | nil =>
    intro _ bases subjectId field ours theirs _
    trivial
  | cons pass _ ih =>
    intro reads bases _ _ _ _ moved leaves
    obtain ⟨base,b,isBase,atField,differs⟩ := moved
    obtain ⟨found,unasked,kept⟩ :=
      convergeSubjects_keeps isBase atField differs leaves pass.bindings bases
    have isBound : convergeBound pass bases =
        convergeSubjects pass bases pass.bindings bases := by
      rw [convergeBound,if_pos (reads pass mem_cons_self)]
    rw [isBound]
    refine ⟨found,unasked,ih (fun later mem => reads later (mem_cons_of_mem _ mem)) _ _ _ _ _
      ⟨base,b,?_,atField,differs⟩⟩
    rw [kept,isBase]

namespace Edited

def makers : Raw := "[\"makers\"]"

def staff : Raw := "[\"staff\"]"

def edited (basesRead : Bool) : Pass :=
  { bindings := ["ada"]
    basesRead := basesRead
    resolve := fun _ => some [("group", makers)]
    reported := fun _ => some [("group", staff)]
    saves := fun _ => true }

def agreed : Bases := fun _ => some [("group", makers)]

theorem moved : Moved agreed "ada" "group" makers (some staff) :=
  ⟨_,makers,rfl,rfl,by decide +kernel⟩

theorem leaves (basesRead : Bool) :
    (edited basesRead).Leaves "ada" "group" makers (some staff) :=
  ⟨fun _ resolved => ⟨makers,by cases resolved; rfl,by decide +kernel⟩,_,rfl,
    .some (by decide +kernel)⟩

theorem edit_found : ∃ f ∈ (convergeBound (edited true) agreed).findings,
    f.subjectId = "ada" ∧ f.field = "group" :=
  (((hand_edit_kept [edited true]).2.2 (by simp [edited]) agreed "ada" "group" makers
    (some staff) moved) (leaves true)).1 (by rw [Pass.Classifies]; decide)

/-- The bases cannot be read once: the edit becomes the base, and the next pass has it
planned away. -/
theorem edit_reverted : Moved agreed "ada" "group" makers (some staff) ∧
    (∀ one ∈ [edited false,edited true], one.Leaves "ada" "group" makers (some staff)) ∧
    (convergeBound (edited true) (convergeBound (edited false) agreed).bases).findings =
      [] ∧
    (convergeBound (edited true) (convergeBound (edited false) agreed).bases).asked =
      ["ada"] ∧
    ¬ Kept "ada" "group" makers (some staff) agreed [edited false,edited true] := by
  refine ⟨moved,?_,by decide +kernel,by decide +kernel,?_⟩
  · intro _ mem
    simp only [mem_cons,not_mem_nil,or_false] at mem
    rcases mem with rfl | rfl
    · exact leaves false
    · exact leaves true
  · intro kept
    exact absurd (kept (leaves false)).2.1 (by decide +kernel)

end Edited

end Syndra.Merge
