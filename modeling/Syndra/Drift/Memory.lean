/-
What the drift sweep remembers of Zitadel.

Two memories, both of fields `project/role` by person. The merge bases hold what the last
complete sweep saw of each person; the propagations hold the writes Zitadel accepted.
-/

import Syndra.Foundation.Grouping
import Syndra.Foundation.Text
import Syndra.Observe.Index
import Syndra.Propagation.Table

namespace Syndra.Drift

open Propagation Observe Foundation.Grouping Foundation.Text List

abbrev FieldMemory := Grouped String String

def grantField (projectId roleKey : String) : String := projectId ++ "/" ++ roleKey

def keyField (key : HeldRole) : String := grantField key.projectId key.roleKey

def remembers (memory : FieldMemory) (key : HeldRole) : Bool :=
  keyField key ∈ under memory key.userId

def wasObserved (bases : FieldMemory) (key : HeldRole) : Bool := remembers bases key

def hasLanded (landed : FieldMemory) (key : HeldRole) : Bool := remembers landed key

/-- `none` is a refused or failed write. -/
def recordMergeBase (failed : Bool) (bases : FieldMemory) (subjectId : String)
    (fields : List String) : Option FieldMemory :=
  if trimSpace subjectId = "" || fields = [] || failed then none
  else some (bases.insert subjectId fields)

def observedFields (zit : List UserGrant) : FieldMemory :=
  (zit.flatMap fun grant =>
    grant.roleKeys.map fun role => (grant.userId, grantField grant.projectId role)).foldl
      (fun out seen => addUnder out seen.1 seen.2) ∅

/-- A grant under an open finding keeps what was observed before. -/
def keepUnresolved (previous observed : FieldMemory) (key : HeldRole) : FieldMemory :=
  if wasObserved previous key then addUnder observed key.userId (keyField key) else observed

def saveObserved (failed : String → Bool) (observed : FieldMemory)
    (out : FieldMemory × Nat) (userId : String) : FieldMemory × Nat :=
  match recordMergeBase (failed userId) out.1 userId (under observed userId) with
  | none => (out.1, out.2 + 1)
  | some bases => (bases, out.2)

def forgetUnseen (failed : String → Bool) (observed : FieldMemory)
    (out : FieldMemory × Nat) (userId : String) : FieldMemory × Nat :=
  if userId ∈ observed then out
  else if failed userId then (out.1, out.2 + 1)
  else (out.1.erase userId, out.2)

def recordObservedGrants (saveFails forgetFails : String → Bool) (bases : FieldMemory)
    (zit : List UserGrant) (unresolved : List HeldRole) (previous : FieldMemory) :
    FieldMemory × Nat :=
  let observed := unresolved.foldl (keepUnresolved previous) (observedFields zit)
  previous.keys.foldl (forgetUnseen forgetFails observed)
    (observed.keys.foldl (saveObserved saveFails observed) (bases, 0))

def recordPropagation (failed : Bool) (landed : FieldMemory) (subjectId field : String) :
    FieldMemory :=
  if trimSpace subjectId = "" || trimSpace field = "" || failed then landed
  else addUnder landed subjectId field

def rowFields (row : Intent) : List String := row.roleKeys.map (grantField row.projectId)

def forgets (row : Intent) (field : String) : Bool :=
  match row.opType with
  | .revoke => field ∈ rowFields row
  | .replace =>
    trimSpace row.projectId ≠ "" &&
      like (row.projectId ++ "/%").toList field.toList && field ∉ rowFields row
  | _ => false

def forgetFields (landed : FieldMemory) (row : Intent) : FieldMemory :=
  landed.insert row.userId ((under landed row.userId).filter fun field => !forgets row field)

/-- Only what adds access is saved, field by field. -/
def saveLanded (saveFails : String → Bool) (landed : FieldMemory) (row : Intent) : FieldMemory :=
  match row.opType with
  | .add | .replace =>
    (rowFields row).foldl
      (fun out field => recordPropagation (saveFails field) out row.userId field) landed
  | _ => landed

def rememberPropagation (saveFails : String → Bool) (forgetFails : Bool) (landed : FieldMemory)
    (row : Intent) : FieldMemory :=
  if row.target ≠ zitadelTarget then landed
  else if forgetFails then saveLanded saveFails landed row
  else forgetFields (saveLanded saveFails landed row) row

variable {field userId : String} {landed : FieldMemory} {row : Intent}

variable {zit : List UserGrant} {previous : FieldMemory} {unresolved : List HeldRole}
  {forgetFails : Bool}

theorem mem_observedFields : field ∈ under (observedFields zit) userId ↔
      ∃ grant ∈ zit, grant.userId = userId ∧
        ∃ role ∈ grant.roleKeys, grantField grant.projectId role = field := by
  refine (foldl_collects
    (fun (out : FieldMemory) (seen : String × String) => seen.2 ∈ under out seen.1)
    (fun out (seen : String × String) => addUnder out seen.1 seen.2)
    (fun seen entry => seen.1 = entry.1 ∧ seen.2 = entry.2)
    (fun out seen entry => mem_under_addUnder)
    _ ∅ (userId, field)).trans ?_
  simp only [mem_flatMap,mem_map,under_empty,not_mem_nil,or_false]
  constructor
  · rintro ⟨_,⟨grant,listed,role,among,rfl⟩,rfl,rfl⟩
    exact ⟨grant,listed,rfl,role,among,rfl⟩
  · rintro ⟨grant,listed,rfl,role,among,rfl⟩
    exact ⟨_,⟨grant,listed,role,among,rfl⟩,rfl,rfl⟩

theorem mem_keepUnresolved {observed : FieldMemory} :
    field ∈ under (unresolved.foldl (keepUnresolved previous) observed) userId ↔
      (∃ key ∈ unresolved, wasObserved previous key = true ∧ key.userId = userId ∧
        keyField key = field) ∨ field ∈ under observed userId := by
  refine foldl_collects
    (fun (out : FieldMemory) (seen : String × String) => seen.2 ∈ under out seen.1)
    (keepUnresolved previous)
    (fun key entry => wasObserved previous key = true ∧ key.userId = entry.1 ∧
      keyField key = entry.2) ?_ unresolved observed (userId, field)
  intro _ _ _
  unfold keepUnresolved
  split
  · next held =>
    rw [mem_under_addUnder]
    simp only [held,true_and]
  · next absent =>
    simp only [absent,Bool.false_eq_true,false_and,false_or]

theorem mem_of_mem_under {memory : FieldMemory} (held : field ∈ under memory userId) :
    userId ∈ memory := by
  rw [← AList.lookup_isSome]
  unfold under at held
  cases found : memory.lookup userId with
  | none =>
    rw [found] at held
    cases held
  | some => rfl

section Saving

variable {observed : FieldMemory} {userId field : String}

variable (failed : String → Bool)

theorem under_saveObserved (out : FieldMemory × Nat) (other userId : String) :
    under (saveObserved failed observed out other).1 userId =
      if other = userId ∧ trimSpace userId ≠ "" ∧ under observed userId ≠ [] ∧
          failed userId = false then under observed userId
      else under out.1 userId := by
  unfold saveObserved recordMergeBase
  by_cases same : other = userId
  · subst same
    by_cases refused : trimSpace other = "" ∨ under observed other = [] ∨ failed other = true
    · have none : (trimSpace other = "" || under observed other = [] || failed other) = true := by
        simpa [or_assoc] using refused
      rw [if_pos none,if_neg]
      rintro ⟨-,named,seen,saved⟩
      rcases refused with blank | empty | failure
      · exact named blank
      · exact seen empty
      · rw [saved] at failure
        cases failure
    · simp only [not_or,Bool.not_eq_true] at refused
      obtain ⟨named,seen,saved⟩ := refused
      rw [if_neg (by simp [named,seen,saved]),if_pos ⟨rfl,named,seen,saved⟩]
      rw [under_insert,if_pos rfl]
  · have others : ¬ (other = userId ∧ trimSpace userId ≠ "" ∧ under observed userId ≠ [] ∧
        failed userId = false) := fun both => same both.1
    rw [if_neg others]
    split
    · rfl
    rename_i bases written
    split at written
    · cases written
    · cases written
      rw [under_insert,if_neg same]

theorem saved_kept (users : List String) (out : FieldMemory × Nat)
    (seen : field ∈ under observed userId) (held : field ∈ under out.1 userId) :
    field ∈ under (users.foldl (saveObserved failed observed) out).1 userId := by
  induction users generalizing out with
  | nil => exact held
  | cons _ _ ih =>
    apply ih
    rw [under_saveObserved]
    split
    · exact seen
    · exact held

variable {users : List String}

theorem saved_written (out : FieldMemory × Nat) (among : userId ∈ users)
    (named : trimSpace userId ≠ "") (saved : failed userId = false)
    (seen : field ∈ under observed userId) :
    field ∈ under (users.foldl (saveObserved failed observed) out).1 userId := by
  induction users generalizing out with
  | nil => cases among
  | cons other rest ih =>
    by_cases same : other = userId
    · apply saved_kept failed rest _ seen
      rw [under_saveObserved,if_pos ⟨same,named,ne_nil_of_mem seen,saved⟩]
      exact seen
    · exact ih _ ((mem_cons.mp among).resolve_left (Ne.symm same))

theorem under_forgetUnseen {out : FieldMemory × Nat} (seen : userId ∈ observed) :
    under (users.foldl (forgetUnseen failed observed) out).1 userId = under out.1 userId := by
  induction users generalizing out with
  | nil => rfl
  | cons other _ ih =>
    rw [foldl_cons,ih]
    unfold forgetUnseen
    split
    · rfl
    rename_i absent
    split
    · rfl
    have apart : userId ≠ other := fun same => absent (same ▸ seen)
    unfold under
    rw [AList.lookup_erase_ne apart]

end Saving

variable {key : HeldRole} {saveFails : String → Bool}

theorem wasObserved_recordObservedGrants {forgetFails : String → Bool} {bases : FieldMemory}
    (seen : keyField key ∈ under (observedFields zit) key.userId ∨
      key ∈ unresolved ∧ wasObserved previous key = true) (written : wasObserved bases key = true ∨
      trimSpace key.userId ≠ "" ∧ saveFails key.userId = false) :
    wasObserved (recordObservedGrants saveFails forgetFails bases zit unresolved previous).1 key =
      true := by
  have listed : keyField key ∈
      under (unresolved.foldl (keepUnresolved previous) (observedFields zit)) key.userId := by
    rw [mem_keepUnresolved]
    rcases seen with shown | ⟨among,held⟩
    · exact .inr shown
    · exact .inl ⟨key,among,held,rfl,rfl⟩
  have known := mem_of_mem_under listed
  unfold wasObserved remembers recordObservedGrants
  rw [decide_eq_true_eq,under_forgetUnseen _ known]
  rcases written with held | ⟨named,saved⟩
  · exact saved_kept _ _ _ listed (of_decide_eq_true held)
  · exact saved_written _ _ (AList.mem_keys.mp known) named saved listed

theorem keyField_not_blank (key : HeldRole) : trimSpace (keyField key) ≠ "" := by
  intro blank
  have slash : '/' ∈ (keyField key).toList := by
    unfold keyField grantField
    rw [String.toList_append,String.toList_append]
    exact mem_append_left _ (mem_append_right _ mem_cons_self)
  exact absurd (isSpace_of_trimSpace_eq blank '/' slash) (by decide)

theorem mem_recordPropagation {failed : Bool} (landed : FieldMemory) (subjectId field : String)
    (userId other : String) :
    other ∈ under (recordPropagation failed landed subjectId field) userId ↔
      (trimSpace subjectId ≠ "" ∧ trimSpace field ≠ "" ∧ failed = false ∧
        subjectId = userId ∧ field = other) ∨ other ∈ under landed userId := by
  unfold recordPropagation
  split
  · next refused =>
    simp only [Bool.or_eq_true,decide_eq_true_eq] at refused
    constructor
    · exact .inr
    rintro (⟨named,worded,saved,-⟩ | held)
    · rcases refused with (blank | empty) | failure
      · exact absurd blank named
      · exact absurd empty worded
      · rw [saved] at failure
        cases failure
    · exact held
  · next accepted =>
    simp only [Bool.or_eq_true,decide_eq_true_eq,not_or] at accepted
    rw [mem_under_addUnder]
    simp only [ne_eq,accepted,not_false_eq_true,true_and]

theorem mem_forgetFields : field ∈ under (forgetFields landed row) userId ↔
      field ∈ under landed userId ∧ ¬ (row.userId = userId ∧ forgets row field = true) := by
  unfold forgetFields
  rw [under_insert]
  split
  · next same =>
    subst same
    simp
  · next apart => simp [apart]

theorem mem_saveLanded (saveFails : String → Bool) (landed : FieldMemory) (row : Intent)
    (userId field : String) :
    field ∈ under (saveLanded saveFails landed row) userId ↔
      ((row.opType = .add ∨ row.opType = .replace) ∧ field ∈ rowFields row ∧
        trimSpace row.userId ≠ "" ∧ trimSpace field ≠ "" ∧ saveFails field = false ∧
          row.userId = userId) ∨ field ∈ under landed userId := by
  have added := foldl_collects
    (fun (out : FieldMemory) (seen : String × String) => seen.2 ∈ under out seen.1)
    (fun out field => recordPropagation (saveFails field) out row.userId field)
    (fun field entry => trimSpace row.userId ≠ "" ∧ trimSpace field ≠ "" ∧
      saveFails field = false ∧ row.userId = entry.1 ∧ field = entry.2)
    (fun out field entry => mem_recordPropagation out row.userId field entry.1 entry.2)
    (rowFields row) landed (userId, field)
  have each : (∃ one ∈ rowFields row, trimSpace row.userId ≠ "" ∧ trimSpace one ≠ "" ∧
      saveFails one = false ∧ row.userId = userId ∧ one = field) ↔
      field ∈ rowFields row ∧ trimSpace row.userId ≠ "" ∧ trimSpace field ≠ "" ∧
        saveFails field = false ∧ row.userId = userId := by
    constructor
    · rintro ⟨_,among,named,worded,saved,person,rfl⟩
      exact ⟨among,named,worded,saved,person⟩
    · rintro ⟨among,named,worded,saved,person⟩
      exact ⟨field,among,named,worded,saved,person,rfl⟩
  unfold saveLanded
  cases op : row.opType with
  | add | replace => simpa using added
  | revoke | apply => simp

theorem hasLanded_kept (held : hasLanded landed key = true)
    (spared : row.target = zitadelTarget → row.userId = key.userId →
      forgets row (keyField key) = true → forgetFails = true) :
    hasLanded (rememberPropagation saveFails forgetFails landed row) key = true := by
  unfold hasLanded remembers at held ⊢
  rw [decide_eq_true_eq] at held ⊢
  have saved := (mem_saveLanded saveFails landed row key.userId (keyField key)).mpr (.inr held)
  unfold rememberPropagation
  split
  · exact held
  rename_i zitadel
  split
  · exact saved
  rename_i forgetting
  rw [mem_forgetFields]
  refine ⟨saved,?_⟩
  rintro ⟨person,gone⟩
  exact forgetting (spared (not_not.mp zitadel) person gone)

theorem hasLanded_of_gives (gives : row.Gives key)
    (named : trimSpace key.userId ≠ "") (saves : saveFails (keyField key) = false) :
    hasLanded (rememberPropagation saveFails forgetFails landed row) key = true := by
  obtain ⟨zitadel,person,project⟩ := Intent.scope_of_effect gives
  have listed : key.roleKey ∈ row.roleKeys := by
    by_contra unlisted
    exact Bool.noConfusion (Intent.effect_unlisted gives unlisted)
  have field : keyField key ∈ rowFields row := by
    unfold keyField
    rw [← project]
    exact mem_map_of_mem listed
  have op : row.opType = .add ∨ row.opType = .replace := by
    unfold Intent.Gives Intent.effect at gives
    cases kind : row.opType with
    | add => exact .inl rfl
    | replace => exact .inr rfl
    | revoke | apply => simp [kind] at gives
  have spared : forgets row (keyField key) = false := by
    unfold forgets
    rcases op with add | replace
    · simp [add]
    · simp [replace,field]
  have saved := (mem_saveLanded saveFails landed row key.userId (keyField key)).mpr
    (.inl ⟨op,field,person ▸ named,keyField_not_blank key,saves,person⟩)
  unfold hasLanded remembers rememberPropagation
  rw [decide_eq_true_eq,if_neg (not_not.mpr zitadel)]
  split
  · exact saved
  · rw [mem_forgetFields,spared]
    simp [saved]

end Syndra.Drift
