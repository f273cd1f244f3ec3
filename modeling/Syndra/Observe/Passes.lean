/-
Observation passes over Zitadel.

A pass about the organisation or about one person reads its listing page by page and then
records what it saw.
-/

import Syndra.Foundation.Paging
import Syndra.Foundation.Runs
import Syndra.Observe.Index

namespace Syndra.Observe

open Foundation Foundation.Paging List Function

def pageSize : Nat := 500

def maxRows : Nat := 20000

inductive Scope where
  | org
  | user (userId : String)
deriving DecidableEq

def Scope.covers : Scope → UserGrant → Bool
  | .org, _ => true
  | .user userId, grant => grant.userId = userId

def Scope.listing (scope : Scope) (directory : Directory) : List UserGrant :=
  directory.grants.filter scope.covers

def Scope.observe (scope : Scope) (grant : UserGrant) : ObservedGrant :=
  { grantId := grant.id
    userId :=
      match scope with
      | .org => grant.userId
      | .user userId => userId
    projectId := grant.projectId
    roleKeys := grant.roleKeys }

def Scope.limitReached : Scope → String
  | .org => "the read reached its safety limit before the end of the directory"
  | .user _ => "the read reached its safety limit before the end of this person's grants"

inductive Phase where
  | reading
  | read (complete : Bool) (readErr : String)
  | ended
deriving DecidableEq

structure Pass where
  scope : Scope
  offset : Nat
  seen : List ObservedGrant
  phase : Phase
deriving DecidableEq

def Pass.start (scope : Scope) : Pass :=
  { scope := scope
    offset := 0
    seen := []
    phase := .reading }

def Pass.add (pass : Pass) (items : List UserGrant) : List ObservedGrant :=
  pass.seen ++ items.map pass.scope.observe

def Pass.receive (pass : Pass) (items : List UserGrant) : Pass :=
  if items.length < pageSize then { pass with seen := pass.add items, phase := .read true "" }
  else if maxRows ≤ (pass.add items).length then
    { pass with seen := pass.add items, phase := .read false pass.scope.limitReached }
  else { pass with seen := pass.add items, offset := pass.offset + pageSize }

def Pass.readPage (pass : Pass) (directory : Directory) (failure : Option String) : Pass :=
  match failure with
  | some text => { pass with phase := .read false text }
  | none => pass.receive (page (pass.scope.listing directory) pass.offset pageSize)

/-! ### Recording -/

structure Observation where
  scope : Scope
  complete : Bool
  grantsSeen : Nat
  error : String
deriving DecidableEq

def recordOrgObservation (index grants : List ObservedGrant) (complete : Bool) :
    List ObservedGrant :=
  upsertObserved (if complete then [] else index) grants

def recordUserObservation (index : List ObservedGrant) (userId : String)
    (grants : List ObservedGrant) (complete : Bool) : Option (List ObservedGrant) :=
  if grants.any fun grant => grant.userId ≠ userId then none
  else
    some (upsertObserved
      (if complete then index.filter fun row => row.userId ≠ userId else index) grants)

def recordObservation (index : List ObservedGrant) (scope : Scope)
    (grants : List ObservedGrant) (complete : Bool) : Option (List ObservedGrant) :=
  match scope with
  | .org => some (recordOrgObservation index grants complete)
  | .user userId => recordUserObservation index userId grants complete

/-! ### Interleavings -/

structure ObserveState where
  zitadel : Directory
  index : List ObservedGrant
  passes : Nat → Option Pass
  observations : List Observation

inductive ObserveMove where
  | create (place : Nat) (grant : UserGrant)
  | change (id : String) (roleKeys : List String)
  | delete (id : String)
  | start (pass : Nat) (scope : Scope)
  | readPage (pass : Nat) (failure : Option String)
  | record (pass : Nat) (failed : Bool)

def ObserveState.setPass (state : ObserveState) (number : Nat) (pass : Pass) : ObserveState :=
  { state with passes := Function.update state.passes number (some pass) }

def ObserveState.recordPass (state : ObserveState) (number : Nat) (pass : Pass)
    (complete : Bool) (readErr : String) (failed : Bool) : ObserveState :=
  let ended := state.setPass number { pass with phase := .ended }
  if failed then ended
  else
    match recordObservation state.index pass.scope pass.seen complete with
    | none => ended
    | some index =>
      { ended with
        index := index
        observations := state.observations ++
          [{ scope := pass.scope, complete := complete, grantsSeen := pass.seen.length
             error := readErr }] }

namespace ObserveState

theorem passes_setPass {state : ObserveState} {number : Nat} {pass : Pass} :
    (state.setPass number pass).passes number = some pass := by
  exact update_self _ _ _

def startPass (state : ObserveState) (number : Nat) (scope : Scope) : Option ObserveState :=
  match state.passes number with
  | some _ => none
  | none => some (state.setPass number (Pass.start scope))

def readPage (state : ObserveState) (number : Nat) (failure : Option String) :
    Option ObserveState :=
  match state.passes number with
  | none => none
  | some pass =>
    if pass.phase = .reading then
      some (state.setPass number (pass.readPage state.zitadel failure))
    else none

def record (state : ObserveState) (number : Nat) (failed : Bool) : Option ObserveState :=
  match state.passes number with
  | none => none
  | some pass =>
    match pass.phase with
    | .read complete readErr => some (state.recordPass number pass complete readErr failed)
    | _ => none

variable {next state : ObserveState} {number : Nat}

variable {scope : Scope}

theorem startPass_some (started : state.startPass number scope = some next) :
    state.passes number = none ∧ next = state.setPass number (Pass.start scope) := by
  unfold startPass at started
  split at started
  · cases started
  rename_i free
  cases started
  exact ⟨free,rfl⟩

theorem readPage_some {failure : Option String} (read : state.readPage number failure = some next) :
    ∃ pass, state.passes number = some pass ∧ pass.phase = .reading ∧
      next = state.setPass number (pass.readPage state.zitadel failure) := by
  unfold readPage at read
  split at read
  · cases read
  rename_i pass found
  split at read
  · next reading =>
    cases read
    exact ⟨pass,found,reading,rfl⟩
  · cases read

private theorem record_some {failed : Bool} (recorded : state.record number failed = some next) :
    ∃ pass complete readErr, state.passes number = some pass ∧ pass.phase = .read complete readErr ∧
        next = state.recordPass number pass complete readErr failed := by
  unfold record at recorded
  split at recorded
  · cases recorded
  rename_i pass found
  split at recorded
  · next complete readErr phase =>
    cases recorded
    exact ⟨pass,complete,readErr,found,phase,rfl⟩
  · cases recorded

end ObserveState

def observeStep (state : ObserveState) : ObserveMove → Option ObserveState
  | .create place grant =>
    (state.zitadel.create place grant).map fun zitadel => { state with zitadel := zitadel }
  | .change id roleKeys => some { state with zitadel := state.zitadel.change id roleKeys }
  | .delete id => some { state with zitadel := state.zitadel.delete id }
  | .start number scope => state.startPass number scope
  | .readPage number failure => state.readPage number failure
  | .record number failed => state.record number failed

/-! ### What a recording removes -/

open ObserveState

open Pass

open Scope

variable {scope : Scope} {state : ObserveState} {directory : Directory} {pass : Pass} {id : String}
  {number : Nat}

variable {row : ObservedGrant} {next : ObserveState} {move : ObserveMove} {grant : UserGrant}
  {other : Nat} {readErr : String}

private theorem recordObservation_removes {index next : List ObservedGrant}
    {grants : List ObservedGrant}
    {complete : Bool}
    (recorded : recordObservation index scope grants complete = some next) (mem : row ∈ index)
    (unseen : ∀ grant ∈ grants, row.grantId ≠ grant.grantId)
    (outside : complete = true → scope ≠ .org ∧ scope ≠ .user row.userId) : row ∈ next := by
  cases scope with
  | org =>
    cases recorded
    apply mem_upsertObserved_of_unseen _ unseen
    split
    · next whole => exact absurd rfl (outside whole).1
    · exact mem
  | user userId =>
    change recordUserObservation index userId grants complete = some next at recorded
    unfold recordUserObservation at recorded
    split at recorded
    · cases recorded
    cases recorded
    apply mem_upsertObserved_of_unseen _ unseen
    split
    · next whole =>
      refine mem_filter.mpr ⟨mem,decide_eq_true ?_⟩
      intro same
      exact (outside whole).2 (congrArg user same.symm)
    · exact mem

/-- The row goes only where a pass records: one that read a grant of its id, or a
complete one about everybody or about the row's person. -/
def MayRemove (state : ObserveState) (row : ObservedGrant) : ObserveMove → Prop
  | .record number _ =>
    ∃ pass, state.passes number = some pass ∧ ((∃ grant ∈ pass.seen, row.grantId = grant.grantId) ∨
        (∃ readErr, pass.phase = .read true readErr) ∧
          (pass.scope = .org ∨ pass.scope = .user row.userId))
  | _ => False

private theorem observeStep_keeps_row
    (stepped : observeStep state move = some next) (mem : row ∈ state.index)
    (safe : ¬ MayRemove state row move) : row ∈ next.index := by
  cases move with
  | create =>
    obtain ⟨_,-,rfl⟩ := Option.map_eq_some_iff.mp stepped
    exact mem
  | change | delete =>
    cases stepped
    exact mem
  | start =>
    obtain ⟨-,rfl⟩ := startPass_some stepped
    exact mem
  | readPage =>
    obtain ⟨pass,-,-,rfl⟩ := readPage_some stepped
    exact mem
  | record =>
    obtain ⟨pass,complete,readErr,found,phase,rfl⟩ := record_some stepped
    have unseen : ∀ grant ∈ pass.seen, row.grantId ≠ grant.grantId :=
      fun grant among same => safe ⟨pass,found,.inl ⟨grant,among,same⟩⟩
    have outside : complete = true → pass.scope ≠ .org ∧ pass.scope ≠ .user row.userId := by
      rintro rfl
      refine ⟨fun all => safe ?_,fun theirs => safe ?_⟩
      · exact ⟨pass,found,.inr ⟨⟨readErr,phase⟩,.inl all⟩⟩
      · exact ⟨pass,found,.inr ⟨⟨readErr,phase⟩,.inr theirs⟩⟩
    unfold ObserveState.recordPass
    split
    · exact mem
    split
    · exact mem
    · next index recorded => exact recordObservation_removes recorded mem unseen outside

/-! ### What a listing becomes while it is read -/

def Scope.ids (scope : Scope) (directory : Directory) : List String :=
  (scope.listing directory).map UserGrant.id

private theorem Scope.ids_create {next : Directory} {place : Nat}
    (created : directory.create place grant = some next) :
    grant.id ∉ scope.ids directory ∧ ∃ front back, scope.ids directory = front ++ back ∧
        (scope.ids next = front ++ back ∨ scope.ids next = front ++ grant.id :: back) := by
  unfold Directory.create at created
  split at created
  · next acceptable =>
    cases created
    constructor
    · intro listed
      obtain ⟨other,among,same⟩ := mem_map.mp listed
      exact acceptable.1 (mem_map.mpr ⟨other,mem_of_mem_filter among,same⟩)
    refine ⟨((directory.grants.take place).filter scope.covers).map UserGrant.id,
      ((directory.grants.drop place).filter scope.covers).map UserGrant.id,?_,?_⟩
    · unfold ids listing
      rw [← map_append,← filter_append,take_append_drop]
    unfold ids listing
    rw [filter_append,map_append,filter_cons]
    split
    · exact .inr rfl
    · exact .inl rfl
  · cases created

private theorem Scope.ids_change {roleKeys : List String} :
    scope.ids (directory.change id roleKeys) = scope.ids directory := by
  have covers (grant : UserGrant) :
      scope.covers (if grant.id = id then { grant with roleKeys := roleKeys } else grant) =
        scope.covers grant := by
    split
    · cases scope <;> rfl
    · rfl
  unfold ids listing Directory.change
  rw [filter_map,map_map]
  have kept := filter_congr fun grant (_ : grant ∈ directory.grants) => covers grant
  refine (congrArg _ kept).trans ?_
  apply map_congr_left
  intro grant _member
  change (if grant.id = id then { grant with roleKeys := roleKeys } else grant).id = grant.id
  split <;> rfl

private theorem Scope.ids_delete :
    scope.ids (directory.delete id) = (scope.ids directory).filter fun other => other ≠ id := by
  unfold ids listing Directory.delete
  rw [filter_map,filter_filter,filter_filter]
  congr 1
  apply filter_congr
  intro _ _member
  exact Bool.and_comm _ _

/-! ### What a pass has seen -/

def Pass.Saw (pass : Pass) (id : String) : Prop :=
  ∃ grant ∈ pass.seen, grant.grantId = id ∧
    (grant.grantId ≠ "" ∧ grant.userId ≠ "" ∧ grant.projectId ≠ "")

/-- While a pass reads, it saw the grant if it stands before the next offset; once
its last page came up short, it saw it. -/
def Pass.Covered (pass : Pass) (directory : Directory) (id : String) : Prop :=
  match pass.phase with
  | .reading => id ∈ (pass.scope.ids directory).take pass.offset → pass.Saw id
  | .read true _ => pass.Saw id
  | _ => True

def Pass.Own (pass : Pass) : Prop :=
  ∀ userId, pass.scope = .user userId → ∀ grant ∈ pass.seen, grant.userId = userId

theorem Scope.observe_named (listed : grant ∈ scope.listing directory) :
    (scope.observe grant).grantId ≠ "" ∧ (scope.observe grant).userId ≠ "" ∧
      (scope.observe grant).projectId ≠ "" := by
  obtain ⟨mem,covered⟩ := mem_filter.mp listed
  obtain ⟨id,user,project⟩ := directory.named grant mem
  refine ⟨id,?_,project⟩
  cases scope with
  | org => exact user
  | user userId =>
    have same : grant.userId = userId := of_decide_eq_true covered
    rw [← same]
    exact user

theorem Pass.readPage_scope {failure : Option String} :
    (pass.readPage directory failure).scope = pass.scope := by
  unfold Pass.readPage
  split
  · rfl
  unfold receive
  split
  · rfl
  split <;> rfl

theorem Pass.Own.readPage (own : pass.Own) (directory : Directory) (failure : Option String) :
    (pass.readPage directory failure).Own := by
  have added (items : List UserGrant) : ∀ userId, pass.scope = .user userId →
      ∀ grant ∈ pass.add items, grant.userId = userId := by
    intro userId theirs grant mem
    rcases mem_append.mp mem with before | read
    · exact own userId theirs grant before
    obtain ⟨_,-,rfl⟩ := mem_map.mp read
    rw [theirs]
    rfl
  unfold Pass.readPage
  split
  · exact own
  unfold receive
  split
  · exact added _
  split <;> exact added _

private theorem Pass.saw_of_page {next : Pass}
    (before : id ∈ (pass.scope.ids directory).take pass.offset → pass.Saw id) (seen : next.seen =
      pass.add (page (pass.scope.listing directory) pass.offset pageSize))
    (mem : id ∈ ((pass.scope.listing directory).take pass.offset ++
      page (pass.scope.listing directory) pass.offset pageSize).map UserGrant.id) :
    next.Saw id := by
  unfold Pass.Saw
  rw [seen]
  rw [map_append,mem_append] at mem
  rcases mem with earlier | now
  · have stood : id ∈ (pass.scope.ids directory).take pass.offset := by
      unfold ids
      rw [← map_take]
      exact earlier
    obtain ⟨grant,among,facts⟩ := before stood
    exact ⟨grant,mem_append_left _ among,facts⟩
  · obtain ⟨grant,among,rfl⟩ := mem_map.mp now
    have listed : grant ∈ pass.scope.listing directory := mem_of_mem_drop (mem_of_mem_take among)
    exact ⟨_,mem_append_right _ (mem_map_of_mem among),rfl, observe_named listed⟩

theorem Pass.Covered.readPage (covered : pass.Covered directory id)
    (reading : pass.phase = .reading) (held : id ∈ pass.scope.ids directory)
    (failure : Option String) :
    (pass.readPage directory failure).Covered directory id := by
  unfold Pass.Covered at covered
  simp only [reading] at covered
  unfold Pass.readPage
  split
  · trivial
  unfold receive
  split
  · next short =>
    apply saw_of_page covered rfl
    rw [take_append_short_page short]
    exact held
  split
  · trivial
  simp only [reading]
  intro mem
  apply saw_of_page covered rfl
  rw [take_append_page,map_take]
  exact mem

/-! ### Interleavings -/

/-- While the pass reads, nothing standing before its next offset is deleted. -/
def SparesRead (number : Nat) (state : ObserveState) : ObserveMove → Prop
  | .delete id =>
    ∀ pass, state.passes number = some pass → pass.phase = .reading →
      id ∉ (pass.scope.ids state.zitadel).take pass.offset
  | _ => True

def Tracks (number : Nat) (scope : Scope) (id : String) (state : ObserveState) : Prop :=
  ∃ pass, state.passes number = some pass ∧ pass.scope = scope ∧ pass.Own ∧
    pass.Covered state.zitadel id

private theorem Pass.Covered.of_reading {next : Directory} (covered : pass.Covered directory id)
    (stood : pass.phase = .reading → id ∈ (pass.scope.ids next).take pass.offset →
      id ∈ (pass.scope.ids directory).take pass.offset) :
    pass.Covered next id := by
  unfold Pass.Covered at covered ⊢
  cases phase : pass.phase with
  | reading =>
    simp only [phase] at covered ⊢
    exact fun mem => covered (stood phase mem)
  | read complete =>
    rw [phase] at covered
    cases complete with
    | false => trivial
    | true => exact covered
  | ended => trivial

theorem Tracks.setPass (tracks : Tracks number scope id state)
    (apart : other ≠ number) (pass : Pass) :
    Tracks number scope id (state.setPass other pass) := by
  obtain ⟨own,found,facts⟩ := tracks
  exact ⟨own,(update_of_ne (Ne.symm apart) _ _).trans found,facts⟩

theorem Tracks.recordPass (tracks : Tracks number scope id state)
    (found : state.passes other = some pass) (complete : Bool) (readErr : String) (failed : Bool) :
    Tracks number scope id (state.recordPass other pass complete readErr failed) := by
  have ended : Tracks number scope id (state.setPass other { pass with phase := .ended }) := by
    by_cases same : other = number
    · subst same
      obtain ⟨_,mine,inScope,theirs,-⟩ := tracks
      rw [found] at mine
      cases mine
      exact ⟨_,update_self _ _ _,inScope,theirs,trivial⟩
    · exact tracks.setPass same _
  unfold ObserveState.recordPass
  split
  · exact ended
  split <;> exact ended

theorem Tracks.step (tracks : Tracks number scope id state) (held : id ∈ scope.ids state.zitadel)
    (spared : SparesRead number state move) (stepped : observeStep state move = some next) :
    Tracks number scope id next := by
  cases move with
  | create =>
    obtain ⟨_,created,rfl⟩ := Option.map_eq_some_iff.mp stepped
    obtain ⟨pass,found,rfl,own,covered⟩ := tracks
    refine ⟨pass,found,rfl,own,covered.of_reading ?_⟩
    intro _reading mem
    obtain ⟨unlisted,_,_,before,after⟩ := ids_create created
    rw [before]
    rcases after with same | inserted
    · rw [same] at mem
      exact mem
    rw [inserted] at mem
    refine (mem_take_of_insert mem).resolve_left ?_
    rintro rfl
    exact unlisted held
  | change =>
    cases stepped
    obtain ⟨pass,found,inScope,own,covered⟩ := tracks
    refine ⟨pass,found,inScope,own,covered.of_reading ?_⟩
    intro _reading mem
    rw [ids_change] at mem
    exact mem
  | delete =>
    cases stepped
    obtain ⟨pass,found,inScope,own,covered⟩ := tracks
    refine ⟨pass,found,inScope,own,covered.of_reading ?_⟩
    intro reading mem
    have behind := spared pass found reading
    rw [ids_delete,take_filter_of_spared] at mem
    · exact mem
    intro other stands
    apply decide_eq_true
    rintro rfl
    exact behind stands
  | start =>
    obtain ⟨free,rfl⟩ := startPass_some stepped
    apply tracks.setPass
    rintro rfl
    obtain ⟨pass,found,-⟩ := tracks
    rw [free] at found
    cases found
  | readPage other failure =>
    obtain ⟨pass,found,reading,rfl⟩ := readPage_some stepped
    by_cases same : other = number
    · subst same
      obtain ⟨_,mine,rfl,theirs,covered⟩ := tracks
      rw [found] at mine
      cases mine
      exact ⟨_,update_self _ _ _,readPage_scope,
        theirs.readPage _ _,covered.readPage reading held failure⟩
    · exact tracks.setPass same _
  | record _ failed =>
    obtain ⟨_,complete,readErr,found,-,rfl⟩ := record_some stepped
    exact tracks.recordPass found complete readErr failed

private theorem recordPass_index (own : pass.Own) (saw : pass.Saw id) :
    ∃ row ∈ (state.recordPass number pass true readErr false).index, row.grantId = id := by
  obtain ⟨_,seen,rfl,named⟩ := saw
  have recorded : ∃ base, recordObservation state.index pass.scope pass.seen true =
      some (upsertObserved base pass.seen) := by
    cases scope : pass.scope with
    | org => exact ⟨_,rfl⟩
    | user userId =>
      refine ⟨_,if_neg ?_⟩
      rw [any_eq_true]
      rintro ⟨other,among,foreign⟩
      exact of_decide_eq_true foreign (own userId scope other among)
  obtain ⟨_,index⟩ := recorded
  unfold ObserveState.recordPass
  rw [index]
  exact seen_mem_upsertObserved seen named

private theorem recordPass_org (everybody : pass.scope = .org) :
    (state.recordPass number pass true readErr false).index = upsertObserved [] pass.seen := by
  unfold ObserveState.recordPass
  rw [everybody]
  rfl

theorem complete_pass_lists_standing {start before final : ObserveState} {number : Nat}
    {scope : Scope} {moves : List ObserveMove} {pass : Pass} {readErr : String}
    (fresh : start.passes number = some (Pass.start scope))
    (spared : Runs.Throughout observeStep (SparesRead number) start moves)
    (reached : Runs.run observeStep start moves = some before)
    (own : before.passes number = some pass) (complete : pass.phase = .read true readErr)
    (recorded : observeStep before (.record number false) = some final) :
    (∀ id, Runs.Throughout observeStep (fun state _ => id ∈ scope.ids state.zitadel) start moves →
      ∃ row ∈ final.index, row.grantId = id) ∧
    (∀ state move next row, observeStep state move = some next → row ∈ state.index →
      row ∈ next.index ∨ MayRemove state row move) := by
  constructor
  · intro id held
    have opened : Tracks number scope id start := by
      refine ⟨_,fresh,rfl,?_,?_⟩
      · intro _ _theirs _ seen
        cases seen
      · intro mem
        cases mem
    have tracked := Runs.run_invariant (Tracks number scope id)
      (fun tracks meets => tracks.step meets.1 meets.2) opened (held.and spared) reached
    obtain ⟨_,mine,-,theirs,covered⟩ := tracked
    rw [own] at mine
    cases mine
    unfold Pass.Covered at covered
    rw [complete] at covered
    obtain ⟨_,_,_,same,phase,rfl⟩ := ObserveState.record_some recorded
    rw [own] at same
    cases same
    rw [complete] at phase
    cases phase
    exact recordPass_index theirs covered
  · intro state move _ row stepped mem
    by_cases removable : MayRemove state row move
    · exact .inr removable
    · exact .inl (observeStep_keeps_row stepped mem removable)

namespace Workshop

def member (n : Nat) : UserGrant :=
  { id := String.ofList (replicate (n + 1) 'g')
    userId := "ada"
    projectId := "lathe"
    roleKeys := [] }

private theorem member_id_injective {first second : Nat}
    (same : (member first).id = (member second).id) :
    first = second := by
  have lists := String.ofList_injective same
  have lengths := congrArg length lists
  rw [length_replicate,length_replicate] at lengths
  exact Nat.succ.inj lengths

def crowd (size : Nat) : Directory :=
  { grants := (range size).map member
    idsDistinct := by
      rw [map_map]
      exact nodup_range.map fun _ _ same => member_id_injective same
    named := by
      intro grant listed
      obtain ⟨n,-,rfl⟩ := mem_map.mp listed
      refine ⟨?_,(by decide : "ada" ≠ ""),(by decide : "lathe" ≠ "")⟩
      intro blank
      have empty := String.ofList_injective (blank.trans String.ofList_nil.symm)
      cases empty }

def opened (size : Nat) : ObserveState :=
  { zitadel := crowd size
    index := (crowd size).grants.map Scope.org.observe
    passes := fun number => if number = 0 then some (Pass.start .org) else none
    observations := [] }

private theorem listing_org : org.listing directory = directory.grants :=
  filter_eq_self.mpr fun _ _ => rfl

variable {size n m : Nat}

private theorem page_crowd :
    page (org.listing (crowd (size + 1))) 0 size = (range size).map member := by
  rw [listing_org]
  unfold page crowd
  rw [drop_zero,← map_take,take_range,Nat.min_eq_left (Nat.le_succ size)]

private theorem length_delete (there : n ≤ size) :
    ((crowd (size + 1)).delete (member n).id).grants.length = size := by
  change (((range (size + 1)).map member).filter fun grant => grant.id ≠ (member n).id).length = size
  have others : ((range (size + 1)).map member).filter (fun grant => grant.id ≠ (member n).id) =
      ((range (size + 1)).erase n).map member := by
    rw [nodup_range.erase_eq_filter,filter_map]
    congr 1
    apply filter_congr
    intro other _
    rw [Bool.eq_iff_iff]
    simpa using not_congr ⟨member_id_injective,congrArg fun n => (member n).id⟩
  rw [others,length_map,length_erase_of_mem (mem_range.mpr (Nat.lt_succ_of_le there)),length_range]
  rfl

def halfway : Pass :=
  { scope := .org
    offset := pageSize
    seen := (Pass.start .org).add ((range pageSize).map member)
    phase := .reading }

private theorem first_page : (start .org).readPage (crowd (pageSize + 1)) none = halfway := by
  change (start .org).receive
    (page (org.listing (crowd (pageSize + 1))) 0 pageSize) = _
  rw [page_crowd]
  unfold receive
  have full : ((range pageSize).map member).length = pageSize := by
    rw [length_map,length_range]
  have room : ((start .org).add ((range pageSize).map member)).length = pageSize := by
    unfold add
    rw [length_append,length_map,full]
    exact Nat.zero_add pageSize
  rw [full,room,if_neg (Nat.lt_irrefl pageSize),if_neg (by decide)]
  unfold halfway start
  rw [Nat.zero_add]

def complete : Pass := { halfway with seen := halfway.add [], phase := .read true "" }

private theorem second_page (there : n ≤ pageSize) :
    halfway.readPage ((crowd (pageSize + 1)).delete (member n).id) none = complete := by
  change halfway.receive
    (page (org.listing ((crowd (pageSize + 1)).delete (member n).id)) pageSize pageSize) = _
  have short : page (org.listing ((crowd (pageSize + 1)).delete (member n).id)) pageSize
      pageSize = [] := by
    rw [listing_org]
    unfold page
    rw [drop_eq_nil_of_le (Nat.le_of_eq (length_delete there)),take_nil]
  rw [short]
  exact if_pos (by decide)

theorem stands (there : n ≤ size) : (member n).id ∈ org.ids (crowd (size + 1)) := by
  unfold ids
  rw [listing_org]
  exact mem_map_of_mem (mem_map_of_mem (mem_range.mpr (Nat.lt_succ_of_le there)))

private theorem last_indexed : ∃ row ∈ (opened (size + 1)).index, row.grantId =
    (member size).id:= by
  obtain ⟨_,listed,same⟩ := mem_map.mp (stands (Nat.le_refl size))
  rw [listing_org] at listed
  exact ⟨_,mem_map_of_mem listed,same⟩

theorem stays (there : n ≤ size) (apart : n ≠ m) :
    (member n).id ∈ org.ids ((crowd (size + 1)).delete (member m).id) := by
  rw [ids_delete]
  exact mem_filter.mpr ⟨stands there,decide_eq_true fun same => apart (member_id_injective same)⟩

private theorem take_ids :
    (org.ids (crowd (size + 1))).take size = ((range size).map member).map UserGrant.id := by
  have first := @page_crowd size
  unfold page at first
  unfold ids
  rw [← map_take,← first,drop_zero]

private theorem last_unlisted : (member size).id ∉ ((range size).map member).map UserGrant.id := by
  intro listed
  obtain ⟨_,among,same⟩ := mem_map.mp listed
  obtain ⟨_,below,rfl⟩ := mem_map.mp among
  rw [member_id_injective same] at below
  exact Nat.lt_irrefl size (mem_range.mp below)

/-- The states of a pass with a deletion between its two pages. -/
def onePage : ObserveState := (opened (pageSize + 1)).setPass 0 halfway

def shifted (n : Nat) : ObserveState :=
  { onePage with zitadel := (crowd (pageSize + 1)).delete (member n).id }

private theorem seen_complete : complete.seen = ((range pageSize).map member).map org.observe := by
  unfold complete halfway add start
  rw [map_nil,append_nil,nil_append]

private theorem step_onePage : observeStep (opened (pageSize + 1)) (.readPage 0 none) =
    some onePage := by
  exact congrArg (fun pass => some ((opened (pageSize + 1)).setPass 0 pass)) first_page

def twoPages (n : Nat) : List ObserveMove :=
  [.readPage 0 none,.delete (member n).id,.readPage 0 none]

private theorem run_twoPages (there : n ≤ pageSize) :
    Runs.run observeStep (opened (pageSize + 1)) (twoPages n) =
      some ((shifted n).setPass 0 complete) := by
  have step_shifted : observeStep onePage (.delete (member n).id) = some (shifted n) := rfl
  have step_complete :
      observeStep (shifted n) (.readPage 0 none) = some ((shifted n).setPass 0 complete) :=
    congrArg (fun pass => some ((shifted n).setPass 0 pass)) (second_page there)
  simp only [twoPages,Runs.run,step_onePage,step_shifted,step_complete]

private theorem throughout_twoPages (there : n ≤ pageSize) (apart : n ≠ m) :
    Runs.Throughout observeStep (fun state _ => (member n).id ∈ Scope.org.ids state.zitadel)
      (opened (pageSize + 1)) (twoPages m) := by
  refine ⟨stands there,?_⟩
  rw [step_onePage]
  refine ⟨stands there,?_⟩
  refine ⟨stays there apart,?_⟩
  trivial

/-- The last grant is deleted when the first page has been read: it is not on that page. -/
theorem complete_pass_lists_standing_workshop : ∃ before final,
    Runs.run observeStep (opened (pageSize + 1)) (twoPages pageSize) = some before ∧
      observeStep before (.record 0 false) = some final ∧
      ∃ row ∈ final.index, row.grantId = (member 0).id := by
  refine ⟨_,_,run_twoPages (Nat.le_refl _),rfl,?_⟩
  refine (@complete_pass_lists_standing (opened (pageSize + 1)) _ _ 0 .org (twoPages pageSize)
    complete "" rfl ?_ (run_twoPages (Nat.le_refl _)) rfl rfl rfl).1 _
    (throughout_twoPages (Nat.zero_le _) (by decide))
  refine ⟨trivial,?_⟩
  rw [step_onePage]
  refine ⟨?_,trivial,trivial⟩
  intro pass found _ listed
  cases found
  have listed : (member pageSize).id ∈ (org.ids (crowd (pageSize + 1))).take pageSize := listed
  rw [take_ids] at listed
  exact last_unlisted listed

/-- One grant more than a page holds. After the first page a grant on it is
deleted, the last grant moves up into what was read, the next page is empty, and
the recording of the complete pass drops the row of a grant that never went away. -/
theorem shifted_grant_loses_row :
    (∃ row ∈ (opened (pageSize + 1)).index, row.grantId = (member pageSize).id) ∧
      Runs.Throughout observeStep
        (fun state _ => (member pageSize).id ∈ Scope.org.ids state.zitadel)
        (opened (pageSize + 1)) (twoPages 0) ∧
      ∃ before final, Runs.run observeStep (opened (pageSize + 1)) (twoPages 0) = some before ∧
        (member pageSize).id ∈ Scope.org.ids before.zitadel ∧
        (before.passes 0).map Pass.phase = some (.read true "") ∧
        observeStep before (.record 0 false) = some final ∧
        ∀ row ∈ final.index, row.grantId ≠ (member pageSize).id := by
  have apart : pageSize ≠ 0 := by decide
  refine ⟨last_indexed,throughout_twoPages (Nat.le_refl _) apart,(shifted 0).setPass 0 complete,
    ((shifted 0).setPass 0 complete).recordPass 0 complete true "" false,
    run_twoPages (Nat.zero_le _),stays (Nat.le_refl _) apart,?_,?_,?_⟩
  · rfl
  · change ((shifted 0).setPass 0 complete).record 0 false = _
    rfl
  intro _ recorded
  rw [recordPass_org rfl] at recorded
  rcases mem_upsertObserved recorded with none | seen
  · cases none
  · rw [seen_complete] at seen
    obtain ⟨_,listed,rfl⟩ := mem_map.mp seen
    intro same
    exact last_unlisted (mem_map.mpr ⟨_,listed,same⟩)

end Workshop

end Syndra.Observe
