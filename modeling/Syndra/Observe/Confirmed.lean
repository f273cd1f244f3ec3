/-
Confirmations of applied writes.

A sweep lists the organisation, records what it saw and then stamps the applied rows its
index answers for; a drain looks at one person after marking a row applied and stamps that
row.
-/

import Syndra.Observe.Passes
import Syndra.Propagation.Delivery

namespace Syndra.Observe

open Propagation Foundation.Runs List Function ObserveState

/-! ### The stamps -/

def Concerns (row : Intent) (grant : ObservedGrant) : Prop :=
  grant.userId = row.userId ∧ grant.projectId = row.projectId
deriving Decidable

def confers (row : Intent) : Bool := row.opType = .add || row.opType = .replace

def settledLater (outbox : Outbox) (row : OutboxRow) : Bool :=
  outbox.rows.any fun later =>
    later.userId = row.userId && later.projectId = row.projectId &&
      later.target = zitadelTarget && later.status = .applied && confers later.toIntent &&
      (later.roleKeys.any fun role => decide (role ∈ row.roleKeys)) &&
      decide (row.intentSeq < later.intentSeq)

/-- What the index answers for: a conferring row by presence, a revoke by absence or by a
later row. -/
def substantiates (index : List ObservedGrant) (outbox : Outbox) (row : OutboxRow) : Bool :=
  (confers row.toIntent && index.any fun grant =>
      decide (Concerns row.toIntent grant) &&
        row.roleKeys.all fun role => decide (role ∈ grant.roleKeys)) ||
    (row.opType = .revoke && !index.any fun grant =>
      decide (Concerns row.toIntent grant) &&
        grant.roleKeys.any fun role => decide (role ∈ row.roleKeys)) ||
    (row.opType = .revoke && settledLater outbox row)

def latestOrgClean (observations : List Observation) : Bool :=
  (observations.filter fun observation => observation.scope = .org).getLast?.any
    fun observation => observation.complete && observation.error = ""

def confirmFromObservation (observe : ObserveState) (outbox : Outbox) (confirmed : List Nat) :
    List Nat :=
  if latestOrgClean observe.observations then
    (outbox.rows.filter fun row =>
      row.status = .applied && row.intentSeq ∉ confirmed && row.target = zitadelTarget &&
        substantiates observe.index outbox row).map OutboxRow.intentSeq
  else []

def observedAfterWrite (row : OutboxRow) (seen : List ObservedGrant) (complete : Bool) : Bool :=
  let live := (seen.filter fun grant => grant.projectId = row.projectId).flatMap
    ObservedGrant.roleKeys
  match row.opType with
  | .add | .replace => row.roleKeys.all fun role => decide (role ∈ live)
  | .revoke => complete && row.roleKeys.all fun role => decide (role ∉ live)
  | .apply => false

/-! ### Interleavings -/

structure Listing where
  number : Nat
  scope : Scope
  seen : List ObservedGrant
  complete : Bool
  /-- The rows that were applied before its first page was read. -/
  after : List Nat

structure ConfirmState where
  delivery : DeliveryState
  observe : ObserveState
  confirmed : List Nat
  began : Nat → List Nat
  /-- The row a drain reads back with this pass. -/
  readBack : Nat → Option Nat
  /-- Complete sweeps that recorded and have yet to confirm. -/
  sweeps : List Nat
  listings : List Listing

inductive ConfirmMove where
  | deliver (move : Move)
  | create (place : Nat) (grant : UserGrant)
  | change (id : String) (roleKeys : List String)
  | delete (id : String)
  | start (number : Nat) (scope : Scope)
  | lookAfter (number : Nat) (seq : Nat)
  | readPage (number : Nat) (failure : Option String)
  | record (number : Nat) (failed : Bool)
  | confirm (number : Nat) (failed : Bool)
  | confirmRow (number : Nat) (failed : Bool)

def appliedSeqs (outbox : Outbox) : List Nat :=
  (outbox.rows.filter fun row => row.status = .applied).map OutboxRow.intentSeq

def appliedRow (outbox : Outbox) (seq : Nat) : Option OutboxRow :=
  outbox.rows.find? fun row =>
    row.intentSeq = seq && row.status = .applied && row.target = zitadelTarget

namespace ConfirmState

def begin_ (state : ConfirmState) (number : Nat) (scope : Scope) : Option ConfirmState :=
  (state.observe.startPass number scope).map fun observe =>
    { state with
      observe := observe
      began := Function.update state.began number (appliedSeqs state.delivery.outbox) }

def lookAfter (state : ConfirmState) (number seq : Nat) : Option ConfirmState :=
  match appliedRow state.delivery.outbox seq with
  | none => none
  | some row =>
    if row.projectId = "" || row.roleKeys = [] then none
    else
      (state.begin_ number (.user row.userId)).map fun next =>
        { next with readBack := Function.update state.readBack number (some seq) }

/-- A recording that goes through is logged, and a complete one of the organisation goes on
to confirm. -/
def record (state : ConfirmState) (number : Nat) (failed : Bool) : Option ConfirmState :=
  match state.observe.passes number with
  | none => none
  | some pass =>
    match pass.phase with
    | .read complete readErr =>
      let observe := state.observe.recordPass number pass complete readErr failed
      if failed || (recordObservation state.observe.index pass.scope pass.seen complete).isNone
      then some { state with observe := observe }
      else
        some { state with
          observe := observe
          sweeps :=
            if complete && pass.scope = .org then number :: state.sweeps else state.sweeps
          listings := state.listings ++
            [{ number := number, scope := pass.scope, seen := pass.seen, complete := complete
               after := state.began number }] }
    | _ => none

def confirm (state : ConfirmState) (number : Nat) (failed : Bool) : Option ConfirmState :=
  if number ∈ state.sweeps then
    some { state with
      sweeps := state.sweeps.erase number
      confirmed :=
        if failed then state.confirmed
        else state.confirmed ++
          confirmFromObservation state.observe state.delivery.outbox state.confirmed }
  else none

def confirmRow (state : ConfirmState) (number : Nat) (failed : Bool) : Option ConfirmState :=
  match state.readBack number, state.listings.find? fun listing => listing.number = number with
  | some seq, some listing =>
    match appliedRow state.delivery.outbox seq with
    | none => none
    | some row =>
      if failed || !observedAfterWrite row listing.seen listing.complete then some state
      else some { state with confirmed := state.confirmed ++ [seq] }
  | _, _ => none

end ConfirmState

section Step

variable (owner : String → String × String)

def confirmStep (state : ConfirmState) : ConfirmMove → Option ConfirmState
  | .deliver move =>
    (deliver state.delivery move).map fun delivery => { state with delivery := delivery }
  | .create place grant =>
    if owner grant.id = (grant.userId, grant.projectId) then
      (state.observe.zitadel.create place grant).map fun zitadel =>
        { state with observe := { state.observe with zitadel := zitadel } }
    else none
  | .change id roleKeys =>
    some { state with
      observe := { state.observe with zitadel := state.observe.zitadel.change id roleKeys } }
  | .delete id =>
    some { state with
      observe := { state.observe with zitadel := state.observe.zitadel.delete id } }
  | .start number scope => state.begin_ number scope
  | .lookAfter number seq => state.lookAfter number seq
  | .readPage number failure =>
    (state.observe.readPage number failure).map fun observe => { state with observe := observe }
  | .record number failed => state.record number failed
  | .confirm number failed => state.confirm number failed
  | .confirmRow number failed => state.confirmRow number failed

end Step

/-! ### What a stamp rests on -/

def Scope.Regards : Scope → String → Prop
  | .org, _ => True
  | .user userId, other => userId = other

instance (scope : Scope) (userId : String) : Decidable (scope.Regards userId) :=
  match scope with
  | .org => isTrue trivial
  | .user _ => inferInstanceAs (Decidable (_ = _))

def picture (seen : List ObservedGrant) : List ObservedGrant := upsertObserved [] seen

/-- The read showed the person without the role: it was whole, or it saw their grant of the
project. -/
structure Listing.ShowsAbsent (listing : Listing) (row : Intent) (role : String) : Prop where
  regards : listing.scope.Regards row.userId
  looked : listing.complete = true ∨ ∃ grant ∈ picture listing.seen, Concerns row grant
  absent : ∀ grant ∈ picture listing.seen, Concerns row grant → role ∉ grant.roleKeys

def Listing.ShowsHeld (listing : Listing) (row : Intent) : Prop :=
  ∀ role ∈ row.roleKeys, ∃ grant ∈ listing.seen, Concerns row grant ∧ role ∈ grant.roleKeys

def Delivered (row : OutboxRow) : Prop := row.status = .applied ∧ row.target = zitadelTarget
deriving Decidable

def Taken (outbox : Outbox) (intent : Intent) (seq : Nat) : Prop :=
  ∃ row ∈ outbox.rows, Delivered row ∧ row.toIntent = intent ∧ row.intentSeq = seq

def NamedLater (outbox : Outbox) (intent : Intent) (seq : Nat) (role : String) : Prop :=
  ∃ later number, Taken outbox later number ∧ confers later = true ∧
    later.userId = intent.userId ∧ later.projectId = intent.projectId ∧
      role ∈ later.roleKeys ∧ seq < number

/-- A read made after the row was applied showed what the row did. -/
def Evident (state : ConfirmState) (intent : Intent) (seq : Nat) : Prop :=
  (intent.opType = .revoke ∧ ∀ role ∈ intent.roleKeys,
    (∃ listing ∈ state.listings, seq ∈ listing.after ∧ listing.ShowsAbsent intent role) ∨
      NamedLater state.delivery.outbox intent seq role) ∨
  (confers intent = true ∧
    ∃ listing ∈ state.listings, seq ∈ listing.after ∧ listing.ShowsHeld intent)

/-- Each stamped row is an applied one and rests on such a read. -/
def Substantiated (state : ConfirmState) : Prop :=
  ∀ row ∈ state.delivery.outbox.rows, row.intentSeq ∈ state.confirmed →
    Delivered row ∧ Evident state row.toIntent row.intentSeq

/-- The condition on one move. A row is marked applied while no listing of its person is
between its first page and its recording and no sweep is to confirm; a revoke names one
role. -/
def Unobserved (state : ConfirmState) (move : ConfirmMove) : Prop :=
  ∀ row ∈ state.delivery.outbox.rows, move = .deliver (.settle row.id .applied) →
    row.status = .inFlight → row.target = zitadelTarget → state.sweeps = [] ∧
      (∀ number pass, state.observe.passes number = some pass → pass.phase ≠ .ended →
        ¬pass.scope.Regards row.userId) ∧
      (row.opType = .revoke → ∀ role ∈ row.roleKeys, ∀ other ∈ row.roleKeys, role = other)

/-! ### What a recording leaves -/

variable {seen : List ObservedGrant} {owner : String → String × String}

theorem mem_seen_of_picture {row : ObservedGrant} (mem : row ∈ picture seen) : row ∈ seen:= by
  rcases mem_upsertObserved mem with impossible | seen
  · cases impossible
  · exact seen

/-- A recording writes its listing over a part of the index. A complete one keeps nothing of
the people it regards, and an incomplete one keeps everything. -/
structure Recording (scope : Scope) (seen : List ObservedGrant) (complete : Bool)
    (index base next : List ObservedGrant) : Prop where
  written : next = upsertObserved base seen
  part : ∀ row ∈ base, row ∈ index
  kept : ∀ row ∈ index, row ∈ base ∨ (complete = true ∧ scope.Regards row.userId)
  cleared : complete = true → ∀ row ∈ base, ¬scope.Regards row.userId
  own : ∀ row ∈ seen, scope.Regards row.userId

theorem recordObservation_some {index next : List ObservedGrant} {scope : Scope}
    {complete : Bool} (recorded : recordObservation index scope seen complete = some next) :
    ∃ base, Recording scope seen complete index base next := by
  cases scope with
  | org =>
    cases recorded
    cases complete with
    | false =>
      exact ⟨index,rfl,fun row mem => mem,fun row => .inl,nofun,fun _ _ => trivial⟩
    | true =>
      exact ⟨[],rfl,nofun,
        fun row mem => .inr ⟨rfl,trivial⟩,nofun,
        fun _ _ => trivial⟩
  | user userId =>
    unfold recordObservation recordUserObservation at recorded
    dsimp only at recorded
    split at recorded
    · cases recorded
    rename_i foreign
    cases recorded
    have own : ∀ row ∈ seen, (Scope.user userId).Regards row.userId := by
      intro row mem
      by_contra other
      exact foreign (any_eq_true.mpr ⟨row,mem,decide_eq_true fun same => other same.symm⟩)
    cases complete with
    | false =>
      exact ⟨index,rfl,fun row mem => mem,fun row => .inl,nofun,own⟩
    | true =>
      refine ⟨index.filter fun row => row.userId ≠ userId,rfl,
        fun row => mem_of_mem_filter,fun row mem => ?_,
        fun _ row mem same => ?_,own⟩
      · by_cases same : row.userId = userId
        · exact .inr ⟨rfl,same.symm⟩
        · exact .inl (mem_filter.mpr ⟨mem,decide_eq_true same⟩)
      · exact of_decide_eq_true (mem_filter.mp mem).2 same.symm

section Recorded

variable {owner : String → String × String} {scope : Scope}
  {seen index base next : List ObservedGrant} {complete : Bool}

def ObservedGrant.Named (row : ObservedGrant) : Prop :=
  row.grantId ≠ "" ∧ row.userId ≠ "" ∧ row.projectId ≠ ""

def Owned (owner : String → String × String) (row : ObservedGrant) : Prop :=
  owner row.grantId = (row.userId, row.projectId)

theorem Owned.concerns {first second : ObservedGrant} (firstOwned : Owned owner first)
    (secondOwned : Owned owner second) (same : first.grantId = second.grantId) {row : Intent}
    (concerns : Concerns row first) : Concerns row second := by
  have equal : (first.userId, first.projectId) = (second.userId, second.projectId) :=
    firstOwned.symm.trans ((congrArg owner same).trans secondOwned)
  exact ⟨(congrArg Prod.fst equal).symm.trans concerns.1,
    (congrArg Prod.snd equal).symm.trans concerns.2⟩

theorem Recording.present (recording : Recording scope seen complete index base next)
    {grant : ObservedGrant} (mem : grant ∈ next) :
    grant ∈ seen ∨ (grant ∈ index ∧ ¬(complete = true ∧ scope.Regards grant.userId)) := by
  rw [recording.written] at mem
  rcases mem_upsertObserved mem with kept | written
  · exact .inr ⟨recording.part grant kept,
      fun whole => recording.cleared whole.1 grant kept whole.2⟩
  · exact .inl written

/-- Where the index lacks a role after a recording, the recording showed it absent, or the
index lacked it before and the recording cleared nothing of the person. -/
theorem Recording.absent (recording : Recording scope seen complete index base next)
    (indexOwned : ∀ row ∈ index, Owned owner row)
    (seenOwned : ∀ row ∈ seen, Owned owner row ∧ row.Named)
    {intent : Intent} {role : String}
    (lacks : ∀ grant ∈ next, Concerns intent grant → role ∉ grant.roleKeys) (number : Nat)
    (after : List Nat) :
    ({ number := number, scope := scope, seen := seen, complete := complete, after := after } :
        Listing).ShowsAbsent intent role ∨
      ((∀ grant ∈ index, Concerns intent grant → role ∉ grant.roleKeys) ∧
        ¬(complete = true ∧ scope.Regards intent.userId)) := by
  have shown : ∀ grant ∈ picture seen, Concerns intent grant → role ∉ grant.roleKeys := by
    intro grant mem
    refine lacks grant ?_
    rw [recording.written]
    exact upsertObserved_mono (fun row impossible => by cases impossible) grant mem
  by_cases whole : complete = true ∧ scope.Regards intent.userId
  · exact .inl ⟨whole.2,.inl whole.1,shown⟩
  by_cases looked : ∃ grant ∈ picture seen, Concerns intent grant
  · obtain ⟨grant,mem,concerns⟩ := looked
    refine .inl ⟨?_,.inr ⟨grant,mem,concerns⟩,shown⟩
    exact concerns.1 ▸ recording.own grant (mem_seen_of_picture mem)
  refine .inr ⟨fun grant mem concerns => ?_,whole⟩
  rcases recording.kept grant mem with kept | cleared
  · refine lacks grant ?_ concerns
    rw [recording.written]
    refine mem_upsertObserved_of_unseen kept fun other among same => looked ?_
    obtain ⟨final,there,id⟩ : ∃ final ∈ picture seen, final.grantId = other.grantId :=
      seen_mem_upsertObserved among (seenOwned other among).2
    refine ⟨final,there,?_⟩
    exact (indexOwned grant mem).concerns (seenOwned final (mem_seen_of_picture there)).1
      (same.trans id.symm) concerns
  · exact absurd ⟨cleared.1,concerns.1 ▸ cleared.2⟩ whole

end Recorded

/-! ### What a move can do -/

section Moves

variable {owner : String → String × String} {state next : ConfirmState} {outbox : Outbox}
  {intent : Intent} {number seq : Nat} {failed : Bool}

theorem Taken.same {first second : Intent} (one : Taken outbox first seq)
    (two : Taken outbox second seq) : first = second := by
  obtain ⟨_,mem,-,rfl,rfl⟩ := one
  obtain ⟨_,present,-,rfl,sameSeq⟩ := two
  rw [outbox.eq_of_seq_eq mem present sameSeq.symm]

theorem Taken.mem_appliedSeqs (taken : Taken outbox intent seq) : seq ∈ appliedSeqs outbox := by
  obtain ⟨_,mem,delivered,-,rfl⟩ := taken
  exact mem_map_of_mem (mem_filter.mpr ⟨mem,decide_eq_true delivered.1⟩)

theorem appliedRow_some {row : OutboxRow} (found : appliedRow outbox seq = some row) :
    row ∈ outbox.rows ∧ Delivered row ∧ row.intentSeq = seq := by
  have fits := find?_some found
  simp only [Bool.and_eq_true,decide_eq_true_eq] at fits
  exact ⟨mem_of_find?_eq_some found,⟨fits.1.2,fits.2⟩,fits.1.1⟩

theorem taken_kept {state next : DeliveryState} {move : Move}
    (moved : deliver state move = some next) (taken : Taken state.outbox intent seq) :
    Taken next.outbox intent seq := by
  obtain ⟨row,mem,delivered,rfl,rfl⟩ := taken
  rcases deliver_cases moved with ⟨-,quiet⟩ | ⟨_,-,-,-,-,changed⟩
  · obtain ⟨after,present,done,same⟩ := quiet.appliedKept row mem delivered.1
    exact ⟨after,present,⟨done,(congrArg Intent.target same.intent).trans delivered.2⟩,same.intent,
      same.seq⟩
  rw [changed]
  refine ⟨_,state.outbox.mem_update_of_mem _ mem,⟨?_,delivered.2⟩,rfl,rfl⟩
  split
  · rfl
  · exact delivered.1

theorem taken_from {state next : DeliveryState} {move : Move}
    (moved : deliver state move = some next) (taken : Taken next.outbox intent seq) :
    Taken state.outbox intent seq ∨
      ∃ row ∈ state.outbox.rows, move = .settle row.id .applied ∧ row.status = .inFlight ∧
        row.target = zitadelTarget ∧ row.toIntent = intent ∧ row.intentSeq = seq := by
  obtain ⟨row,mem,delivered,rfl,rfl⟩ := taken
  rcases deliver_cases moved with ⟨-,quiet⟩ | ⟨chosen,_,settles,_,-,changed⟩
  · obtain ⟨before,old,done,same⟩ := quiet.appliedFrom row mem delivered.1
    exact .inl ⟨before,old,⟨done,(congrArg Intent.target same.intent).symm.trans delivered.2⟩,
      same.intent.symm,same.seq.symm⟩
  rw [changed] at mem
  obtain ⟨before,old,rfl⟩ := (state.outbox.mem_update _ row).mp mem
  by_cases settled : before.id = chosen.id ∧ before.status = .inFlight
  · refine .inr ⟨before,old,?_,settled.2,delivered.2,rfl,rfl⟩
    rw [settled.1]
    exact settles
  refine .inl ⟨before,old,⟨?_,delivered.2⟩,rfl,rfl⟩
  have done := delivered.1
  rw [if_neg settled] at done
  exact done

/-- What a new stamp was taken from: the index, by a sweep that has yet to confirm, or the
look at the row's person. -/
def StampedBy (state : ConfirmState) (seq : Nat) : Prop :=
  ∃ row ∈ state.delivery.outbox.rows, Delivered row ∧ row.intentSeq = seq ∧ ((state.sweeps ≠ [] ∧
        substantiates state.observe.index state.delivery.outbox row = true) ∨
      ∃ number listing, state.readBack number = some seq ∧ listing ∈ state.listings ∧
        listing.number = number ∧ observedAfterWrite row listing.seen listing.complete = true)

abbrev ConfirmState.opens (state : ConfirmState) (number : Nat) (scope : Scope)
    (readBack : Nat → Option Nat) : ConfirmState :=
  { state with
    observe := state.observe.setPass number (Pass.start scope)
    began := Function.update state.began number (appliedSeqs state.delivery.outbox)
    readBack := readBack }

abbrev ConfirmState.logs (state : ConfirmState) (number : Nat) (pass : Pass) (complete : Bool)
    (index : List ObservedGrant) (observations : List Observation) : ConfirmState :=
  { state with
    observe :=
      { state.observe.setPass number { pass with phase := .ended } with
        index := index, observations := observations }
    sweeps := if complete && pass.scope = .org then number :: state.sweeps else state.sweeps
    listings := state.listings ++
      [{ number := number, scope := pass.scope, seen := pass.seen, complete := complete
         after := state.began number }] }

inductive ConfirmEffect (owner : String → String × String) (state : ConfirmState) :
    ConfirmMove → ConfirmState → Prop
  | delivered (move : Move) (delivery : DeliveryState)
      (moved : deliver state.delivery move = some delivery) :
      ConfirmEffect owner state (.deliver move) { state with delivery := delivery }
  | rearranged (move : ConfirmMove) (directory : Directory)
      (owned : (∀ grant ∈ state.observe.zitadel.grants,
          owner grant.id = (grant.userId, grant.projectId)) →
        ∀ grant ∈ directory.grants, owner grant.id = (grant.userId, grant.projectId)) :
      ConfirmEffect owner state move
        { state with observe := { state.observe with zitadel := directory } }
  | started (move : ConfirmMove) (number : Nat) (scope : Scope) (readBack : Nat → Option Nat)
      (free : state.observe.passes number = none)
      (asked : ∀ other seq, readBack other = some seq → state.readBack other = some seq ∨
        (other = number ∧ ∃ intent, Taken state.delivery.outbox intent seq ∧
          scope = .user intent.userId)) :
      ConfirmEffect owner state move (state.opens number scope readBack)
  | read (move : ConfirmMove) (number : Nat) (pass : Pass) (failure : Option String)
      (found : state.observe.passes number = some pass) (reading : pass.phase = .reading) :
      ConfirmEffect owner state move
        { state with
          observe := state.observe.setPass number
            (pass.readPage state.observe.zitadel failure) }
  | dropped (move : ConfirmMove) (number : Nat) (pass : Pass)
      (found : state.observe.passes number = some pass) :
      ConfirmEffect owner state move
        { state with observe := state.observe.setPass number { pass with phase := .ended } }
  | recorded (move : ConfirmMove) (number : Nat) (pass : Pass) (complete : Bool)
      (index : List ObservedGrant) (observations : List Observation)
      (found : state.observe.passes number = some pass) (unended : pass.phase ≠ .ended)
      (written : recordObservation state.observe.index pass.scope pass.seen complete =
        some index) :
      ConfirmEffect owner state move (state.logs number pass complete index observations)
  | stamped (move : ConfirmMove) (sweeps confirmed : List Nat)
      (fewer : sweeps ≠ [] → state.sweeps ≠ [])
      (grounds : ∀ seq ∈ confirmed, seq ∈ state.confirmed ∨ StampedBy state seq) :
      ConfirmEffect owner state move { state with sweeps := sweeps, confirmed := confirmed }

variable {move : ConfirmMove}

theorem started_of_begin {scope : Scope} (stepped : state.begin_ number scope = some next) :
    ConfirmEffect owner state move next := by
  obtain ⟨_,opened,rfl⟩ := Option.map_eq_some_iff.mp stepped
  obtain ⟨free,rfl⟩ := startPass_some opened
  exact .started move number scope state.readBack free fun other seq => .inl

theorem started_of_lookAfter (stepped : state.lookAfter number seq = some next) :
    ConfirmEffect owner state move next := by
  unfold ConfirmState.lookAfter at stepped
  split at stepped
  · cases stepped
  rename_i row found
  split at stepped
  · cases stepped
  obtain ⟨middle,begun,rfl⟩ := Option.map_eq_some_iff.mp stepped
  obtain ⟨observe,opened,rfl⟩ := Option.map_eq_some_iff.mp begun
  obtain ⟨free,rfl⟩ := startPass_some opened
  refine .started move number (.user row.userId) _ free fun other asked back => ?_
  by_cases same : other = number
  · subst same
    rw [update_self] at back
    cases back
    obtain ⟨present,delivered,sameSeq⟩ := appliedRow_some found
    exact .inr ⟨rfl,row.toIntent,⟨row,present,delivered,rfl,sameSeq⟩,rfl⟩
  · rw [update_of_ne same] at back
    exact .inl back

theorem recorded_of_record (stepped : state.record number failed = some next) :
    ConfirmEffect owner state move next := by
  unfold ConfirmState.record at stepped
  split at stepped
  · cases stepped
  rename_i pass found
  split at stepped
  · next complete readErr phase =>
    unfold recordPass at stepped
    cases written : recordObservation state.observe.index pass.scope pass.seen complete with
    | none =>
      rw [written,Option.isNone_none,Bool.or_true] at stepped
      cases stepped
      rw [ite_self]
      exact .dropped move number pass found
    | some index =>
      cases failed with
      | true =>
        cases stepped
        exact .dropped move number pass found
      | false =>
        rw [written] at stepped
        cases stepped
        refine .recorded move number pass complete index _ found ?_ written
        rw [phase]
        intro impossible
        cases impossible
  · cases stepped

theorem stamped_of_confirm (stepped : state.confirm number failed = some next) :
    ConfirmEffect owner state move next := by
  unfold ConfirmState.confirm at stepped
  split at stepped
  · next waiting =>
    cases stepped
    have some_ : state.sweeps ≠ [] := ne_nil_of_mem waiting
    refine .stamped move _ _ (fun _ => some_) fun seq mem => ?_
    cases failed with
    | true => exact .inl mem
    | false =>
      rcases mem_append.mp mem with old | added
      · exact .inl old
      unfold confirmFromObservation at added
      split at added
      · obtain ⟨row,chosen,rfl⟩ := mem_map.mp added
        obtain ⟨present,fits⟩ := mem_filter.mp chosen
        simp only [Bool.and_eq_true,decide_eq_true_eq] at fits
        exact .inr ⟨row,present,⟨fits.1.1.1,fits.1.2⟩,rfl,.inl ⟨some_,fits.2⟩⟩
      · cases added
  · cases stepped

theorem stamped_of_confirmRow (stepped : state.confirmRow number failed = some next) :
    ConfirmEffect owner state move next := by
  unfold ConfirmState.confirmRow at stepped
  split at stepped
  · next seq listing asked logged =>
    split at stepped
    · cases stepped
    rename_i row found
    split at stepped
    · cases stepped
      exact .stamped move state.sweeps state.confirmed id fun _ => .inl
    rename_i seen
    cases stepped
    refine .stamped move state.sweeps _ id fun other mem => ?_
    rcases mem_append.mp mem with old | added
    · exact .inl old
    rw [mem_singleton.mp added]
    obtain ⟨present,delivered,sameSeq⟩ := appliedRow_some found
    have numbered := find?_some logged
    simp only [decide_eq_true_eq] at numbered
    simp only [Bool.or_eq_true,Bool.not_eq_true',not_or,Bool.not_eq_false] at seen
    exact .inr ⟨row,present,delivered,sameSeq,.inr ⟨number,listing,asked,
      mem_of_find?_eq_some logged,numbered,seen.2⟩⟩
  · cases stepped

theorem confirmStep_effect (stepped : confirmStep owner state move = some next) :
    ConfirmEffect owner state move next := by
  cases move with
  | deliver move =>
    obtain ⟨delivery,moved,rfl⟩ := Option.map_eq_some_iff.mp stepped
    exact .delivered move delivery moved
  | create =>
    simp only [confirmStep] at stepped
    split at stepped
    · next owned =>
      obtain ⟨directory,created,rfl⟩ := Option.map_eq_some_iff.mp stepped
      refine .rearranged _ directory fun known other mem => ?_
      rcases mem_cons.mp ((Directory.create_perm created).mem_iff.mp mem) with rfl | old
      · exact owned
      · exact known other old
    · cases stepped
  | change =>
    cases stepped
    refine .rearranged _ _ fun known other mem => ?_
    obtain ⟨grant,old,rfl⟩ := mem_map.mp mem
    split <;> exact known grant old
  | delete =>
    cases stepped
    exact .rearranged _ _ fun known other mem => known other (mem_of_mem_filter mem)
  | start => exact started_of_begin stepped
  | lookAfter => exact started_of_lookAfter stepped
  | readPage number failure =>
    obtain ⟨_,read,rfl⟩ := Option.map_eq_some_iff.mp stepped
    obtain ⟨pass,found,reading,rfl⟩ := readPage_some read
    exact .read _ number pass failure found reading
  | record => exact recorded_of_record stepped
  | confirm => exact stamped_of_confirm stepped
  | confirmRow => exact stamped_of_confirmRow stepped

end Moves

/-! ### What is kept -/

section Kept

variable {owner : String → String × String} {state next : ConfirmState} {move : ConfirmMove}
  {observe : ObserveState} {number other : Nat} {pass : Pass} {scope : Scope} {row : OutboxRow}

/-- Every grant that was seen is its owner's, in Zitadel, in the reads and in the index. -/
structure Owning (owner : String → String × String) (state : ConfirmState) : Prop where
  zitadel : ∀ grant ∈ state.observe.zitadel.grants,
    owner grant.id = (grant.userId, grant.projectId)
  seen : ∀ number pass, state.observe.passes number = some pass →
    ∀ row ∈ pass.seen, Owned owner row ∧ row.Named
  index : ∀ row ∈ state.observe.index, Owned owner row

variable {directory : Directory}

theorem owned_observe {grant : UserGrant}
    (owned : owner grant.id = (grant.userId, grant.projectId))
    (listed : grant ∈ scope.listing directory) : Owned owner (scope.observe grant) := by
  cases scope with
  | org => exact owned
  | user userId =>
    have same : grant.userId = userId := of_decide_eq_true (mem_filter.mp listed).2
    rw [same] at owned
    exact owned

theorem mem_readPage_seen {failure : Option String}
    {row : ObservedGrant} (mem : row ∈ (pass.readPage directory failure).seen) :
    row ∈ pass.seen ∨ ∃ grant ∈ pass.scope.listing directory, pass.scope.observe grant = row := by
  cases failure with
  | some => exact .inl mem
  | none =>
    have among : row ∈
        pass.add (Foundation.Paging.page (pass.scope.listing directory) pass.offset pageSize) := by
      unfold Pass.readPage Pass.receive at mem
      dsimp only at mem
      split at mem
      · exact mem
      split at mem <;> exact mem
    rcases mem_append.mp among with before | read
    · exact .inl before
    · obtain ⟨grant,paged,rfl⟩ := mem_map.mp read
      exact .inr ⟨grant,mem_of_mem_drop (mem_of_mem_take paged),rfl⟩

theorem setPass_cases {found : Pass}
    (there : (observe.setPass number pass).passes other = some found) :
    (other = number ∧ found = pass) ∨ (other ≠ number ∧ observe.passes other = some found) := by
  by_cases same : other = number
  · subst same
    rw [passes_setPass] at there
    cases there
    exact .inl ⟨rfl,rfl⟩
  · refine .inr ⟨same,?_⟩
    rw [← there]
    exact (update_of_ne same _ _).symm

theorem seen_setPass
    (seen : ∀ other found, observe.passes other = some found →
      ∀ row ∈ found.seen, Owned owner row ∧ row.Named)
    (fresh : ∀ row ∈ pass.seen, Owned owner row ∧ row.Named) :
    ∀ other found, (observe.setPass number pass).passes other = some found →
      ∀ row ∈ found.seen, Owned owner row ∧ row.Named := by
  intro other found there
  rcases setPass_cases there with ⟨-,rfl⟩ | ⟨-,before⟩
  · exact fresh
  · exact seen other found before

theorem Owning.effect (owning : Owning owner state)
    (effect : ConfirmEffect owner state move next) : Owning owner next := by
  cases effect with
  | delivered | stamped => exact ⟨owning.zitadel,owning.seen,owning.index⟩
  | rearranged _ _ owned => exact ⟨owned owning.zitadel,owning.seen,owning.index⟩
  | started =>
    refine ⟨owning.zitadel,seen_setPass owning.seen ?_,owning.index⟩
    intro row impossible
    cases impossible
  | read _ number pass _ found =>
    refine ⟨owning.zitadel,seen_setPass owning.seen ?_,owning.index⟩
    intro row mem
    rcases mem_readPage_seen mem with before | ⟨grant,listed,rfl⟩
    · exact owning.seen number pass found row before
    · have owned := owning.zitadel grant (mem_of_mem_filter listed)
      exact ⟨owned_observe owned listed,Scope.observe_named listed⟩
  | dropped _ number pass found =>
    exact ⟨owning.zitadel,seen_setPass owning.seen (owning.seen number pass found), owning.index⟩
  | recorded _ number pass _ _ _ found _ written =>
    refine ⟨owning.zitadel,seen_setPass owning.seen (owning.seen number pass found),?_⟩
    obtain ⟨_,recording⟩ := recordObservation_some written
    intro row mem
    rcases recording.present mem with seen | ⟨old,-⟩
    · exact (owning.seen number pass found row seen).1
    · exact owning.index row old

def Scoped (observe : ObserveState) (number : Nat) (scope : Scope) : Prop :=
  ∃ pass, observe.passes number = some pass ∧ pass.scope = scope

theorem Scoped.setPass
    (stands : Scoped observe other scope) (same : other = number → pass.scope = scope) :
    Scoped (observe.setPass number pass) other scope := by
  obtain ⟨found,there,rfl⟩ := stands
  by_cases here : other = number
  · subst here
    exact ⟨pass,passes_setPass,same rfl⟩
  · exact ⟨found,(update_of_ne here _ _).trans there,rfl⟩

theorem Scoped.advance {later : Pass} (stands : Scoped observe other scope)
    (found : observe.passes number = some pass) (same : later.scope = pass.scope) :
    Scoped (observe.setPass number later) other scope := by
  refine stands.setPass fun here => ?_
  obtain ⟨_,there,rfl⟩ := stands
  rw [here,found] at there
  cases there
  exact same

/-- A look at a row's person came after the row, and a listing was read by its own pass. -/
structure Logged (state : ConfirmState) : Prop where
  asked : ∀ number seq, state.readBack number = some seq →
    ∃ intent, Taken state.delivery.outbox intent seq ∧
      Scoped state.observe number (.user intent.userId) ∧ seq ∈ state.began number
  listed : ∀ listing ∈ state.listings, Scoped state.observe listing.number listing.scope ∧
    listing.after = state.began listing.number ∧
      ∀ grant ∈ listing.seen, listing.scope.Regards grant.userId

theorem Logged.advance (logged : Logged state)
    (kept : ∀ number scope, Scoped state.observe number scope → Scoped observe number scope) :
    Logged { state with observe := observe } := by
  refine ⟨fun number seq back => ?_,fun listing mem => ?_⟩
  · obtain ⟨intent,taken,stands,after⟩ := logged.asked number seq back
    exact ⟨intent,taken,kept _ _ stands,after⟩
  · obtain ⟨stands,after,own⟩ := logged.listed listing mem
    exact ⟨kept _ _ stands,after,own⟩

theorem Logged.started (logged : Logged state) {readBack : Nat → Option Nat}
    (free : state.observe.passes number = none)
    (asked : ∀ other seq, readBack other = some seq → state.readBack other = some seq ∨
      (other = number ∧ ∃ intent, Taken state.delivery.outbox intent seq ∧
        scope = .user intent.userId)) : Logged (state.opens number scope readBack) := by
  have elsewhere : ∀ {other : Nat} {scope : Scope}, Scoped state.observe other scope →
      other ≠ number := by
    rintro other _ ⟨_,there,-⟩ rfl
    rw [free] at there
    cases there
  refine ⟨fun other seq back => ?_,fun listing mem => ?_⟩
  · rcases asked other seq back with old | ⟨rfl,intent,taken,rfl⟩
    · obtain ⟨intent,taken,stands,after⟩ := logged.asked other seq old
      refine ⟨intent,taken,stands.setPass fun here => absurd here (elsewhere stands),?_⟩
      change seq ∈ update state.began number _ other
      rw [update_of_ne (elsewhere stands)]
      exact after
    · refine ⟨intent,taken,⟨_,passes_setPass,rfl⟩,?_⟩
      change seq ∈ update state.began other _ other
      rw [update_self]
      exact taken.mem_appliedSeqs
  · obtain ⟨stands,after,own⟩ := logged.listed listing mem
    refine ⟨stands.setPass fun here => absurd here (elsewhere stands),?_,own⟩
    change listing.after = update state.began number _ listing.number
    rw [update_of_ne (elsewhere stands)]
    exact after

theorem Logged.effect (logged : Logged state)
    (effect : ConfirmEffect owner state move next) : Logged next := by
  cases effect with
  | delivered _ _ moved =>
    refine ⟨fun number seq back => ?_,logged.listed⟩
    obtain ⟨intent,taken,stands,after⟩ := logged.asked number seq back
    exact ⟨intent,taken_kept moved taken,stands,after⟩
  | rearranged => exact logged.advance fun _ _ stands => stands
  | started _ _ _ _ free asked => exact logged.started free asked
  | read _ _ pass failure found =>
    exact logged.advance fun _ _ stands =>
      stands.advance found (Pass.readPage_scope)
  | dropped _ _ _ found =>
    exact logged.advance fun _ _ stands => stands.advance found rfl
  | recorded _ number pass _ index observations found _ written =>
    have moved : Logged
        { state with
          observe :=
            { state.observe.setPass number { pass with phase := .ended } with
              index := index, observations := observations } } :=
      logged.advance fun _ _ stands => Scoped.advance stands found rfl
    refine ⟨moved.asked,fun listing mem => ?_⟩
    rcases mem_append.mp mem with old | added
    · exact moved.listed listing old
    obtain ⟨_,recording⟩ := recordObservation_some written
    rw [mem_singleton.mp added]
    exact ⟨⟨_,passes_setPass,rfl⟩,rfl,recording.own⟩
  | stamped => exact ⟨logged.asked,logged.listed⟩

def Caught (outbox : Outbox) (after : List Nat) (userId : String) : Prop :=
  ∀ intent seq, Taken outbox intent seq → intent.userId = userId → seq ∈ after

/-- While a sweep has yet to confirm, the index is of listings that came after what was
delivered, by what it has and by what it lacks. -/
structure Current (state : ConfirmState) : Prop where
  opened : ∀ number pass, state.observe.passes number = some pass → pass.phase ≠ .ended →
    ∀ userId, pass.scope.Regards userId →
      Caught state.delivery.outbox (state.began number) userId
  present : state.sweeps ≠ [] → ∀ grant ∈ state.observe.index, ∃ listing ∈ state.listings,
    grant ∈ listing.seen ∧ Caught state.delivery.outbox listing.after grant.userId
  absent : state.sweeps ≠ [] → ∀ (intent : Intent) (role : String),
    (∀ grant ∈ state.observe.index, Concerns intent grant → role ∉ grant.roleKeys) →
      ∃ listing ∈ state.listings, listing.ShowsAbsent intent role ∧
        Caught state.delivery.outbox listing.after intent.userId
  single : ∀ intent seq, Taken state.delivery.outbox intent seq → intent.opType = .revoke →
    ∀ role ∈ intent.roleKeys, ∀ other ∈ intent.roleKeys, role = other

section

variable (current : Current state)
include current

theorem Current.delivered {move : Move} {delivery : DeliveryState}
    (moved : deliver state.delivery move = some delivery)
    (unobserved : Unobserved state (.deliver move)) :
    Current { state with delivery := delivery } := by
  have caught {after : List Nat} {userId : String}
      (before : Caught state.delivery.outbox after userId)
      (spared : ∀ row ∈ state.delivery.outbox.rows, move = .settle row.id .applied →
        row.status = .inFlight → row.target = zitadelTarget → row.userId ≠ userId) :
      Caught delivery.outbox after userId := by
    intro intent seq taken theirs
    rcases taken_from moved taken with old | ⟨row,mem,settles,flying,target,rfl,rfl⟩
    · exact before intent seq old theirs
    · exact absurd theirs (spared row mem settles flying target)
  have still (waiting : state.sweeps ≠ []) {after : List Nat} {userId : String}
      (before : Caught state.delivery.outbox after userId) :
      Caught delivery.outbox after userId := by
    refine caught before fun row mem settles flying target => ?_
    exact absurd (unobserved row mem (congrArg _ settles) flying target).1 waiting
  refine ⟨?_,?_,?_,?_⟩
  · intro number pass found unended userId regards
    refine caught (current.opened number pass found unended userId regards) ?_
    rintro row mem settles flying target rfl
    exact (unobserved row mem (congrArg _ settles) flying target).2.1 number pass found unended
      regards
  · intro waiting grant mem
    obtain ⟨listing,listed,seen,before⟩ := current.present waiting grant mem
    exact ⟨listing,listed,seen,still waiting before⟩
  · intro waiting intent role lacks
    obtain ⟨listing,listed,shows_,before⟩ := current.absent waiting intent role lacks
    exact ⟨listing,listed,shows_,still waiting before⟩
  intro intent seq taken
  rcases taken_from moved taken with old | ⟨row,mem,settles,flying,target,rfl,rfl⟩
  · exact current.single intent seq old
  · exact (unobserved row mem (congrArg _ settles) flying target).2.2

theorem Current.setPass {later : Pass}
    (found : state.observe.passes number = some pass) (same : later.scope = pass.scope)
    (unended : later.phase ≠ .ended → pass.phase ≠ .ended) :
    Current { state with observe := state.observe.setPass number later } := by
  refine ⟨?_,current.present,current.absent,current.single⟩
  intro other here there goes userId regards
  rcases setPass_cases there with ⟨rfl,rfl⟩ | ⟨-,before⟩
  · rw [same] at regards
    exact current.opened other pass found (unended goes) userId regards
  · exact current.opened other here before goes userId regards

theorem Current.started {readBack : Nat → Option Nat} :
    Current (state.opens number scope readBack) := by
  refine ⟨?_,current.present,current.absent,current.single⟩
  intro other here there goes userId regards intent seq taken theirs
  change seq ∈ update state.began number _ other
  rcases setPass_cases there with ⟨rfl,rfl⟩ | ⟨different,before⟩
  · rw [update_self]
    exact taken.mem_appliedSeqs
  · rw [update_of_ne different]
    exact current.opened other here before goes userId regards intent seq taken theirs

theorem Current.recorded (owning : Owning owner state)
    {complete : Bool} {index : List ObservedGrant} {observations : List Observation}
    (found : state.observe.passes number = some pass)
    (unended : pass.phase ≠ .ended)
    (written : recordObservation state.observe.index pass.scope pass.seen complete =
      some index) : Current (state.logs number pass complete index observations) := by
  obtain ⟨_,recording⟩ := recordObservation_some written
  have ended : Current
      { state with
        observe := state.observe.setPass number { pass with phase := .ended } } :=
    current.setPass found rfl (absurd rfl)
  have fresh := current.opened number pass found unended
  have waited (waiting : (if complete && pass.scope = .org then number :: state.sweeps
      else state.sweeps) ≠ []) {userId : String}
      (kept : ¬(complete = true ∧ pass.scope.Regards userId)) : state.sweeps ≠ [] := by
    by_cases whole : complete = true ∧ pass.scope = .org
    · refine absurd ⟨whole.1,?_⟩ kept
      rw [whole.2]
      trivial
    · rw [if_neg (by simpa using whole)] at waiting
      exact waiting
  refine ⟨ended.opened,?_,?_,current.single⟩
  · intro waiting grant mem
    rcases recording.present mem with seen | ⟨old,kept⟩
    · exact ⟨_,mem_append_right _ mem_cons_self,seen, fresh grant.userId (recording.own grant seen)⟩
    · obtain ⟨listing,listed,seen,caught⟩ := current.present (waited waiting kept) grant old
      exact ⟨listing,mem_append_left _ listed,seen,caught⟩
  · intro waiting intent role lacks
    rcases recording.absent owning.index (owning.seen number pass found) lacks number
      (state.began number) with shown | ⟨lacked,kept⟩
    · exact ⟨_,mem_append_right _ mem_cons_self,shown, fresh intent.userId shown.regards⟩
    obtain ⟨listing,listed,shown,caught⟩ := current.absent (waited waiting kept) intent role lacked
    exact ⟨listing,mem_append_left _ listed,shown,caught⟩

theorem Current.effect (owning : Owning owner state)
    (unobserved : Unobserved state move) (effect : ConfirmEffect owner state move next) :
    Current next := by
  cases effect with
  | delivered _ _ moved => exact current.delivered moved unobserved
  | rearranged =>
    exact ⟨current.opened,current.present,current.absent,current.single⟩
  | started => exact current.started
  | read _ _ pass failure found reading =>
    refine current.setPass found (Pass.readPage_scope) fun _ ended => ?_
    rw [reading] at ended
    cases ended
  | dropped _ _ _ found => exact current.setPass found rfl (absurd rfl)
  | recorded _ _ _ _ _ _ found unended written =>
    exact current.recorded owning found unended written
  | stamped _ _ _ fewer =>
    exact ⟨current.opened,fun waiting => current.present (fewer waiting),
      fun waiting => current.absent (fewer waiting),current.single⟩

end

/-! ### What a stamp is taken from -/

theorem Evident.mono {intent : Intent} {seq : Nat} (evident : Evident state intent seq)
    (listings : ∀ listing ∈ state.listings, listing ∈ next.listings)
    (taken : ∀ later number, Taken state.delivery.outbox later number →
      Taken next.delivery.outbox later number) : Evident next intent seq := by
  rcases evident with ⟨revoke,shown⟩ | ⟨conferring,listing,listed,after,held⟩
  · refine .inl ⟨revoke,fun role mem => ?_⟩
    rcases shown role mem with ⟨listing,listed,after,absent⟩ | ⟨later,number,named,rest⟩
    · exact .inl ⟨listing,listings listing listed,after,absent⟩
    · exact .inr ⟨later,number,taken later number named,rest⟩
  · exact .inr ⟨conferring,listing,listings listing listed,after,held⟩

theorem named_of_settledLater (current : Current state)
    (mem : row ∈ state.delivery.outbox.rows) (delivered : Delivered row)
    (revoke : row.opType = .revoke) (later : settledLater state.delivery.outbox row = true) :
    ∀ role ∈ row.roleKeys, NamedLater state.delivery.outbox row.toIntent row.intentSeq role := by
  obtain ⟨add,present,fits⟩ := any_eq_true.mp later
  simp only [Bool.and_eq_true,decide_eq_true_eq] at fits
  obtain ⟨⟨⟨⟨⟨⟨user,project⟩,target⟩,applied⟩,conferring⟩,shared⟩,newer⟩ := fits
  obtain ⟨common,added,taken⟩ := any_eq_true.mp shared
  intro role named
  have same : role = common :=
    current.single row.toIntent row.intentSeq ⟨row,mem,delivered,rfl,rfl⟩ revoke role named
      common (of_decide_eq_true taken)
  rw [same]
  exact ⟨add.toIntent,add.intentSeq,⟨add,present,⟨applied,target⟩,rfl,rfl⟩,conferring,user,
    project,added,newer⟩

theorem evident_of_index (current : Current state)
    (mem : row ∈ state.delivery.outbox.rows) (delivered : Delivered row)
    (waiting : state.sweeps ≠ [])
    (stands : substantiates state.observe.index state.delivery.outbox row = true) :
    Evident state row.toIntent row.intentSeq := by
  have taken : Taken state.delivery.outbox row.toIntent row.intentSeq :=
    ⟨row,mem,delivered,rfl,rfl⟩
  unfold substantiates at stands
  simp only [Bool.or_eq_true,Bool.and_eq_true,decide_eq_true_eq,Bool.not_eq_true'] at stands
  rcases stands with (⟨conferring,held⟩ | ⟨revoke,lacking⟩) | ⟨revoke,later⟩
  · obtain ⟨grant,indexed,fits⟩ := any_eq_true.mp held
    rw [Bool.and_eq_true,decide_eq_true_eq,all_eq_true] at fits
    obtain ⟨listing,listed,seen,caught⟩ := current.present waiting grant indexed
    refine .inr ⟨conferring,listing,listed,?_,fun role named => ?_⟩
    · exact caught row.toIntent row.intentSeq taken fits.1.1.symm
    · exact ⟨grant,seen,fits.1,of_decide_eq_true (fits.2 role named)⟩
  · refine .inl ⟨revoke,fun role named => ?_⟩
    obtain ⟨listing,listed,shown,caught⟩ :=
      current.absent waiting row.toIntent role fun grant indexed concerns holds => by
        have none_ := any_eq_false.mp lacking grant indexed
        rw [Bool.and_eq_true,decide_eq_true_eq] at none_
        exact none_ ⟨concerns,any_eq_true.mpr ⟨role,holds,decide_eq_true named⟩⟩
    exact .inl ⟨listing,listed,caught row.toIntent row.intentSeq taken rfl,shown⟩
  · exact .inl ⟨revoke,fun role named =>
      .inr (named_of_settledLater current mem delivered revoke later role named)⟩

theorem evident_of_look (logged : Logged state) {listing : Listing}
    (mem : row ∈ state.delivery.outbox.rows) (delivered : Delivered row)
    (asked : state.readBack number = some row.intentSeq) (listed : listing ∈ state.listings)
    (numbered : listing.number = number)
    (observed : observedAfterWrite row listing.seen listing.complete = true) :
    Evident state row.toIntent row.intentSeq := by
  obtain ⟨intent,taken,⟨_,found,theirs⟩,begun⟩ := logged.asked number row.intentSeq asked
  obtain ⟨⟨_,there,scope⟩,after,own⟩ := logged.listed listing listed
  rw [numbered,found] at there
  cases there
  have same : intent = row.toIntent := taken.same ⟨row,mem,delivered,rfl,rfl⟩
  have regards : listing.scope = .user row.userId := by rw [← scope,theirs,same]
  have later : row.intentSeq ∈ listing.after := by
    rw [after,numbered]
    exact begun
  have held : (∀ role ∈ row.roleKeys, role ∈ (listing.seen.filter fun grant =>
      grant.projectId = row.projectId).flatMap ObservedGrant.roleKeys) →
      listing.ShowsHeld row.toIntent := by
    intro live role named
    obtain ⟨grant,chosen,holds⟩ := mem_flatMap.mp (live role named)
    obtain ⟨seen,project⟩ := mem_filter.mp chosen
    have person := own grant seen
    rw [regards] at person
    exact ⟨grant,seen,⟨person.symm,of_decide_eq_true project⟩,holds⟩
  unfold observedAfterWrite at observed
  cases op : row.opType with
  | add | replace =>
    simp only [op,all_eq_true,decide_eq_true_eq] at observed
    exact .inr ⟨by simp [confers,op],listing,listed,later,held observed⟩
  | revoke =>
    simp only [op,Bool.and_eq_true,all_eq_true,decide_eq_true_eq] at observed
    refine .inl ⟨op,fun role named => .inl ⟨listing,listed,later,?_⟩⟩
    refine ⟨by rw [regards]; rfl,.inl observed.1,fun grant seen concerns holds => ?_⟩
    refine observed.2 role named (mem_flatMap.mpr ⟨grant,mem_filter.mpr ⟨?_,?_⟩,holds⟩)
    · exact mem_seen_of_picture seen
    · exact decide_eq_true concerns.2
  | apply =>
    simp only [op] at observed
    cases observed

def Grounded (state : ConfirmState) : Prop :=
  ∀ seq ∈ state.confirmed, ∃ intent, Taken state.delivery.outbox intent seq ∧
    Evident state intent seq

theorem Grounded.mono (grounded : Grounded state) (confirmed : next.confirmed = state.confirmed)
    (listings : ∀ listing ∈ state.listings, listing ∈ next.listings)
    (taken : ∀ later number, Taken state.delivery.outbox later number →
      Taken next.delivery.outbox later number) : Grounded next := by
  intro seq mem
  rw [confirmed] at mem
  obtain ⟨intent,known,evident⟩ := grounded seq mem
  exact ⟨intent,taken intent seq known,evident.mono listings taken⟩

theorem Grounded.effect (grounded : Grounded state) (logged : Logged state)
    (current : Current state) (effect : ConfirmEffect owner state move next) :
    Grounded next := by
  cases effect with
  | delivered _ _ moved =>
    exact grounded.mono rfl (fun _ listed => listed) fun _ _ => taken_kept moved
  | rearranged | started | read | dropped =>
    exact grounded.mono rfl (fun _ listed => listed) fun _ _ taken => taken
  | recorded =>
    exact grounded.mono rfl (fun _ => mem_append_left _)
      fun _ _ taken => taken
  | stamped _ _ _ _ grounds =>
    intro seq mem
    rcases grounds seq mem with old | ⟨row,present,delivered,rfl,by_⟩
    · exact grounded seq old
    refine ⟨row.toIntent,⟨row,present,delivered,rfl,rfl⟩,?_⟩
    rcases by_ with ⟨waiting,stands⟩ | ⟨_,_,asked,listed,numbered,observed⟩
    · exact (evident_of_index current present delivered waiting stands :)
    · exact (evident_of_look logged present delivered asked listed numbered observed :)

end Kept

/-! ### Runs -/

structure ConfirmState.Initial (owner : String → String × String) (state : ConfirmState) :
    Prop where
  owned : ∀ grant ∈ state.observe.zitadel.grants, owner grant.id = (grant.userId, grant.projectId)
  rows : state.delivery.outbox.rows = []
  index : state.observe.index = []
  passes : ∀ number, state.observe.passes number = none
  readBack : ∀ number, state.readBack number = none
  confirmed : state.confirmed = []
  sweeps : state.sweeps = []
  listings : state.listings = []

structure Sound (owner : String → String × String) (state : ConfirmState) : Prop where
  owning : Owning owner state
  logged : Logged state
  current : Current state
  grounded : Grounded state

variable {state : ConfirmState} {move : ConfirmMove}

theorem ConfirmState.Initial.sound (initial : state.Initial owner) : Sound owner state:= by
  have untaken : ∀ {intent : Intent} {seq : Nat}, ¬Taken state.delivery.outbox intent seq := by
    rintro intent seq ⟨row,mem,-⟩
    rw [initial.rows] at mem
    cases mem
  have unopened : ∀ {number : Nat} {pass : Pass}, state.observe.passes number ≠ some pass := by
    intro number pass there
    rw [initial.passes number] at there
    cases there
  refine ⟨⟨initial.owned,?_,?_⟩,⟨?_,?_⟩,⟨?_,?_,?_,?_⟩,?_⟩
  · exact fun number pass there => absurd there unopened
  · rw [initial.index]
    intro _ mem
    cases mem
  · intro number seq asked
    rw [initial.readBack number] at asked
    cases asked
  · rw [initial.listings]
    intro _ mem
    cases mem
  · exact fun number pass there => absurd there unopened
  · exact absurd initial.sweeps
  · exact absurd initial.sweeps
  · exact fun intent seq taken => absurd taken untaken
  intro _ mem
  rw [initial.confirmed] at mem
  cases mem

theorem Sound.step {next : ConfirmState}
    (sound : Sound owner state) (unobserved : Unobserved state move)
    (stepped : confirmStep owner state move = some next) : Sound owner next := by
  have effect := confirmStep_effect stepped
  exact
    { owning := sound.owning.effect effect
      logged := sound.logged.effect effect
      current := sound.current.effect sound.owning unobserved effect
      grounded := sound.grounded.effect sound.logged sound.current effect }

theorem Grounded.substantiated (grounded : Grounded state) : Substantiated state := by
  intro row mem stamped
  obtain ⟨_,taken,evident⟩ := grounded row.intentSeq stamped
  obtain ⟨_,present,delivered,rfl,sameSeq⟩ := taken
  rw [state.delivery.outbox.eq_of_seq_eq present mem sameSeq] at delivered evident
  exact ⟨delivered,evident⟩

/-- In every run in which rows are marked applied between listings, and revokes name one
role, each stamp rests on a read made after the write. -/
theorem confirmations_substantiated (owner : String → String × String)
    (start final : ConfirmState) (moves : List ConfirmMove) (initial : start.Initial owner)
    (between : Throughout (confirmStep owner) Unobserved start moves)
    (reached : run (confirmStep owner) start moves = some final) : Substantiated final := by
  have sound : Sound owner final :=
    run_invariant (Sound owner) Sound.step initial.sound between reached
  exact sound.grounded.substantiated

theorem unobserved_of_other (other : ∀ id, move ≠ .deliver (.settle id .applied)) :
    Unobserved state move :=
  fun row _ settles => absurd settles (other row.id)

theorem unobserved_of_idle (sweeps : state.sweeps = [])
    (passes : ∀ number, state.observe.passes number = none)
    (single : ∀ row ∈ state.delivery.outbox.rows, row.opType = .revoke →
      ∀ role ∈ row.roleKeys, ∀ other ∈ row.roleKeys, role = other) : Unobserved state move := by
  refine fun row mem _ _ _ => ⟨sweeps,fun number pass found => ?_,single row mem⟩
  rw [passes number] at found
  cases found

/-! ### Reads of before the write -/

namespace Beforehand

def keys : String → String × String := fun _ => ("ada", "lab")

def holds (roleKeys : List String) : Directory :=
  { grants := [⟨"g1","ada","lab",roleKeys⟩]
    idsDistinct := nodup_singleton _
    named := by
      intro grant member
      rw [mem_singleton.mp member]
      simp }

def quiet (roleKeys : List String) : ConfirmState :=
  { delivery :=
      { outbox := Outbox.empty
        zitadel := fun _ => false
        setting := { activeTargets := [zitadelTarget], roleWaits := [], now := 0 } }
    observe :=
      { zitadel := holds roleKeys
        index := []
        passes := fun _ => none
        observations := [] }
    confirmed := []
    began := fun _ => []
    readBack := fun _ => none
    sweeps := []
    listings := [] }

theorem quiet_initial (roleKeys : List String) : (quiet roleKeys).Initial keys :=
  { owned := by
      intro _ mem
      rw [mem_singleton.mp mem]
      rfl
    rows := rfl
    index := rfl
    passes := fun _ => rfl
    readBack := fun _ => rfl
    confirmed := rfl
    sweeps := rfl
    listings := rfl }

def asks (opType : OpType) (roleKeys : List String) : ConfirmMove :=
  .deliver (.write none true
    { userId := "ada"
      projectId := "lab"
      roleKeys := roleKeys
      expiresAt := none
      source := some .direct
      sourceRef := ""
      opType := opType
      noPropagation := false
      endRule := .kept
      waitReason := none })

def sends (id : Nat) : List ConfirmMove :=
  [.deliver (.sendById id),.deliver (.settle id .applied)]

def afterwards : List ConfirmMove :=
  asks .add ["member"] :: sends 1 ++
    [.start 0 .org,.readPage 0 none,.record 0 false,.confirm 0 false]

def rested : ConfirmState := (run (confirmStep keys) (quiet ["member"]) afterwards).getD (quiet [])

theorem confirmations_substantiated_afterwards : rested.confirmed = [1] ∧ Substantiated rested := by
  refine ⟨by decide +kernel,?_⟩
  refine confirmations_substantiated keys (quiet ["member"]) rested afterwards
    (quiet_initial ["member"]) ?_ rfl
  refine ⟨unobserved_of_other nofun,?_⟩
  refine ⟨unobserved_of_other nofun,?_⟩
  refine ⟨unobserved_of_idle rfl (fun _ => rfl) (by decide +kernel),?_⟩
  refine ⟨unobserved_of_other nofun,?_⟩
  refine ⟨unobserved_of_other nofun,?_⟩
  refine ⟨unobserved_of_other nofun,?_⟩
  exact ⟨unobserved_of_other nofun,trivial⟩

def listedFirst : List ConfirmMove :=
  [.start 0 .org,.readPage 0 none,asks .add ["member"]] ++ sends 1 ++
    [.record 0 false,.confirm 0 false]

def early : ConfirmState :=
  (run (confirmStep keys) (quiet ["member"]) listedFirst).getD (quiet [])

def oneNamed : List ConfirmMove :=
  asks .revoke ["member","editor"] :: sends 1 ++ asks .add ["member"] :: sends 2 ++
    [.start 0 .org,.readPage 0 none,.record 0 false,.confirm 0 false]

def returned : ConfirmState :=
  (run (confirmStep keys) (quiet ["member","editor"]) oneNamed).getD (quiet [])

theorem early_unread : ¬Substantiated early := by
  intro substantiated
  have stamped : ∃ row ∈ early.delivery.outbox.rows, row.intentSeq ∈ early.confirmed ∧
      row.opType = .add ∧ ∀ listing ∈ early.listings, row.intentSeq ∉ listing.after := by
    decide +kernel
  obtain ⟨row,mem,confirmed,add,unread⟩ := stamped
  rcases (substantiated row mem confirmed).2 with ⟨revoke,-⟩ | ⟨-,listing,listed,after,-⟩
  · rw [add] at revoke
    cases revoke
  · exact unread listing listed after

theorem returned_held : ¬Substantiated returned := by
  intro substantiated
  have stamped : ∃ row ∈ returned.delivery.outbox.rows, row.intentSeq ∈ returned.confirmed ∧
      row.opType = .revoke ∧ "editor" ∈ row.roleKeys ∧
      (∀ listing ∈ returned.listings, ∃ grant ∈ picture listing.seen,
        Concerns row.toIntent grant ∧ "editor" ∈ grant.roleKeys) ∧
      ∀ later ∈ returned.delivery.outbox.rows, confers later.toIntent = true →
        "editor" ∉ later.roleKeys := by
    decide +kernel
  obtain ⟨row,mem,confirmed,revoke,named,shown,unnamed⟩ := stamped
  rcases (substantiated row mem confirmed).2 with ⟨-,evident⟩ | ⟨conferring,-⟩
  · rcases evident "editor" named with ⟨listing,listed,-,absent⟩ | later
    · obtain ⟨grant,seen,concerns,holds⟩ := shown listing listed
      exact absent.absent grant seen concerns holds
    · obtain ⟨_,_,⟨add,present,-,rfl,-⟩,conferring,-,-,again,-⟩ := later
      exact unnamed add present conferring again
  · simp only [confers,revoke] at conferring
    cases conferring

/-- One stamp rests on a read of before the write; the other is on a revoke one of whose
roles is held and was named by no later row. -/
theorem stamps_unsubstantiated : ((quiet ["member"]).Initial keys ∧
      run (confirmStep keys) (quiet ["member"]) listedFirst = some early ∧ ¬Substantiated early) ∧
    (quiet ["member","editor"]).Initial keys ∧
      run (confirmStep keys) (quiet ["member","editor"]) oneNamed = some returned ∧
        ¬Substantiated returned :=
  ⟨⟨quiet_initial _,rfl,early_unread⟩,quiet_initial _,rfl,returned_held⟩

end Beforehand

end Syndra.Observe
