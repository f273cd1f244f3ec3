/-
Plans move in one direction.

An assignment's base only grows and a removal's only shrinks, so one writes adds and the
other revokes. Both bases are without what a queued revocation takes away.
-/

import Syndra.Foundation.Runs
import Syndra.Planner.Written
import Syndra.Rules.Following

namespace Syndra.Planner

open Access Foundation Propagation Ledger Rules List Records Effect

/-! ### The bases of a plan -/

def baseBefore (s : PlanSnapshot) (userId : String) : List Role :=
  baseFrom (s.access.people userId).toPersonAccess (some "")

def baseOtherwise (s : PlanSnapshot) (a : Action) : List Role :=
  baseFrom (s.access.people a.userId).toPersonAccess (some a.bundleId)

def baseAfter (s : PlanSnapshot) (a : Action) : List Role :=
  match a.op with
  | .assignBundle => baseBefore s a.userId ++ s.versionRoles
  | _ => baseOtherwise s a

def PlanSnapshot.closure (s : PlanSnapshot) (base : List Role) : List Role :=
  effectiveClosure base s.access.rules

/-- Bundles go by UUIDs, so no id is the empty one that stands for no bundle. -/
def PlanSnapshot.Identified (s : PlanSnapshot) (userId : String) : Prop :=
  ∀ held ∈ (s.access.people userId).byBundle, held.1 ≠ ""

def Change.Moves (ch : Change) (opType : OpType) (role : Role) : Prop :=
  ∃ w ∈ ch.writes, w.opType = opType ∧ roleRef w.toEnqueueParams = role
deriving Decidable

structure Directed (wording : Wording) (a : Action) (s : PlanSnapshot) : Prop where
  assigns : a.op = .assignBundle → ∀ w ∈ (plan wording a s).writes, w.opType = .add
  removes : a.op = .removeBundle → ∀ w ∈ (plan wording a s).writes, w.opType = .revoke
  once : ((plan wording a s).writes.map fun w => roleRef w.toEnqueueParams).Nodup
  kept : ∀ start ∈ baseOtherwise s a, ∀ role, Reaches Role.mk s.access.rules start role →
    ¬ (plan wording a s).Moves .revoke role
  lost : (plan wording a s).row.effect = .apply → ∀ role,
    role ∈ s.closure (baseBefore s a.userId) → role ∉ s.closure (baseAfter s a) →
      (plan wording a s).Moves .revoke role
  gained : (plan wording a s).row.effect = .apply → ∀ role,
    role ∈ s.closure (baseAfter s a) → role ∉ s.closure (baseBefore s a.userId) →
      (plan wording a s).Moves .add role

section Proofs

variable {wording : Wording} {a : Action} {s : PlanSnapshot}

private theorem planDelta_cases {draft : Draft} (none : draft.writes = [])
    {before after : List Role} :
    ((planDelta wording a s draft before after).writes = [] ∧
        (planDelta wording a s draft before after).row.effect ≠ .apply) ∨
      Applies s a (deltaParams a s.access.rules before after)
        (planDelta wording a s draft before after) := by
  by_cases applies : (planDelta wording a s draft before after).row.effect = .apply
  · exact .inr (planDelta_applies applies)
  refine .inl ⟨?_,applies⟩
  unfold planDelta at applies ⊢
  simp only at applies ⊢
  split
  · exact none
  rename_i read
  split
  · exact none
  rename_i offered
  rw [if_neg read,if_neg offered] at applies
  exact absurd rfl applies

private theorem plan_cases (wording : Wording) (a : Action) (s : PlanSnapshot) :
    ((plan wording a s).writes = [] ∧ (plan wording a s).row.effect ≠ .apply) ∨
      (a.op = .assignBundle ∨ a.op = .removeBundle) ∧
        Applies s a (deltaParams a s.access.rules (baseBefore s a.userId) (baseAfter s a))
          (plan wording a s) := by
  unfold plan baseAfter
  cases s.profiles a.userId with
  | none => exact .inl ⟨rfl,noConfusion⟩
  | some =>
    simp only
    cases op : a.op with
    | assignBundle =>
      simp only
      split
      · exact .inl ⟨rfl,noConfusion⟩
      cases s.bundleRetiredAt with
      | some => exact .inl ⟨rfl,noConfusion⟩
      | none =>
        simp only
        split
        · exact .inl ⟨rfl,noConfusion⟩
        · exact (planDelta_cases rfl).imp id fun applies =>
            ⟨.inl trivial,applies⟩
    | removeBundle =>
      simp only
      split
      · exact .inl ⟨rfl,noConfusion⟩
      cases s.bundleRetiredAt with
      | some => exact .inl ⟨rfl,noConfusion⟩
      | none =>
        exact (planDelta_cases rfl).imp id fun applies =>
          ⟨.inr trivial,applies⟩
    | assignRole | removeRole | extend => exact .inl ⟨rfl,noConfusion⟩

private theorem planWrite_keeps (s : PlanSnapshot) (person : PersonSnapshot) (p : EnqueueParams) :
    (planWrite s person p).opType = p.opType ∧
      roleRef (planWrite s person p).toEnqueueParams = roleRef p := by
  unfold planWrite
  split
  · exact ⟨rfl,rfl⟩
  split <;> exact ⟨rfl,rfl⟩

namespace Applies

variable {before after : List Role} {ch : Change}

section

variable (applies : Applies s a (deltaParams a s.access.rules before after) ch)
include applies

private theorem moves_iff
    (role : Role) :
    (ch.Moves .add role ↔ role ∈ s.closure after ∧ role ∉ s.closure before) ∧
      (ch.Moves .revoke role ↔ role ∈ s.closure before ∧ role ∉ s.closure after) := by
  have byParams (opType : OpType) : ch.Moves opType role ↔
      ∃ p ∈ deltaParams a s.access.rules before after, p.opType = opType ∧ roleRef p = role := by
    unfold Change.Moves
    rw [applies.writes]
    simp only [mem_map]
    constructor
    · rintro ⟨_,⟨p,listed,rfl⟩,op,isRole⟩
      obtain ⟨sameOp,sameRole⟩ := planWrite_keeps s (s.access.people a.userId) p
      exact ⟨p,listed,sameOp.symm.trans op,sameRole.symm.trans isRole⟩
    · rintro ⟨p,listed,op,isRole⟩
      obtain ⟨sameOp,sameRole⟩ := planWrite_keeps s (s.access.people a.userId) p
      exact ⟨_,⟨p,listed,rfl⟩,sameOp.trans op,sameRole.trans isRole⟩
  rw [byParams,byParams,← mem_adds,← mem_revokes]
  simp only [deltaParams,mem_deltaWrites]
  constructor
  · constructor
    · rintro ⟨p,⟨moved,gained,rfl⟩ | ⟨moved,lost,rfl⟩,op,rfl⟩
      · exact gained
      · cases op
    · intro gained
      exact ⟨_,.inl ⟨role,gained,rfl⟩,rfl,rfl⟩
  · constructor
    · rintro ⟨_,⟨_,_,rfl⟩ | ⟨_,lost,rfl⟩,op,rfl⟩
      · cases op
      · exact lost
    · intro lost
      exact ⟨_,.inr ⟨role,lost,rfl⟩,rfl,rfl⟩

private theorem op_cases
    {w : Write} (listed : w ∈ ch.writes) : w.opType = .add ∨ w.opType = .revoke := by
  rw [applies.writes] at listed
  obtain ⟨p,among,rfl⟩ := mem_map.mp listed
  rw [(planWrite_keeps s _ p).1]
  exact (single_of_mem_deltaWrites among).op

theorem mine
    {w : Write} (listed : w ∈ ch.writes) : w.userId = a.userId := by
  rw [applies.writes] at listed
  obtain ⟨p,among,rfl⟩ := mem_map.mp listed
  have samePerson := congrArg HeldRole.userId
    (cancelled_planWrite s (s.access.people a.userId) Outbox.empty p).2.1
  refine samePerson.trans ?_
  rcases mem_deltaWrites.mp among with ⟨_,-,rfl⟩ | ⟨_,-,rfl⟩ <;> rfl

private theorem roles_nodup :
    (ch.writes.map fun w => roleRef w.toEnqueueParams).Nodup := by
  have roles : (ch.writes.map fun w => roleRef w.toEnqueueParams) =
      (closureDelta (s.closure before) (s.closure after)).1 ++
        (closureDelta (s.closure before) (s.closure after)).2 := by
    rw [applies.writes,map_map]
    have each : (fun w : Write => roleRef w.toEnqueueParams) ∘
        planWrite s (s.access.people a.userId) = roleRef :=
      funext fun p => (planWrite_keeps s _ p).2
    rw [each]
    unfold deltaParams deltaWrites
    rw [map_append,map_map,map_map]
    have own (opType : OpType) : roleRef ∘ roleWrite opType a.userId .bundle a.bundleId = id := rfl
    rw [own,own,map_id,map_id]
    rfl
  rw [roles]
  exact closureDelta_nodup (effectiveClosure_nodup _ _) (effectiveClosure_nodup _ _)

end

end Applies

private theorem baseOtherwise_subset (identified : s.Identified a.userId) :
    baseOtherwise s a ⊆ baseBefore s a.userId := by
  intro _ held
  unfold baseOtherwise at held
  unfold baseBefore
  rw [mem_baseFrom] at held ⊢
  refine ⟨held.1.imp id fun bundled => ?_,held.2⟩
  obtain ⟨pair,listed,-,inside⟩ := bundled
  refine ⟨pair,listed,fun empty => ?_,inside⟩
  exact identified pair listed (Option.some.inj empty)

private theorem directed (identified : s.Identified a.userId) : Directed wording a s := by
  rcases plan_cases wording a s with ⟨none,refused⟩ | ⟨op,applies⟩
  · have nothing (w : Write) (impossible : w ∈ (plan wording a s).writes) : False := by
      rw [none] at impossible
      exact not_mem_nil impossible
    refine ⟨fun _ w listed => (nothing w listed).elim,fun _ w listed => (nothing w listed).elim,?_,
      fun _ _ _ _ moves => ?_,fun applied => absurd applied refused,
      fun applied => absurd applied refused⟩
    · rw [none]
      exact nodup_nil
    · obtain ⟨w,listed,-⟩ := moves
      exact nothing w listed
  · have moves := applies.moves_iff
    have grows (isAssign : a.op = .assignBundle) : baseBefore s a.userId ⊆ baseAfter s a := by
      unfold baseAfter
      rw [isAssign]
      exact subset_append_left _ _
    have shrinks (isRemove : a.op = .removeBundle) : baseAfter s a = baseOtherwise s a := by
      unfold baseAfter
      rw [isRemove]
    refine ⟨fun isAssign w listed => ?_,fun isRemove w listed => ?_,applies.roles_nodup,
      fun start other role reached moved => ?_,fun _ role had gone => (moves role).2.mpr ⟨had,gone⟩,
      fun _ role has new => (moves role).1.mpr ⟨has,new⟩⟩
    · rcases applies.op_cases listed with isAdd | isRevoke
      · exact isAdd
      · obtain ⟨had,gone⟩ := (moves _).2.mp ⟨w,listed,isRevoke,rfl⟩
        exact absurd (effectiveClosure_mono _ (grows isAssign) had) gone
    · rcases applies.op_cases listed with isAdd | isRevoke
      · obtain ⟨has,new⟩ := (moves _).1.mp ⟨w,listed,isAdd,rfl⟩
        rw [shrinks isRemove] at has
        exact absurd (effectiveClosure_mono _ (baseOtherwise_subset identified) has) new
      · exact isRevoke
    · obtain ⟨had,gone⟩ := (moves role).2.mp moved
      rcases op with isAssign | isRemove
      · exact gone (effectiveClosure_mono _ (grows isAssign) had)
      · rw [shrinks isRemove] at gone
        exact gone (mem_effectiveClosure.mpr ⟨start,other,reached⟩)

end Proofs

/-! ### A snapshot of the ledger, and a change written to it -/

/-- What the plan takes from Zitadel, and the names and settings it takes from tables no
change to access writes. -/
structure PlanReads where
  profiles : String → Option UserProfile
  catalogue : Role → Option RoleWords
  catalogueUnread : Bool
  roleWaits : Role → Bool
  bundleName : String → String
  retiredOn : String → Time

def readAccessSnapshot (reads : PlanReads) (state : AccessState) : AccessSnapshot :=
  { people := fun userId =>
      { state.personAccess userId with
        bundles := fun bundleId =>
          state.records.assignments.any fun held =>
            held.userId = userId && held.bundleId = bundleId
        queued := (queuedRows state.outbox userId).map OutboxRow.queuedChange
        standing := fun role => standingFor zitadelTarget state.outbox (heldBy userId role) }
    rules := state.records.rules
    roleWaits := reads.roleWaits }

/-- The version an assignment would pin and what it gives. Only an assignment of a bundle in
force reads it. -/
def planVersion (state : AccessState) (a : Action) (bundle : Bundle) :
    Option (String × List Role) :=
  if a.op = .assignBundle && !bundle.retired then
    (state.records.latestVersion a.bundleId).map fun version =>
      (version.id, state.records.effectiveRoles version.id)
  else some ("", [])

def planSnapshot (reads : PlanReads) (state : AccessState) (a : Action) : Option PlanSnapshot :=
  match state.records.bundles.find? fun bundle => bundle.id = a.bundleId with
  | none => none
  | some bundle =>
    (planVersion state a bundle).map fun version =>
      { bundleName := reads.bundleName a.bundleId
        bundleRetiredAt := if bundle.retired then some (reads.retiredOn a.bundleId) else none
        versionId := version.1
        versionRoles := version.2
        catalogue := reads.catalogue
        catalogueUnread := reads.catalogueUnread
        profiles := reads.profiles
        access := readAccessSnapshot reads state }

inductive ApplyError where
  | notAssigned
  | unsupported
  | refused (refusal : EnqueueError)
  | written (mismatch : WriteError)
deriving DecidableEq

def changedRecords (records : Records) (a : Action) (ch : Change) : Except ApplyError Records :=
  match a.op with
  | .assignBundle =>
    if records.assignments.any fun held =>
        held.userId = ch.userId && held.bundleId = a.bundleId then .error .notAssigned
    else .ok (records.assign ch.userId a.bundleId ch.versionId)
  | .removeBundle =>
    .ok (records.keepAssignments fun held =>
      !(held.userId = ch.userId && held.bundleId = a.bundleId))
  | _ => .error .unsupported

def writeChange (gate : Option CancelGate) (state : AccessState) (a : Action) (ch : Change) :
    Except ApplyError (AccessState × Change) :=
  match changedRecords state.records a ch with
  | .error refusal => .error refusal
  | .ok records =>
    match enqueueRows gate state.outbox ch.params with
    | .error refusal => .error (.refused refusal)
    | .ok (outbox, ids) =>
      match ch.written ids with
      | .error mismatch => .error (.written mismatch)
      | .ok written => .ok ({ state with records := records, outbox := outbox }, written)

/-- Some queued revocation takes the role away and does not wait for it alone, so an add of
the role leaves it queued. -/
def StillRevoked (state : AccessState) (userId : String) (role : Role) : Prop :=
  ∃ row ∈ state.outbox.rows, row.waitsFor (heldBy userId role) = false ∧ Takes userId role row ∧
      (row.opType = .replace → ∃ grant ∈ state.records.grants,
        grant.userId = userId ∧ grant.role = role ∧ grant.source = .direct)
deriving Decidable

/-- What is queued does not come between the adds of a change and taking them back: no
revocation outlasts the add of a role the bundle gives, and one outlasts the add of a role
the person's records give already. -/
structure Undisturbed (state : AccessState) (userId : String) (given : List Role) (ch : Change) :
    Prop where
  bundled : ∀ role ∈ given, ch.Moves .add role → ¬ StillRevoked state userId role
  recorded : ∀ role ∈ state.records.holdings state.now userId, ch.Moves .add role →
    StillRevoked state userId role

def BundlesIdentified (state : AccessState) : Prop :=
  (∀ bundle ∈ state.records.bundles, bundle.id ≠ "") ∧
    ∀ held ∈ state.records.assignments, held.bundleId ≠ ""

/-! ### What the two plans decide -/

section Decide

variable {wording : Wording} {a : Action} {s : PlanSnapshot}

structure Joins (wording : Wording) (a : Action) (s : PlanSnapshot) : Prop where
  known : (s.profiles a.userId).isSome
  inForce : s.bundleRetiredAt = none
  absent : (s.access.people a.userId).bundles a.bundleId = false
  person : (plan wording a s).userId = a.userId
  version : (plan wording a s).versionId = s.versionId

private theorem planDelta_carries (wording : Wording) (a : Action) (s : PlanSnapshot)
    (draft : Draft)
    (before after : List Role) :
    (planDelta wording a s draft before after).userId = a.userId ∧
      (planDelta wording a s draft before after).versionId = draft.versionId := by
  unfold planDelta
  simp only
  split
  · exact ⟨rfl,rfl⟩
  split <;> exact ⟨rfl,rfl⟩

private theorem joins_of_applies (op : a.op = .assignBundle)
    (applies : (plan wording a s).row.effect = .apply) : Joins wording a s := by
  cases known : s.profiles a.userId with
  | none =>
    unfold plan at applies
    rw [known] at applies
    cases applies
  | some profile =>
    unfold plan at applies
    simp only [known,op] at applies
    by_cases gone : left profile.status = true
    · rw [if_pos gone] at applies
      cases applies
    rw [if_neg gone] at applies
    cases retired : s.bundleRetiredAt with
    | some =>
      rw [retired] at applies
      cases applies
    | none =>
      simp only [retired] at applies
      cases held : (s.access.people a.userId).bundles a.bundleId with
      | true =>
        rw [held] at applies
        cases applies
      | false =>
        have decided : plan wording a s = planDelta wording a s
            { name := profile.name, email := profile.email, versionId := s.versionId }
            (baseFrom (s.access.people a.userId).toPersonAccess (some ""))
            (baseFrom (s.access.people a.userId).toPersonAccess (some "") ++ s.versionRoles) := by
          unfold plan
          simp only [known,op,gone,retired,held,Bool.false_eq_true,if_false]
        have carried := planDelta_carries wording a s
          { name := profile.name, email := profile.email, versionId := s.versionId }
          (baseFrom (s.access.people a.userId).toPersonAccess (some ""))
          (baseFrom (s.access.people a.userId).toPersonAccess (some "") ++ s.versionRoles)
        rw [← decided] at carried
        exact ⟨known ▸ rfl,retired,held,carried.1,carried.2⟩

private theorem removal_applies (op : a.op = .removeBundle) (known : (s.profiles a.userId).isSome)
    (inForce : s.bundleRetiredAt = none)
    (held : (s.access.people a.userId).bundles a.bundleId = true)
    (identified : s.Identified a.userId) : (plan wording a s).row.effect = .apply := by
  obtain ⟨_,found⟩ := Option.isSome_iff_exists.mp known
  have nothing : (closureDelta (s.closure (baseBefore s a.userId))
      (s.closure (baseOtherwise s a))).1 = [] := by
    apply eq_nil_iff_forall_not_mem.mpr
    intro _ gained
    obtain ⟨has,new⟩ := (mem_adds _ _ _).mp gained
    exact new (effectiveClosure_mono _ (baseOtherwise_subset identified) has)
  unfold PlanSnapshot.closure baseBefore baseOtherwise at nothing
  unfold plan
  simp only [found,op,held,inForce]
  unfold planDelta
  simp only [nothing,ne_eq,not_true_eq_false,decide_false,Bool.false_and,Bool.false_eq_true,
    if_false,filter_nil]
  rfl

end Decide

/-! ### The ledger around an assignment -/

section Undo

variable {state : AccessState} {userId bundleId : String}

private theorem mem_baseFrom_all (identified : BundlesIdentified state) {role : Role} :
    role ∈ baseFrom (state.personAccess userId) (some "") ↔
      role ∈ state.records.holdings state.now userId ∧
        role ∉ queuedRevocationsFor state.outbox state.records.grants userId := by
  rw [← mem_userBaseHoldings]
  unfold AccessState.userBaseHoldings AccessState.userBaseHoldingsExcludingBundle
  rw [mem_baseFrom,mem_baseFrom]
  refine and_congr_left fun _ => or_congr_right (exists_congr fun pair => and_congr_right ?_)
  intro listed
  obtain ⟨held,mem,-,rfl⟩ := (mem_bundleRolesFor _ _ _).mp listed
  simp [identified.2 held mem]

structure Assigned (state : AccessState) (userId bundleId : String) (ch : Change)
    (next : AccessState) : Prop where
  absent : (state.records.assignments.any fun held =>
    held.userId = userId && held.bundleId = bundleId) = false
  records : next.records = state.records.assign userId bundleId ch.versionId
  now : next.now = state.now
  enqueued : Enqueued state.outbox (ch.params.map fun p => (false, p)) next.outbox
  adds : ∀ w ∈ ch.writes, w.opType = .add
  mine : ∀ w ∈ ch.writes, w.userId = userId

variable {a : Action}

private theorem writeChange_ok {gate : Option CancelGate} {ch written : Change} {next : AccessState}
    (op : a.op = .assignBundle) (done : writeChange gate state a ch = .ok (next, written)) :
    (state.records.assignments.any fun held =>
        held.userId = ch.userId && held.bundleId = a.bundleId) = false ∧
      ∃ outbox ids, enqueueRows gate state.outbox ch.params = .ok (outbox, ids) ∧
        next = { state with
          records := state.records.assign ch.userId a.bundleId ch.versionId
          outbox := outbox } := by
  unfold writeChange changedRecords at done
  simp only [op] at done
  cases held : state.records.assignments.any fun held =>
      held.userId = ch.userId && held.bundleId = a.bundleId with
  | true =>
    rw [held] at done
    cases done
  | false =>
    rw [held,if_neg Bool.false_ne_true] at done
    cases rows : enqueueRows gate state.outbox ch.params with
    | error =>
      rw [rows] at done
      cases done
    | ok result =>
      rw [rows] at done
      simp only at done
      cases paired : ch.written result.2 with
      | error =>
        rw [paired] at done
        cases done
      | ok =>
        rw [paired] at done
        cases done
        exact ⟨rfl,result.1,result.2,rfl,rfl⟩

namespace Assigned

variable {ch : Change} {next : AccessState}

section

variable (assigned : Assigned state userId bundleId ch next)
include assigned

theorem bundleRoles :
    next.records.bundleRolesFor userId = state.records.bundleRolesFor userId ++
        [(bundleId, state.records.effectiveRoles ch.versionId)] := by
  have notHeld : (userId, bundleId) ∉
      state.records.assignments.map fun held => (held.userId, held.bundleId) := by
    intro listed
    obtain ⟨held,mem,same⟩ := mem_map.mp listed
    obtain ⟨person,bundle⟩ := Prod.mk.inj same
    apply any_eq_false.mp assigned.absent held mem
    rw [decide_eq_true person,decide_eq_true bundle]
    rfl
  rw [assigned.records]
  unfold assign
  rw [dif_neg notHeld]
  unfold bundleRolesFor
  simp only [filter_append,map_append,filter_cons,decide_true,if_true, filter_nil,map_cons,map_nil]
  rfl

theorem held :
    (next.records.assignments.any fun held =>
      held.userId = userId && held.bundleId = bundleId) = true := by
  have listed : (bundleId, state.records.effectiveRoles ch.versionId) ∈
      next.records.bundleRolesFor userId := by
    rw [assigned.bundleRoles]
    exact mem_append_right _ (mem_singleton.mpr rfl)
  obtain ⟨held,mem,person,same⟩ := (mem_bundleRolesFor _ _ _).mp listed
  refine any_eq_true.mpr ⟨held,mem,?_⟩
  rw [decide_eq_true person,decide_eq_true (congrArg Prod.fst same)]
  rfl

private theorem moves_key {role : Role} :
    ch.Moves .add role ↔
      ∃ write ∈ ch.params.map fun p => (false, p), write.2.key = heldBy userId role := by
  unfold Change.params
  simp only [mem_map,exists_exists_and_eq_and]
  refine exists_congr fun w => and_congr_right fun listed => ?_
  have key : w.key = heldBy w.userId (roleRef w.toEnqueueParams) := rfl
  rw [key,assigned.mine w listed]
  constructor
  · rintro ⟨-,rfl⟩
    rfl
  · intro same
    exact ⟨assigned.adds w listed,(heldBy_injective same).2⟩

private theorem mem_revoking (role : Role) :
    role ∈ queuedRevocationsFor next.outbox next.records.grants userId ↔
      role ∈ queuedRevocationsFor state.outbox state.records.grants userId ∧
        (ch.Moves .add role → StillRevoked state userId role) := by
  have onlyAdds : ∀ write ∈ ch.params.map fun p => (false, p), write.2.opType = .add := by
    intro write mem
    obtain ⟨p,listed,rfl⟩ := mem_map.mp mem
    obtain ⟨w,isWrite,rfl⟩ := mem_map.mp listed
    exact assigned.adds w isWrite
  have takes (row : OutboxRow) := takes_after_adds assigned.enqueued onlyAdds userId role row
  rw [mem_queuedRevocationsFor,mem_queuedRevocationsFor,assigned.records,grants_assign,
    assigned.moves_key]
  constructor
  · rintro ⟨row,listed,taking,grants⟩
    obtain ⟨⟨old,-⟩,uncancelled⟩ := (takes row).mp ⟨listed,taking⟩
    refine ⟨⟨row,old,taking,grants⟩,?_⟩
    rintro ⟨write,mem,key⟩
    refine ⟨row,old,?_,taking,grants⟩
    cases waits : row.waitsFor (heldBy userId role) with
    | false => rfl
    | true =>
      have revokes := (taking.revokes_of_waits waits).mpr rfl
      exact absurd ⟨revokes,key ▸ waits⟩ (uncancelled write mem)
  · rintro ⟨⟨row,old,taking,grants⟩,lasting⟩
    by_cases moved : ∃ write ∈ ch.params.map fun p => (false, p), write.2.key = heldBy userId role
    · obtain ⟨other,listed,waits,taken,needed⟩ := lasting moved
      refine ⟨other,((takes other).mpr ⟨⟨listed,taken⟩,?_⟩).1,taken,needed⟩
      rintro write - ⟨revokes,waiting⟩
      rw [(taken.revokes_of_waits waiting).mp revokes,waits] at waiting
      cases waiting
    · refine ⟨row,((takes row).mpr ⟨⟨old,taking⟩,?_⟩).1,taking,grants⟩
      rintro write mem ⟨revokes,waiting⟩
      exact moved ⟨write,mem,(taking.revokes_of_waits waiting).mp revokes⟩

private theorem identified
    (identified : BundlesIdentified state) (named : bundleId ≠ "") : BundlesIdentified next := by
  unfold BundlesIdentified
  rw [assigned.records]
  unfold assign
  split
  · exact identified
  refine ⟨identified.1,fun held mem => ?_⟩
  rcases mem_append.mp mem with old | new
  · exact identified.2 held old
  · rw [mem_singleton.mp new]
    exact named

private theorem mem_before
    (identified : BundlesIdentified state) (named : bundleId ≠ "") (role : Role) :
    role ∈ baseFrom (next.personAccess userId) (some "") ↔
      (role ∈ state.records.holdings state.now userId ∨
          role ∈ state.records.effectiveRoles ch.versionId) ∧
        role ∉ queuedRevocationsFor next.outbox next.records.grants userId := by
  rw [mem_baseFrom_all (assigned.identified identified named),assigned.now]
  refine and_congr_left fun _ => ?_
  rw [assigned.records,mem_holdings_assign ch.versionId assigned.absent]
  simp

private theorem mem_otherwise (role : Role) :
    role ∈ baseFrom (next.personAccess userId) (some bundleId) ↔
      role ∈ state.records.holdings state.now userId ∧
        role ∉ queuedRevocationsFor next.outbox next.records.grants userId := by
  have grants : next.records.getDirectGrantsForUser next.now userId false =
      state.records.getDirectGrantsForUser state.now userId false := by
    rw [assigned.now,assigned.records]
    unfold getDirectGrantsForUser
    rw [grants_assign]
  have others (pair : String × List Role) (listed : pair ∈ state.records.bundleRolesFor userId) :
      pair.1 ≠ bundleId := by
    obtain ⟨held,mem,person,rfl⟩ := (mem_bundleRolesFor _ _ _).mp listed
    intro same
    apply any_eq_false.mp assigned.absent held mem
    rw [decide_eq_true person,decide_eq_true same]
    rfl
  rw [mem_baseFrom]
  refine and_congr_left fun _ => ?_
  unfold AccessState.personAccess holdings
  rw [grants,assigned.bundleRoles,mem_append,mem_map,mem_flatMap]
  refine or_congr_right ?_
  constructor
  · rintro ⟨pair,listed,other,inside⟩
    rcases mem_append.mp listed with old | new
    · exact ⟨pair,old,inside⟩
    · rw [mem_singleton.mp new] at other
      exact absurd rfl other
  · rintro ⟨pair,old,inside⟩
    refine ⟨pair,mem_append_left _ old,fun same => ?_,inside⟩
    exact others pair old (Option.some.inj same)

end

end Assigned

/-- A base that grew by some roles and shrank again: what the closure lost is what it had
gained, as long as the grown base kept the gains. -/
private theorem gained_iff_lost {rules : List MappingRule} {before given grown back : List Role}
    (same : ∀ role, role ∈ back ↔ role ∈ before) (inside : grown ⊆ before ++ given)
    (kept : before ⊆ grown)
    (gains : ∀ role ∈ given, role ∉ effectiveClosure before rules → role ∈ grown) (role : Role) :
    (role ∈ effectiveClosure grown rules ∧ role ∉ effectiveClosure back rules) ↔
      (role ∈ effectiveClosure (before ++ given) rules ∧ role ∉ effectiveClosure before rules) := by
  have covered : before ++ given ⊆ effectiveClosure grown rules := by
    intro start mem
    by_cases had : start ∈ effectiveClosure before rules
    · exact effectiveClosure_mono rules kept had
    rcases mem_append.mp mem with based | isGiven
    · exact absurd (subset_closure _ _ _ based) had
    · exact subset_closure _ _ _ (gains start isGiven had)
  rw [mem_effectiveClosure_congr same]
  refine and_congr_left fun _ => ?_
  constructor
  · exact fun held => effectiveClosure_mono rules inside held
  · exact fun held => effectiveClosure_subset covered held

structure ReadsFrom (reads : PlanReads) (state : AccessState) (bundleId : String)
    (s : PlanSnapshot) : Prop where
  bundle : ∃ bundle, (state.records.bundles.find? fun bundle => bundle.id = bundleId) = some bundle ∧
    bundle.retired = false
  profiles : s.profiles = reads.profiles
  access : s.access = readAccessSnapshot reads state
  roles : s.versionRoles = state.records.effectiveRoles s.versionId

private theorem planSnapshot_reads {reads : PlanReads} {s : PlanSnapshot}
    (op : a.op = .assignBundle)
    (read : planSnapshot reads state a = some s) (inForce : s.bundleRetiredAt = none) :
    ReadsFrom reads state a.bundleId s := by
  unfold planSnapshot at read
  cases found : state.records.bundles.find? fun bundle => bundle.id = a.bundleId with
  | none =>
    rw [found] at read
    cases read
  | some bundle =>
    rw [found] at read
    obtain ⟨_,isVersion,rfl⟩ := Option.map_eq_some_iff.mp read
    cases retired : bundle.retired with
    | true =>
      simp only [retired] at inForce
      cases inForce
    | false =>
      refine ⟨⟨bundle,found,retired⟩,rfl,rfl,?_⟩
      unfold planVersion at isVersion
      simp only [op,retired] at isVersion
      obtain ⟨_,-,rfl⟩ := Option.map_eq_some_iff.mp isVersion
      rfl

private theorem planSnapshot_removal (reads : PlanReads) {bundle : Bundle}
    (op : a.op = .removeBundle)
    (found : (state.records.bundles.find? fun bundle => bundle.id = a.bundleId) = some bundle)
    (inForce : bundle.retired = false) :
    ∃ s, planSnapshot reads state a = some s ∧ s.bundleRetiredAt = none ∧
      s.profiles = reads.profiles ∧ s.access = readAccessSnapshot reads state := by
  unfold planSnapshot planVersion
  simp only [found,op,reduceCtorEq,decide_false,Bool.false_and,Bool.false_eq_true,if_false,
    inForce,Option.map_some]
  exact ⟨_,rfl,rfl,rfl,rfl⟩

section Back

variable {wording : Wording} {reads : PlanReads} {gate : Option CancelGate} {s : PlanSnapshot}
  {next : AccessState} {written : Change}

private theorem identified_of_reads (identified : BundlesIdentified state)
    (access : s.access = readAccessSnapshot reads state) : s.Identified userId := by
  intro _ listed
  rw [access] at listed
  obtain ⟨held,mem,-,rfl⟩ := (mem_bundleRolesFor _ _ _).mp listed
  exact identified.2 held mem

private theorem assigned_of_write (identified : s.Identified userId)
    (applies : (plan wording ⟨.assignBundle,userId,bundleId⟩ s).row.effect = .apply)
    (done : writeChange gate state ⟨.assignBundle,userId,bundleId⟩
      (plan wording ⟨.assignBundle,userId,bundleId⟩ s) = .ok (next, written)) :
    Assigned state userId bundleId (plan wording ⟨.assignBundle,userId,bundleId⟩ s) next := by
  obtain ⟨absent,_,_,rows,rfl⟩ := writeChange_ok rfl done
  rw [(joins_of_applies rfl applies).person] at absent ⊢
  rcases plan_cases wording ⟨.assignBundle,userId,bundleId⟩ s with ⟨-,refused⟩ | ⟨-,planned⟩
  · exact absurd applies refused
  · exact ⟨absent,rfl,rfl,enqueueRows_enqueued planned.single rows,
      (directed identified).assigns rfl,fun w => planned.mine⟩

private theorem Assigned.lost_iff_gained {after : PlanSnapshot}
    (assigned : Assigned state userId bundleId
      (plan wording ⟨.assignBundle,userId,bundleId⟩ s) next)
    (identified : BundlesIdentified state) (named : bundleId ≠ "")
    (read : ReadsFrom reads state bundleId s)
    (access : after.access = readAccessSnapshot reads next)
    (joins : Joins wording ⟨.assignBundle,userId,bundleId⟩ s)
    (moves : ∀ role, (plan wording ⟨.assignBundle,userId,bundleId⟩ s).Moves .add role ↔
      role ∈ s.closure (baseBefore s userId ++ s.versionRoles) ∧
        role ∉ s.closure (baseBefore s userId))
    (undisturbed : Undisturbed state userId s.versionRoles
      (plan wording ⟨.assignBundle,userId,bundleId⟩ s)) (role : Role) :
    (role ∈ after.closure (baseBefore after userId) ∧
      role ∉ after.closure (baseOtherwise after ⟨.removeBundle,userId,bundleId⟩)) ↔
        (plan wording ⟨.assignBundle,userId,bundleId⟩ s).Moves .add role := by
  have before (other : Role) : other ∈ baseBefore s userId ↔
      other ∈ state.records.holdings state.now userId ∧
        other ∉ queuedRevocationsFor state.outbox state.records.grants userId := by
    unfold baseBefore
    rw [read.access]
    exact mem_baseFrom_all identified
  have grown (other : Role) : other ∈ baseBefore after userId ↔
      (other ∈ state.records.holdings state.now userId ∨ other ∈ s.versionRoles) ∧
        other ∉ queuedRevocationsFor next.outbox next.records.grants userId := by
    unfold baseBefore
    rw [access,read.roles,← joins.version]
    exact assigned.mem_before identified named other
  have back (other : Role) : other ∈ baseOtherwise after ⟨.removeBundle,userId,bundleId⟩ ↔
      other ∈ state.records.holdings state.now userId ∧
        other ∉ queuedRevocationsFor next.outbox next.records.grants userId := by
    unfold baseOtherwise
    rw [access]
    exact assigned.mem_otherwise other
  have rules : after.access.rules = s.access.rules := by
    rw [access,read.access]
    change next.records.rules = state.records.rules
    rw [assigned.records,rules_assign]
  have settled (other : Role) (held : other ∈ state.records.holdings state.now userId) :
      other ∈ queuedRevocationsFor next.outbox next.records.grants userId ↔
        other ∈ queuedRevocationsFor state.outbox state.records.grants userId := by
    rw [assigned.mem_revoking]
    exact and_iff_left fun moved => undisturbed.recorded other held moved
  rw [moves]
  unfold PlanSnapshot.closure
  rw [rules]
  refine gained_iff_lost ?_ ?_ ?_ ?_ role
  · intro other
    rw [back,before]
    exact and_congr_right fun held => not_congr (settled other held)
  · intro other mem
    rw [mem_append,before]
    obtain ⟨held | given,kept⟩ := (grown other).mp mem
    · exact .inl ⟨held,fun revoked => kept ((settled other held).mpr revoked)⟩
    · exact .inr given
  · intro other mem
    obtain ⟨held,kept⟩ := (before other).mp mem
    exact (grown other).mpr ⟨.inl held,fun revoked => kept ((settled other held).mp revoked)⟩
  intro other given new
  refine (grown other).mpr ⟨.inr given,fun revoked => ?_⟩
  have moved := (moves other).mpr
    ⟨subset_closure _ _ _ (mem_append_right _ given),new⟩
  exact undisturbed.bundled other given moved (((assigned.mem_revoking other).mp revoked).2 moved)

end Back

end Undo

/-- Plans move in their own direction, and a removal planned on what an assignment left takes
back what the assignment gave. -/
theorem plans_directed (wording : Wording) :
    (∀ a s, PlanSnapshot.Identified s a.userId → Directed wording a s) ∧
    ∀ reads gate state userId bundleId s next written, BundlesIdentified state →
      planSnapshot reads state ⟨.assignBundle,userId,bundleId⟩ = some s →
      (plan wording ⟨.assignBundle,userId,bundleId⟩ s).row.effect = .apply →
      writeChange gate state ⟨.assignBundle,userId,bundleId⟩
        (plan wording ⟨.assignBundle,userId,bundleId⟩ s) = .ok (next, written) →
      Undisturbed state userId s.versionRoles (plan wording ⟨.assignBundle,userId,bundleId⟩ s) →
      ∃ after, planSnapshot reads next ⟨.removeBundle,userId,bundleId⟩ = some after ∧
        (plan wording ⟨.removeBundle,userId,bundleId⟩ after).row.effect = .apply ∧
        ∀ role, (plan wording ⟨.removeBundle,userId,bundleId⟩ after).Moves .revoke role ↔
          (plan wording ⟨.assignBundle,userId,bundleId⟩ s).Moves .add role := by
  refine ⟨fun a s identified => directed identified,?_⟩
  intro reads _ _ userId bundleId s next _ identified read applies done undisturbed
  have joins := joins_of_applies rfl applies
  have reading := planSnapshot_reads rfl read joins.inForce
  have assigned := assigned_of_write (identified_of_reads identified reading.access) applies done
  obtain ⟨bundle,found,inForce⟩ := reading.bundle
  have named : bundleId ≠ "" := by
    have isBundle : bundle.id = bundleId := by simpa using find?_some found
    rw [← isBundle]
    exact identified.1 bundle (mem_of_find?_eq_some found)
  have stillFound : (next.records.bundles.find? fun bundle => bundle.id = bundleId) =
      some bundle := by
    rw [assigned.records,← found]
    unfold Records.assign
    split <;> rfl
  obtain ⟨after,readNext,stillInForce,profiles,access⟩ :=
    planSnapshot_removal (a := ⟨.removeBundle,userId,bundleId⟩) reads rfl stillFound inForce
  have leaves : (plan wording ⟨.removeBundle,userId,bundleId⟩ after).row.effect = .apply := by
    refine removal_applies rfl ?_ stillInForce ?_
      (identified_of_reads (assigned.identified identified named) access)
    · rw [profiles,← reading.profiles]
      exact joins.known
    · rw [access]
      exact assigned.held
  refine ⟨after,readNext,leaves,fun role => ?_⟩
  rcases plan_cases wording ⟨.assignBundle,userId,bundleId⟩ s with ⟨-,refused⟩ | ⟨-,planned⟩
  · exact absurd applies refused
  rcases plan_cases wording ⟨.removeBundle,userId,bundleId⟩ after with ⟨-,refused⟩ | ⟨-,leaving⟩
  · exact absurd leaves refused
  rw [(leaving.moves_iff role).2]
  exact assigned.lost_iff_gained identified named reading access joins
    (fun other => (planned.moves_iff other).1) undisturbed role

namespace Crew

def laser : Role := ⟨"shop","laser"⟩

def entry : Role := ⟨"doors","entry"⟩

def ledger (granted : Option Role) (assigned : Bool) : Records :=
  { grants := granted.toList.map fun role => ⟨0,"ada",role.projectId,role.roleKey,none,.direct,""⟩
    nextGrant := 1
    bundles := [⟨"crew",false,[]⟩]
    versions := [⟨"crew-1","crew",1,[entry],[]⟩]
    assignments := if assigned then [⟨"ada","crew","crew-1"⟩] else []
    rules := [⟨"laser-entry","shop","laser","doors","entry"⟩]
    indexedUsers := []
    grantsDistinct := by cases granted <;> simp
    grantsNumbered := by cases granted <;> simp
    assignmentsDistinct := by cases assigned <;> simp
    rulesDistinct := nodup_singleton _ }

def revoke (role : Role) (status : Status) : OutboxRow :=
  { target := "zitadel", opType := .revoke, userId := "ada", projectId := role.projectId
    roleKeys := [role.roleKey], source := .direct, sourceRef := "", withdrawsOnly := false
    status := status, attempts := 0, waitReason := none, notBefore := none, id := 1, intentSeq := 1 }

def state (granted : Option Role) (assigned : Bool) (role : Role) (status : Status) : AccessState :=
  { records := ledger granted assigned
    outbox :=
      { rows := [revoke role status], nextSeq := 2, ordered := pairwise_singleton _ _
        idsDistinct := nodup_singleton _, numbered := by simp [revoke]
        started := Nat.two_pos }
    zitadel := fun _ => true
    now := 0 }

def reads : PlanReads :=
  { profiles := fun _ => some ⟨"Ada","","active"⟩
    catalogue := fun role => some ⟨role.roleKey,role.projectId⟩
    catalogueUnread := false
    roleWaits := fun _ => false
    bundleName := fun _ => "Crew"
    retiredOn := fun _ => 0 }

def wording : Wording :=
  { formatDay := fun _ => "", describeCancels := fun _ => "", sha256 := fun _ => "" }

def join : Action := ⟨.assignBundle,"ada","crew"⟩

def leave : Action := ⟨.removeBundle,"ada","crew"⟩

def joining (state : AccessState) : PlanSnapshot :=
  { bundleName := "Crew"
    bundleRetiredAt := none
    versionId := "crew-1"
    versionRoles := [entry]
    catalogue := reads.catalogue
    catalogueUnread := false
    profiles := reads.profiles
    access := readAccessSnapshot reads state }

private theorem identified (granted : Option Role) (assigned : Bool) (role : Role)
    (status : Status) :
    BundlesIdentified (state granted assigned role status) := by
  constructor
  · intro _ mem
    rw [mem_singleton.mp mem]
    decide
  intro _ mem
  cases assigned with
  | false => cases mem
  | true =>
    rw [mem_singleton.mp mem]
    decide

theorem plans_directed_rejoining :
    Directed wording join (joining (state none false entry .pending)) ∧
    ∃ next written after, writeChange none (state none false entry .pending) join
        (plan wording join (joining (state none false entry .pending))) = .ok (next, written) ∧
      planSnapshot reads next leave = some after ∧
      ∀ role, (plan wording leave after).Moves .revoke role ↔
        (plan wording join (joining (state none false entry .pending))).Moves .add role := by
  constructor
  · refine (plans_directed wording).1 join _ ?_
    intro _ impossible
    cases impossible
  have undisturbed : Undisturbed (state none false entry .pending) "ada" [entry]
      (plan wording join (joining (state none false entry .pending))) := by
    refine ⟨fun role given _ => ?_,fun role held => ?_⟩
    · rw [mem_singleton.mp given]
      decide +kernel
    · cases held
  have ran : (writeChange none (state none false entry .pending) join
      (plan wording join (joining (state none false entry .pending)))).toOption.isSome = true := by
    decide +kernel
  obtain ⟨⟨next,written⟩,reached⟩ := Option.isSome_iff_exists.mp ran
  have done := ok_of_toOption reached
  obtain ⟨after,read,-,back⟩ := (plans_directed wording).2 reads none
    (state none false entry .pending) "ada" "crew" _ next written
    (identified none false entry .pending) rfl (by decide +kernel) done undisturbed
  exact ⟨next,written,after,done,read,back⟩

def Outlasts (state : AccessState) : Prop :=
  planSnapshot reads state join = some (joining state) ∧
    (plan wording join (joining state)).row.effect = .apply ∧
    (plan wording join (joining state)).Moves .add entry ∧
    ∃ next written after,
      writeChange none state join (plan wording join (joining state)) = .ok (next, written) ∧
      planSnapshot reads next leave = some after ∧
      (plan wording leave after).row.effect = .apply ∧
      ¬ (plan wording leave after).Moves .revoke entry

private theorem outlasts_of_run {state : AccessState}
    (read : planSnapshot reads state join = some (joining state))
    (applies : (plan wording join (joining state)).row.effect = .apply)
    (adds : (plan wording join (joining state)).Moves .add entry)
    (ran : (writeChange none state join (plan wording join (joining state))).toOption.any
      (fun result => (planSnapshot reads result.1 leave).any fun after => decide
        ((plan wording leave after).row.effect = .apply ∧
          ¬ (plan wording leave after).Moves .revoke entry)) = true) : Outlasts state := by
  obtain ⟨⟨next,written⟩,reached,planned⟩ := (Option.any_eq_true _ _).mp ran
  obtain ⟨after,isAfter,facts⟩ := Runs.exists_reached planned
  exact ⟨read,applies,adds,next,written,after,ok_of_toOption reached,isAfter,facts⟩

/-- A direct grant that is being revoked gives the role by a rule, and leaving revokes the
role. A revocation already sent takes the role out of what leaving would take back, and one
that joining cancels leaves the grant it was to take. -/
theorem plans_undirected :
    (∃ grant ∈ ((readAccessSnapshot reads (state (some laser) true laser .pending)).people
        "ada").direct,
      Reaches Role.mk (state (some laser) true laser .pending).records.rules grant.role entry ∧
        ∃ s, planSnapshot reads (state (some laser) true laser .pending) leave = some s ∧
          (plan wording leave s).Moves .revoke entry) ∧
    Outlasts (state none false entry .inFlight) ∧ Outlasts (state (some entry) false entry .pending) := by
  refine ⟨⟨⟨0,"ada","shop","laser",none,.direct,""⟩,by decide +kernel,?_,?_⟩,?_,?_⟩
  · exact Relation.ReflTransGen.single (mem_singleton.mpr rfl)
  · exact Runs.exists_reached (by decide +kernel)
  · exact outlasts_of_run rfl (by decide +kernel) (by decide +kernel) (by decide +kernel)
  · exact outlasts_of_run rfl (by decide +kernel) (by decide +kernel) (by decide +kernel)

end Crew

end Syndra.Planner
