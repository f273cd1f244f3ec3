/-
Bulk changes of one role, rehearsed and applied.

A row of the rehearsal names the queued changes its own write cancels, and the apply runs
with the cancel gate open because it did.
-/

import Syndra.Ledger.Readers
import Syndra.Planner.Plan
import Syndra.Rules.Following

namespace Syndra.Planner

open Access Propagation Ledger Rules Foundation.Text List

structure BulkRequest where
  op : BulkOp
  projectId : String
  roleKey : String
  durationDays : Nat
  /-- Narrows an extension; none means every grant that ends. -/
  grantIds : List Nat
deriving DecidableEq

def BulkRequest.role (req : BulkRequest) : Role := ⟨req.projectId,req.roleKey⟩

structure RoleWording extends Wording where
  names : Names
  findProject : String → Option ProjectCatalog
  formatUTC : Time → String
  endAfterDays : Time → Nat → Time
  endsLater : ∀ now days, 0 < days → now < endAfterDays now days

structure RoleOutcome extends BulkOutcome where
  grantIds : List Nat
deriving DecidableEq

/-! ### Words -/

def reasonKindName : ReasonKind → String
  | .direct => "direct"
  | .bundle => "bundle"
  | .mapping => "mapping"

/-- A rule's reason is of the kind mapping, so none is ever counted here as a rule. -/
def sourcePhrase (reasons : List RoleReason) : String :=
  let rules := (reasons.filter fun reason =>
    reason.bundleName = "" && reasonKindName reason.kind = "rule").length
  let named :=
    ((reasons.filter fun reason => reason.bundleName ≠ "").map fun reason =>
      "the " ++ reason.bundleName ++ " bundle") ++
    (if rules = 1 then ["an automatic rule"]
      else if rules > 1 then [toString rules ++ " automatic rules"]
      else [])
  match named with
  | [] => "through another source"
  | [one] => "via " ++ one
  | [one,two] => "via " ++ one ++ " and " ++ two
  | one :: more => "via " ++ one ++ " and " ++ toString more.length ++ " more"

def otherSources (roleMap : RoleMap) (role : Role) : String :=
  match roleMap.lookup role with
  | none => ""
  | some held =>
    let kept := held.reasons.filter fun reason => reason.kind ≠ .direct
    if kept = [] then "" else sourcePhrase kept

def findGrant (grants : List DirectGrant) (role : Role) : Option DirectGrant :=
  grants.find? fun grant => grant.projectId = role.projectId && grant.roleKey = role.roleKey

section Wording

variable (wording : RoleWording)

def lengthens (now : Time) (current : Option Time) (durationDays : Nat) : Bool :=
  match current with
  | none => false
  | some ending =>
    if durationDays = 0 then true else ending < wording.endAfterDays now durationDays

def expiryPhrase (now : Time) (current : Option Time) (durationDays : Nat) : String :=
  if durationDays = 0 then
    if current.isSome then "Expiry removed, so the grant becomes permanent." else "No expiry."
  else "Expires " ++ wording.formatDay (wording.endAfterDays now durationDays) ++ "."

def pluralGrants (count : Nat) : String :=
  if count = 1 then "1 grant" else toString count ++ " grants"

def effectiveRoleKeys (roleMap : RoleMap) : List String :=
  roleMap.keys.map fun role => role.projectId ++ "/" ++ role.roleKey

def fingerprintUserAccess (userId status : String) (roles : List String)
    (grants : List DirectGrant) : String :=
  fingerprint wording.toWording
    (["user",userId,"status",status,"roles"] ++
      roles.insertionSort (fun a b => !decide (b < a)) ++ "grants" ::
        (grants.insertionSort (fun a b => a.id ≤ b.id)).flatMap fun grant =>
          [toString grant.id,grant.projectId,grant.roleKey,grant.source.name,
            (grant.expiresAt.map wording.formatUTC).getD ""])

/-! ### Rehearsing -/

def rehearseAssignRole (now : Time) (out : RoleOutcome) (req : BulkRequest) (roleMap : RoleMap)
    (grants : List DirectGrant) : RoleOutcome :=
  match findGrant grants req.role with
  | some existing =>
    { out with
      effect := .noChange
      grantIds := [existing.id]
      detail :=
        match existing.expiresAt with
        | none => "Already has this, with no end."
        | some ending =>
          "Already has this, until " ++ wording.formatDay ending ++ ". Extend it instead." }
  | none =>
    match roleMap.lookup req.role with
    | some effective =>
      { out with
        effect := .noChange
        detail := "Already has this " ++ sourcePhrase effective.reasons ++ "." }
    | none =>
      { out with
        effect := .apply
        detail := "Gains this role."
        consequence := expiryPhrase wording now none req.durationDays }

def rehearseRemoveRole (out : RoleOutcome) (req : BulkRequest) (roleMap : RoleMap)
    (grants : List DirectGrant) : RoleOutcome :=
  match findGrant grants req.role with
  | none =>
    match roleMap.lookup req.role with
    | some effective =>
      { out with
        effect := .noChange
        detail := "Holds no direct grant here."
        consequence := "Keeps the role " ++ sourcePhrase effective.reasons ++
          ". Remove that source instead." }
    | none => { out with effect := .noChange, detail := "Doesn't hold this role." }
  | some existing =>
    let other := otherSources roleMap req.role
    if other ≠ "" then
      { out with
        effect := .apply
        grantIds := [existing.id]
        detail := "Direct grant removed."
        consequence := "Keeps the role " ++ other ++ ", so this does not take their access away." }
    else
      { out with
        effect := .apply
        grantIds := [existing.id]
        detail := "Loses this role." }

def rehearseExtend (now : Time) (out : RoleOutcome) (req : BulkRequest)
    (grants : List DirectGrant) : RoleOutcome :=
  let asked := grants.filter fun grant =>
    grant.expiresAt.isSome && (req.grantIds = [] || grant.id ∈ req.grantIds) &&
      (req.projectId = "" || grant.projectId = req.projectId) &&
      (req.roleKey = "" || grant.roleKey = req.roleKey)
  let ids := (asked.filter fun grant =>
    lengthens wording now grant.expiresAt req.durationDays).map DirectGrant.id
  if ids = [] && asked ≠ [] then
    { out with
      effect := .noChange
      detail := "Already ends later than this would make it." }
  else if ids = [] then
    { out with
      effect := .noChange
      detail :=
        if req.grantIds ≠ [] then "None of the selected grants are theirs any more."
        else "No expiring direct grants." }
  else
    { out with
      effect := .apply
      grantIds := ids
      detail := "Extends " ++ pluralGrants ids.length ++ "."
      consequence := "New expiry " ++
        wording.formatDay (wording.endAfterDays now req.durationDays) ++ "." }

def cancellingWrites (userId : String) (req : BulkRequest) (roleMap : RoleMap) :
    List EnqueueParams :=
  match req.op with
  | .assignRole => [{ roleWrite .add userId .direct "" req.role with source := none }]
  | .removeRole =>
    if otherSources roleMap req.role ≠ "" then []
    else [roleWrite .revoke userId .direct "" req.role]
  | _ => []

def wouldCancel (outbox : Outbox) (p : EnqueueParams) : List QueuedChange :=
  if answersAny p then answeredBy p (candidates zitadelTarget outbox p) else []

def cancelsLine (outbox : Outbox) (params : List EnqueueParams) : List QueuedChange :=
  params.flatMap (wouldCancel outbox)

def withRules (out : RoleOutcome) (rows : List RuleRow) : RoleOutcome :=
  if rows = [] then out
  else
    { out with
      fingerprint := fingerprint wording.toWording
        (out.fingerprint :: "rules" ::
          rows.flatMap fun row => [row.ruleId,row.projectId,row.roleKey])
      consequence := trimSpace (out.consequence ++ " " ++ ruleSentences rows) }

def withCancels (out : RoleOutcome) (changes : List QueuedChange) : RoleOutcome :=
  if changes = [] then out
  else
    { out with
      fingerprint := fingerprint wording.toWording
        (out.fingerprint :: "cancels" :: changes.map fun change => toString change.id)
      consequence :=
        if out.consequence = "" then wording.describeCancels changes
        else out.consequence ++ " " ++ wording.describeCancels changes }

def rehearseOp (state : AccessState) (req : BulkRequest) (userId : String)
    (profile : UserProfile) : RoleOutcome :=
  let roleMap := (collectUserRoles wording.names state.records state.now userId).1
  let grants := state.records.getDirectGrantsForUser state.now userId true
  let out : RoleOutcome :=
    { userId := userId
      name := profile.name
      email := profile.email
      effect := .blocked
      detail := "Unsupported operation."
      consequence := ""
      cancelIds := []
      fingerprint :=
        fingerprintUserAccess wording userId profile.status (effectiveRoleKeys roleMap) grants
      grantIds := [] }
  match req.op with
  | .assignRole => rehearseAssignRole wording state.now out req roleMap grants
  | .removeRole => rehearseRemoveRole out req roleMap grants
  | .extend => rehearseExtend wording state.now out req grants
  | _ => out

def blockedRow (userId name email detail : String) (status : String) : RoleOutcome :=
  { userId := userId
    name := name
    email := email
    effect := .blocked
    detail := detail
    consequence := ""
    cancelIds := []
    fingerprint := fingerprintUserAccess wording userId status [] []
    grantIds := [] }

def namedCancels (state : AccessState) (req : BulkRequest) (userId : String) : List QueuedChange :=
  cancelsLine state.outbox
    (cancellingWrites userId req (collectUserRoles wording.names state.records state.now userId).1)

def rehearseOne (state : AccessState) (req : BulkRequest) (userId : String)
    (profile : Option UserProfile) : RoleOutcome :=
  match profile with
  | none => blockedRow wording userId "" "" "No such account in the directory." "absent"
  | some profile =>
    if left profile.status && (req.op = .assignRole || req.op = .extend) then
      blockedRow wording userId profile.name profile.email
        ("Account is " ++ toLower profile.status ++ ". Remove it from the selection to continue.")
        profile.status
    else
      let out := rehearseOp wording state req userId profile
      if req.op = .extend || out.effect ≠ .apply then out
      else
        let roleMap := (collectUserRoles wording.names state.records state.now userId).1
        let given := ((cancellingWrites userId req roleMap).filter fun p =>
          p.opType = .add).map roleOf
        withCancels wording
          (withRules wording out (rulesFollowing wording.findProject state userId given))
          (namedCancels wording state req userId)

/-! ### Applying -/

def bulkGrant (now : Time) (req : BulkRequest) (userId : String) (role : Role)
    (endRule : EndRule) : EnqueueParams :=
  { roleWrite .add userId .direct "" role with
    expiresAt :=
      if 0 < req.durationDays then some (wording.endAfterDays now req.durationDays) else none
    endRule := endRule }

def applyBulkOne (gate : Option CancelGate) (state : AccessState) (req : BulkRequest)
    (out : RoleOutcome) : Except ChangeError AccessState :=
  match req.op with
  | .assignRole =>
    enqueueNamed gate state (bulkGrant wording state.now req out.userId req.role .kept)
  | .removeRole =>
    out.grantIds.foldlM (fun state grantId => deleteDirectGrant gate state out.userId grantId)
      state
  | .extend =>
    ((state.records.getDirectGrantsForUser state.now out.userId true).filter fun grant =>
      grant.id ∈ out.grantIds).foldlM
        (fun state grant =>
          enqueueNamed gate state (bulkGrant wording state.now req out.userId grant.role .set))
        state
  | _ => .ok state

end Wording

def cancellationsReviewed (gate : CancelGate) : CancelGate := { gate with reviewed := true }

/-! ### When the row named it all -/

/-- Whatever takes the role away waits alone, so that giving the role cancels it. -/
def Clear (state : AccessState) (userId : String) (role : Role) : Prop :=
  ∀ row ∈ state.outbox.rows, Takes userId role row →
    row.opType = .revoke ∧ row.waitsFor (heldBy userId role) = true

/-- No revoke waits of a role that the rules would newly derive from the one given. -/
def AssignNamed (state : AccessState) (userId : String) (given : Role) : Prop :=
  Clear state userId given → ∀ role, role ≠ given →
    Reaches Role.mk state.records.rules given role → role ∉ baseClosure state userId →
      ∀ row ∈ state.outbox.queuedFor (heldBy userId role), row.opType ≠ .revoke

def LostWith (state : AccessState) (userId : String) (grantId : Nat) (role : Role) : Prop :=
  role ∈ baseClosure state userId ∧
    role ∉ effectiveClosure (state.userBaseHoldingsExcludingGrant userId grantId)
      state.records.rules

def DirectWaits (state : AccessState) (userId : String) (role : Role) : Prop :=
  ∃ row ∈ state.outbox.queuedFor (heldBy userId role),
    (row.opType = .add ∨ row.opType = .replace) ∧ row.source = .direct

/-- Of the roles a direct add waits for, the one removed is lost where the page shows no
other source of it, and no other is. -/
def RemoveNamed (wording : RoleWording) (state : AccessState) (userId : String) (removed : Role)
    (grantIds : List Nat) : Prop :=
  ∀ role, DirectWaits state userId role → ∀ grantId ∈ grantIds,
    (LostWith state userId grantId role ↔ role = removed ∧
        otherSources (collectUserRoles wording.names state.records state.now userId).1 removed = "")

/-! ### What the row says -/

section Proofs

variable {wording : RoleWording} {state next : AccessState} {req : BulkRequest} {userId : String}
variable {profile : Option UserProfile} {gate : CancelGate}

theorem withCancels_keeps (wording : RoleWording) (out : RoleOutcome) {rows : List RuleRow}
    {changes : List QueuedChange} :
    (withCancels wording (withRules wording out rows) changes).effect = out.effect ∧
      (withCancels wording (withRules wording out rows) changes).userId = out.userId ∧
      (withCancels wording (withRules wording out rows) changes).grantIds = out.grantIds := by
  unfold withCancels withRules
  split
  all_goals
    split <;> exact ⟨rfl,rfl,rfl⟩

theorem rehearseOne_apply
    (applies : (rehearseOne wording state req userId profile).effect = .apply) :
    ∃ person, (rehearseOp wording state req userId person).effect = .apply ∧
      (rehearseOne wording state req userId profile).userId =
        (rehearseOp wording state req userId person).userId ∧
      (rehearseOne wording state req userId profile).grantIds =
        (rehearseOp wording state req userId person).grantIds := by
  cases profile with
  | none => cases applies
  | some person =>
    refine ⟨person,?_⟩
    unfold rehearseOne at applies ⊢
    simp only at applies ⊢
    split at applies
    · cases applies
    rename_i present
    rw [if_neg present]
    split at applies
    · next kept =>
      rw [if_pos kept]
      exact ⟨applies,rfl,rfl⟩
    rename_i goesOn
    rw [if_neg goesOn]
    obtain ⟨effect,user,grants⟩ := withCancels_keeps wording
      (rehearseOp wording state req userId person)
    exact ⟨effect.symm.trans applies,user,grants⟩

theorem getDirectGrants_all (records : Records) (now : Time) (grant : DirectGrant) :
    grant ∈ records.getDirectGrantsForUser now userId true ↔
      grant ∈ records.grants ∧ grant.userId = userId := by
  unfold Records.getDirectGrantsForUser
  simp only [mem_filter,Bool.true_or,Bool.and_true,decide_eq_true_eq]

theorem assign_applies (op : req.op = .assignRole)
    (applies : (rehearseOne wording state req userId profile).effect = .apply) :
    (rehearseOne wording state req userId profile).userId = userId ∧
      (∀ grant ∈ state.records.grants, grant.userId = userId → grant.role ≠ req.role) ∧
      req.role ∉ (collectUserRoles wording.names state.records state.now userId).1 := by
  obtain ⟨_,applies,user,-⟩ := rehearseOne_apply applies
  rw [user]
  unfold rehearseOp at applies ⊢
  simp only [op] at applies ⊢
  unfold rehearseAssignRole at applies ⊢
  cases found : findGrant (state.records.getDirectGrantsForUser state.now userId true) req.role with
  | some =>
    rw [found] at applies
    cases applies
  | none =>
    cases effective : (collectUserRoles wording.names state.records state.now userId).1.lookup
        req.role with
    | some held =>
      simp only [found,effective] at applies
      cases applies
    | none =>
      refine ⟨rfl,fun grant listed mine isRole => ?_,?_⟩
      · have unfit := find?_eq_none.mp found grant
          ((getDirectGrants_all state.records state.now grant).mpr ⟨listed,mine⟩)
        rw [← isRole] at unfit
        exact unfit (by simp [DirectGrant.role])
      · rw [← AList.lookup_eq_none]
        exact effective

theorem remove_applies (op : req.op = .removeRole)
    (applies : (rehearseOne wording state req userId profile).effect = .apply) :
    (rehearseOne wording state req userId profile).userId = userId ∧
      ∃ grant ∈ state.records.grants, grant.userId = userId ∧
        (rehearseOne wording state req userId profile).grantIds = [grant.id] := by
  obtain ⟨_,applies,user,grants⟩ := rehearseOne_apply applies
  rw [user,grants]
  unfold rehearseOp at applies ⊢
  simp only [op] at applies ⊢
  unfold rehearseRemoveRole at applies ⊢
  cases found : findGrant (state.records.getDirectGrantsForUser state.now userId true) req.role with
  | none =>
    simp only [found] at applies
    split at applies <;> cases applies
  | some existing =>
    obtain ⟨listed,mine⟩ := (getDirectGrants_all state.records state.now existing).mp
      (mem_of_find?_eq_some found)
    simp only
    split <;> exact ⟨rfl,existing,listed,mine,rfl⟩

/-! ### What the writes cancel -/

variable {p : EnqueueParams} {outbox : Outbox} {middle : AccessState}

theorem wouldCancel_eq (single : p.Single) :
    wouldCancel outbox p = (cancelled outbox p).map OutboxRow.queuedChange := by
  unfold wouldCancel
  rw [single.answersAny,if_pos rfl,single.answeredBy_candidates]

theorem key_of_cancelled {q : EnqueueParams} {row other : OutboxRow}
    (first : row ∈ cancelled outbox p) (second : other ∈ cancelled outbox q)
    (same : row.queuedChange = other.queuedChange) : p.key = q.key := by
  obtain ⟨listed,waits,-⟩ := mem_cancelled.mp first
  obtain ⟨listedToo,waitsToo,-⟩ := mem_cancelled.mp second
  have isRow := outbox.eq_of_id_eq listed listedToo (congrArg QueuedChange.id same)
  subst isRow
  exact OutboxRow.key_of_isFor ((row.waitsFor_iff_isFor _).mp waits).1
    ((row.waitsFor_iff_isFor _).mp waitsToo).1

theorem mem_cancelled_add (single : p.Single) (op : p.opType = .add) (row : OutboxRow) :
    row ∈ cancelled outbox p ↔ row ∈ outbox.queuedFor p.key ∧ row.opType = .revoke := by
  unfold cancelled
  rw [mem_filter]
  refine and_congr_right fun among => ?_
  exact single.answers_add op (mem_filter.mp among).2

theorem mem_cancelled_direct (single : p.Single) (op : p.opType = .revoke)
    (direct : outboxSource p = .direct) (row : OutboxRow) :
    row ∈ cancelled outbox p ↔
      row ∈ outbox.queuedFor p.key ∧ (row.opType = .add ∨ row.opType = .replace) ∧
        row.source = .direct := by
  unfold cancelled
  rw [mem_filter]
  refine and_congr_right fun among => ?_
  rw [single.answers_revoke op (mem_filter.mp among).2,direct]
  simp

/-! ### The gate is open -/

theorem enqueueRow_reviewed (gate : CancelGate) (named : Bool) (outbox : Outbox)
    (p : EnqueueParams) :
    ∃ after id, enqueueRow (some (cancellationsReviewed gate)) named outbox p =
    .ok (after, id) := by
  have goesThrough : ∃ after owed,
      withdrawUndelivered (some (cancellationsReviewed gate)) zitadelTarget outbox p =
        .ok (after, owed) := by
    unfold withdrawUndelivered
    split
    · exact ⟨outbox,true,rfl⟩
    split
    · exact ⟨outbox,true,rfl⟩
    simp only [admitCancellations,cancellationsReviewed,Bool.or_true,Bool.true_or,
      Bool.not_true,Bool.false_eq_true,if_false]
    exact ⟨_,_,rfl⟩
  obtain ⟨_,owed,withdrawn⟩ := goesThrough
  unfold enqueueRow
  rw [withdrawn]
  cases owed with
  | false => exact ⟨_,_,rfl⟩
  | true =>
    simp only
    split <;> exact ⟨_,_,rfl⟩

theorem enqueueRows_reviewed (gate : CancelGate) (params : List EnqueueParams) :
    ∀ outbox : Outbox, ∃ after ids,
      enqueueRows (some (cancellationsReviewed gate)) outbox params = .ok (after, ids) := by
  induction params with
  | nil => exact fun outbox => ⟨outbox,[],rfl⟩
  | cons p _ ih =>
    intro outbox
    obtain ⟨middle,id,first⟩ := enqueueRow_reviewed gate false outbox p
    obtain ⟨after,ids,others⟩ := ih middle
    refine ⟨after,id.toList ++ ids,?_⟩
    rw [enqueueRows,first]
    simp only [others]

theorem commit_reviewed (gate : CancelGate) (state : AccessState) (records : Records)
    (params : List EnqueueParams) :
    ∃ next ids, state.commit (some (cancellationsReviewed gate)) records params = .ok next ∧
      enqueueRows (some (cancellationsReviewed gate)) state.outbox params =
        .ok (next.outbox, ids) := by
  obtain ⟨after,ids,written⟩ := enqueueRows_reviewed gate params state.outbox
  refine ⟨{ state with records := records, outbox := after },ids,?_,written⟩
  unfold AccessState.commit
  rw [written]

theorem enqueueNamed_reviewed (gate : CancelGate) (state : AccessState)
    (propagates : p.noPropagation = false) :
    ∃ next, enqueueNamed (some (cancellationsReviewed gate)) state p = .ok next := by
  obtain ⟨outbox,_,own⟩ := enqueueRow_reviewed gate true state.outbox p
  unfold enqueueNamed followRules writeOwn
  rw [propagates,if_neg Bool.false_ne_true,own]
  simp only
  by_cases none : state.records.rules = []
  · rw [if_pos none]
    obtain ⟨next,ids,committed,-⟩ := commit_reviewed gate
      { state with records := state.records.enqueueLedger p, outbox := outbox }
      (state.records.enqueueLedger p) []
    exact ⟨next,committed⟩
  · rw [if_neg none]
    obtain ⟨next,_,committed,-⟩ := commit_reviewed gate
      { state with records := state.records.enqueueLedger p, outbox := outbox }
      (state.records.enqueueLedger p)
      (followedWrites p.userId state.records.rules (state.userBaseHoldings p.userId)
        (AccessState.userBaseHoldings
          { state with records := state.records.enqueueLedger p, outbox := outbox } p.userId))
    exact ⟨next,committed⟩

/-! ### An assignment -/

theorem exists_upserted (records : Records) (p : EnqueueParams) (roleKey : String) :
    ∃ grant ∈ (records.upsertGrant p roleKey).grants, grant.userId = p.userId ∧
      grant.role = ⟨p.projectId,roleKey⟩ ∧ grant.source = outboxSource p := by
  unfold Records.upsertGrant
  split
  · next found =>
    obtain ⟨grant,listed,fits⟩ := any_eq_true.mp found
    obtain ⟨person,isRole⟩ := (sameGrant_iff grant).mp fits
    exact ⟨Records.renewed p grant,mem_map.mpr ⟨grant,listed,if_pos fits⟩,person,isRole, rfl⟩
  · exact ⟨_,mem_append_right _ (mem_singleton.mpr rfl),rfl,rfl,rfl⟩

theorem own_mem_base_iff (named : Named state middle p) (single : p.Single)
    (op : p.opType = .add)
    (direct : outboxSource p = .direct) (propagates : p.noPropagation = false)
    (ends : EndsLater state.now p)
    (anew : ∀ grant ∈ state.records.grants, grant.userId = p.userId → grant.role ≠ roleOf p) :
    roleOf p ∈ middle.userBaseHoldings p.userId ↔ Clear state p.userId (roleOf p) := by
  constructor
  · intro held row listed takes
    by_contra stays
    have still : row ∈ middle.outbox.rows ∧ Takes p.userId (roleOf p) row :=
      (named.takes_iff single op _ row).mpr
        ⟨⟨listed,takes⟩,fun cancelled => stays cancelled.2⟩
    refine ((mem_userBaseHoldings middle p.userId _).mp held).2
      (mem_queuedRevocationsFor.mpr ⟨row,still.1,takes,fun _ => ?_⟩)
    rw [named.records]
    obtain ⟨grant,recorded,person,isRole,source⟩ :=
      exists_upserted state.records p (roleOf p).roleKey
    exact ⟨grant,recorded,person,isRole,source.trans direct⟩
  · intro clear
    refine named.own_mem_base single op ⟨ends,?_,fun row listed takes => ?_⟩
    · intro grant listed mine isRole
      exact absurd isRole (anew grant listed mine)
    · exact ⟨propagates,clear row listed takes⟩

theorem gained_iff (named : Named state middle p) (single : p.Single) (op : p.opType = .add)
    (joins : roleOf p ∈ middle.userBaseHoldings p.userId ↔ Clear state p.userId (roleOf p))
    (role : Role) :
    role ∈ baseClosure middle p.userId ∧ role ∉ baseClosure state p.userId ↔
      Clear state p.userId (roleOf p) ∧ Reaches Role.mk state.records.rules (roleOf p) role ∧
        role ∉ baseClosure state p.userId := by
  unfold baseClosure
  rw [named.rules,mem_effectiveClosure]
  constructor
  · rintro ⟨⟨start,held,reached⟩,lacked⟩
    by_cases isOwn : start = roleOf p
    · subst isOwn
      exact ⟨joins.mp held,reached,lacked⟩
    refine absurd ?_ lacked
    rw [mem_effectiveClosure]
    exact ⟨start,(named.mem_base single op isOwn).mp held,reached⟩
  · rintro ⟨clear,reached,lacked⟩
    exact ⟨⟨roleOf p,joins.mpr clear,reached⟩,lacked⟩

theorem followed_add {rows : List EnqueueParams} (named : Named state middle p)
    (single : p.Single)
    (op : p.opType = .add) (lacked : roleOf p ∉ state.userBaseHoldings p.userId)
    (isRows : rows = if state.records.rules = [] then [] else
      followedWrites p.userId state.records.rules (state.userBaseHoldings p.userId)
        (middle.userBaseHoldings p.userId)) :
    ∀ row ∈ rows, ∃ ref role, row = roleWrite .add p.userId .rule ref role := by
  have grows : state.userBaseHoldings p.userId ⊆ middle.userBaseHoldings p.userId := by
    intro role held
    have other : role ≠ roleOf p := fun isOwn => lacked (isOwn ▸ held)
    exact (named.mem_base single op other).mpr held
  intro _ listed
  rw [isRows] at listed
  split at listed
  · cases listed
  unfold followedWrites at listed
  rw [ruleDelta_grows grows,map_nil,append_nil] at listed
  obtain ⟨role,-,rfl⟩ := mem_map.mp listed
  exact ⟨_,role,rfl⟩

theorem given_exact {gate : Option CancelGate} (single : p.Single) (op : p.opType = .add)
    (direct : outboxSource p = .direct) (propagates : p.noPropagation = false)
    (ends : EndsLater state.now p)
    (anew : ∀ grant ∈ state.records.grants, grant.userId = p.userId → grant.role ≠ roleOf p)
    (lacked : roleOf p ∉ state.userBaseHoldings p.userId)
    (done : enqueueNamed gate state p = .ok next) :
    (∀ change, change ∈ supersededBy state.outbox next.outbox ↔
        ∃ row ∈ cancelled state.outbox p, row.queuedChange = change) ↔
      AssignNamed state p.userId (roleOf p) := by
  obtain ⟨middle,_,params,_,own,middleEq,written,_,isParams⟩ := enqueueNamed_ok propagates done
  obtain ⟨inserted,wrote,-⟩ := enqueueRow_wrote single own
  have named : Named state middle p := by
    refine ⟨?_,?_,.inr ⟨propagates,inserted,wrote⟩⟩
    · rw [middleEq]
      exact enqueueLedger_single single op state.records
    · rw [middleEq]
  have joins := own_mem_base_iff named single op direct propagates ends anew
  have adds := followed_add named single op lacked isParams
  have gained := mem_followed named single op isParams
  have singles : ∀ q ∈ params, q.Single := by
    intro q listed
    obtain ⟨ref,role,rfl⟩ := adds q listed
    exact ⟨rfl,.inl rfl⟩
  have superseded := (Enqueued.cons single wrote
    (enqueueRows_enqueued singles written)).mem_supersededBy
  constructor
  · intro exact_ clear role other reached absent row waiting revokes
    obtain ⟨q,listed,isAdd,isRole⟩ := (gained role).mpr ⟨other,
      (gained_iff named single op joins role).mpr ⟨clear,reached,absent⟩⟩
    obtain ⟨ref,added,rfl⟩ := adds q listed
    have isRole' : added = role := isRole
    subst isRole'
    have cancels := (mem_cancelled_add (singles _ listed) isAdd row).mpr ⟨waiting,revokes⟩
    obtain ⟨named,isNamed,same⟩ := (exact_ row.queuedChange).mp
      ((superseded _).mpr ⟨(false, _),mem_cons_of_mem _ (mem_map_of_mem listed),row, cancels,rfl⟩)
    have key := key_of_cancelled cancels isNamed same.symm
    rw [key_eq_heldBy] at key
    exact other (heldBy_injective key).2
  · intro unnamed _
    rw [superseded]
    constructor
    · rintro ⟨_,isWrite,row,cancels,same⟩
      rcases mem_cons.mp isWrite with rfl | later
      · exact ⟨row,cancels,same⟩
      obtain ⟨q,listed,rfl⟩ := mem_map.mp later
      obtain ⟨_,role,rfl⟩ := adds q listed
      obtain ⟨other,brought⟩ := (gained role).mp ⟨_,listed,rfl,rfl⟩
      obtain ⟨clear,reached,absent⟩ := (gained_iff named single op joins role).mp brought
      obtain ⟨waiting,revokes⟩ := (mem_cancelled_add (singles _ listed) rfl row).mp cancels
      exact absurd revokes (unnamed clear role other reached absent row waiting)
    · rintro ⟨row,cancels,same⟩
      exact ⟨(true, p),mem_cons_self,row,cancels,same⟩

variable {change : QueuedChange} {role : Role}

theorem mem_namedCancels_assign (op : req.op = .assignRole) (endRule : EndRule) :
    change ∈ namedCancels wording state req userId ↔ ∃ row ∈ cancelled state.outbox
          (bulkGrant wording state.now req userId req.role endRule),
        row.queuedChange = change := by
  unfold namedCancels cancellingWrites cancelsLine
  rw [op]
  simp only [flatMap_cons,flatMap_nil,append_nil]
  rw [wouldCancel_eq ⟨rfl,.inl rfl⟩,mem_map]
  rfl

theorem not_mem_base (referenced : state.records.AssignmentsReferenced)
    (unassigned : state.records.RetiredUnassigned)
    (unlisted : role ∉ (collectUserRoles wording.names state.records state.now userId).1) :
    role ∉ state.userBaseHoldings userId := by
  intro held
  refine unlisted ((mem_collectUserRoles_closed wording.names state.now userId referenced unassigned
    role).mpr ?_)
  exact subset_closure Role.mk _ _ ((mem_userBaseHoldings state userId role).mp held).1

theorem endsLater_bulkGrant {now : Time} {endRule : EndRule} :
    EndsLater now (bulkGrant wording now req userId role endRule) := by
  intro ending isEnding
  change (if 0 < req.durationDays then some _ else none) = some ending at isEnding
  split at isEnding
  · next some =>
    cases isEnding
    exact wording.endsLater now req.durationDays some
  · cases isEnding

theorem assign_exact (referenced : state.records.AssignmentsReferenced)
    (unassigned : state.records.RetiredUnassigned) (op : req.op = .assignRole)
    (applies : (rehearseOne wording state req userId profile).effect = .apply)
    {gate : Option CancelGate}
    (applied : applyBulkOne wording gate state req
      (rehearseOne wording state req userId profile) = .ok next) :
    (∀ change, change ∈ supersededBy state.outbox next.outbox ↔
        change ∈ namedCancels wording state req userId) ↔
      AssignNamed state userId req.role := by
  obtain ⟨mine,anew,unheld⟩ := assign_applies op applies
  unfold applyBulkOne at applied
  rw [op,mine] at applied
  have exact_ := given_exact (p := bulkGrant wording state.now req userId req.role .kept)
    ⟨rfl,.inl rfl⟩ rfl rfl rfl endsLater_bulkGrant anew
    (not_mem_base referenced unassigned unheld) applied
  simp only [mem_namedCancels_assign op .kept]
  exact exact_

/-! ### A removal -/

theorem mem_namedCancels_remove (op : req.op = .removeRole) :
    change ∈ namedCancels wording state req userId ↔
      otherSources (collectUserRoles wording.names state.records state.now userId).1 req.role = "" ∧
        ∃ row ∈ cancelled state.outbox (roleWrite .revoke userId .direct "" req.role),
          row.queuedChange = change := by
  unfold namedCancels cancellingWrites cancelsLine
  rw [op]
  simp only
  by_cases alone : otherSources
      (collectUserRoles wording.names state.records state.now userId).1 req.role = ""
  · rw [if_neg (not_not.mpr alone)]
    simp only [flatMap_cons,flatMap_nil,append_nil,alone,true_and]
    rw [wouldCancel_eq ⟨rfl,.inr rfl⟩,mem_map]
  · rw [if_pos alone]
    simp only [flatMap_nil,not_mem_nil,alone,false_and]

theorem mem_supersededBy_deleted {gate : Option CancelGate} {grantId : Nat}
    (done : deleteDirectGrant gate state userId grantId = .ok next) (change : QueuedChange) :
    change ∈ supersededBy state.outbox next.outbox ↔ ∃ role, LostWith state userId grantId role ∧
        ∃ row ∈ cancelled state.outbox (roleWrite .revoke userId .direct "" role),
          row.queuedChange = change := by
  unfold deleteDirectGrant at done
  split at done
  · obtain ⟨_,_,written,rfl⟩ := commit_ok done
    have enqueued := enqueueRows_enqueued (fun q => single_of_mem_deltaWrites) written
    rw [enqueued.mem_supersededBy]
    have cancels (ref : String) (role : Role) (row : OutboxRow) :
        row ∈ cancelled state.outbox (roleWrite .revoke userId .direct ref role) ↔
          row ∈ cancelled state.outbox (roleWrite .revoke userId .direct "" role) := by
      rfl
    constructor
    · rintro ⟨_,isWrite,row,isCancelled,same⟩
      obtain ⟨_,listed,rfl⟩ := mem_map.mp isWrite
      rcases mem_deltaWrites.mp listed with ⟨role,impossible,-⟩ | ⟨role,lost,rfl⟩
      · cases impossible
      · exact ⟨role,mem_revokes.mp lost,row,(cancels _ role row).mp isCancelled,same⟩
    · rintro ⟨role,lost,row,isCancelled,same⟩
      exact ⟨_,mem_map_of_mem (mem_deltaWrites.mpr (.inr ⟨role,mem_revokes.mpr lost,rfl⟩)),row,
        (cancels _ role row).mpr isCancelled,same⟩
  · cases done

theorem remove_exact {gate : Option CancelGate} (op : req.op = .removeRole)
    (applies : (rehearseOne wording state req userId profile).effect = .apply)
    (applied : applyBulkOne wording gate state req
      (rehearseOne wording state req userId profile) = .ok next) :
    (∀ change, change ∈ supersededBy state.outbox next.outbox ↔
        change ∈ namedCancels wording state req userId) ↔
      RemoveNamed wording state userId req.role
        (rehearseOne wording state req userId profile).grantIds := by
  obtain ⟨mine,grant,-,-,ids⟩ := remove_applies op applies
  unfold applyBulkOne at applied
  rw [op,mine,ids] at applied
  have done : deleteDirectGrant gate state userId grant.id = .ok next := by
    simp only [foldlM_cons] at applied
    cases deleted : deleteDirectGrant gate state userId grant.id with
    | error =>
      rw [deleted] at applied
      cases applied
    | ok =>
      rw [deleted] at applied
      exact applied
  have superseded := mem_supersededBy_deleted done
  have waits (role : Role) (row : OutboxRow) :
      row ∈ cancelled state.outbox (roleWrite .revoke userId .direct "" role) ↔
        row ∈ state.outbox.queuedFor (heldBy userId role) ∧
          (row.opType = .add ∨ row.opType = .replace) ∧ row.source = .direct :=
    mem_cancelled_direct ⟨rfl,.inr rfl⟩ rfl rfl row
  rw [ids]
  constructor
  · rintro exact_ role ⟨row,waiting,gives⟩ _ isGrant
    obtain rfl := mem_singleton.mp isGrant
    have cancels := (waits role row).mpr ⟨waiting,gives⟩
    constructor
    · intro lost
      obtain ⟨alone,other,isOther,same⟩ := (mem_namedCancels_remove op).mp
        ((exact_ _).mp ((superseded _).mpr ⟨role,lost,row,cancels,rfl⟩))
      have key := key_of_cancelled cancels isOther same.symm
      exact ⟨(heldBy_injective key).2,alone⟩
    · rintro ⟨rfl,alone⟩
      obtain ⟨_,lost,_,isOther,same⟩ := (superseded _).mp
        ((exact_ _).mpr ((mem_namedCancels_remove op).mpr ⟨alone,row,cancels,rfl⟩))
      have key := key_of_cancelled isOther cancels same
      rw [← (heldBy_injective key).2]
      exact lost
  · intro named _
    rw [superseded,mem_namedCancels_remove op]
    constructor
    · rintro ⟨role,lost,row,isCancelled,same⟩
      obtain ⟨rfl,alone⟩ := (named role ⟨row,(waits role row).mp isCancelled⟩ grant.id
        mem_cons_self).mp lost
      exact ⟨alone,row,isCancelled,same⟩
    · rintro ⟨alone,row,isCancelled,same⟩
      exact ⟨req.role,(named req.role ⟨row,(waits req.role row).mp isCancelled⟩ grant.id
        mem_cons_self).mpr ⟨rfl,alone⟩,row,isCancelled,same⟩

theorem deleteDirectGrant_reviewed (gate : CancelGate) {grant : DirectGrant}
    (listed : grant ∈ state.records.grants) (mine : grant.userId = userId) :
    ∃ next, deleteDirectGrant (some (cancellationsReviewed gate)) state userId grant.id =
      .ok next := by
  have found : (state.records.grants.any fun other =>
      other.id = grant.id && other.userId = userId) = true :=
    any_eq_true.mpr ⟨grant,listed,by simp [mine]⟩
  unfold deleteDirectGrant
  rw [if_pos found]
  obtain ⟨next,_,committed,-⟩ := commit_reviewed gate state _ _
  exact ⟨next,committed⟩

end Proofs

def RowNamed (wording : RoleWording) (state : AccessState) (req : BulkRequest)
    (out : RoleOutcome) : Prop :=
  if req.op = .assignRole then AssignNamed state out.userId req.role
  else RemoveNamed wording state out.userId req.role out.grantIds

/-- A row that applies goes through, and supersedes exactly the queued changes it named where
the closure's difference moves no other role that something waits for. -/
theorem bulk_supersedes_named_iff (wording : RoleWording) (gate : CancelGate)
    (state : AccessState) (req : BulkRequest) (userId : String) (profile : Option UserProfile)
    (referenced : state.records.AssignmentsReferenced)
    (unassigned : state.records.RetiredUnassigned)
    (op : req.op = .assignRole ∨ req.op = .removeRole)
    (applies : (rehearseOne wording state req userId profile).effect = .apply) :
    ∃ next, applyBulkOne wording (some (cancellationsReviewed gate)) state req
        (rehearseOne wording state req userId profile) = .ok next ∧
      ((∀ change, change ∈ supersededBy state.outbox next.outbox ↔
          change ∈ namedCancels wording state req userId) ↔
        RowNamed wording state req (rehearseOne wording state req userId profile)) := by
  unfold RowNamed
  rcases op with op | op
  · obtain ⟨mine,-⟩ := assign_applies op applies
    obtain ⟨next,done⟩ := enqueueNamed_reviewed gate state
      (p := bulkGrant wording state.now req userId req.role .kept) rfl
    have applied : applyBulkOne wording (some (cancellationsReviewed gate)) state req
        (rehearseOne wording state req userId profile) = .ok next := by
      unfold applyBulkOne
      rw [op,mine]
      exact done
    refine ⟨next,applied,?_⟩
    rw [if_pos op,mine]
    exact assign_exact referenced unassigned op applies applied
  · obtain ⟨mine,_,listed,isMine,ids⟩ := remove_applies op applies
    obtain ⟨next,done⟩ := deleteDirectGrant_reviewed gate listed isMine
    have applied : applyBulkOne wording (some (cancellationsReviewed gate)) state req
        (rehearseOne wording state req userId profile) = .ok next := by
      unfold applyBulkOne
      rw [op,mine,ids]
      simp only [foldlM_cons]
      rw [done]
      rfl
    refine ⟨next,applied,?_⟩
    have notAssign : req.op ≠ .assignRole := by
      rw [op]
      decide
    rw [if_neg notAssign,mine]
    exact remove_exact op applies applied

namespace Trained

def member : Role := ⟨"lab","member"⟩

def entry : Role := ⟨"doors","entry"⟩

def wording : RoleWording :=
  { formatDay := toString
    describeCancels := fun _ => ""
    sha256 := fun _ => ""
    names :=
      { grantReason := fun _ => ""
        bundleName := fun bundleId => bundleId
        projectName := fun _ => none }
    findProject := fun _ => none
    formatUTC := toString
    endAfterDays := fun now days => now + days
    endsLater := fun _ _ some => Nat.lt_add_of_pos_right some }

def gate : CancelGate := { acked := [], reviewed := false, asks := true }

def profile : Option UserProfile :=
  some { name := "Ada", email := "ada@example.org", status := "active" }

def assign : BulkRequest :=
  { op := .assignRole, projectId := "lab", roleKey := "member", durationDays := 0, grantIds := [] }

theorem one_rule :
    ([⟨"doorkeeper","lab","member","doors","entry"⟩] : List MappingRule).map MappingRule.id |>.Nodup :=
  nodup_singleton _

def records : Records :=
  { Records.empty with
    rules := [⟨"doorkeeper","lab","member","doors","entry"⟩], rulesDistinct := one_rule }

def removed (role : Role) : Outbox :=
  Outbox.empty.insert (roleWrite .revoke "ada" .direct "" role).intent none

def state (role : Role) : AccessState :=
  { records := records, outbox := removed role, zitadel := fun _ => false, now := 0 }

theorem rowNamed_own : RowNamed wording (state member) assign
      (rehearseOne wording (state member) assign "ada" profile) := by
  intro _clear _ other _reached _absent row waiting
  obtain ⟨listed,waits⟩ := mem_filter.mp waiting
  have isFor := ((row.waitsFor_iff_isFor _).mp waits).1
  have own : row.isFor (heldBy "ada" member) = true := by
    rw [mem_singleton.mp listed]
    decide
  exact absurd (heldBy_injective (OutboxRow.key_of_isFor isFor own)).2 other

theorem bulk_supersedes_named_own :
    (namedCancels wording (state member) assign "ada").map QueuedChange.id = [1] ∧
    ∃ next, applyBulkOne wording (some (cancellationsReviewed gate)) (state member) assign
        (rehearseOne wording (state member) assign "ada" profile) = .ok next ∧
      ∀ change, change ∈ supersededBy (state member).outbox next.outbox ↔
        change ∈ namedCancels wording (state member) assign "ada" := by
  have applies : (rehearseOne wording (state member) assign "ada" profile).effect = .apply := by
    decide +kernel
  obtain ⟨next,applied,iff⟩ := bulk_supersedes_named_iff wording gate (state member) assign "ada"
    profile nofun nofun (.inl rfl) applies
  exact ⟨by decide +kernel,next,applied,iff.mpr rowNamed_own⟩

/-- The removal of the role that the rule brings waits: the row names nothing, and the apply
supersedes it. -/
theorem superseded_unnamed :
    (rehearseOne wording (state entry) assign "ada" profile).effect = .apply ∧
    namedCancels wording (state entry) assign "ada" = [] ∧
    (applyBulkOne wording (some (cancellationsReviewed gate)) (state entry) assign
      (rehearseOne wording (state entry) assign "ada" profile)).toOption.any (fun next =>
        decide ((supersededBy (state entry).outbox next.outbox).map QueuedChange.id = [1])) =
      true := by
  decide +kernel

end Trained

end Syndra.Planner
