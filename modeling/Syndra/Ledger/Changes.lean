/-
The access changes.

Each change runs under the access lock: it reads base holdings before anything is written,
simulates its own effect, and commits the record with the writes the closure difference
owes.
-/

import Syndra.Ledger.Records

namespace Syndra.Ledger

open Access Propagation List

namespace Records

def keepGrants (records : Records) (keep : DirectGrant → Bool) : Records :=
  { records with
    grants := records.grants.filter keep
    grantsDistinct := records.grantsDistinct.sublist (filter_sublist.map _)
    grantsNumbered := fun grant member =>
      records.grantsNumbered grant (mem_filter.mp member).1 }

def keepAssignments (records : Records) (keep : Assignment → Bool) : Records :=
  { records with
    assignments := records.assignments.filter keep
    assignmentsDistinct := records.assignmentsDistinct.sublist (filter_sublist.map _) }

/-- `ON CONFLICT DO NOTHING`: a holder keeps the pin they have. -/
def assign (records : Records) (userId bundleId versionId : String) : Records :=
  if held : (userId, bundleId) ∈
      records.assignments.map fun held => (held.userId, held.bundleId) then records
  else
    { records with
      assignments := records.assignments ++
        [{ userId := userId, bundleId := bundleId, versionId := versionId }]
      assignmentsDistinct := by
        rw [map_append]
        exact records.assignmentsDistinct.append (nodup_singleton _)
          (disjoint_singleton.mpr held) }

def retireBundle (records : Records) (bundleId : String) : Records :=
  { records.keepAssignments fun held => held.bundleId ≠ bundleId with
    bundles := records.bundles.map fun bundle =>
      if bundle.id = bundleId then { bundle with retired := true } else bundle }

def sameGrant (p : EnqueueParams) (role : String) (grant : DirectGrant) : Bool :=
  grant.userId = p.userId && grant.projectId = p.projectId && grant.roleKey = role

/-- The row `ON CONFLICT DO UPDATE` leaves: a known end is kept unless the write
sets one. -/
def renewed (p : EnqueueParams) (grant : DirectGrant) : DirectGrant :=
  { grant with
    expiresAt := if p.endRule = .set then p.expiresAt else grant.expiresAt
    source := outboxSource p
    sourceRef := p.sourceRef }

def upsertGrant (p : EnqueueParams) (records : Records) (role : String) : Records :=
  if records.grants.any (sameGrant p role) then
    { records with
      grants := records.grants.map fun grant =>
        if sameGrant p role grant then renewed p grant else grant
      grantsDistinct := by
        have ids : (records.grants.map fun grant =>
            if sameGrant p role grant then renewed p grant else grant).map DirectGrant.id =
              records.grants.map DirectGrant.id := by
          rw [map_map]
          apply map_congr_left
          intro grant _member
          change (if sameGrant p role grant then renewed p grant else grant).id = grant.id
          split <;> rfl
        rw [ids]
        exact records.grantsDistinct
      grantsNumbered := by
        intro grant member
        obtain ⟨before,present,rfl⟩ := mem_map.mp member
        split <;> exact records.grantsNumbered before present }
  else
    { records with
      grants := records.grants ++
        [{ id := records.nextGrant
           userId := p.userId
           projectId := p.projectId
           roleKey := role
           expiresAt := p.expiresAt
           source := outboxSource p
           sourceRef := p.sourceRef }]
      nextGrant := records.nextGrant + 1
      grantsDistinct := by
        rw [map_append]
        refine records.grantsDistinct.append (nodup_singleton _)
          (disjoint_singleton.mpr ?_)
        intro listed
        obtain ⟨grant,member,same⟩ := mem_map.mp listed
        exact Nat.ne_of_lt (records.grantsNumbered grant member) same
      grantsNumbered := by
        intro grant member
        rcases mem_append.mp member with old | fresh
        · exact Nat.lt_succ_of_lt (records.grantsNumbered grant old)
        · rw [mem_singleton] at fresh
          subst fresh
          exact Nat.lt_succ_self _ }

def enqueueLedger (records : Records) (p : EnqueueParams) : Records :=
  if p.opType = .revoke then records else p.roleKeys.foldl (upsertGrant p) records

def createRule (records : Records) (rule : MappingRule)
    (fresh : rule.id ∉ records.rules.map MappingRule.id) : Records :=
  { records with
    rules := records.rules ++ [rule]
    rulesDistinct := by
      rw [map_append]
      exact records.rulesDistinct.append (nodup_singleton _)
        (disjoint_singleton.mpr fresh) }

def updateRule (records : Records) (rule : MappingRule) : Records :=
  { records with
    rules := records.rules.map fun old => if old.id = rule.id then rule else old
    rulesDistinct := by
      have ids : (records.rules.map fun old => if old.id = rule.id then rule else old).map
          MappingRule.id = records.rules.map MappingRule.id := by
        rw [map_map]
        apply map_congr_left
        intro old _member
        change (if old.id = rule.id then rule else old).id = old.id
        split
        · next same => exact same.symm
        · rfl
      rw [ids]
      exact records.rulesDistinct }

def retireRule (records : Records) (id : String) : Records :=
  { records with
    rules := records.rules.filter fun rule => rule.id ≠ id
    rulesDistinct := records.rulesDistinct.sublist (filter_sublist.map _) }

end Records

structure AccessState where
  records : Records
  outbox : Outbox
  zitadel : Zitadel
  now : Time

inductive ChangeError where
  | notFound
  | retired
  | included
  | duplicate
  | renewed
  | refused (refusal : EnqueueError)
deriving DecidableEq

namespace AccessState

def personAccess (state : AccessState) (userId : String) : PersonAccess :=
  { direct := state.records.getDirectGrantsForUser state.now userId false
    byBundle := state.records.bundleRolesFor userId
    revoking := queuedRevocationsFor state.outbox state.records.grants userId }

def userBaseHoldingsExcludingBundle (state : AccessState) (userId : String)
    (excludeBundleId : Option String) : List Role :=
  baseFrom (state.personAccess userId) excludeBundleId

def userBaseHoldings (state : AccessState) (userId : String) : List Role :=
  state.userBaseHoldingsExcludingBundle userId none

def userBaseHoldingsExcludingGrant (state : AccessState) (userId : String)
    (excludeGrantId : Nat) : List Role :=
  baseFrom
    { state.personAccess userId with
      direct := (state.personAccess userId).direct.filter fun grant =>
        grant.id ≠ excludeGrantId } none

def commit (state : AccessState) (gate : Option CancelGate) (records : Records)
    (params : List EnqueueParams) : Except ChangeError AccessState :=
  match enqueueRows gate state.outbox params with
  | .error refusal => .error (.refused refusal)
  | .ok (outbox, _) => .ok { state with records := records, outbox := outbox }

end AccessState

def cascadeBundleAssignedToUser (gate : Option CancelGate) (state : AccessState)
    (userId bundleId : String) : Except ChangeError AccessState :=
  match state.records.bundles.find? (fun bundle => bundle.id = bundleId) with
  | none => .error .notFound
  | some bundle =>
    if bundle.retired then .error .retired
    else
      match state.records.latestVersion bundleId with
      | none => .error .notFound
      | some version =>
        if state.records.assignments.any fun held =>
            held.userId = userId && held.bundleId = bundleId then .ok state
        else
          state.commit gate (state.records.assign userId bundleId version.id)
            (deltaWrites userId (closureDelta
                (effectiveClosure (state.userBaseHoldings userId) state.records.rules)
                (effectiveClosure
                  (state.userBaseHoldings userId ++ state.records.effectiveRoles version.id)
                  state.records.rules))
              .bundle bundleId)

def bundleRemovalWrites (state : AccessState) (bundleId userId : String) : List EnqueueParams :=
  deltaWrites userId
    (closureDelta (effectiveClosure (state.userBaseHoldings userId) state.records.rules)
      (effectiveClosure (state.userBaseHoldingsExcludingBundle userId (some bundleId))
        state.records.rules))
    .bundle bundleId

def cascadeBundleRemovedFromUser (gate : Option CancelGate) (state : AccessState)
    (userId bundleId : String) : Except ChangeError AccessState :=
  match state.records.bundles.find? (fun bundle => bundle.id = bundleId) with
  | none => .error .notFound
  | some bundle =>
    if bundle.retired then .error .retired
    else
      state.commit gate
        (state.records.keepAssignments fun held =>
          !(held.userId = userId && held.bundleId = bundleId))
        (bundleRemovalWrites state bundleId userId)

def cascadeBundleRetired (gate : Option CancelGate) (state : AccessState) (bundleId : String) :
    Except ChangeError AccessState :=
  match state.records.bundles.find? (fun bundle => bundle.id = bundleId) with
  | none => .error .notFound
  | some bundle =>
    if bundle.retired then .error .retired
    else if state.records.retireBlocked bundleId then .error .included
    else
      state.commit gate (state.records.retireBundle bundleId)
        ((state.records.getUsersForBundle bundleId).flatMap (bundleRemovalWrites state bundleId))

def ruleChangeWrites (state : AccessState) (rulesAfter : List MappingRule) (ruleId : String) :
    List EnqueueParams :=
  state.records.getAllKnownUserIds.flatMap fun userId =>
    deltaWrites userId
      (closureDelta (effectiveClosure (state.userBaseHoldings userId) state.records.rules)
        (effectiveClosure (state.userBaseHoldings userId) rulesAfter))
      .rule ruleId

def sameLogic (rule other : MappingRule) : Bool :=
  other.sourceProject = rule.sourceProject && other.sourceRole = rule.sourceRole &&
    other.targetProject = rule.targetProject && other.targetRole = rule.targetRole

/-- The simulated rule has no id yet; the writes are stamped with the generated one. -/
def cascadeRuleCreated (gate : Option CancelGate) (state : AccessState) (rule : MappingRule) :
    Except ChangeError AccessState :=
  if fresh : rule.id ∉ state.records.rules.map MappingRule.id then
    if state.records.rules.any (sameLogic rule) then .error .duplicate
    else
      state.commit gate (state.records.createRule rule fresh)
        (ruleChangeWrites state (state.records.rules ++ [{ rule with id := "" }]) rule.id)
  else .error .duplicate

/-- The copy loop of the simulation, which stops at the first rule of that id. -/
def replaceFirst (rule : MappingRule) : List MappingRule → List MappingRule
  | [] => []
  | old :: rest => if old.id = rule.id then rule :: rest else old :: replaceFirst rule rest

def cascadeRuleUpdated (gate : Option CancelGate) (state : AccessState) (rule : MappingRule) :
    Except ChangeError AccessState :=
  if rule.id ∉ state.records.rules.map MappingRule.id then .error .notFound
  else if state.records.rules.any fun other => other.id ≠ rule.id && sameLogic rule other then
    .error .duplicate
  else
    state.commit gate (state.records.updateRule rule)
      (ruleChangeWrites state (replaceFirst rule state.records.rules) rule.id)

def cascadeRuleRetired (gate : Option CancelGate) (state : AccessState) (ruleId : String) :
    Except ChangeError AccessState :=
  if ruleId ∉ state.records.rules.map MappingRule.id then .error .notFound
  else
    state.commit gate (state.records.retireRule ruleId)
      (ruleChangeWrites state (state.records.rules.filter fun rule => rule.id ≠ ruleId) ruleId)

def ruleDelta (before after : List Role) (rules : List MappingRule) : List Role × List Role :=
  ((closureDelta (effectiveClosure before rules) (effectiveClosure after rules)).1.filter
      fun role => decide (role ∈ before) = decide (role ∈ after),
    (closureDelta (effectiveClosure before rules) (effectiveClosure after rules)).2.filter
      fun role => decide (role ∈ before) = decide (role ∈ after))

def ruleReaching (rules : List MappingRule) (reached : List Role) (role : Role) : String :=
  ((rules.find? fun rule =>
    rule.targetProject = role.projectId && rule.targetRole = role.roleKey &&
      Role.mk rule.sourceProject rule.sourceRole ∈ reached).map MappingRule.id).getD ""

def followedWrites (userId : String) (rules : List MappingRule) (before after : List Role) :
    List EnqueueParams :=
  ((ruleDelta before after rules).1.map fun role =>
    roleWrite .add userId .rule (ruleReaching rules (effectiveClosure after rules) role) role) ++
  (ruleDelta before after rules).2.map fun role =>
    roleWrite .revoke userId .rule (ruleReaching rules (effectiveClosure before rules) role) role

def followRules (state : AccessState) (p : EnqueueParams)
    (write : AccessState → Except ChangeError AccessState) :
    Except ChangeError (AccessState × List EnqueueParams) :=
  match write state with
  | .error refusal => .error refusal
  | .ok next =>
    if state.records.rules = [] then .ok (next, [])
    else .ok (next, followedWrites p.userId state.records.rules
      (state.userBaseHoldings p.userId) (next.userBaseHoldings p.userId))

def writeOwn (gate : Option CancelGate) (p : EnqueueParams) (state : AccessState) :
    Except ChangeError AccessState :=
  if p.noPropagation then .ok { state with records := state.records.enqueueLedger p }
  else
    match enqueueRow gate true state.outbox p with
    | .error refusal => .error (.refused refusal)
    | .ok (outbox, _) =>
      .ok { state with records := state.records.enqueueLedger p, outbox := outbox }

def enqueueNamed (gate : Option CancelGate) (state : AccessState) (p : EnqueueParams) :
    Except ChangeError AccessState :=
  match followRules state p (writeOwn gate p) with
  | .error refusal => .error refusal
  | .ok (next, params) => next.commit gate next.records params

def deleteDirectGrant (gate : Option CancelGate) (state : AccessState) (userId : String)
    (grantId : Nat) : Except ChangeError AccessState :=
  if state.records.grants.any fun grant => grant.id = grantId && grant.userId = userId then
    state.commit gate
      (state.records.keepGrants fun grant => !(grant.id = grantId && grant.userId = userId))
      (deltaWrites userId
        ([], (closureDelta (effectiveClosure (state.userBaseHoldings userId) state.records.rules)
          (effectiveClosure (state.userBaseHoldingsExcludingGrant userId grantId)
            state.records.rules)).2)
        .direct (toString grantId))
  else .error .notFound

/-- The sweep carries no cancel gate. -/
def expireDirectGrant (state : AccessState) (userId : String) (grantId : Nat) (lapsed : Role) :
    Except ChangeError AccessState :=
  if state.records.grants.any fun grant =>
      grant.id = grantId && grant.userId = userId && grant.lapsed state.now then
    state.commit none
      (state.records.keepGrants fun grant =>
        !(grant.id = grantId && grant.userId = userId && grant.lapsed state.now))
      (deltaWrites userId ([], (closureDelta
          (effectiveClosure (state.userBaseHoldingsExcludingGrant userId grantId ++ [lapsed])
            state.records.rules)
          (effectiveClosure (state.userBaseHoldingsExcludingGrant userId grantId)
            state.records.rules)).2)
        .direct (toString grantId))
  else if state.records.grants.any fun grant => grant.id = grantId && grant.userId = userId then
    .error .renewed
  else .error .notFound

def newerAddExists (outbox : Outbox) (seq : Nat) (grant : DirectGrant) : Bool :=
  outbox.rows.any fun row =>
    row.opType = .add && decide row.Unresolved && row.userId = grant.userId &&
      row.projectId = grant.projectId && grant.roleKey ∈ row.roleKeys &&
      row.source = grant.source && seq < row.intentSeq

def reconcileLedgerOnApplied (records : Records) (outbox : Outbox) (row : OutboxRow) : Records :=
  match row.opType with
  | .revoke => records.keepGrants fun grant =>
    !(grant.userId = row.userId && grant.projectId = row.projectId &&
      grant.roleKey ∈ row.roleKeys && grant.source = row.source &&
      !newerAddExists outbox row.intentSeq grant)
  | .replace => records.keepGrants fun grant =>
    !(grant.userId = row.userId && grant.projectId = row.projectId &&
      grant.source = .direct && grant.roleKey ∉ row.roleKeys &&
      !newerAddExists outbox row.intentSeq grant)
  | .add => records
  | .apply => records

def AccessState.applyRow (state : AccessState) (row : OutboxRow) : Option AccessState :=
  (markPropagationApplied (state.outbox.claim [row.id]) row.id).map fun outbox =>
    { state with
      records := reconcileLedgerOnApplied state.records outbox row
      outbox := outbox
      zitadel := state.zitadel.take row.toIntent }

end Syndra.Ledger
