/-
The drift sweep over Zitadel.

One pass compares the last observation of Zitadel with the ledger. A live grant nothing
explains becomes a finding.
-/

import Syndra.Drift.Explained
import Syndra.Drift.Memory
import Syndra.Foundation.Runs

namespace Syndra.Drift

open Access Propagation Ledger Observe Foundation.Grouping Foundation.Text List

inductive DriftType where
  | targetOnly
  | syndraOnly
deriving DecidableEq

inductive DriftStatus where
  | pendingTriage
  | attributed
  | revoked
  | markedExternal
  | resolved
deriving DecidableEq

structure DriftItem where
  id : Nat
  target : String
  userId : String
  projectId : String
  roleKeys : List String
  zitadelGrantId : String
  driftType : DriftType
  status : DriftStatus
deriving DecidableEq

structure Findings where
  items : List DriftItem
  next : Nat

def DriftItem.sameFinding (first second : DriftItem) : Bool :=
  first.target = second.target && first.userId = second.userId &&
    first.projectId = second.projectId && first.driftType = second.driftType &&
      first.roleKeys = second.roleKeys

/-- The findings and whether a new one was written; an open one is not doubled. -/
def upsertDriftItem (findings : Findings) (key : HeldRole) (grantId : String)
    (driftType : DriftType) : Findings × Bool :=
  let item : DriftItem :=
    { id := findings.next
      target := zitadelTarget
      userId := key.userId
      projectId := key.projectId
      roleKeys := [key.roleKey]
      zitadelGrantId := grantId
      driftType := driftType
      status := .pendingTriage }
  if findings.items.any fun known => known.status = .pendingTriage && known.sameFinding item then
    (findings, false)
  else ({ items := findings.items ++ [item], next := findings.next + 1 }, true)

def claimDrift (findings : Findings) (id : Nat) (status : DriftStatus) : Findings :=
  { findings with
    items := findings.items.map fun item =>
      if item.id = id && item.status = .pendingTriage then { item with status := status }
      else item }

def pendingDriftItems (findings : Findings) (target : String) : List DriftItem :=
  findings.items.filter fun item => item.target = target && item.status = .pendingTriage

inductive Snapshot where
  | unreadable
  | noObservation
  | observed (complete : Bool) (grants : List ObservedGrant)

structure SweepFaults where
  directGrants : Bool
  rules : Bool
  exclusions : Bool
  bundleGrants : Bool
  mergeBases : Bool
  propagations : Bool
  pendingItems : Bool
  pendingGone : Bool
  upsertItem : HeldRole → Bool
  retract : Nat → Bool
  closeGone : Nat → Bool
  pendingAdd : HeldRole → Bool
  mintKey : HeldRole → Bool
  insert : HeldRole → Bool
  saveBase : String → Bool
  forgetBase : String → Bool
  record : Bool

structure SweepInput where
  snapshot : Snapshot
  exclusions : List ExternalGrantExclusion
  faults : SweepFaults

inductive UnreconciledReason where
  | unreachable
  | truncated
  | findingsUnrecorded
deriving DecidableEq

inductive Reconciliation where
  | reconciled
  | unreconciled (reason : UnreconciledReason)
deriving DecidableEq

structure DriftResult where
  target : String
  zitadelGrants : Nat
  driftItemsCreated : Nat
  driftItemsRetracted : Nat
  driftItemsClosedGone : Nat
  reEnqueued : Nat
  truncated : Bool
  writeFailures : Nat
  halted : Bool
  reason : String
  reconciliation : Option Reconciliation
deriving DecidableEq

inductive SweepError where
  | snapshot
  | directGrants
  | rules
  | exclusions
  | bundleGrants
deriving DecidableEq

structure DriftState where
  records : Records
  now : Time
  outbox : Outbox
  bases : FieldMemory
  landed : FieldMemory
  findings : Findings

structure Raised where
  findings : Findings
  created : Nat
  writeFailures : Nat

def raise (faults : SweepFaults) (key : HeldRole) (grantId : String) (driftType : DriftType)
    (out : Raised) : Raised :=
  if faults.upsertItem key then { out with writeFailures := out.writeFailures + 1 }
  else
    let (findings, inserted) := upsertDriftItem out.findings key grantId driftType
    { out with
      findings := findings
      created := if inserted then out.created + 1 else out.created }

def raiseTargetOnly (faults : SweepFaults) (sets : IntentSets)
    (exclusions : List ExternalGrantExclusion) (zit : List UserGrant) (findings : Findings) :
    Raised :=
  (zit.flatMap fun grant =>
    grant.roleKeys.map fun role => (HeldRole.mk grant.userId grant.projectId role, grant.id)).foldl
      (fun out live =>
        if explained sets exclusions zitadelTarget live.1 then out
        else raise faults live.1 live.2 .targetOnly out)
      { findings := findings, created := 0, writeFailures := 0 }

def sharedSource (explain : String → Option IntentSource) :
    List String → Option IntentSource → Option IntentSource
  | [], source => source
  | role :: rest, source =>
    match explain role with
    | none => none
    | some got =>
      if source = none || source = some got then sharedSource explain rest (some got) else none

def retractionStatus (source : IntentSource) : DriftStatus :=
  if source = .exclusion then .markedExternal else .attributed

def closeFindings (unreadable : Bool) (failed : Nat → Bool) (close : DriftItem → Option DriftStatus)
    (findings : Findings) : Findings × Nat :=
  if unreadable then (findings, 0)
  else
    ((pendingDriftItems findings zitadelTarget).filter fun item =>
      item.driftType = .targetOnly).foldl
        (fun out item =>
          match close item with
          | none => out
          | some status =>
            if failed item.id then out else (claimDrift out.1 item.id status, out.2 + 1))
        (findings, 0)

def retractExplained (faults : SweepFaults) (sets : IntentSets)
    (exclusions : List ExternalGrantExclusion) (findings : Findings) : Findings × Nat :=
  closeFindings faults.pendingItems faults.retract
    (fun item =>
      (sharedSource (fun role => explainedBy sets exclusions zitadelTarget
        (HeldRole.mk item.userId item.projectId role)) item.roleKeys none).map retractionStatus)
    findings

def closeGoneDrift (faults : SweepFaults) (zitSet : List HeldRole) (findings : Findings) :
    Findings × Nat :=
  closeFindings faults.pendingGone faults.closeGone
    (fun item =>
      if item.roleKeys.any fun role => HeldRole.mk item.userId item.projectId role ∈ zitSet then
        none
      else some .resolved)
    findings

def pendingOutboxAddExists (outbox : Outbox) (key : HeldRole) : Bool :=
  outbox.rows.any fun row =>
    row.opType = .add && row.target = zitadelTarget && row.userId = key.userId &&
      row.projectId = key.projectId && key.roleKey ∈ row.roleKeys && decide row.Unresolved

inductive InsertError where
  | failed
  | supersededByRevocation
deriving DecidableEq

def replayIntent (key : HeldRole) : Intent :=
  { target := zitadelTarget
    opType := .add
    userId := key.userId
    projectId := key.projectId
    roleKeys := [key.roleKey]
    source := .direct
    sourceRef := ""
    withdrawsOnly := false }

/-- The statement does not ask for the revocation's target. -/
def revocationCovers (outbox : Outbox) (key : HeldRole) : Bool :=
  outbox.rows.any fun row =>
    row.userId = key.userId && row.projectId = key.projectId && decide row.Unresolved &&
      ((row.opType = .revoke && key.roleKey ∈ row.roleKeys) ||
        (row.opType = .replace && key.roleKey ∉ row.roleKeys))

def insertPendingPropagation (failed : Bool) (outbox : Outbox) (key : HeldRole) :
    Except InsertError Outbox :=
  if failed then .error .failed
  else if revocationCovers outbox key then .error .supersededByRevocation
  else .ok (outbox.insert (replayIntent key) none)

structure Absences extends Raised where
  outbox : Outbox
  observedByHand : List HeldRole
  reEnqueued : Nat

def judgeAbsent (faults : SweepFaults) (bases landed : FieldMemory) (zitSet : List HeldRole)
    (out : Absences) (key : HeldRole) : Absences :=
  if key ∈ zitSet then out
  else if wasObserved bases key || hasLanded landed key then
    { out with
      toRaised := raise faults key "" .syndraOnly out.toRaised
      observedByHand := out.observedByHand ++ [key] }
  else if !faults.pendingAdd key && pendingOutboxAddExists out.outbox key then out
  else if faults.mintKey key then { out with writeFailures := out.writeFailures + 1 }
  else
    match insertPendingPropagation (faults.insert key) out.outbox key with
    | .error .supersededByRevocation => out
    | .error .failed => { out with writeFailures := out.writeFailures + 1 }
    | .ok outbox => { out with outbox := outbox, reEnqueued := out.reEnqueued + 1 }

def haltedResult : DriftResult :=
  { target := zitadelTarget
    zitadelGrants := 0
    driftItemsCreated := 0
    driftItemsRetracted := 0
    driftItemsClosedGone := 0
    reEnqueued := 0
    truncated := false
    writeFailures := 0
    halted := false
    reason := ""
    reconciliation := none }

def recorded (faults : SweepFaults) (outcome : Reconciliation) : Option Reconciliation :=
  if faults.record then none else some outcome

def SweepInput.readBases (input : SweepInput) (state : DriftState) : FieldMemory :=
  if input.faults.mergeBases then ∅ else state.bases

def SweepInput.readLanded (input : SweepInput) (state : DriftState) : FieldMemory :=
  if input.faults.propagations then ∅ else state.landed

def judgeAbsences (state : DriftState) (input : SweepInput) (zit : List UserGrant)
    (raised : Raised) : Absences :=
  (buildHolderSet (getAllDirectGrants state.records state.now false) []).foldl
    (judgeAbsent input.faults (input.readBases state) (input.readLanded state)
      (buildHolderSet [] zit))
    { raised with
      outbox := state.outbox
      observedByHand := []
      reEnqueued := 0 }

/-- The half of a pass that only a complete observation permits. -/
def concludeAbsence (state : DriftState) (input : SweepInput) (zit : List UserGrant)
    (raised : Raised) (result : DriftResult) : DriftState × DriftResult :=
  let (closedGone, gone) := closeGoneDrift input.faults (buildHolderSet [] zit) raised.findings
  let absences := judgeAbsences state input zit { raised with findings := closedGone }
  let (written, unsaved) := recordObservedGrants input.faults.saveBase input.faults.forgetBase
    state.bases zit absences.observedByHand (input.readBases state)
  let failures := absences.writeFailures + unsaved
  ({ state with
      outbox := absences.outbox
      bases := written
      findings := absences.findings },
    { result with
      driftItemsCreated := absences.created
      driftItemsClosedGone := gone
      reEnqueued := absences.reEnqueued
      writeFailures := failures
      reconciliation := recorded input.faults
        (if 0 < failures then .unreconciled .findingsUnrecorded else .reconciled) })

def sweepObserved (state : DriftState) (input : SweepInput) (complete : Bool)
    (grants : List ObservedGrant) : DriftState × DriftResult :=
  let zit := observedToUserGrants grants
  let sets := intentSets state.records state.now
  let raised := raiseTargetOnly input.faults sets input.exclusions zit state.findings
  let (findings, retracted) := retractExplained input.faults sets input.exclusions raised.findings
  let result : DriftResult :=
    { haltedResult with
      zitadelGrants := zit.length
      driftItemsCreated := raised.created
      driftItemsRetracted := retracted
      truncated := !complete
      writeFailures := raised.writeFailures }
  if complete then
    concludeAbsence state input zit { raised with findings := findings } result
  else
    ({ state with findings := findings },
      { result with reconciliation := recorded input.faults (.unreconciled .truncated) })

/-- The tables after a pass, and what it returns. A failed read of the ledger's
own tables aborts it before anything is written. -/
def sweep (state : DriftState) (input : SweepInput) : DriftState × Except SweepError DriftResult :=
  match input.snapshot with
  | .unreadable => (state, .error .snapshot)
  | .noObservation =>
    (state, .ok { haltedResult with
      halted := true
      reason := "not_checked_yet"
      reconciliation := recorded input.faults (.unreconciled .unreachable) })
  | .observed complete grants =>
    if input.faults.directGrants then (state, .error .directGrants)
    else if input.faults.rules then (state, .error .rules)
    else if input.faults.exclusions then (state, .error .exclusions)
    else if input.faults.bundleGrants then (state, .error .bundleGrants)
    else
      let (next, result) := sweepObserved state input complete grants
      (next, .ok result)

def SweepInput.concluded (input : SweepInput) : Option (List UserGrant) :=
  match input.snapshot with
  | .observed true grants =>
    if input.faults.directGrants || input.faults.rules || input.faults.exclusions ||
        input.faults.bundleGrants then none
    else some (observedToUserGrants grants)
  | _ => none

def onceHeld (bases landed : FieldMemory) (key : HeldRole) : Bool :=
  wasObserved bases key || hasLanded landed key

variable {key : HeldRole}

theorem mem_observedByHand_judgeAbsent {faults : SweepFaults} {bases landed : FieldMemory}
    {zitSet : List HeldRole} {out : Absences} {judged : HeldRole} :
    key ∈ (judgeAbsent faults bases landed zitSet out judged).observedByHand ↔
      (judged = key ∧ key ∉ zitSet ∧ onceHeld bases landed key = true) ∨
        key ∈ out.observedByHand := by
  unfold judgeAbsent
  split
  · next present =>
    constructor
    · exact .inr
    rintro (⟨rfl,absent,-⟩ | listed)
    · exact absurd present absent
    · exact listed
  · next absent =>
    split
    · next held =>
      rw [mem_append,mem_singleton]
      constructor
      · rintro (listed | rfl)
        · exact .inr listed
        · exact .inl ⟨rfl,absent,held⟩
      · rintro (⟨rfl,-⟩ | listed)
        · exact .inr rfl
        · exact .inl listed
    · next never =>
      have unheld : ¬ (judged = key ∧ key ∉ zitSet ∧ onceHeld bases landed key = true) := by
        rintro ⟨rfl,-,held⟩
        exact never held
      rw [or_iff_right unheld]
      split
      · rfl
      split
      · rfl
      split <;> rfl

theorem outbox_judgeAbsent (faults : SweepFaults) (bases landed : FieldMemory)
    (zitSet : List HeldRole) (out : Absences) (key : HeldRole) :
    (judgeAbsent faults bases landed zitSet out key).outbox = out.outbox ∨
      onceHeld bases landed key = false ∧ (judgeAbsent faults bases landed zitSet out key).outbox =
          out.outbox.insert (replayIntent key) none := by
  unfold judgeAbsent
  split
  · exact .inl rfl
  split
  · exact .inl rfl
  rename_i never
  split
  · exact .inl rfl
  split
  · exact .inl rfl
  split
  · exact .inl rfl
  · exact .inl rfl
  rename_i outbox written
  right
  refine ⟨Bool.eq_false_iff.mpr never,?_⟩
  unfold insertPendingPropagation at written
  split at written
  · cases written
  split at written
  · cases written
  · cases written
    rfl

variable {input : SweepInput}

variable {zit : List UserGrant}

theorem mem_observedByHand {state : DriftState} {raised : Raised} :
    key ∈ (judgeAbsences state input zit raised).observedByHand ↔
      key ∈ buildHolderSet (getAllDirectGrants state.records state.now false) [] ∧
        key ∉ buildHolderSet [] zit ∧
          onceHeld (input.readBases state) (input.readLanded state) key = true := by
  refine (foldl_collects (fun (out : Absences) key => key ∈ out.observedByHand) _
    (fun judged key => judged = key ∧ key ∉ buildHolderSet [] zit ∧
      onceHeld (input.readBases state) (input.readLanded state) key = true)
    (fun out judged key => mem_observedByHand_judgeAbsent) _ _ key).trans ?_
  rw [or_iff_left not_mem_nil]
  constructor
  · rintro ⟨_,listed,rfl,rest⟩
    exact ⟨listed,rest⟩
  · rintro ⟨listed,rest⟩
    exact ⟨key,listed,rfl,rest⟩

theorem mem_outbox_foldl (faults : SweepFaults) (bases landed : FieldMemory)
    (zitSet judged : List HeldRole) (out : Absences) (row : OutboxRow)
    (mem : row ∈ (judged.foldl (judgeAbsent faults bases landed zitSet) out).outbox.rows) :
    row ∈ out.outbox.rows ∨
      ∃ key, onceHeld bases landed key = false ∧ row.toIntent = replayIntent key := by
  induction judged generalizing out with
  | nil => exact .inl mem
  | cons first _ ih =>
    rcases ih _ mem with before | replayed
    · rcases outbox_judgeAbsent faults bases landed zitSet out first with same | ⟨never,added⟩
      · rw [same] at before
        exact .inl before
      rw [added,Outbox.mem_insert] at before
      rcases before with old | rfl
      · exact .inl old
      · exact .inr ⟨_,never,rfl⟩
    · exact .inr replayed

theorem gives_replayIntent {other : HeldRole} (gives : (replayIntent key).Gives other) :
    other = key := by
  obtain ⟨-,person,project⟩ := Intent.scope_of_effect gives
  have listed : other.roleKey ∈ [key.roleKey] := by
    by_contra unlisted
    exact Bool.noConfusion (Intent.effect_unlisted gives unlisted)
  have role := mem_singleton.mp listed
  cases other
  cases key
  simp only [HeldRole.mk.injEq]
  exact ⟨person.symm,project.symm,role⟩

theorem sweep_unconcluded (state : DriftState) (short : input.concluded = none) :
    (sweep state input).1.outbox = state.outbox ∧ (sweep state input).1.bases = state.bases ∧
      (sweep state input).1.landed = state.landed := by
  unfold SweepInput.concluded at short
  unfold sweep
  cases shot : input.snapshot with
  | unreadable | noObservation => exact ⟨rfl,rfl,rfl⟩
  | observed complete =>
    simp only [shot] at short ⊢
    split
    · exact ⟨rfl,rfl,rfl⟩
    rename_i direct
    split
    · exact ⟨rfl,rfl,rfl⟩
    rename_i rules
    split
    · exact ⟨rfl,rfl,rfl⟩
    rename_i exclusions
    split
    · exact ⟨rfl,rfl,rfl⟩
    rename_i bundles
    cases complete with
    | false => exact ⟨rfl,rfl,rfl⟩
    | true => simp [direct,rules,exclusions,bundles] at short

theorem sweep_concluded (state : DriftState) (concluded : input.concluded = some zit) :
    ∃ raised, (sweep state input).1.outbox = (judgeAbsences state input zit raised).outbox ∧
      (sweep state input).1.bases = (recordObservedGrants input.faults.saveBase
        input.faults.forgetBase state.bases zit
          (judgeAbsences state input zit raised).observedByHand (input.readBases state)).1 ∧
      (sweep state input).1.landed = state.landed := by
  unfold SweepInput.concluded at concluded
  split at concluded
  · next grants shot =>
    split at concluded
    · cases concluded
    rename_i clean
    cases concluded
    simp only [Bool.or_eq_true,not_or] at clean
    obtain ⟨⟨⟨direct,rules⟩,exclusions⟩,bundles⟩ := clean
    unfold sweep
    rw [shot]
    simp only [direct,rules,exclusions,bundles]
    exact ⟨_,rfl,rfl,rfl⟩
  · cases concluded

end Syndra.Drift
