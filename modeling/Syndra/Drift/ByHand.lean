/-
Removals made by hand.

Runs of sweeps, landed deliveries and whatever else happens to the ledger, the queue and the
findings.
-/

import Syndra.Drift.Sweep

namespace Syndra.Drift

open Access Propagation Ledger Observe Foundation Foundation.Grouping Foundation.Text List

inductive DriftMove where
  | sweep (input : SweepInput)
  | landed (row : Intent) (saveFails : String → Bool) (forgetFails : Bool)
  /-- Everything else: any change of the ledger, the clock, the queue and the findings. -/
  | elsewhere (records : Records) (now : Time) (outbox : Outbox) (findings : Findings)

def driftStep (state : DriftState) : DriftMove → Option DriftState
  | .sweep input => some (sweep state input).1
  | .landed row saveFails forgetFails =>
    some { state with landed := rememberPropagation saveFails forgetFails state.landed row }
  | .elsewhere records now outbox findings =>
    some { state with records := records, now := now, outbox := outbox, findings := findings }

def Enqueues (state next : DriftState) (key : HeldRole) : Prop :=
  ∃ row ∈ next.outbox.rows, row ∉ state.outbox.rows ∧ row.toIntent.Gives key

def Replays (key : HeldRole) (state : DriftState) : DriftMove → Prop
  | .sweep input => Enqueues state (sweep state input).1 key
  | _ => False

inductive Evidence where
  | observation
  | landing

/-- The move sees the role in Zitadel, or lands it there, and this is written down. -/
def Learns (key : HeldRole) : Evidence → DriftMove → Prop
  | .observation, .sweep input =>
    (∃ zit, input.concluded = some zit ∧ key ∈ buildHolderSet [] zit) ∧
      trimSpace key.userId ≠ "" ∧ input.faults.saveBase key.userId = false
  | .landing, .landed row saveFails _ =>
    row.Gives key ∧ trimSpace key.userId ≠ "" ∧ saveFails (keyField key) = false
  | _, _ => False

/-- A pass that concludes reads the memory the evidence is in. What it saw is
kept where the pass sees the role again or the ledger still gives it; a landing
is kept until a landed revoke or replace forgets it. -/
def Keeps (key : HeldRole) (evidence : Evidence) (state : DriftState) : DriftMove → Prop
  | .sweep input =>
    ∀ zit, input.concluded = some zit → match evidence with
      | .observation =>
        input.faults.mergeBases = false ∧ (key ∈ buildHolderSet [] zit ∨
            key ∈ buildHolderSet (getAllDirectGrants state.records state.now false) [])
      | .landing => input.faults.propagations = false
  | .landed row _ forgetFails =>
    match evidence with
    | .observation => True
    | .landing =>
      row.target = zitadelTarget → row.userId = key.userId →
        forgets row (keyField key) = true → forgetFails = true
  | .elsewhere _ _ _ _ => True

def Known (key : HeldRole) (state : DriftState) : Evidence → Prop
  | .observation => wasObserved state.bases key = true
  | .landing => hasLanded state.landed key = true

variable {key : HeldRole} {evidence : Evidence} {move : DriftMove} {state : DriftState}

variable {zit : List UserGrant} {next : DriftState}

theorem observedFields_of_listed (listed : key ∈ buildHolderSet [] zit) :
    keyField key ∈ under (observedFields zit) key.userId := by
  unfold buildHolderSet at listed
  rw [map_nil,nil_append,mem_flatMap] at listed
  obtain ⟨grant,mem,named⟩ := listed
  obtain ⟨role,among,rfl⟩ := mem_map.mp named
  exact mem_observedFields.mpr ⟨grant,mem,rfl,role,among,rfl⟩

theorem known_of_learns (learnt : Learns key evidence move)
    (stepped : driftStep state move = some next) : Known key next evidence := by
  cases evidence with
  | observation =>
    cases move with
    | sweep =>
      cases stepped
      obtain ⟨⟨_,concluded,listed⟩,named,saved⟩ := learnt
      obtain ⟨_,-,bases,-⟩ := sweep_concluded state concluded
      unfold Known
      rw [bases]
      exact wasObserved_recordObservedGrants (.inl (observedFields_of_listed listed))
        (.inr ⟨named,saved⟩)
    | landed | elsewhere => cases learnt
  | landing =>
    cases move with
    | sweep | elsewhere => cases learnt
    | landed =>
      cases stepped
      obtain ⟨gives,named,saved⟩ := learnt
      exact hasLanded_of_gives gives named saved

theorem onceHeld_of_known {input : SweepInput}
    (known : Known key state evidence) (kept : Keeps key evidence state (.sweep input))
    (concluded : input.concluded = some zit) :
    onceHeld (input.readBases state) (input.readLanded state) key = true := by
  unfold onceHeld
  rw [Bool.or_eq_true]
  cases evidence with
  | observation =>
    left
    unfold SweepInput.readBases
    rw [(kept zit concluded).1]
    exact known
  | landing =>
    right
    unfold SweepInput.readLanded
    have readable : input.faults.propagations = false := kept zit concluded
    rw [readable]
    exact known

theorem known_step (known : Known key state evidence)
    (kept : Keeps key evidence state move) (stepped : driftStep state move = some next) :
    Known key next evidence := by
  cases move with
  | sweep input =>
    cases stepped
    cases concluded : input.concluded with
    | none =>
      obtain ⟨-,bases,landed⟩ := sweep_unconcluded state concluded
      cases evidence with
      | observation =>
        unfold Known
        rw [bases]
        exact known
      | landing =>
        unfold Known
        rw [landed]
        exact known
    | some zit =>
      obtain ⟨_,-,bases,landed⟩ := sweep_concluded state concluded
      cases evidence with
      | landing =>
        unfold Known
        rw [landed]
        exact known
      | observation =>
        have held := onceHeld_of_known known kept concluded
        obtain ⟨readable,given⟩ := kept zit concluded
        have read : input.readBases state = state.bases := by
          unfold SweepInput.readBases
          rw [readable,if_neg Bool.false_ne_true]
        unfold Known
        rw [bases,read]
        apply wasObserved_recordObservedGrants _ (.inl known)
        by_cases listed : key ∈ buildHolderSet [] zit
        · exact .inl (observedFields_of_listed listed)
        right
        refine ⟨?_,known⟩
        rw [mem_observedByHand]
        exact ⟨given.resolve_left listed,listed,held⟩
  | landed =>
    cases stepped
    cases evidence with
    | observation => exact known
    | landing => exact hasLanded_kept known kept
  | elsewhere =>
    cases stepped
    cases evidence with
    | observation | landing => exact known

theorem not_replays_of_known (known : Known key state evidence)
    (kept : Keeps key evidence state move) : ¬ Replays key state move := by
  cases move with
  | sweep input =>
    rintro ⟨row,queued,fresh,gives⟩
    cases concluded : input.concluded with
    | none =>
      rw [(sweep_unconcluded state concluded).1] at queued
      exact fresh queued
    | some =>
      obtain ⟨_,outbox,-⟩ := sweep_concluded state concluded
      rw [outbox] at queued
      rcases mem_outbox_foldl _ _ _ _ _ _ row queued with old | ⟨_,never,replay⟩
      · exact fresh old
      rw [replay] at gives
      rw [← gives_replayIntent gives,onceHeld_of_known known kept concluded] at never
      cases never
  | landed | elsewhere => exact fun replayed => replayed

theorem hand_removals_stay {key : HeldRole} {evidence : Evidence} {start seen : DriftState}
    {first : DriftMove} {moves : List DriftMove} (learnt : Learns key evidence first)
    (stepped : driftStep start first = some seen)
    (kept : Runs.Throughout driftStep (Keeps key evidence) seen moves) :
    Runs.Throughout driftStep (fun state move => ¬ Replays key state move) seen moves ∧
      ∀ state input grants, input.snapshot = .observed false grants →
        (sweep state input).1.outbox = state.outbox := by
  constructor
  · exact Runs.throughout_of_invariant (fun state => Known key state evidence)
      known_step not_replays_of_known (known_of_learns learnt stepped) kept
  intro state input _ truncated
  have short : input.concluded = none := by
    unfold SweepInput.concluded
    rw [truncated]
  exact (sweep_unconcluded state short).1

namespace Workshop

def ledger : Records :=
  { Records.empty with
    grants := [{ id := 0, userId := "ada", projectId := "lathe", roleKey := "operator"
                 expiresAt := none, source := .direct, sourceRef := "" }]
    nextGrant := 1
    grantsDistinct := nodup_singleton _
    grantsNumbered := by decide }

def fresh : DriftState :=
  { records := ledger
    now := 0
    outbox := Outbox.empty
    bases := ∅
    landed := ∅
    findings := { items := [], next := 0 } }

def operator : HeldRole := { userId := "ada", projectId := "lathe", roleKey := "operator" }

def working : SweepFaults :=
  { directGrants := false
    rules := false
    exclusions := false
    bundleGrants := false
    mergeBases := false
    propagations := false
    pendingItems := false
    pendingGone := false
    upsertItem := fun _ => false
    retract := fun _ => false
    closeGone := fun _ => false
    pendingAdd := fun _ => false
    mintKey := fun _ => false
    insert := fun _ => false
    saveBase := fun _ => false
    forgetBase := fun _ => false
    record := false }

def live : ObservedGrant :=
  { grantId := "g1", userId := "ada", projectId := "lathe", roleKeys := ["operator"] }

def complete (grants : List ObservedGrant) : SweepInput :=
  { snapshot := .observed true grants, exclusions := [], faults := working }

def truncated : SweepInput :=
  { snapshot := .observed false [], exclusions := [], faults := working }

def baseless : SweepInput :=
  { snapshot := .observed true [], exclusions := [], faults := { working with mergeBases := true } }

theorem hand_removals_stay_workshop :
    Runs.Throughout driftStep (fun state move => ¬ Replays operator state move)
        (sweep fresh (complete [live])).1
        [.sweep (complete []),.sweep truncated,.sweep (complete [])] ∧
      ((Runs.run driftStep fresh [.sweep (complete [live]),.sweep (complete []),
          .sweep truncated,.sweep (complete [])]).any fun final =>
        final.outbox.rows.isEmpty &&
          final.findings.items.map DriftItem.driftType = [DriftType.syndraOnly]) = true := by
  have absent (state : DriftState) (recorded : operator ∈
      buildHolderSet (getAllDirectGrants state.records state.now false) []) :
      Keeps operator .observation state (.sweep (complete [])) := by
    intro zit concluded
    exact ⟨rfl,.inr recorded⟩
  refine ⟨(@hand_removals_stay operator .observation fresh _ (.sweep (complete [live])) _
    ?_ rfl ?_).1,by decide⟩
  · exact ⟨⟨_,rfl,by decide⟩,by decide,rfl⟩
  refine ⟨absent _ (by decide),?_,absent _ (by decide),trivial⟩
  intro _ concluded
  cases concluded

/-- A pass saw the grant, the next found it gone and raised it, and a third that
cannot read the merge bases queues the add again. -/
theorem removal_replayed_unread : let seen := (sweep fresh (complete [live])).1
    let gone := (sweep seen (complete [])).1
    wasObserved seen.bases operator = true ∧
      gone.findings.items.map DriftItem.driftType = [DriftType.syndraOnly] ∧
      seen.records = ledger ∧ gone.records = ledger ∧
      Enqueues gone (sweep gone baseless).1 operator := by
  refine ⟨by decide,by decide,rfl,rfl,?_⟩
  exact ⟨(replayIntent operator).freshRow none 1,by decide,by decide,by decide⟩

end Workshop

end Syndra.Drift
