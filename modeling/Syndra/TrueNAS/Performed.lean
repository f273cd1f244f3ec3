/-
What the reads of a plan and of an apply come to when nothing goes wrong.

Each is a function of the world it is performed in, and leaves it as it was.
-/

import Syndra.TrueNAS.Alone
import Syndra.TrueNAS.Plan

namespace Syndra.TrueNAS

open Foundation.Programs Foundation.Text List World Program

namespace World

def desired (server : Server) (world : World) (raw : List (String × RawValue)) :
    Except Failure DesiredState :=
  match decodeDesiredFields server raw with
  | .error failure => .error failure
  | .ok desired =>
    if desired.wantsHome then .ok { desired with homeRoot := world.store.homeRoot }
    else .ok desired

def folderFree (world : World) (path : String) (uid : Int) : Bool :=
  match world.target.ownerOf path with
  | none => true
  | some owner => 0 ≤ uid && owner = uid

def homeDecision (world : World) (desired : DesiredState) (username current : String)
    (uid : Int) : HomeDecision :=
  if !desired.asksHome then .nothing
  else if desired.homeRoot = "" then { path := "", note := noPlaceNote username }
  else if current ≠ "" then .nothing
  else
    let path := joinPath desired.homeRoot username
    if world.folderFree path uid then { path := path, note := "" }
    else
      { path := ""
        note := foreignFolderNote path ((world.target.ownerOf path).getD 0) username }

def quota (world : World) (desired : DesiredState) (home : String) (uid : Int) : QuotaOwed :=
  if !desired.manages fieldHomeQuota || home = "" ||
      (desired.homeQuota = 0 && !desired.homeUnlimited) then .nothing
  else
    let want := if desired.homeUnlimited then 0 else desired.homeQuota
    let dataset := datasetOf (parentPath home)
    if parentPath home ∉ world.target.homePlaces || dataset = "" then .nothing
    else
      { dataset := dataset, want := want
        owed := !quotaHeld
          (world.target.quotas.filter fun row => row.dataset = dataset && row.uid = uid) uid want }

def groupKeys (server : Server) (world : World) (names : Option (List String))
    (kept : List ApiID) : Except Failure (Option (List ApiID)) :=
  match names with
  | none => .ok none
  | some names =>
    match names.mapM (groupID server world.target.groups) with
    | .error failure => .error failure
    | .ok ids => .ok (some (ids ++ kept))

def snapshot (world : World) : Snapshot :=
  snapshotOf (world.target.users.take (subjectReadCap + 1)) world.target.groups

def GroupsWhole (world : World) : Prop := world.target.groups.length ≤ subjectReadCap

end World

section Reads

variable {server : Server} {world : World}

theorem perform_decodeDesired {raw : List (String × RawValue)} :
    (perform effect (decodeDesired server raw) world).2 =
      (world.desired server raw, world) := by
  unfold decodeDesired desired
  cases decodeDesiredFields server raw with
  | error => rfl
  | ok =>
    dsimp only
    split <;> rfl

variable {desired : DesiredState} {uid : Int} {req : PlanSubject}

theorem perform_decideHome {username current : String} :
    (perform effect (decideHome desired username current uid) world).2 =
      (.ok (world.homeDecision desired username current uid), world) := by
  unfold decideHome homeDecision
  split
  · rfl
  split
  · rfl
  split
  · rfl
  unfold statOwner folderFree
  simp only [ask_bind,perform_ask,effect]
  cases owned : world.target.ownerOf (joinPath desired.homeRoot username) with
  | none => rfl
  | some =>
    simp only [done_bind,homeAt]
    split <;> rfl

theorem perform_quotaOwed {home : String} : (perform effect (quotaOwed desired home uid) world).2 =
      (.ok (world.quota desired home uid), world) := by
  unfold quotaOwed quota
  split
  · rfl
  simp only [perform_ask,effect]
  split <;> rfl

theorem perform_readGroups (whole : world.GroupsWhole) :
    (perform effect readGroups world).2 = (.ok world.target.groups, world) := by
  unfold World.GroupsWhole at whole
  have taken : world.target.groups.take (subjectReadCap + 1) = world.target.groups :=
    take_of_length_le (by omega)
  unfold readGroups
  simp only [perform_ask,effect,taken]
  rw [if_neg (by omega)]
  rfl

theorem perform_readGroups_cut (cut : ¬ world.GroupsWhole) :
    (perform effect readGroups world).2 = (.error groupsTruncated, world) := by
  unfold World.GroupsWhole at cut
  have long : (world.target.groups.take (subjectReadCap + 1)).length > subjectReadCap := by
    rw [length_take]
    omega
  unfold readGroups
  simp only [perform_ask,effect]
  rw [if_pos long]
  rfl

theorem perform_groupWrite (whole : world.GroupsWhole) (names : Option (List String))
    (kept : List ApiID) :
    (perform effect (groupWrite server names kept) world).2 =
      (world.groupKeys server names kept, world) := by
  unfold groupWrite groupKeys
  cases names with
  | none => rfl
  | some names =>
    dsimp only
    have keys : (perform effect (groupIDsFor server names) world).2 =
        (names.mapM (groupID server world.target.groups), world) := by
      unfold groupIDsFor
      split
      · next empty =>
        subst empty
        rfl
      · rw [perform_bind,perform_readGroups whole]
        rfl
    rw [perform_bind,keys]
    cases names.mapM (groupID server world.target.groups) with
    | error | ok => rfl

theorem perform_groupWrite_cases (names : Option (List String)) (kept : List ApiID) :
    (perform effect (groupWrite server names kept) world).2 =
        (world.groupKeys server names kept, world) ∨
      ∃ failure, (perform effect (groupWrite server names kept) world).2 =
        (.error failure, world) := by
  by_cases whole : world.GroupsWhole
  · exact .inl (perform_groupWrite whole names kept)
  match names with
  | none => exact .inl rfl
  | some [] => exact .inl rfl
  | some (name :: rest) =>
    refine .inr ⟨groupsTruncated,?_⟩
    dsimp only [groupWrite,groupIDsFor]
    rw [if_neg (cons_ne_nil name rest),bind_assoc,perform_bind,
      perform_readGroups_cut whole]
    rfl

theorem perform_subjectWhere (whole : world.GroupsWhole) {filter : UserFilter} :
    (perform effect (subjectWhere filter) world).2 = (.ok (world.find filter), world) := by
  rw [subjectWhere_eq,perform_ask]
  simp only [effect]
  rw [perform_bind,perform_readGroups whole]
  rfl

def World.plannedNamed (server : Server) (world : World) (subject name : String)
    (desired : DesiredState) : Option Subject → Planned
  | some current =>
    let home := world.homeDecision desired current.username current.home current.uid
    let change := decideChange (some current) desired home
    .converge current desired change
      (world.quota desired (change.applyTo current).home current.uid)
  | none =>
    if world.snapshot.truncated then .blocked (truncatedPlan server subject)
    else .create name desired

def World.planned (server : Server) (world : World) (req : PlanSubject) : Planned :=
  match world.desired server req.desired with
  | .error failure => .blocked (blockedPlan req.subject failure.text)
  | .ok desired =>
    match world.bindingOf req.subject with
    | some binding =>
      world.plannedNamed server req.subject binding.username desired
        (world.snapshot.byName binding.username)
    | none =>
      let name := world.derivedName server req.subject req.email
      match world.snapshot.byName name with
      | some existing =>
        .blocked (conflictPlan server req.subject name existing world.claimed)
      | none => world.plannedNamed server req.subject name desired none

theorem perform_planNamed {subject name : String} {found : Option Subject} :
    (perform effect (planNamed server subject name desired world.snapshot found) world).2 =
      (world.plannedNamed server subject name desired found, world) := by
  cases found with
  | none =>
    dsimp only [planNamed,plannedNamed]
    split <;> rfl
  | some =>
    unfold planNamed planConverge
    rw [perform_bind,perform_decideHome]
    rw [perform_bind,perform_quotaOwed]
    rfl

theorem perform_planDecide :
    (perform effect (planDecide server req world.snapshot world.claimed) world).2 =
      (world.planned server req, world) := by
  unfold planDecide planned
  rw [perform_bind,perform_decodeDesired]
  cases world.desired server req.desired with
  | error => rfl
  | ok =>
    dsimp only
    unfold getBinding
    rw [ask_bind,perform_ask]
    have read : world.effect (.getBinding req.subject) =
        (.ok (world.bindingOf req.subject), world) := rfl
    rw [read]
    cases world.bindingOf req.subject with
    | some => exact perform_planNamed
    | none =>
      simp only [done_bind]
      unfold derivedName
      cases world.snapshot.byName (deriveUsername server req.email req.subject
          (claimedByOther world.claimed req.subject)) with
      | some existing => rfl
      | none => exact perform_planNamed

theorem perform_planOne :
    (perform effect (planOne server req world.snapshot world.claimed) world).2 =
      ((world.planned server req).outcome server req.subject, world) := by
  unfold planOne
  rw [perform_bind,perform_planDecide]
  rfl

end Reads

variable {server : Server} {snapshot : Snapshot} {claimed : List (String × String)}

theorem reads_decodeDesired (raw : List (String × RawValue)) :
    (decodeDesired server raw).Only Request.Reads := by
  unfold decodeDesired
  split
  · trivial
  split
  · refine ⟨trivial,fun answer => ?_⟩
    cases answer with
    | error | ok => trivial
  · trivial

theorem reads_planNamed {subject name : String} {desired : DesiredState} {found : Option Subject} :
    (planNamed server subject name desired snapshot found).Only Request.Reads := by
  cases found with
  | none => exact only_ite trivial trivial
  | some =>
    refine only_except (only_decideHome fun _ => trivial) (fun _ => trivial) fun _ => ?_
    exact only_except (only_quotaOwed trivial fun _ _ => trivial) (fun _ => trivial)
      fun _ => trivial

theorem reads_planOne (req : PlanSubject) :
    (planOne server req snapshot claimed).Only Request.Reads := by
  refine only_bind (only_except (reads_decodeDesired _) (fun _ => trivial) fun desired => ?_)
    fun _ => trivial
  refine only_except ⟨trivial,fun _ => trivial⟩ (fun _ => trivial) fun binding => ?_
  cases binding with
  | some => exact reads_planNamed
  | none =>
    dsimp only
    split
    · trivial
    · exact reads_planNamed

theorem reads_planAgainst (subjects : List PlanSubject) (current : Bool) :
    (planAgainst server subjects snapshot current).Only Request.Reads := by
  refine only_except ⟨trivial,fun _ => trivial⟩ (fun _ => trivial) fun claimed => ?_
  refine only_bind ?_ fun _ => trivial
  induction subjects with
  | nil => trivial
  | cons req rest ih =>
    exact only_bind (reads_planOne req) fun _ => only_bind ih fun _ => trivial

/-- No request of a plan changes the store or the target, whatever the answers so far were
and whatever happens in between. -/
theorem handlePlan_writes_nothing (mirror : Option Snapshot) (subjects : List PlanSubject)
    (acknowledged : Bool) :
    (handlePlan server mirror subjects acknowledged).Only fun request =>
      ∀ (world : World) (mishap : Option Mishap), (world.answer request mishap).2 = world := by
  have reads : (handlePlan server mirror subjects acknowledged).Only Request.Reads := by
    unfold handlePlan
    split
    · trivial
    refine only_except ?_ (fun _ => ?_) fun _ => reads_planAgainst subjects true
    · refine only_except ⟨trivial,fun _ => trivial⟩ (fun _ => trivial) fun _ => ?_
      exact only_except (only_readGroups fun _ => trivial) (fun _ => trivial) fun _ => trivial
    · cases mirror with
      | none => trivial
      | some => exact reads_planAgainst subjects false
  exact reads.mono fun _ => answer_of_reads

end Syndra.TrueNAS
