/-
The change that was approved, and the change that lands.

A plan is made in one state of the target and applied in another, over the same
bindings. The fingerprint ties the two together in everything the decision reads of
the account but its home.
-/

import Syndra.TrueNAS.Performed

namespace Syndra.TrueNAS

open Foundation.Buckets Foundation.Programs Foundation.Text List World Target Program

/-! ### What a fingerprint tells -/

structure SameState (first second : Subject) : Prop where
  username : first.username = second.username
  uid : first.uid = second.uid
  enabled : first.enabled = second.enabled
  smbEnabled : first.smbEnabled = second.smbEnabled
  groups : sortStrings first.groups = sortStrings second.groups

private theorem toString_bool_injective : Function.Injective (toString : Bool → String) := by
  intro first second same
  cases first with
  | false =>
    cases second with
    | false => rfl
    | true => exact absurd same (by decide)
  | true =>
    cases second with
    | false => exact absurd same (by decide)
    | true => rfl

section Fingerprints

variable {server : Server} (collisionFree : Function.Injective server.sha256)

include collisionFree

private theorem fingerprintFields_eq {first second : Option Subject}
    (same : fingerprintSubject server first = fingerprintSubject server second) :
    fingerprintFields first = fingerprintFields second :=
  Foundation.Framing.frameText_injective (collisionFree (hexadecimal_injective same))

private theorem sameState_of_fingerprint {first second : Subject}
    (same : fingerprintSubject server (some first) = fingerprintSubject server (some second)) :
    SameState first second := by
  have fields := fingerprintFields_eq collisionFree same
  simp only [fingerprintFields,cons_append,cons.injEq,true_and]
    at fields
  obtain ⟨username,uid,enabled,smbEnabled,groups⟩ := fields
  exact ⟨username,toString_int_injective uid,toString_bool_injective enabled,
    toString_bool_injective smbEnabled,groups⟩

private theorem fingerprint_none_ne {subject : Subject} :
    fingerprintSubject server none ≠ fingerprintSubject server (some subject) := by
  intro same
  have fields := fingerprintFields_eq collisionFree same
  simp [fingerprintFields] at fields

end Fingerprints

theorem SameState.decideChange {first second : Subject} (same : SameState first second)
    (desired : DesiredState) (home : HomeDecision) :
    decideChange (some first) desired home = decideChange (some second) desired home := by
  unfold TrueNAS.decideChange sameSet
  simp only [Option.all_some,Option.any_some,same.groups,same.enabled,same.smbEnabled]

/-! ### What an apply writes -/

section Writes

variable {server : Server} {world : World}

variable {exchange : Exchange Answer} {subject : String}

variable {First Second Result : Type} {desired : DesiredState} {binding : Binding}

private theorem mem_perform_bind_of_quiet {program : Call First}
    {next : First → Call Second} (quiet : program.Only Request.Quiet)
    (writes : ¬ exchange.request.Quiet)
    (mem : exchange ∈ (perform effect (program >>= next) world).1) :
    exchange ∈ (perform effect (next (perform effect program world).2.1)
      (perform effect program world).2.2).1 := by
  rw [perform_bind] at mem
  rcases mem_append.mp mem with first | later
  · exact absurd ((ran_performed program world).only quiet exchange first) writes
  · exact later

private theorem not_mem_perform_of_quiet {program : Call Result}
    (writes : ¬ exchange.request.Quiet) (mem : exchange ∈ (perform effect program world).1)
    (quiet : program.Only Request.Quiet) : False :=
  writes ((ran_performed program world).only quiet exchange mem)

private theorem converge_writes {current : Subject} (writes : ¬ exchange.request.Quiet)
    (mem : exchange ∈ (perform effect (converge server subject desired current) world).1) :
    ∃ keys, world.groupKeys server (decideChange (some current) desired .nothing).groups
        current.builtinGroups = .ok keys ∧
      exchange.request = .userUpdate current.id
        (updateOf (decideChange (some current) desired
          (world.homeDecision desired current.username current.home current.uid)) keys) := by
  have plain {Result : Type} {program : Call Result} (only : program.Only Request.Plain) :
      program.Only Request.Quiet := only.mono fun _ => quiet_of_plain
  have mem := mem_perform_bind_of_quiet (plain (only_of_neutral (neutral_groupWrite _ _ _))) writes mem
  rcases perform_groupWrite_cases (decideChange (some current) desired .nothing).groups
    current.builtinGroups with read | ⟨failure,failed⟩
  · rw [read] at mem
    cases keyed : world.groupKeys server (decideChange (some current) desired .nothing).groups
        current.builtinGroups with
    | error failure =>
      rw [keyed] at mem
      cases mem
    | ok keys =>
      rw [keyed] at mem
      have mem := mem_perform_bind_of_quiet (plain (only_of_neutral neutral_decideHome)) writes mem
      rw [perform_decideHome] at mem
      dsimp only at mem
      split at mem
      · exact (not_mem_perform_of_quiet writes mem
          (plain (only_of_neutral neutral_convergeUnwritten))).elim
      rw [perform_ask] at mem
      rcases mem_cons.mp mem with rfl | later
      · exact ⟨keys,rfl,rfl⟩
      refine (not_mem_perform_of_quiet writes later ?_).elim
      split
      · trivial
      · exact plain (only_of_neutral neutral_convergeWritten)
  · rw [failed] at mem
    cases mem

/-! A request that writes no account makes no folder either. -/

private theorem owners_of_quiet {request : Request} (quiet : request.Quiet) :
    (world.effect request).2.target.owners = world.target.owners := by
  cases request with
  | userUpdate | userCreate => exact quiet.elim
  | groupCreate =>
    simp only [effect,createGroup]
    split <;> rfl
  | groupDelete =>
    simp only [effect,deleteGroup]
    split <;> rfl
  | userDelete =>
    simp only [effect,deleteUser]
    split <;> rfl
  | self | stat =>
    simp only [effect]
    split <;> rfl
  | _ => rfl

private theorem owners_perform {program : Call Result} (quiet : program.Only Request.Quiet) :
    (perform effect program world).2.2.target.owners = world.target.owners := by
  induction program generalizing world with
  | done => rfl
  | ask _ _ ih =>
    exact (ih _ (quiet.2 _)).trans (owners_of_quiet quiet.1)

private theorem exists_after_quiet {program : Call First} {next : First → Call Second}
    (quiet : program.Only Request.Quiet) (writes : ¬ exchange.request.Quiet)
    (mem : exchange ∈ (perform effect (program >>= next) world).1) :
    ∃ value later, later.target.owners = world.target.owners ∧
      exchange ∈ (perform effect (next value) later).1 :=
  ⟨_,_,owners_perform quiet,mem_perform_bind_of_quiet quiet writes mem⟩

theorem homeDecision_congr {other : World} (owners : other.target.owners = world.target.owners)
    (desired : DesiredState) (username current : String) (uid : Int) :
    other.homeDecision desired username current uid =
      world.homeDecision desired username current uid := by
  unfold homeDecision folderFree ownerOf
  rw [owners]

private theorem createAndConverge_writes (writes : ¬ exchange.request.Quiet) (mem : exchange ∈
      (perform effect (createAndConverge server subject desired binding) world).1) :
    ∃ keys group, world.groupKeys server (decideChange none desired .nothing).groups [] = .ok keys ∧
      exchange.request = .userCreate (createOf (decideChange none desired .nothing)
        binding.username keys group
        (world.homeDecision desired binding.username "" (-1))) := by
  have plain {Result : Type} {program : Call Result} (only : program.Only Request.Plain) :
      program.Only Request.Quiet := only.mono fun _ => quiet_of_plain
  unfold createAndConverge at mem
  split at mem
  · cases mem
  have mem := mem_perform_bind_of_quiet (plain (only_of_neutral (neutral_groupWrite _ _ _))) writes mem
  rcases perform_groupWrite_cases (decideChange none desired .nothing).groups [] with
    read | ⟨failure,failed⟩
  · rw [read] at mem
    cases keyed : world.groupKeys server (decideChange none desired .nothing).groups [] with
    | error =>
      rw [keyed] at mem
      cases mem
    | ok keys =>
      rw [keyed] at mem
      obtain ⟨number,_,ownersOne,mem⟩ :=
        exists_after_quiet (plain (only_nextIdentity server)) writes mem
      cases number with
      | error => cases mem
      | ok =>
        obtain ⟨group,_,ownersTwo,mem⟩ := exists_after_quiet (plain only_personalGroup) writes mem
        cases group with
        | error => cases mem
        | ok group =>
          have mem := mem_perform_bind_of_quiet (plain (only_of_neutral neutral_decideHome))
            writes mem
          rw [perform_decideHome,homeDecision_congr (ownersTwo.trans ownersOne)] at mem
          rw [perform_ask] at mem
          rcases mem_cons.mp mem with rfl | later
          · exact ⟨keys,group,rfl,rfl⟩
          refine (not_mem_perform_of_quiet writes later ?_).elim
          split
          · exact only_bind (plain (only_of_neutral (neutral_undoUnlessAdopted group)))
              fun _ => trivial
          refine only_bind (plain (only_of_neutral neutral_readBack)) fun created => ?_
          refine only_bind ⟨trivial,fun _ => trivial⟩ fun bound => ?_
          cases bound with
          | error => trivial
          | ok => exact plain (only_of_neutral neutral_reportCreated)
  · rw [failed] at mem
    cases mem

private theorem applyOne_writes {req : ApplyRequest} (writes : ¬ exchange.request.Quiet)
    (mem : exchange ∈ (perform effect (applyOne server req) world).1) :
    ∃ desired, world.desired server req.desired = .ok desired ∧ ((∃ current kept keys,
          world.located server req.subject req.email = .ok (.found current kept) ∧
          req.fingerprint = fingerprintSubject server (some current) ∧
          world.groupKeys server (decideChange (some current) desired .nothing).groups
            current.builtinGroups = .ok keys ∧
          exchange.request = .userUpdate current.id
            (updateOf (decideChange (some current) desired
              (world.homeDecision desired current.username current.home current.uid)) keys)) ∨
        ∃ binding keys group,
          world.located server req.subject req.email = .ok (.absent binding false) ∧
          req.fingerprint = fingerprintSubject server none ∧
          world.groupKeys server (decideChange none desired .nothing).groups [] = .ok keys ∧
          exchange.request = .userCreate (createOf (decideChange none desired .nothing)
            binding.username keys group (world.homeDecision desired binding.username "" (-1)))) := by
  have decoding : (decodeDesired server req.desired).Only Request.Quiet :=
    (only_of_neutral (neutral_decodeDesired server req.desired)).mono fun _ => quiet_of_plain
  have mem := mem_perform_bind_of_quiet decoding writes mem
  rw [perform_decodeDesired] at mem
  cases decoded : world.desired server req.desired with
  | error =>
    rw [decoded] at mem
    cases mem
  | ok desired =>
    rw [decoded] at mem
    refine ⟨desired,rfl,?_⟩
    have mem := mem_perform_bind_of_quiet (quiet_locate _) writes mem
    obtain ⟨target,outcome⟩ := ran_locate (ran_performed (locate server req.subject req.email) world)
    generalize (perform effect (locate server req.subject req.email) world).2 = after
      at mem target outcome
    obtain ⟨located,later⟩ := after
    have sameHome (username current : String) (uid : Int) :=
      homeDecision_congr (congrArg owners target) desired username current uid
    have sameKeys (names : Option (List String)) (kept : List ApiID) :
        later.groupKeys server names kept = world.groupKeys server names kept := by
      unfold groupKeys
      rw [target]
    match located with
    | .error failure =>
      dsimp only at mem
      split at mem <;> cases mem
    | .ok (.conflict conflict) => cases mem
    | .ok (.found current kept) =>
      have found := outcome.resolve_left (by rintro ⟨failure,failed⟩; cases failed)
      dsimp only [applyTo] at mem
      split at mem
      · cases mem
      rename_i fresh
      rw [perform_bind] at mem
      rcases mem_append.mp mem with converged | remembered
      · obtain ⟨keys,keyed,request⟩ := converge_writes writes converged
        rw [sameHome] at request
        rw [sameKeys] at keyed
        exact .inl ⟨current,kept,keys,found.symm,not_not.mp fresh,keyed,request⟩
      · exact (not_mem_perform_of_quiet writes remembered (only_bind
          (quiet_rememberWantedSMB _ _ _) fun _ => trivial)).elim
    | .ok (.absent binding cut) =>
      have absent := outcome.resolve_left (by rintro ⟨failure,failed⟩; cases failed)
      dsimp only [applyTo] at mem
      split at mem
      · cases mem
      rename_i fresh
      split at mem
      · cases mem
      rename_i whole
      rw [perform_bind] at mem
      rcases mem_append.mp mem with created | remembered
      · obtain ⟨keys,group,keyed,request⟩ := createAndConverge_writes writes created
        rw [sameHome] at request
        rw [sameKeys] at keyed
        have notCut : cut = false := by simpa using whole
        rw [notCut] at absent
        exact .inr ⟨binding,keys,group,absent.symm,not_not.mp fresh,keyed, request⟩
      · exact (not_mem_perform_of_quiet writes remembered (only_bind
          (quiet_rememberWantedSMB _ _ _) fun _ => trivial)).elim

private theorem located_absent {email : String} {cut : Bool}
    (absent : world.located server subject email = .ok (.absent binding cut)) :
    binding.username = ((world.bindingOf subject).map Binding.username).getD
        (world.derivedName server subject email) := by
  unfold World.located at absent
  cases bound : world.bindingOf subject with
  | some =>
    rw [bound] at absent
    have absent := Except.ok.inj absent
    unfold locatedBound at absent
    split at absent
    · split at absent
      · cases absent
      split at absent <;> cases absent
    · split at absent
      · cases absent
        rfl
      split at absent
      · cases absent
      · cases absent
        rfl
  | none =>
    rw [bound] at absent
    dsimp only at absent
    split at absent
    · cases absent
    unfold locatedUnbound at absent
    split at absent
    · cases absent
    · cases absent
      rfl

end Writes

/-! ### The plan -/

section Plans

variable {server : Server} {world : World} {req : PlanSubject}

def World.planDecision (server : Server) (world : World) (req : PlanSubject) : Planned :=
  (perform World.effect (planDecide server req world.snapshot world.claimed) world).2.1

def World.planOutcome (server : Server) (world : World) (req : PlanSubject) : ApplyOutcome :=
  (perform World.effect (planOne server req world.snapshot world.claimed) world).2.1

private theorem planDecision_eq : world.planDecision server req = world.planned server req :=
  congrArg Prod.fst perform_planDecide

private theorem planOutcome_eq :
    world.planOutcome server req = (world.planned server req).outcome server req.subject :=
  congrArg Prod.fst perform_planOne

/-- The name and the change a plan decided on. A new account's home is the one its
projection shows. -/
def Planned.decided : Planned → Option (String × Change)
  | .blocked _ => none
  | .create name desired =>
    some (name, { decideChange none desired .nothing with
      home := { path := (projected desired name).home, note := "" } })
  | .converge current _ change _ => some (current.username, change)

def Offered (outcome : ApplyOutcome) : Prop := outcome.effect = .apply ∨ outcome.effect = .noChange

inductive World.Plans (server : Server) (world : World) (req : PlanSubject) : Planned → Prop
  | refused (outcome : ApplyOutcome) : outcome.effect = .blocked → outcome.conflict = none →
      World.Plans server world req (.blocked outcome)
  | conflict (desired : DesiredState) (existing : Subject) :
      world.desired server req.desired = .ok desired → world.bindingOf req.subject = none →
      world.snapshot.byName (world.derivedName server req.subject req.email) = some existing →
      World.Plans server world req (.blocked (conflictPlan server req.subject
        (world.derivedName server req.subject req.email) existing world.claimed))
  | create (name : String) (desired : DesiredState) :
      world.desired server req.desired = .ok desired →
      name = ((world.bindingOf req.subject).map Binding.username).getD
        (world.derivedName server req.subject req.email) →
      world.snapshot.byName name = none → world.snapshot.truncated = false →
      World.Plans server world req (.create name desired)
  | converge (current : Subject) (desired : DesiredState) (binding : Binding) :
      world.desired server req.desired = .ok desired →
      world.bindingOf req.subject = some binding →
      world.snapshot.byName binding.username = some current →
      World.Plans server world req (.converge current desired
        (decideChange (some current) desired
          (world.homeDecision desired current.username current.home current.uid))
        (world.quota desired ((decideChange (some current) desired
          (world.homeDecision desired current.username current.home current.uid)).applyTo
            current).home current.uid))

theorem World.plans (server : Server) (world : World) (req : PlanSubject) :
    world.Plans server req (world.planned server req) := by
  have absent (name : String) (desired : DesiredState)
      (decoded : world.desired server req.desired = .ok desired)
      (named : name = ((world.bindingOf req.subject).map Binding.username).getD
        (world.derivedName server req.subject req.email))
      (missing : world.snapshot.byName name = none) :
      world.Plans server req (world.plannedNamed server req.subject name desired none) := by
    dsimp only [plannedNamed]
    split
    · exact .refused _ rfl rfl
    · next whole => exact .create name desired decoded named missing (by simpa using whole)
  unfold planned
  cases decoded : world.desired server req.desired with
  | error => exact .refused _ rfl rfl
  | ok desired =>
    cases bound : world.bindingOf req.subject with
    | some binding =>
      dsimp only
      cases found : world.snapshot.byName binding.username with
      | some current => exact .converge current desired binding decoded bound found
      | none => exact absent _ desired decoded (by rw [bound]; rfl) found
    | none =>
      dsimp only
      cases found : world.snapshot.byName
          (world.derivedName server req.subject req.email) with
      | some existing => exact .conflict desired existing decoded bound found
      | none => exact absent _ desired decoded (by rw [bound]; rfl) found

end Plans

/-! ### The two compared -/

def World.applyWrites (server : Server) (world : World) (req : ApplyRequest) : List Request :=
  ((perform World.effect (applyOne server req) world).1.map Exchange.request).filter fun request =>
    match request with
    | .userUpdate _ _ | .userCreate _ => true
    | _ => false

private theorem applyWrites_mem {server : Server} {world : World} {req : ApplyRequest}
    {request : Request}
    (mem : request ∈ world.applyWrites server req) :
    ∃ exchange ∈ (perform effect (applyOne server req) world).1,
      exchange.request = request ∧ ¬ exchange.request.Quiet := by
  obtain ⟨inRequests,writes⟩ := mem_filter.mp mem
  obtain ⟨exchange,inExchanges,rfl⟩ := mem_map.mp inRequests
  refine ⟨exchange,inExchanges,rfl,fun quiet => ?_⟩
  revert writes quiet
  cases exchange.request with
  | userUpdate | userCreate => exact fun _ quiet => quiet
  | _ => exact nofun

def PlanSubject.applied (req : PlanSubject) (fingerprint : String) : ApplyRequest :=
  { subject := req.subject, email := req.email, fingerprint := fingerprint
    desired := req.desired }

def Change.homeField (change : Change) : Option String :=
  if change.home.path = "" then none else some change.home.path

/-- The groups, the lock, SMB and the name written are those decided on; groups are
written as the record keys the target has for them, before the built-in ones the account
is in. -/
def LandsBesidesHome (server : Server) (applied : World) (name : String) (change : Change) :
    Request → Prop
  | .userUpdate id fields =>
    (∃ user ∈ applied.target.users, user.id = id ∧ user.username = name ∧
        applied.groupKeys server change.groups
          (user.toSubject applied.target.groups).builtinGroups = .ok fields.groups) ∧
      fields.locked = change.locked ∧
      fields.smb = (if change.smbOff then some false else none)
  | .userCreate fields =>
    fields.username = name ∧ applied.groupKeys server change.groups [] = .ok fields.groups ∧
      fields.locked = change.locked.getD false ∧ fields.smb = false ∧ change.smbOff = false
  | _ => True

def Request.homeWritten : Request → Option String
  | .userUpdate _ fields => fields.home
  | .userCreate fields => fields.home
  | _ => none

def Lands (server : Server) (applied : World) (name : String) (change : Change)
    (request : Request) : Prop :=
  LandsBesidesHome server applied name change request ∧ request.homeWritten = change.homeField

def SameHome (planned applied : World) (desired : DesiredState) (current : Subject) : Prop :=
  (∀ user ∈ applied.target.users, user.username = current.username →
    homeOf user.home = current.home) ∧
  applied.target.ownerOf (joinPath desired.homeRoot current.username) =
    planned.target.ownerOf (joinPath desired.homeRoot current.username)

/-- The home written, for the change decided on. A new account gets the home its
projection shows unless the folder is there already. -/
def HomeLands (planned applied : World) (request : Request) (change : Change) : Planned → Prop
  | .blocked _ => False
  | .create name desired =>
    request.homeWritten =
      if (applied.target.ownerOf (joinPath desired.homeRoot name)).isSome then none
      else change.homeField
  | .converge current desired _ _ =>
    SameHome planned applied desired current → request.homeWritten = change.homeField

section Lands

variable {server : Server} {planned applied : World} {req : PlanSubject}

private theorem desired_of_store (sameStore : applied.store = planned.store)
    {raw : List (String × RawValue)} :
    applied.desired server raw = planned.desired server raw := by
  unfold desired
  rw [sameStore]

variable {subject name : String}

variable {email : String}

private theorem nameOf_store (sameStore : applied.store = planned.store) :
    ((applied.bindingOf subject).map Binding.username).getD
        (applied.derivedName server subject email) =
      ((planned.bindingOf subject).map Binding.username).getD
        (planned.derivedName server subject email) := by
  unfold bindingOf derivedName claimed bindings
  rw [sameStore]

variable {world : World} {current : Subject} {desired : DesiredState}

private theorem mem_users_of_find {filter : UserFilter} {found : Subject}
    (same : (world.find filter).1 = some found) :
    ∃ user ∈ world.target.users, user.toSubject world.target.groups = found := by
  obtain ⟨⟨user,mem,isFound⟩,-⟩ := mem_of_foundIn (Prod.ext same rfl)
  exact ⟨user,(mem_filter.mp (mem_of_mem_take mem)).1,isFound⟩

private theorem mem_users_of_located {kept : Binding}
    (located : applied.located server subject email = .ok (.found current kept)) :
    ∃ user ∈ applied.target.users, user.toSubject applied.target.groups = current := by
  unfold World.located at located
  cases bound : applied.bindingOf subject with
  | none =>
    rw [bound] at located
    dsimp only at located
    split at located
    · cases located
    unfold locatedUnbound at located
    split at located <;> cases located
  | some =>
    rw [bound] at located
    rcases locatedBound_found.mp ⟨kept,Except.ok.inj located⟩ with ⟨byName,-⟩ | ⟨-,-,byUID⟩
    · exact mem_users_of_find byName
    · exact mem_users_of_find byUID

private theorem projected_home : (projected desired name).home =
      if desired.asksHome && desired.homeRoot ≠ "" then joinPath desired.homeRoot name else "" := by
  unfold projected
  split <;> rfl

private theorem folderFree_new {path : String} :
    world.folderFree path (-1) = (world.target.ownerOf path).isNone := by
  unfold folderFree
  cases world.target.ownerOf path with
  | none | some => rfl

private theorem homeDecision_new : (world.homeDecision desired name "" (-1)).path =
      if (world.target.ownerOf (joinPath desired.homeRoot name)).isSome then ""
      else (projected desired name).home := by
  rw [projected_home]
  unfold homeDecision
  dsimp only
  rw [folderFree_new]
  by_cases asks : desired.asksHome
  · by_cases root : desired.homeRoot = ""
    · simp [asks,root]
    cases owned : world.target.ownerOf (joinPath desired.homeRoot name) with
    | none | some => simp [asks,root]
  · simp [asks,HomeDecision.nothing]

private theorem homeWritten_create {keys : Option (List ApiID)} {group : PersonalGroup} :
    (Request.userCreate (createOf (decideChange none desired .nothing) name keys group
        (applied.homeDecision desired name "" (-1)))).homeWritten =
      if (applied.target.ownerOf (joinPath desired.homeRoot name)).isSome then none
      else Change.homeField { decideChange none desired .nothing with
        home := { path := (projected desired name).home, note := "" } } := by
  unfold createOf
  rw [homeDecision_new]
  split <;> rfl

private theorem homeDecision_same
    (owner : applied.target.ownerOf (joinPath desired.homeRoot current.username) =
      planned.target.ownerOf (joinPath desired.homeRoot current.username)) :
    applied.homeDecision desired current.username current.home current.uid =
      planned.homeDecision desired current.username current.home current.uid := by
  unfold homeDecision folderFree
  dsimp only
  rw [owner]

private theorem fingerprint_convergePlan {change : Change} {quota : QuotaOwed} :
    (convergePlan server subject current desired change quota).fingerprint =
      fingerprintSubject server (some current) := by
  unfold convergePlan
  split <;> rfl

private theorem lands_update {current found : Subject} {desired : DesiredState}
    {keys : Option (List ApiID)} (same : SameState current found)
    (there : ∃ user ∈ applied.target.users, user.toSubject applied.target.groups = found)
    (keyed : applied.groupKeys server (decideChange (some found) desired .nothing).groups
      found.builtinGroups = .ok keys) :
    let change := decideChange (some current) desired
      (planned.homeDecision desired current.username current.home current.uid)
    let request := Request.userUpdate found.id (updateOf (decideChange (some found) desired
      (applied.homeDecision desired found.username found.home found.uid)) keys)
    LandsBesidesHome server applied current.username change request ∧
      (SameHome planned applied desired current → request.homeWritten = change.homeField) := by
  obtain ⟨user,mem,rfl⟩ := there
  rw [← same.decideChange] at keyed ⊢
  refine ⟨⟨⟨user,mem,rfl,same.username.symm,keyed⟩,rfl,rfl⟩,?_⟩
  rintro ⟨homes,owner⟩
  have home : (user.toSubject applied.target.groups).home = current.home :=
    homes user mem same.username.symm
  unfold Request.homeWritten updateOf Change.homeField
  rw [home,← same.username,← same.uid,homeDecision_same owner]

end Lands

/-- Between the plan and the apply the target may change in any way: what lands is
what was approved. -/
theorem approved_change_lands (server : Server) (collisionFree : Function.Injective server.sha256)
    (planned applied : World) (sameStore : applied.store = planned.store) (req : PlanSubject)
    (offered : Offered (planned.planOutcome server req)) (request : Request)
    (written : request ∈ applied.applyWrites server
      (req.applied (planned.planOutcome server req).fingerprint)) :
    ∃ name change, (planned.planDecision server req).decided = some (name, change) ∧
      LandsBesidesHome server applied name change request ∧
      HomeLands planned applied request change (planned.planDecision server req) := by
  obtain ⟨_,mem,rfl,writes⟩ := applyWrites_mem written
  obtain ⟨desired,decoded,wrote⟩ := applyOne_writes writes mem
  rw [desired_of_store sameStore] at decoded
  rw [planOutcome_eq] at offered wrote
  rw [planDecision_eq]
  have plans := World.plans server planned req
  generalize planned.planned server req = decision at plans offered wrote ⊢
  cases plans with
  | refused _ blocked =>
    rcases offered with apply | noChange
    · exact absurd (blocked.symm.trans apply) (by decide)
    · exact absurd (blocked.symm.trans noChange) (by decide)
  | conflict =>
    rcases offered with apply | noChange
    · cases apply
    · cases noChange
  | create name _ ok named =>
    cases decoded.symm.trans ok
    rcases wrote with ⟨current,kept,keys,_,fresh,_⟩ |
      ⟨binding,keys,group,located,_,keyed,wrote⟩
    · exact absurd fresh (fingerprint_none_ne collisionFree)
    have sameName : binding.username = name := by
      rw [located_absent located,named]
      exact nameOf_store sameStore
    rw [sameName] at wrote
    refine ⟨name,_,rfl,?_,?_⟩
    · rw [wrote]
      exact ⟨rfl,keyed,rfl,rfl,by simp [decideChange]⟩
    · rw [wrote]
      exact homeWritten_create
  | converge current _ _ ok =>
    cases decoded.symm.trans ok
    rcases wrote with ⟨again,_,keys,located,fresh,keyed,wrote⟩ |
      ⟨_,keys,group,_,fresh,_,_⟩
    · have fresh : fingerprintSubject server (some current) =
          fingerprintSubject server (some again) := by
        rw [← fingerprint_convergePlan]
        exact fresh
      have lands := @lands_update server planned applied current again desired keys
        (sameState_of_fingerprint collisionFree fresh) (mem_users_of_located located) keyed
      rw [wrote]
      exact ⟨_,_,rfl,lands⟩
    · have absent : fingerprintSubject server none = fingerprintSubject server (some current) := by
        rw [← fresh]
        exact fingerprint_convergePlan
      exact absurd absent (fingerprint_none_ne collisionFree)

theorem approved_lock_lands : let planned := (worldWith [userNamed 1 "ada" 200000]).put adaBinding
    let applied := (worldWith [userNamed 1 "ada" 200000,userNamed 2 "bea" 200001]).put adaBinding
    let req : PlanSubject :=
      { subject := "first", email := "", desired := [(fieldEnabled, .boolean false)] }
    ∃ request ∈ applied.applyWrites plainServer
        (req.applied (planned.planOutcome plainServer req).fingerprint),
      ∃ name change, (planned.planDecision plainServer req).decided = some (name, change) ∧
        LandsBesidesHome plainServer applied name change request := by
  intro planned applied req
  have written : Request.userUpdate (some 1)
      { groups := none, locked := some true, smb := none, home := none, password := none
        passwordDisabled := none } ∈ applied.applyWrites plainServer
          (req.applied (planned.planOutcome plainServer req).fingerprint) := by
    decide
  obtain ⟨name,change,decided,lands,-⟩ := approved_change_lands plainServer
    Function.injective_id planned applied rfl req (.inl (by decide)) _ written
  exact ⟨_,written,name,change,decided,lands⟩

def homesWorld (users : List NasUser) (owners : List (String × Int)) : World :=
  { store := { (worldWith users).store with homeRoot := "/mnt/tank/homes" }
    target := { (worldWith users).target with owners := owners } }

def homeRequest : PlanSubject :=
  { subject := "first", email := "ada@example.org", desired := [(fieldHome, .strings ["true"])] }

/-- A home is planned for a new account and the folder is taken before the plan is
applied: the account is made without. And no change is planned for an account whose
folder is somebody else's, and the folder is gone before: a home is made. -/
theorem approved_home_differs :
    (∃ request ∈ (homesWorld [] [("/mnt/tank/homes/ada", 3000)]).applyWrites plainServer
        (homeRequest.applied ((homesWorld [] []).planOutcome plainServer homeRequest).fingerprint),
      Offered ((homesWorld [] []).planOutcome plainServer homeRequest) ∧
      ∀ name change,
        ((homesWorld [] []).planDecision plainServer homeRequest).decided = some (name, change) →
          ¬ Lands plainServer (homesWorld [] [("/mnt/tank/homes/ada", 3000)]) name change
            request) ∧
    (let planned :=
       (homesWorld [userNamed 1 "ada" 200000] [("/mnt/tank/homes/ada", 3000)]).put adaBinding
     let applied := (homesWorld [userNamed 1 "ada" 200000] []).put adaBinding
     (planned.planOutcome plainServer homeRequest).effect = .noChange ∧
       ∃ id fields, fields.home = some "/mnt/tank/homes/ada" ∧
         Request.userUpdate id fields ∈ applied.applyWrites plainServer
           (homeRequest.applied (planned.planOutcome plainServer homeRequest).fingerprint)) := by
  refine ⟨⟨.userCreate
    { username := "ada", fullName := "ada", shell := "/usr/sbin/nologin", passwordDisabled := true
      smb := false, locked := false, groups := none, uid := 200000, group := some 1
      home := none },by decide,.inl (by decide),?_⟩,by decide,some 1,
    { groups := none, locked := none, smb := none, home := some "/mnt/tank/homes/ada"
      password := none, passwordDisabled := none },rfl,by decide⟩
  rintro _ _ decided ⟨-,home⟩
  cases decided
  revert home
  decide

end Syndra.TrueNAS
