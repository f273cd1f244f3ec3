/-
Calls run alone.

Between two writes of one call nothing else happens, so the reads of a search all
see one world. What `subjectWhere` and `locate` then return is a function of it.
-/

import Syndra.TrueNAS.Upheld

namespace Syndra.TrueNAS

open Foundation.Buckets Foundation.Programs Foundation.Text List World Program

variable {server : Server} {world final : World} {exchanges : List (Exchange Answer)}

variable {Result : Type} {request : Request} {binding : Binding} {outcome : Except Failure Located}

theorem ran_performed (program : Call Result) (world : World) :
    Ran World.answer program world (perform effect program world).1
      (perform effect program world).2.1 (perform effect program world).2.2 :=
  ran_perform (fun _ _ => rfl) program world

def World.find (world : World) (filter : UserFilter) : Option Subject × Bool :=
  foundIn filter ((world.target.users.filter filter.admits).take (subjectReadCap + 1))
    world.target.groups

def Request.Reads : Request → Prop
  | .getBinding _ | .boundUsernames | .homeRoot | .self | .userQuery _ _ | .highestUid _ _
  | .highestGid _ _ | .groupQuery _ | .groupNamed _ | .elevate _ | .stat _ | .homePlaces
  | .getQuota _ _ => True
  | _ => False

theorem answer_of_reads {request : Request} (reads : request.Reads) (world : World)
    (mishap : Option Mishap) : (world.answer request mishap).2 = world := by
  have effect : (world.effect request).2 = world := by
    cases request with
    | self | stat =>
      simp only [effect]
      split <;> rfl
    | putBinding | bindIfFree | deleteBinding | claimID | groupCreate => exact reads.elim
    | groupDelete | userCreate | userUpdate | userDelete | setQuota => exact reads.elim
    | getBinding | boundUsernames | homeRoot | userQuery | highestUid | highestGid => rfl
    | groupQuery | groupNamed | elevate | homePlaces | getQuota => rfl
  rcases answer_world world request mishap with unchanged | effected
  · exact unchanged
  · exact effected.trans effect

variable {result : Result} {filter : UserFilter}

theorem ran_read {rest : Answer request → Call Result}
    (ran : Ran World.answer (.ask request rest) world exchanges result final)
    (reads : request.Reads) :
    ∃ answer later, ((∃ failure, answer = .error failure) ∨ answer = (world.effect request).1) ∧
      Ran World.answer (rest answer) world later result final := by
  obtain ⟨mishap,later,rfl,went⟩ := ran_ask ran
  rw [answer_of_reads reads] at went
  refine ⟨_,later,?_,went⟩
  cases mishap with
  | none => exact .inr rfl
  | some mishap =>
    cases mishap with
    | failed failure => exact .inl ⟨failure,rfl⟩
    | lost failure => exact .inl ⟨failure,rfl⟩

theorem ran_readGroups {outcome : Except Failure (List NasGroup)}
    (ran : Ran World.answer readGroups world exchanges outcome final) :
    final = world ∧
    ((∃ failure, outcome = .error failure) ∨ outcome = .ok world.target.groups) := by
  obtain ⟨_,_,answered,ran⟩ := ran_read ran trivial
  rcases answered with ⟨failure,rfl⟩ | rfl
  · obtain ⟨rfl,rfl⟩ := ran_done ran
    exact ⟨rfl,.inl ⟨_,rfl⟩⟩
  simp only [effect] at ran
  split at ran
  · obtain ⟨rfl,rfl⟩ := ran_done ran
    exact ⟨rfl,.inl ⟨_,rfl⟩⟩
  rename_i whole
  obtain ⟨rfl,rfl⟩ := ran_done ran
  rw [length_take] at whole
  refine ⟨rfl,.inr ?_⟩
  rw [take_of_length_le (by omega)]

theorem ran_subjectWhere {outcome : Except Failure (Option Subject × Bool)}
    (ran : Ran World.answer (subjectWhere filter) world exchanges outcome final) :
    final = world ∧
    ((∃ failure, outcome = .error failure) ∨ outcome = .ok (world.find filter)) := by
  rw [subjectWhere_eq] at ran
  obtain ⟨_,_,answered,ran⟩ := ran_read ran trivial
  rcases answered with ⟨failure,rfl⟩ | rfl
  · obtain ⟨rfl,rfl⟩ := ran_done ran
    exact ⟨rfl,.inl ⟨_,rfl⟩⟩
  obtain ⟨_,_,_,_,ranGroups,ranRest,-⟩ := ran_bind ran
  obtain ⟨rfl,read⟩ := ran_readGroups ranGroups
  obtain ⟨rfl,rfl⟩ := ran_done ranRest
  rcases read with ⟨_,rfl⟩ | rfl
  · exact ⟨rfl,.inl ⟨_,rfl⟩⟩
  · exact ⟨rfl,.inr rfl⟩

def plainServer : Server :=
  { idFloor := 0, idCeiling := 0, sha256 := id, toLower := id, quoted := id
    humanBytes := toString }

def worldWith (users : List NasUser) : World :=
  { store := { bindings := { rows := [], ordered := Pairwise.nil }, highWater := none
               homeRoot := "" }
    target :=
      { users := users, groups := [], nextUser := users.length + 1, nextGroup := 1, owners := []
        homePlaces := [], quotas := [], self := some "syndra" } }

def userNamed (key : Nat) (name : String) (uid : Int) : NasUser :=
  { id := some key, username := name, uid := uid, locked := false, smb := false
    passwordDisabled := true, builtin := false, group := none, groups := [], home := noHome }

def adaBinding : Binding :=
  { subjectId := "first", username := "ada", uid := 200000, boundBy := "apply", wantsSMB := none }

def World.locatedBound (server : Server) (world : World) (binding : Binding) : Located :=
  match world.find (.username binding.username) with
  | (some found, _) =>
    if server.owns binding.uid && found.uid ≠ binding.uid then
      .conflict { username := found.username, uid := found.uid, adoptable := false
                  boundTo := "" }
    else if !server.owns binding.uid && server.owns found.uid then
      .found found { binding with uid := found.uid }
    else .found found binding
  | (none, cut) =>
    if !server.owns binding.uid then .absent binding cut
    else
      match world.find (.uid binding.uid) with
      | (some byUID, _) => .found byUID { binding with username := byUID.username }
      | (none, cutUID) => .absent binding (cut || cutUID)

def World.claimed (world : World) : List (String × String) :=
  world.bindings.map fun binding => (binding.username, binding.subjectId)

def World.derivedName (server : Server) (world : World) (subject email : String) : String :=
  deriveUsername server email subject (claimedByOther world.claimed subject)

def unboundAs (subject username : String) : Binding :=
  { subjectId := subject, username := username, uid := 0, boundBy := "", wantsSMB := none }

def World.locatedUnbound (server : Server) (world : World) (subject email : String) : Located :=
  match world.find (.username (world.derivedName server subject email)) with
  | (some existing, _) =>
    let owner := (claimant world.claimed (world.derivedName server subject email)).getD ""
    .conflict
      { username := world.derivedName server subject email, uid := existing.uid
        adoptable := owner = "", boundTo := owner }
  | (none, cut) => .absent (unboundAs subject (world.derivedName server subject email)) cut

def World.located (server : Server) (world : World) (subject email : String) :
    Except Failure Located :=
  match world.bindingOf subject with
  | some binding => .ok (world.locatedBound server binding)
  | none =>
    if trimSpace email = "" then .error noIdentityToDeriveFrom
    else .ok (world.locatedUnbound server subject email)

def Locates (server : Server) (subject email : String) (world : World)
    (outcome : Except Failure Located) (final : World) : Prop :=
  final.target = world.target ∧
    ((∃ failure, outcome = .error failure) ∨ outcome = world.located server subject email)

private theorem ran_putBinding_then {located : Except Failure Located}
    (ran : Ran World.answer (putBinding binding >>= fun _ => .done located) world exchanges
      outcome final) : final.target = world.target ∧ outcome = located := by
  obtain ⟨_,_,_,_,ranPut,ranRest,-⟩ := ran_bind ran
  obtain ⟨mishap,_,-,ranDone⟩ := ran_ask ranPut
  obtain ⟨-,rfl⟩ := ran_done ranDone
  obtain ⟨rfl,rfl⟩ := ran_done ranRest
  refine ⟨?_,rfl⟩
  rcases answer_world world (.putBinding binding) mishap with unchanged | effected
  · rw [unchanged]
  · rw [effected]
    rfl

theorem ran_locateBound
    (ran : Ran World.answer (locateBound server binding) world exchanges outcome final) :
    final.target = world.target ∧ ((∃ failure, outcome = .error failure) ∨
        outcome = .ok (world.locatedBound server binding)) := by
  obtain ⟨first,middle,found,rest,ranFind,ranRest,-⟩ := ran_bind ran
  obtain ⟨rfl,read⟩ := ran_subjectWhere ranFind
  rcases read with ⟨failure,rfl⟩ | rfl
  · obtain ⟨rfl,rfl⟩ := ran_done ranRest
    exact ⟨rfl,.inl ⟨_,rfl⟩⟩
  unfold locatedBound
  cases byName : middle.find (.username binding.username) with
  | mk found =>
    rw [byName] at ranRest
    cases found with
    | some =>
      dsimp only at ranRest ⊢
      split at ranRest
      · next foreign =>
        obtain ⟨rfl,rfl⟩ := ran_done ranRest
        rw [if_pos foreign]
        exact ⟨rfl,.inr rfl⟩
      rename_i same
      rw [if_neg same]
      split at ranRest
      · next legacy =>
        obtain ⟨kept,rfl⟩ := ran_putBinding_then ranRest
        rw [if_pos legacy]
        exact ⟨kept,.inr rfl⟩
      · next current =>
        obtain ⟨rfl,rfl⟩ := ran_done ranRest
        rw [if_neg current]
        exact ⟨rfl,.inr rfl⟩
    | none =>
      dsimp only at ranRest ⊢
      split at ranRest
      · next legacy =>
        obtain ⟨rfl,rfl⟩ := ran_done ranRest
        rw [if_pos legacy]
        exact ⟨rfl,.inr rfl⟩
      rename_i owned
      rw [if_neg owned]
      obtain ⟨first,later,found,rest,ranFind,ranRest,-⟩ := ran_bind ranRest
      obtain ⟨rfl,read⟩ := ran_subjectWhere ranFind
      rcases read with ⟨failure,rfl⟩ | rfl
      · obtain ⟨rfl,rfl⟩ := ran_done ranRest
        exact ⟨rfl,.inl ⟨_,rfl⟩⟩
      cases byNumber : later.find (.uid binding.uid) with
      | mk found =>
        rw [byNumber] at ranRest
        cases found with
        | some =>
          obtain ⟨kept,rfl⟩ := ran_putBinding_then ranRest
          exact ⟨kept,.inr rfl⟩
        | none =>
          obtain ⟨rfl,rfl⟩ := ran_done ranRest
          exact ⟨rfl,.inr rfl⟩

variable {email : String} {current : Subject}

theorem ran_locate {subject : String}
    (ran : Ran World.answer (locate server subject email) world exchanges outcome final) :
    Locates server subject email world outcome final := by
  unfold Locates World.located
  obtain ⟨first,middle,found,rest,ranGet,ranRest,-⟩ := ran_bind ran
  obtain ⟨_,_,answered,ranDone⟩ := ran_read ranGet trivial
  obtain ⟨rfl,rfl⟩ := ran_done ranDone
  rcases answered with ⟨failure,rfl⟩ | rfl
  · obtain ⟨rfl,rfl⟩ := ran_done ranRest
    exact ⟨rfl,.inl ⟨_,rfl⟩⟩
  have read : (middle.effect (.getBinding subject)).1 = .ok (middle.bindingOf subject) := rfl
  rw [read] at ranRest
  cases bound : middle.bindingOf subject with
  | some =>
    rw [bound] at ranRest
    exact ran_locateBound ranRest
  | none =>
    rw [bound] at ranRest
    dsimp only at ranRest ⊢
    unfold locateUnbound at ranRest
    split at ranRest
    · next blank =>
      obtain ⟨rfl,rfl⟩ := ran_done ranRest
      exact ⟨rfl,.inl ⟨_,rfl⟩⟩
    rename_i named
    rw [if_neg named]
    obtain ⟨first,later,claimed,rest,ranClaimed,ranRest,-⟩ := ran_bind ranRest
    obtain ⟨_,_,answered,ranDone⟩ := ran_read ranClaimed trivial
    obtain ⟨rfl,rfl⟩ := ran_done ranDone
    rcases answered with ⟨failure,rfl⟩ | rfl
    · obtain ⟨rfl,rfl⟩ := ran_done ranRest
      exact ⟨rfl,.inl ⟨_,rfl⟩⟩
    obtain ⟨first,last,found,rest,ranFind,ranRest,-⟩ := ran_bind ranRest
    obtain ⟨rfl,read⟩ := ran_subjectWhere ranFind
    rcases read with ⟨failure,rfl⟩ | rfl
    · obtain ⟨rfl,rfl⟩ := ran_done ranRest
      exact ⟨rfl,.inl ⟨_,rfl⟩⟩
    unfold locatedUnbound
    cases byName : last.find (.username (last.derivedName server subject email)) with
    | mk found =>
      unfold derivedName claimed bindings at byName
      rw [byName] at ranRest
      cases found with
      | some | none =>
        obtain ⟨rfl,rfl⟩ := ran_done ranRest
        exact ⟨rfl,.inr rfl⟩

theorem Ran.sameOwners {program : Call Result}
    (ran : Ran World.answer program world exchanges result final)
    (only : program.Only Request.Plain) : SameOwners world final := by
  induction ran with
  | done _ world => exact SameOwners.refl world
  | ask _ _ world _ mishap _ _ _ ih =>
    have first := sameOwners_answer only.1 world mishap
    have second := ih (only.2 _)
    exact ⟨second.bindings.trans first.bindings,second.accounts.trans first.accounts,
      second.nextUser.trans first.nextUser⟩

theorem mem_accounts_of_find {found : Subject} {cut : Bool}
    (same : world.find filter = (some found, cut)) :
    found.identity ∈ world.accounts ∧ filter.names found = true := by
  obtain ⟨⟨user,mem,rfl⟩,names⟩ := mem_of_foundIn same
  have inUsers : user ∈ world.target.users := (mem_filter.mp (mem_of_mem_take mem)).1
  exact ⟨mem_map_of_mem inUsers,names⟩

theorem locatedBound_found {stored : Binding} :
    (∃ kept, world.locatedBound server stored = .found current kept) ↔
      (world.find (.username stored.username)).1 = some current ∧
          (server.owns stored.uid → current.uid = stored.uid) ∨
        (world.find (.username stored.username)).1 = none ∧ server.owns stored.uid ∧
          (world.find (.uid stored.uid)).1 = some current := by
  unfold locatedBound
  cases byName : world.find (.username stored.username) with
  | mk found =>
    cases found with
    | some found =>
      by_cases owned : server.owns stored.uid
      · by_cases same : found.uid = stored.uid
        all_goals
          simp [owned,same]
          rintro rfl
          exact same
      · simp only [owned,Bool.false_eq_true,Bool.false_and,Bool.not_false,Bool.true_and,
          ↓reduceIte,false_implies,and_true,reduceCtorEq,false_and,and_false,or_false]
        split <;> simp
    | none =>
      by_cases owned : server.owns stored.uid
      · cases byNumber : world.find (.uid stored.uid) with
        | mk other =>
          cases other with
          | some | none => simp [owned]
      · simp [owned]

theorem owned_of_located {subject : String}
    (located : world.located server subject email = .ok (.found current binding)) :
    Owned server world subject current.id := by
  unfold World.located at located
  cases bound : world.bindingOf subject with
  | none =>
    rw [bound] at located
    dsimp only at located
    split at located
    · cases located
    unfold locatedUnbound at located
    split at located <;> cases located
  | some stored =>
    rw [bound] at located
    have found := locatedBound_found.mp ⟨binding,Except.ok.inj located⟩
    rcases found with ⟨byName,-⟩ | ⟨-,owned,byNumber⟩
    · obtain ⟨there,named⟩ := mem_accounts_of_find (Prod.ext byName rfl)
      exact ⟨_,there,rfl,stored,bound,.inl (of_decide_eq_true named)⟩
    · obtain ⟨there,numbered⟩ := mem_accounts_of_find (Prod.ext byNumber rfl)
      exact ⟨_,there,rfl,stored,bound,.inr ⟨owned,of_decide_eq_true numbered⟩⟩

def Request.UpdatesOnly (id : ApiID) : Request → Prop
  | .userUpdate other _ => other = id
  | _ => True

theorem updatesOnly_of_plain (id : ApiID) (plain : request.Plain) : request.UpdatesOnly id := by
  cases request with
  | userUpdate => exact plain.elim
  | _ => trivial

def Request.Quiet : Request → Prop
  | .userUpdate _ _ | .userCreate _ => False
  | _ => True

theorem quiet_of_plain (plain : request.Plain) : request.Quiet := by
  cases request with
  | userUpdate | userCreate => exact plain.elim
  | _ => trivial

def Request.UpdatesNone : Request → Prop
  | .userUpdate _ _ => False
  | _ => True

theorem updatesNone_of_quiet (quiet : request.Quiet) : request.UpdatesNone := by
  cases request with
  | userUpdate => exact quiet.elim
  | _ => trivial

theorem updatesNone_of_plain (plain : request.Plain) :
    request.UpdatesNone := updatesNone_of_quiet (quiet_of_plain plain)

def Request.Binds : Request → Prop
  | .putBinding _ | .bindIfFree _ | .deleteBinding _ => True
  | request => request.Neutral

theorem binds_of_neutral (neutral : request.Neutral) : request.Binds := by
  cases request with
  | putBinding | bindIfFree | deleteBinding => trivial
  | _ => exact neutral

theorem quiet_of_binds (binds : request.Binds) : request.Quiet := by
  cases request with
  | userUpdate | userCreate => exact binds.elim
  | _ => trivial

theorem binds_locate (subject email : String) :
    (locate server subject email).Only Request.Binds := by
  have query (filter : UserFilter) : (subjectWhere filter).Only Request.Binds :=
    (neutral_subjectWhere filter).mono fun _ => binds_of_neutral
  have put (binding : Binding) : (putBinding binding).Only Request.Binds :=
    ⟨trivial,fun _ => trivial⟩
  refine only_except ⟨trivial,fun _ => trivial⟩ (fun _ => trivial) fun found => ?_
  cases found with
  | some =>
    refine only_except (query _) (fun _ => trivial) fun byName => ?_
    match byName with
    | (some found, cut) =>
      dsimp only
      split
      · trivial
      split
      · exact only_bind (put _) fun _ => trivial
      · trivial
    | (none, cut) =>
      dsimp only
      split
      · trivial
      refine only_except (query _) (fun _ => trivial) fun byNumber => ?_
      match byNumber with
      | (some byUID, cutUID) => exact only_bind (put _) fun _ => trivial
      | (none, cutUID) => trivial
  | none =>
    dsimp only [locateUnbound]
    split
    · trivial
    refine only_except ⟨trivial,fun _ => trivial⟩ (fun _ => trivial) fun claimed => ?_
    refine only_except (query _) (fun _ => trivial) fun existing => ?_
    match existing with
    | (some existing, cut) => trivial
    | (none, cut) => trivial

variable (subject : String) (desired : DesiredState)

theorem binds_rememberWantedSMB (reply : ApplyReply) :
    (rememberWantedSMB subject desired reply).Only Request.Binds := by
  unfold rememberWantedSMB
  split
  · trivial
  split
  · trivial
  refine only_bind ⟨trivial,fun _ => trivial⟩ fun found => ?_
  split
  · exact ⟨trivial,fun _ => trivial⟩
  · trivial

theorem quiet_locate : (locate server subject email).Only Request.Quiet :=
  (binds_locate subject email).mono fun _ => quiet_of_binds

theorem quiet_rememberWantedSMB (reply : ApplyReply) :
    (rememberWantedSMB subject desired reply).Only Request.Quiet :=
  (binds_rememberWantedSMB subject desired reply).mono fun _ => quiet_of_binds

def Request.Converges (id : ApiID) (request : Request) : Prop :=
  request.Neutral ∨ ∃ fields, request = .userUpdate id fields

theorem converges_converge (current : Subject) :
    (converge server subject desired current).Only (Request.Converges current.id) := by
  have neutral {Result : Type} {program : Call Result} (only : program.Only Request.Neutral) :
      program.Only (Request.Converges current.id) := only.mono fun _ => .inl
  refine only_except (neutral (neutral_groupWrite _ _ _)) (fun _ => trivial)
    fun groups => ?_
  refine only_except (neutral neutral_decideHome) (fun _ => trivial)
    fun home => ?_
  dsimp only
  split
  · exact neutral neutral_convergeUnwritten
  refine ⟨.inr ⟨_,rfl⟩,fun answer => ?_⟩
  cases answer with
  | error => trivial
  | ok => exact neutral neutral_convergeWritten

theorem updatesOnly_converge :
    (converge server subject desired current).Only (Request.UpdatesOnly current.id) := by
  refine (converges_converge subject desired current).mono fun request converges => ?_
  rcases converges with neutral | ⟨_,rfl⟩
  · exact updatesOnly_of_plain current.id (plain_of_neutral neutral)
  · exact rfl

theorem updatesNone_createAndConverge :
    (createAndConverge server subject desired binding).Only Request.UpdatesNone := by
  have plain {Result : Type} {program : Call Result} (only : program.Only Request.Plain) :
      program.Only Request.UpdatesNone := only.mono fun _ => updatesNone_of_plain
  have neutral {Result : Type} {program : Call Result} (only : program.Only Request.Neutral) :
      program.Only Request.UpdatesNone := plain (only_of_neutral only)
  have undone (group : PersonalGroup) (reply : ApplyReply) :
      (undoUnlessAdopted group >>= fun _ => pure reply).Only Request.UpdatesNone :=
    only_bind (neutral (neutral_undoUnlessAdopted group)) fun _ => trivial
  unfold createAndConverge
  split
  · trivial
  refine only_except (neutral (neutral_groupWrite _ _ _)) (fun _ => trivial)
    fun groups => ?_
  refine only_except (plain (only_nextIdentity _)) (fun _ => trivial) fun number => ?_
  refine only_except (plain only_personalGroup) (fun _ => trivial)
    fun group => ?_
  refine only_except (neutral neutral_decideHome) (fun _ => undone group _)
    fun home => ?_
  refine ⟨trivial,fun answer => ?_⟩
  cases answer with
  | error => exact undone group _
  | ok =>
    refine only_bind (neutral neutral_readBack) fun created => ?_
    exact only_except ⟨trivial,fun _ => trivial⟩ (fun _ => trivial)
      fun _ => neutral neutral_reportCreated

theorem owned_of_updated {req : ApplyRequest} {reply : ApplyReply}
    (ran : Ran World.answer (applyOne server req) world exchanges reply final)
    {exchange : Exchange Answer} (mem : exchange ∈ exchanges) {id : ApiID}
    {fields : UserUpdate} (updates : exchange.request = .userUpdate id fields) :
    Owned server world req.subject id := by
  have passed {Result : Type} {program : Call Result} {before after : World}
      {exchanges : List (Exchange Answer)} {result : Result}
      (ran : Ran World.answer program before exchanges result after)
      (mem : exchange ∈ exchanges) (only : program.Only Request.UpdatesNone) : False := by
    have none := ran.only only exchange mem
    rw [updates] at none
    exact none
  have remembers (subject : String) (desired : DesiredState) (reply : ApplyReply) :=
    (quiet_rememberWantedSMB subject desired reply).mono fun _ => updatesNone_of_quiet
  obtain ⟨first,_,desired,later,ranDecode,ranRest,rfl⟩ := ran_bind ran
  have decoding := only_of_neutral (neutral_decodeDesired server req.desired)
  have same := Ran.sameOwners ranDecode decoding
  rcases mem_append.mp mem with inFirst | inLater
  · exact (passed ranDecode inFirst (decoding.mono fun _ => updatesNone_of_plain)).elim
  cases desired with
  | error => exact (passed ranRest inLater trivial).elim
  | ok =>
    obtain ⟨first,_,located,later,ranLocate,ranRest,rfl⟩ := ran_bind ranRest
    rcases mem_append.mp inLater with inFirst | inLater
    · exact (passed ranLocate inFirst ((quiet_locate _).mono fun _ => updatesNone_of_quiet)).elim
    match located with
    | .error failure =>
      dsimp only at ranRest
      split at ranRest <;> exact (passed ranRest inLater trivial).elim
    | .ok (.conflict conflict) => exact (passed ranRest inLater trivial).elim
    | .ok (.absent binding cut) =>
      dsimp only [applyTo] at ranRest
      split at ranRest
      · exact (passed ranRest inLater trivial).elim
      split at ranRest
      · exact (passed ranRest inLater trivial).elim
      refine (passed ranRest inLater ?_).elim
      exact only_bind (updatesNone_createAndConverge _ _) fun _ =>
        only_bind (remembers _ _ _) fun _ => trivial
    | .ok (.found current binding) =>
      dsimp only [applyTo] at ranRest
      split at ranRest
      · exact (passed ranRest inLater trivial).elim
      obtain ⟨_,_,_,_,ranConverge,ranLast,rfl⟩ := ran_bind ranRest
      rcases mem_append.mp inLater with inConverge | inLater
      · have only := ranConverge.only (updatesOnly_converge _ _) exchange inConverge
        rw [updates] at only
        cases only
        obtain ⟨-,⟨_,failed⟩ | found⟩ := ran_locate ranLocate
        · cases failed
        obtain ⟨account,there,hasId,owns⟩ := owned_of_located found.symm
        rw [same.accounts] at there
        rw [same.bindingOf] at owns
        exact ⟨account,there,hasId,owns⟩
      · refine (passed ranLast inLater ?_).elim
        exact only_bind (remembers _ _ _) fun _ => trivial

/-! ### The highest number in use -/

theorem le_highest {numbers : List Int} {number floor ceiling : Int} (mem : number ∈ numbers)
    (inRange : floor ≤ number ∧ number ≤ ceiling) :
    ∃ top ∈ Target.highest numbers floor ceiling, number ≤ top := by
  have reaches (rows : List Int) (found : Option Int)
      (known : (∃ top ∈ found, number ≤ top) ∨ number ∈ rows) :
      ∃ top ∈ rows.foldl (fun found number => some (max (found.getD number) number)) found,
        number ≤ top := by
    induction rows generalizing found with
    | nil => exact known.resolve_right not_mem_nil
    | cons _ _ ih =>
      apply ih
      rcases known with ⟨_,isTop,below⟩ | inRows
      · left
        rw [Option.mem_def.mp isTop]
        exact ⟨_,rfl,le_max_of_le_left below⟩
      · rcases mem_cons.mp inRows with rfl | later
        · exact .inl ⟨_,rfl,le_max_right _ _⟩
        · exact .inr later
  apply reaches
  right
  rw [mem_filter]
  refine ⟨mem,?_⟩
  rw [decide_eq_true inRange.1,decide_eq_true inRange.2]
  rfl

theorem le_highestOf {first second : Option Int} :
    (∀ uid ∈ first, uid ≤ highestOf first second) ∧
    ∀ gid ∈ second, gid ≤ highestOf first second := by
  constructor
  · rintro _ rfl
    exact le_max_left _ _
  · rintro _ rfl
    exact le_max_right _ _

end Syndra.TrueNAS
