/-
The numbers accounts are made with.

A creation claims a number past the high-water mark, and where the group of that number
cannot be made it takes the number of an empty group of the account's name.
-/

import Syndra.TrueNAS.Interleaved

namespace Syndra.TrueNAS

open Foundation Foundation.Programs List Program Option Places Target Bool

/-! ### Accounts made -/

inductive Deletion where
  | user (id : ApiID)
  | group (id : ApiID)
deriving DecidableEq

def deletion (world : World) : Deletion → Option World
  | .user id => outside world (.deleteUser id)
  | .group id => outside world (.deleteGroup id)

def World.creates (world : World) : Request → Option Mishap → Option Int
  | .userCreate _, some (.failed _) => none
  | .userCreate fields, _ =>
    match (world.target.createUser fields).1 with
    | .ok _ => some fields.uid
    | .error _ => none
  | _, _ => none

def Calls.creates (pool : Calls) : Move Task Deletion Mishap → Option Int
  | .advance index mishap => do
      let flight ← pool.flights[index]?
      let request ← flight.asks
      pool.world.creates request mishap
  | _ => none

structure Creations where
  pool : Calls
  created : List Int

def Creations.step (server : Server) (state : Creations) (move : Move Task Deletion Mishap) :
    Option Creations :=
  (Programs.step World.answer (Task.program server) deletion state.pool move).map fun next =>
    { pool := next, created := state.created ++ (state.pool.creates move).toList }

/-- No number is given to two accounts, and every one lies in the range. -/
structure NumberedOnce (server : Server) (state : Creations) : Prop where
  once : state.created.Nodup
  inRange : ∀ number ∈ state.created, server.floor ≤ number ∧ number ≤ server.ceiling

/-! ### Numbers given to calls -/

def takesOver (server : Server) (found : GroupMembers) : Bool :=
  !found.group.builtin && found.users = [] && found.group.id.isSome &&
    server.owns found.group.gid

def given (server : Server) : Exchange Answer → List Int
  | ⟨.claimID _ _ _,.ok number⟩ => [number]
  | ⟨.groupNamed _,.ok [found]⟩ => if takesOver server found then [found.group.gid] else []
  | _ => []

def numbers (server : Server) (heard : List (Exchange Answer)) : List Int :=
  heard.flatMap (given server)

def Request.makesUser : Request → Bool
  | .userCreate _ => true
  | _ => false

def askedUser (heard : List (Exchange Answer)) : Bool :=
  heard.any fun exchange => exchange.request.makesUser

def holding (server : Server) (flight : Flight Task Answer Unit) : List Int :=
  if flight.asks.isSome && !askedUser flight.heard then numbers server flight.heard else []

def Calls.takes (server : Server) (pool : Calls) (index : Nat) (mishap : Option Mishap) :
    List Int :=
  match pool.flights[index]?.bind Flight.asks with
  | some (.groupNamed name) =>
    given server ⟨.groupNamed name,(pool.world.answer (.groupNamed name) mishap).1⟩
  | _ => []

/-- The fall-back takes over only a group whose number no account was made with, and
no other call holds. -/
def Creations.TakesUnused (server : Server) (state : Creations) : Move Task Deletion Mishap → Prop
  | .advance index mishap =>
    ∀ number ∈ state.pool.takes server index mishap, number ∉ state.created ∧
      ∀ entry ∈ state.pool.flights.zipIdx, entry.2 ≠ index → number ∉ holding server entry.1
  | _ => True

instance (server : Server) (state : Creations) (move : Move Task Deletion Mishap) :
    Decidable (state.TakesUnused server move) := by
  cases move with
  | begin | outside => exact instDecidableTrue
  | advance index mishap =>
    unfold Creations.TakesUnused
    infer_instance

/-! ### What the programs ask -/

/-- A request fits what its call heard before: an account is asked for once, with a
number given, and a number is claimed past the groups that were seen. -/
def Fits (server : Server) (heard : List (Exchange Answer)) : Request → Prop
  | .userCreate fields => fields.uid ∈ numbers server heard ∧ askedUser heard = false
  | .groupCreate _ gid => gid ∈ numbers server heard
  | .groupNamed _ => numbers server heard ≠ []
  | .claimID floor ceiling observedMax =>
    floor = server.floor ∧ ceiling = server.ceiling ∧
      ∃ highest, ⟨.highestGid server.floor server.ceiling,.ok highest⟩ ∈ heard ∧
        ∀ gid ∈ highest, gid ≤ observedMax
  | _ => True

def Request.Unnumbered : Request → Prop
  | .userCreate _ | .groupCreate _ _ | .groupNamed _ | .claimID _ _ _ => False
  | _ => True

section Programs

variable {server : Server} {heard : List (Exchange Answer)} {Result : Type}

theorem numbers_append {more : List (Exchange Answer)} :
    numbers server (heard ++ more) = numbers server heard ++ numbers server more := by
  unfold numbers
  rw [flatMap_append]

theorem askedUser_append {exchange : Exchange Answer} :
    askedUser (heard ++ [exchange]) = (askedUser heard || exchange.request.makesUser) := by
  unfold askedUser
  rw [any_append,any_cons,any_nil,Bool.or_false]

variable {request : Request} {program : Call Result}

theorem unnumbered_of_binds (binds : request.Binds) : request.Unnumbered := by
  cases request with
  | userCreate | groupCreate | groupNamed | claimID => exact binds.elim
  | _ => trivial

theorem unnumbered_of_neutral (neutral : request.Neutral) :
    request.Unnumbered := unnumbered_of_binds (binds_of_neutral neutral)

theorem fits_of_unnumbered (unnumbered : request.Unnumbered) :
    Fits server heard request := by
  cases request with
  | userCreate | groupCreate | groupNamed | claimID => exact unnumbered.elim
  | _ => trivial

structure Ready (server : Server) (number : Option Int) (heard : List (Exchange Answer)) :
    Prop where
  unasked : askedUser heard = false
  has : ∀ one ∈ number, one ∈ numbers server heard

theorem Ready.append {number : Option Int} (ready : Ready server number heard)
    (exchange : Exchange Answer) (other : exchange.request.makesUser = false) :
    Ready server number (heard ++ [exchange]) := by
  refine ⟨?_,fun one mem => ?_⟩
  · rw [askedUser_append,ready.unasked,other]
    rfl
  · rw [numbers_append]
    exact mem_append_left _ (ready.has one mem)

theorem makesUser_of_unnumbered (unnumbered : request.Unnumbered) : request.makesUser =
    false := by
  cases request with
  | userCreate => exact unnumbered.elim
  | _ => rfl

theorem only_unnumbered (neutral : program.Only Request.Neutral) :
    program.Only Request.Unnumbered := neutral.mono fun _ => unnumbered_of_neutral

theorem along_ready (only : program.Only Request.Unnumbered) {number : Option Int}
    (ready : Ready server number heard) :
    program.Along (Fits server) (fun _ later => Ready server number later) heard := by
  refine along_of_only (fun _ _ => fits_of_unnumbered) ?_ only ready
  intro _ _ _ unnumbered ready
  exact ready.append _ (makesUser_of_unnumbered unnumbered)

theorem along_unnumbered (only : program.Only Request.Unnumbered) :
    program.Along (Fits server) (fun _ _ => True) heard :=
  along_of_only (fun _ _ => fits_of_unnumbered) (fun _ _ _ _ _ => trivial) only trivial

theorem along_nextIdentity (ready : Ready server none heard) :
    (nextIdentity server).Along (Fits server)
      (fun result later => ∀ number, result = .ok number → Ready server (some number) later)
      heard := by
  refine ⟨trivial,fun users => ?_⟩
  have ready := ready.append ⟨_,users⟩ rfl
  cases users with
  | error => exact nofun
  | ok users =>
    refine ⟨trivial,fun groups => ?_⟩
    have ready := ready.append ⟨_,groups⟩ rfl
    cases groups with
    | error => exact nofun
    | ok groups =>
      refine ⟨⟨rfl,rfl,groups,mem_append_right _ (mem_singleton_self _),
        le_highestOf.2⟩,fun claimed => ?_⟩
      rintro number rfl
      have ready := ready.append
        ⟨.claimID server.floor server.ceiling (highestOf users groups),.ok number⟩ rfl
      refine ⟨ready.unasked,?_⟩
      rintro _ ⟨⟩
      rw [numbers_append]
      exact mem_append_right _ (mem_singleton_self _)

variable {number : Int}

variable {name : String} {desired : DesiredState} {binding : Binding}

theorem along_emptyGroupNamed (ready : Ready server (some number) heard) :
    (emptyGroupNamed server name).Along (Fits server)
      (fun result later => ∀ id gid, result = some (id, gid) → Ready server (some gid) later)
      heard := by
  refine ⟨ne_nil_of_mem (ready.has number rfl),fun answer => ?_⟩
  have ready := ready.append ⟨_,answer⟩ rfl
  dsimp only
  split
  · next found =>
    split
    · next takes =>
      rintro id gid same
      cases same
      refine ⟨ready.unasked,?_⟩
      rintro _ ⟨⟩
      have taken : takesOver server found = true := takes
      rw [numbers_append]
      apply mem_append_right
      simp only [numbers,flatMap_cons,given]
      rw [if_pos taken]
      exact mem_singleton_self _
    · exact nofun
  · exact nofun

theorem along_personalGroup (ready : Ready server (some number) heard) :
    (personalGroup server name number).Along (Fits server)
      (fun result later => ∀ group, result = .ok group → Ready server (some group.number) later)
      heard := by
  refine ⟨ready.has number rfl,fun answer => ?_⟩
  have ready := ready.append ⟨_,answer⟩ rfl
  cases answer with
  | ok =>
    rintro group same
    cases same
    exact ready
  | error =>
    refine along_bind ((along_emptyGroupNamed ready).mono fun found later given => ?_)
    match found with
    | none => exact nofun
    | some (id, gid) =>
      rintro _ same
      cases same
      exact given id gid rfl

variable (subject : String)

theorem unnumbered_bindCreated {home : HomeDecision} {created : Except Failure Subject} :
    (bindCreated server subject desired binding number home created).Only
      Request.Unnumbered :=
  only_except ⟨trivial,fun _ => trivial⟩ (fun _ => trivial)
    fun _ => only_unnumbered neutral_reportCreated

theorem along_createAndConverge (ready : Ready server none heard) :
    (createAndConverge server subject desired binding).Along (Fits server) (fun _ _ => True)
      heard := by
  have undone (group : PersonalGroup) (reply : ApplyReply) (later : List (Exchange Answer)) :
      (undoUnlessAdopted group >>= fun _ => pure reply).Along (Fits server) (fun _ _ => True)
        later :=
    along_unnumbered (only_bind
      (only_unnumbered (neutral_undoUnlessAdopted group)) fun _ => trivial)
  unfold createAndConverge
  split
  · trivial
  refine along_except (along_ready (only_unnumbered (neutral_groupWrite _ _ _)) ready)
    (fun _ _ _ => trivial) fun groups heard ready => ?_
  refine along_except (along_nextIdentity ready) (fun _ _ _ => trivial)
    fun number heard claimed => ?_
  refine along_except (along_personalGroup (claimed number rfl))
    (fun _ _ _ => trivial) fun group heard made => ?_
  refine along_except
    (along_ready (only_unnumbered neutral_decideHome) (made group rfl))
    (fun _ heard _ => undone group _ heard) fun home heard ready => ?_
  refine ⟨⟨ready.has group.number rfl,ready.unasked⟩,fun answer => ?_⟩
  cases answer with
  | error => exact undone group _ _
  | ok =>
    exact along_unnumbered (only_bind (only_unnumbered neutral_readBack)
      fun _ => unnumbered_bindCreated _)

theorem along_applyOne (req : ApplyRequest) :
    (applyOne server req).Along (Fits server) (fun _ _ => True) [] := by
  have remembers (desired : DesiredState) (reply : ApplyReply) :
      (rememberWantedSMB req.subject desired reply >>= fun _ => pure reply).Only
        Request.Unnumbered :=
    only_bind ((binds_rememberWantedSMB _ _ _).mono fun _ => unnumbered_of_binds)
      fun _ => trivial
  have starts : Ready server none [] := ⟨rfl,nofun⟩
  refine along_except (along_ready (only_unnumbered (neutral_decodeDesired _ _)) starts)
    (fun _ _ _ => trivial) fun desired heard ready => ?_
  have located := along_ready ((@binds_locate server req.subject req.email).mono
    fun _ => unnumbered_of_binds) ready
  refine along_bind (located.mono fun outcome heard ready => ?_)
  match outcome with
  | .error failure => exact along_unnumbered (only_ite trivial trivial)
  | .ok (.conflict conflict) => trivial
  | .ok (.found current binding) =>
    dsimp only [applyTo]
    split
    · trivial
    refine along_unnumbered (only_bind ?_ (remembers desired))
    refine (converges_converge _ _ _).mono fun request converges => ?_
    rcases converges with neutral | ⟨_,rfl⟩
    · exact unnumbered_of_neutral neutral
    · trivial
  | .ok (.absent binding cut) =>
    dsimp only [applyTo]
    split
    · trivial
    split
    · trivial
    · exact along_bind ((along_createAndConverge _ ready).mono
        fun reply _ _ => along_unnumbered (remembers desired reply))

theorem unnumbered_adoptFree {actor username : String} :
    (adoptFree subject actor username).Only Request.Unnumbered := by
  refine only_except ⟨trivial,fun _ => trivial⟩ (fun _ => trivial) fun claimed => ?_
  dsimp only
  split
  · trivial
  refine only_except (only_unnumbered neutral_readSubjectsWhere) (fun _ => trivial)
    fun snapshot => ?_
  dsimp only
  split
  · trivial
  · exact only_except ⟨trivial,fun _ => trivial⟩ (fun _ => trivial) fun _ => trivial

attribute [local irreducible] Text.trimSpace

theorem unnumbered_adoptAccount (actor username : String) :
    (adoptAccount subject actor username).Only Request.Unnumbered := by
  apply only_ite
  · trivial
  apply only_ite
  · trivial
  refine only_bind (only_unnumbered neutral_self) fun known => ?_
  split
  · trivial
  refine only_except ⟨trivial,fun _ => trivial⟩ (fun _ => trivial) fun found => ?_
  cases found with
  | some => exact only_ite trivial trivial
  | none => exact unnumbered_adoptFree _

theorem unnumbered_releaseAccount : (releaseAccount subject).Only Request.Unnumbered := by
  refine only_except ⟨trivial,fun _ => trivial⟩ (fun _ => trivial) fun found => ?_
  cases found with
  | none => trivial
  | some =>
    refine ⟨trivial,fun answer => ?_⟩
    cases answer with
    | error | ok => trivial

theorem unnumbered_purgeAccount (elevatedKey : Option String) :
    (purgeAccount subject elevatedKey).Only Request.Unnumbered := by
  unfold purgeAccount
  split
  · trivial
  refine only_except (only_unnumbered (neutral_boundAccount _)) (fun _ => trivial)
    fun binding => ?_
  refine only_bind (only_unnumbered neutral_self) fun known => ?_
  cases known with
  | none => trivial
  | some =>
    dsimp only
    split
    · trivial
    refine only_except (only_unnumbered neutral_recordID) (fun _ => trivial)
      fun id => ?_
    refine ⟨trivial,fun elevated => ?_⟩
    cases elevated with
    | error => trivial
    | ok done =>
      refine ⟨trivial,fun deleted => ?_⟩
      cases deleted with
      | error => trivial
      | ok => exact ⟨trivial,fun _ => trivial⟩

theorem along_program (task : Task) :
    (task.program server).Along (Fits server) (fun _ _ => True) [] := by
  have ends {Result : Type} {program : Call Result} (only : program.Only Request.Unnumbered) :
      (program >>= fun _ => pure ()).Along (Fits server) (fun _ _ => True) [] :=
    along_unnumbered (only_bind only fun _ => trivial)
  cases task with
  | apply req => exact along_bind ((along_applyOne req).mono fun _ _ _ => trivial)
  | adopt subject actor username => exact ends (unnumbered_adoptAccount subject actor username)
  | release subject => exact ends (unnumbered_releaseAccount subject)
  | purge subject elevatedKey => exact ends (unnumbered_purgeAccount subject elevatedKey)

end Programs

/-! ### What a request does to the groups and the mark -/

def Marked (world : World) (number : Int) : Prop :=
  ∃ mark ∈ world.store.highWater, number ≤ mark

/-- The mark does not fall, and a group that is new has a number it had reached. -/
structure Onward (world after : World) : Prop where
  mark : ∀ number, Marked world number → Marked after number
  groups : ∀ group ∈ after.target.groups, group ∈ world.target.groups ∨ Marked world group.gid

section Worlds

variable {server : Server} {world after : World} {heard : List (Exchange Answer)}

theorem Onward.refl (world : World) : Onward world world :=
  ⟨fun _ => id,fun _ => .inl⟩

variable {target : Target} {floor number : Int} {request : Request}

theorem onward_of_target (kept : ∀ group ∈ target.groups, group ∈ world.target.groups) :
    Onward world { world with target := target } :=
  ⟨fun _ => id,fun group mem => .inl (kept group mem)⟩

theorem groups_withHome {home : Option String} {uid : Int} :
    (target.withHome home uid).groups = target.groups := by
  unfold withHome
  split
  · rfl
  split <;> rfl

theorem groups_createUser {fields : UserCreate} :
    (target.createUser fields).2.groups = target.groups := by
  unfold createUser
  split
  · rfl
  · exact groups_withHome

variable {id : ApiID} {observedMax ceiling : Int}

theorem groups_updateUser {fields : UserUpdate} :
    (target.updateUser id fields).2.groups = target.groups := by
  unfold updateUser
  split
  · rfl
  · exact groups_withHome

theorem groups_deleteUser : (target.deleteUser id).2.groups = target.groups := by
  unfold deleteUser
  split <;> rfl

variable {group : NasGroup}

theorem mem_groups_of_deleteGroup
    (mem : group ∈ (target.deleteGroup id).2.groups) : group ∈ target.groups := by
  unfold deleteGroup at mem
  split at mem
  · exact mem_of_mem_filter mem
  · exact mem

theorem mem_groups_of_createGroup {name : String} {gid : Int}
    (mem : group ∈ (target.createGroup name gid).2.groups) :
    group ∈ target.groups ∨ group.gid = gid := by
  unfold createGroup at mem
  split at mem
  · exact .inl mem
  rcases mem_append.mp mem with old | new
  · exact .inl old
  · cases mem_singleton.mp new
    exact .inr rfl

theorem lt_nextNumber_of_marked (marked : Marked world number) :
    number < world.store.nextNumber floor observedMax := by
  obtain ⟨_,isMark,_⟩ := marked
  unfold Store.nextNumber
  rw [mem_def.mp isMark,getD_some]
  omega

theorem onward_claimID : Onward world
      { world with store := (world.store.claimID floor ceiling observedMax).2 } := by
  unfold Store.claimID
  split
  · exact Onward.refl world
  · exact ⟨fun number marked => ⟨_,rfl,(lt_nextNumber_of_marked marked).le⟩, fun _ => .inl⟩

theorem onward_effect (fits : Fits server heard request)
    (marked : ∀ number ∈ numbers server heard, Marked world number) :
    Onward world (world.effect request).2 := by
  cases request with
  | claimID floor ceiling observedMax => exact onward_claimID
  | groupCreate =>
    refine ⟨fun _ => id,fun group mem => ?_⟩
    rcases mem_groups_of_createGroup mem with old | rfl
    · exact .inl old
    · exact .inr (marked _ fits)
  | groupDelete => exact onward_of_target fun group => mem_groups_of_deleteGroup
  | userCreate fields =>
    exact onward_of_target fun group mem => groups_createUser ▸ mem
  | userUpdate id fields =>
    exact onward_of_target fun group mem => groups_updateUser ▸ mem
  | userDelete id =>
    exact onward_of_target fun group mem => groups_deleteUser ▸ mem
  | setQuota => exact onward_of_target fun group => id
  | bindIfFree =>
    simp only [World.effect,Store.bindIfFree]
    split
    · exact Onward.refl world
    · exact ⟨fun _ => id,fun _ => .inl⟩
  | putBinding | deleteBinding => exact ⟨fun _ => id,fun _ => .inl⟩
  | self | stat =>
    simp only [World.effect]
    split <;> exact Onward.refl world
  | _ => exact Onward.refl world

theorem onward_answer (mishap : Option Mishap) (fits : Fits server heard request)
    (marked : ∀ number ∈ numbers server heard, Marked world number) :
    Onward world (world.answer request mishap).2 := by
  rcases answer_world world request mishap with unchanged | effected
  · rw [unchanged]
    exact Onward.refl world
  · rw [effected]
    exact onward_effect fits marked

theorem onward_deletion {move : Deletion} (moved : deletion world move = some after) :
    Onward world after := by
  cases move with
  | user id =>
    obtain ⟨-,rfl⟩ := accepted_eq_some moved
    exact onward_of_target fun group mem => groups_deleteUser ▸ mem
  | group =>
    obtain ⟨-,rfl⟩ := accepted_eq_some moved
    exact onward_of_target fun group => mem_groups_of_deleteGroup

structure Claimed (world after : World) (floor ceiling observedMax number : Int) : Prop where
  fresh : ∀ other, Marked world other → other < number
  marked : Marked after number
  inRange : floor ≤ number ∧ number ≤ ceiling
  past : observedMax < number

theorem claimed_of_effect
    (ok : (world.effect (.claimID floor ceiling observedMax)).1 = .ok number) :
    Claimed world (world.effect (.claimID floor ceiling observedMax)).2 floor ceiling observedMax
      number := by
  simp only [World.effect,Store.claimID] at ok ⊢
  split at ok
  · cases ok
  rename_i room
  rw [if_neg room]
  cases ok
  refine ⟨fun other => lt_nextNumber_of_marked,⟨_,rfl,le_refl _⟩,
    ⟨?_,not_lt.mp room⟩,?_⟩
  all_goals
    unfold Store.nextNumber
    omega

theorem given_cases {mishap : Option Mishap}
    (mem : number ∈ given server ⟨request,(world.answer request mishap).1⟩) :
    (∃ floor ceiling observedMax, request = .claimID floor ceiling observedMax ∧
        Claimed world (world.answer request mishap).2 floor ceiling observedMax number) ∨
      ∃ name, request = .groupNamed name ∧ server.owns number ∧
        ∃ group ∈ world.target.groups, group.gid = number := by
  cases request with
  | claimID floor ceiling observedMax =>
    cases ok : (world.answer (.claimID floor ceiling observedMax) mishap).1 with
    | error =>
      rw [ok] at mem
      cases mem
    | ok =>
      rw [ok] at mem
      cases mem_singleton.mp mem
      have effected := answer_ok ok
      rw [effected] at ok ⊢
      exact .inl ⟨floor,ceiling,observedMax,rfl,claimed_of_effect ok⟩
  | groupNamed name =>
    refine .inr ⟨name,rfl,?_⟩
    cases ok : (world.answer (.groupNamed name) mishap).1 with
    | error =>
      rw [ok] at mem
      cases mem
    | ok rows =>
      rw [ok] at mem
      rw [answer_ok ok] at ok
      match rows, mem with
      | [found], mem =>
        simp only [given] at mem
        split at mem
        · next taken =>
          cases mem_singleton.mp mem
          simp only [takesOver,and_eq_true] at taken
          refine ⟨taken.2,found.group,?_,rfl⟩
          have listed : found ∈ [found] := mem_singleton_self found
          rw [← Except.ok.inj ok] at listed
          obtain ⟨_,there,rfl⟩ := mem_map.mp listed
          exact mem_of_mem_filter (mem_of_mem_take there)
        · cases mem
  | _ => cases mem

end Worlds

/-! ### Numbers kept apart -/

/-- What a call in flight asks fits what it heard. Its numbers are of the range and
below the mark, and so is every group but those above the one it saw highest. -/
structure Told (server : Server) (world : World) (flight : Flight Task Answer Unit) : Prop where
  fits : flight.rest.Along (Fits server) (fun _ _ => True) flight.heard
  owned : ∀ number ∈ numbers server flight.heard, server.owns number ∧ Marked world number
  seen : ∀ highest, ⟨.highestGid server.floor server.ceiling,.ok highest⟩ ∈ flight.heard →
    ∀ group ∈ world.target.groups, server.owns group.gid →
      (∃ top ∈ highest, group.gid ≤ top) ∨ Marked world group.gid
  bounded : numbers server flight.heard ≠ [] → ∀ group ∈ world.target.groups,
    server.owns group.gid → Marked world group.gid

structure Numbering (server : Server) (state : Creations) : Prop where
  told : ∀ flight ∈ state.pool.flights, Told server state.pool.world flight
  apart : ∀ (first second : Nat) (one another : Flight Task Answer Unit),
    state.pool.flights[first]? = some one → state.pool.flights[second]? = some another →
      first ≠ second → ∀ number ∈ holding server one, number ∉ holding server another
  unused : ∀ flight ∈ state.pool.flights, ∀ number ∈ holding server flight,
    number ∉ state.created
  made : ∀ number ∈ state.created, server.owns number ∧ Marked state.pool.world number
  once : state.created.Nodup

section Invariant

variable {server : Server} {world after : World} {flight : Flight Task Answer Unit}

theorem Told.onward (told : Told server world flight) (onward : Onward world after) :
    Told server after flight where
  fits := told.fits
  owned := fun number mem =>
    ⟨(told.owned number mem).1,onward.mark number (told.owned number mem).2⟩
  seen := fun highest heard group mem owned => by
    rcases onward.groups group mem with old | marked
    · exact (told.seen highest heard group old owned).imp_right (onward.mark _)
    · exact .inr (onward.mark _ marked)
  bounded := fun given group mem owned => by
    rcases onward.groups group mem with old | marked
    · exact onward.mark _ (told.bounded given group old owned)
    · exact onward.mark _ marked

variable {number : Int} {request : Request} {mishap : Option Mishap} {state : Creations}

theorem owns_iff : server.owns number = true ↔ server.floor ≤ number ∧
    number ≤ server.ceiling := by
  unfold Server.owns
  rw [and_eq_true,decide_eq_true_iff,decide_eq_true_iff]

theorem numbers_concat {heard : List (Exchange Answer)} {exchange : Exchange Answer} :
    numbers server (heard ++ [exchange]) = numbers server heard ++ given server exchange := by
  rw [numbers_append]
  unfold numbers
  rw [flatMap_cons,flatMap_nil,append_nil]

theorem Told.answered {rest : Answer request → Call Unit} (told : Told server world flight)
    (asking : flight.rest = .ask request rest) (mishap : Option Mishap) :
    Told server (world.answer request mishap).2
      { flight with
        heard := flight.heard ++ [⟨request,(world.answer request mishap).1⟩]
        rest := rest (world.answer request mishap).1 } := by
  have along := told.fits
  rw [asking] at along
  obtain ⟨fits,goesOn⟩ := along
  have onward := onward_answer mishap fits fun number mem => (told.owned number mem).2
  have before := told.onward onward
  have claims {floor ceiling observedMax number : Int}
      (isClaim : request = .claimID floor ceiling observedMax)
      (claimed : Claimed world (world.answer request mishap).2 floor ceiling observedMax number) :
      server.owns number ∧ ∀ group ∈ (world.answer request mishap).2.target.groups,
        server.owns group.gid → Marked (world.answer request mishap).2 group.gid := by
    rw [isClaim] at fits
    obtain ⟨rfl,rfl,highest,heard,observed⟩ := fits
    refine ⟨owns_iff.mpr claimed.inRange,fun group mem owned => ?_⟩
    rcases before.seen highest heard group mem owned with ⟨top,isTop,_⟩ | marked
    · obtain ⟨mark,isMark,_⟩ := claimed.marked
      have observed := observed top isTop
      have past := claimed.past
      exact ⟨mark,isMark,by omega⟩
    · exact marked
  refine ⟨goesOn _,fun number mem => ?_,fun highest mem => ?_,fun some => ?_⟩
  · rw [numbers_concat,mem_append] at mem
    rcases mem with old | new
    · exact before.owned number old
    rcases given_cases new with ⟨_,_,_,isClaim,claimed⟩ |
      ⟨name,rfl,owned,group,there,rfl⟩
    · exact ⟨(claims isClaim claimed).1,claimed.marked⟩
    · exact ⟨owned,onward.mark _ (told.bounded fits group there owned)⟩
  · rcases mem_append.mp mem with old | new
    · exact before.seen highest old
    intro _ there owned
    have same := mem_singleton.mp new
    cases request with
    | highestGid =>
      obtain ⟨sameRequest,sameAnswer⟩ := Exchange.mk.inj same
      cases sameRequest
      have ok := (eq_of_heq sameAnswer).symm
      have effected := answer_ok ok
      rw [effected] at ok there
      cases ok
      exact .inl (le_highest (mem_map_of_mem there) (owns_iff.mp owned))
    | _ => cases same
  · by_cases earlier : numbers server flight.heard = []
    · rw [numbers_concat,earlier] at some
      obtain ⟨_,new⟩ := exists_mem_of_ne_nil _ some
      rcases given_cases new with ⟨_,_,_,isClaim,claimed⟩ | ⟨_,rfl,-⟩
      · exact (claims isClaim claimed).2
      · exact absurd earlier fits
    · exact before.bounded earlier

theorem holding_of_ask (asks : flight.asks = some request)
    (unasked : askedUser flight.heard = false) :
    holding server flight = numbers server flight.heard := by
  unfold holding
  rw [asks,unasked]
  rfl

theorem holding_answered {answer : Answer request} {rest : Call Unit}
    (asks : flight.asks = some request) (mem : number ∈ holding server
      { flight with heard := flight.heard ++ [⟨request,answer⟩], rest := rest }) :
    request.makesUser = false ∧
      (number ∈ holding server flight ∨ number ∈ given server ⟨request,answer⟩) := by
  rw [holding] at mem
  split at mem
  · next holds =>
    rw [askedUser_append,and_eq_true,not_eq_true',or_eq_false_iff] at holds
    rw [numbers_concat,mem_append,← holding_of_ask asks holds.2.1] at mem
    exact ⟨holds.2.2,mem⟩
  · cases mem

theorem creates_eq_some (creates : world.creates request mishap = some number) :
    ∃ fields, request = .userCreate fields ∧ number = fields.uid := by
  unfold World.creates at creates
  split at creates
  · cases creates
  · next fields _ =>
    split at creates
    · exact ⟨fields,rfl,(some.inj creates).symm⟩
    · cases creates
  · cases creates

section

variable (numbering : Numbering server state)
include numbering

theorem Numbering.begin (task : Task) : Numbering server
      { pool := { state.pool with
          flights := state.pool.flights ++ [⟨task,[],task.program server⟩] }
        created := state.created } := by
  have nothing : holding server ⟨task,[],task.program server⟩ = [] := by
    unfold holding
    split <;> rfl
  refine ⟨?_,?_,?_,numbering.made,numbering.once⟩
  · intro flight mem
    rcases mem_append.mp mem with old | new
    · exact numbering.told flight old
    cases mem_singleton.mp new
    exact ⟨along_program task,nofun,nofun,
      (absurd rfl)⟩
  · intro first second one another atFirst atSecond different number held heldToo
    rcases of_append atFirst with oldFirst | ⟨-,rfl⟩
    · rcases of_append atSecond with oldSecond | ⟨-,rfl⟩
      · exact numbering.apart first second one another oldFirst oldSecond different number held
          heldToo
      · rw [nothing] at heldToo
        cases heldToo
    · rw [nothing] at held
      cases held
  · intro flight mem number held
    rcases mem_append.mp mem with old | new
    · exact numbering.unused flight old number held
    cases mem_singleton.mp new
    rw [nothing] at held
    cases held

theorem Numbering.onward
    (onward : Onward state.pool.world after) :
    Numbering server { state with pool := { state.pool with world := after } } where
  told := fun flight mem => (numbering.told flight mem).onward onward
  apart := numbering.apart
  unused := numbering.unused
  made := fun number mem =>
    ⟨(numbering.made number mem).1,onward.mark number (numbering.made number mem).2⟩
  once := numbering.once

variable {index : Nat}

theorem Numbering.given_unused
    (found : state.pool.flights[index]? = some flight) (asks : flight.asks = some request)
    (unused : state.TakesUnused server (.advance index mishap))
    (new : number ∈ given server ⟨request,(state.pool.world.answer request mishap).1⟩) :
    number ∉ state.created ∧ ∀ (place : Nat) (other : Flight Task Answer Unit),
      state.pool.flights[place]? = some other → place ≠ index → number ∉ holding server other := by
  rcases given_cases new with ⟨_,_,_,-,claimed⟩ | ⟨_,rfl,-⟩
  · refine ⟨fun made => ?_,fun place other there different held => ?_⟩
    · exact absurd (claimed.fresh number (numbering.made number made).2) (lt_irrefl number)
    have told := numbering.told other (mem_of_getElem? there)
    have owned : number ∈ numbers server other.heard := by
      unfold holding at held
      split at held
      · exact held
      · cases held
    exact absurd (claimed.fresh number (told.owned number owned).2) (lt_irrefl number)
  · have takes : number ∈ state.pool.takes server index mishap := by
      unfold Calls.takes
      rw [found,bind_some,asks]
      exact new
    obtain ⟨notMade,notHeld⟩ := unused number takes
    exact ⟨notMade,fun place other there different =>
      notHeld (other, place) (mk_mem_zipIdx_iff_getElem?.mpr there) different⟩

theorem Numbering.advance
    {rest : Answer request → Call Unit} (found : state.pool.flights[index]? = some flight)
    (asking : flight.rest = .ask request rest) (asks : flight.asks = some request)
    (unused : state.TakesUnused server (.advance index mishap)) :
    Numbering server
      { pool :=
          { world := (state.pool.world.answer request mishap).2
            flights := state.pool.flights.set index
              { flight with
                heard := flight.heard ++ [⟨request,(state.pool.world.answer request mishap).1⟩]
                rest := rest (state.pool.world.answer request mishap).1 } }
        created := state.created ++ (state.pool.world.creates request mishap).toList } := by
  have told := numbering.told flight (mem_of_getElem? found)
  have fits : Fits server flight.heard request := by
    have along := told.fits
    rw [asking] at along
    exact along.1
  have onward := onward_answer mishap fits fun number mem => (told.owned number mem).2
  have making {number : Int} (made : state.pool.world.creates request mishap = some number) :
      request.makesUser = true ∧ number ∈ holding server flight := by
    obtain ⟨_,rfl,rfl⟩ := creates_eq_some made
    refine ⟨rfl,?_⟩
    rw [holding_of_ask asks fits.2]
    exact fits.1
  have owns {number : Int} (held : number ∈ holding server flight) :
      number ∈ numbers server flight.heard := by
    unfold holding at held
    split at held
    · exact held
    · cases held
  refine ⟨?_,?_,?_,?_,?_⟩
  · intro other mem
    obtain ⟨place,there⟩ := mem_iff_getElem?.mp mem
    rcases of_set there with ⟨-,rfl⟩ | ⟨-,old⟩
    · exact told.answered asking mishap
    · exact (numbering.told other (mem_of_getElem? old)).onward onward
  · intro first second one another atFirst atSecond different number held heldToo
    have others {place : Nat} {other : Flight Task Answer Unit}
        (there : state.pool.flights[place]? = some other) (elsewhere : place ≠ index)
        (advanced : number ∈ holding server
          { flight with
            heard := flight.heard ++ [⟨request,(state.pool.world.answer request mishap).1⟩]
            rest := rest (state.pool.world.answer request mishap).1 }) :
        number ∉ holding server other := by
      rcases (holding_answered asks advanced).2 with old | new
      · exact numbering.apart index place flight other found there (Ne.symm elsewhere) number old
      · exact (numbering.given_unused found asks unused new).2 place other there elsewhere
    rcases of_set atFirst with ⟨rfl,rfl⟩ | ⟨notFirst,oldFirst⟩
    · rcases of_set atSecond with ⟨rfl,-⟩ | ⟨notSecond,oldSecond⟩
      · exact different rfl
      · exact others oldSecond notSecond held heldToo
    rcases of_set atSecond with ⟨rfl,rfl⟩ | ⟨_,oldSecond⟩
    · exact others oldFirst notFirst heldToo held
    · exact numbering.apart first second one another oldFirst oldSecond different number held
        heldToo
  · intro other mem number held made
    obtain ⟨place,there⟩ := mem_iff_getElem?.mp mem
    rcases mem_append.mp made with earlier | now
    · rcases of_set there with ⟨-,rfl⟩ | ⟨-,old⟩
      · rcases (holding_answered asks held).2 with old | new
        · exact numbering.unused flight (mem_of_getElem? found) number old earlier
        · exact (numbering.given_unused found asks unused new).1 earlier
      · exact numbering.unused other (mem_of_getElem? old) number held earlier
    · obtain ⟨makes,own⟩ := making (mem_toList.mp now)
      rcases of_set there with ⟨-,rfl⟩ | ⟨elsewhere,old⟩
      · have notMaking := (holding_answered asks held).1
        rw [makes] at notMaking
        cases notMaking
      · exact numbering.apart index place flight other found old (Ne.symm elsewhere) number own held
  · intro number made
    rcases mem_append.mp made with earlier | now
    · exact ⟨(numbering.made number earlier).1,
        onward.mark number (numbering.made number earlier).2⟩
    · have owned := told.owned number (owns (making (mem_toList.mp now)).2)
      exact ⟨owned.1,onward.mark number owned.2⟩
  · cases made : state.pool.world.creates request mishap with
    | none =>
      rw [toList_none,append_nil]
      exact numbering.once
    | some number =>
      refine numbering.once.append (nodup_singleton number) ?_
      intro _ earlier now
      cases mem_singleton.mp now
      exact numbering.unused flight (mem_of_getElem? found) number (making made).2 earlier

theorem Numbering.step {next : Creations} {move : Move Task Deletion Mishap}
    (unused : state.TakesUnused server move)
    (taken : state.step server move = some next) : Numbering server next := by
  obtain ⟨_,moved,rfl⟩ := map_eq_some_iff.mp taken
  cases move with
  | begin task =>
    cases moved
    have begun := numbering.begin task
    simpa only [Calls.creates,toList_none,append_nil] using begun
  | advance index mishap =>
    obtain ⟨_,request,_,found,asking,asks,rfl⟩ := step_advance moved
    have creates : state.pool.creates (.advance index mishap) =
        state.pool.world.creates request mishap := by
      simp only [Calls.creates,found,asks,bind_eq_bind,bind_some]
    rw [creates]
    exact numbering.advance found asking asks unused
  | outside =>
    obtain ⟨_,deleted,rfl⟩ := map_eq_some_iff.mp moved
    have kept := numbering.onward (onward_deletion deleted)
    simpa only [Calls.creates,toList_none,append_nil] using kept

end

end Invariant

structure Creations.Initial (state : Creations) : Prop where
  idle : state.pool.flights = []
  unmade : state.created = []

theorem Creations.Initial.numbering {server : Server} {state : Creations}
    (initial : state.Initial) : Numbering server state := by
  obtain ⟨idle,unmade⟩ := initial
  refine ⟨?_,?_,?_,?_,?_⟩
  · rw [idle]
    intro flight mem
    cases mem
  · rw [idle]
    intro _ _ _ _ found
    cases found
  · rw [idle]
    intro _ mem
    cases mem
  · rw [unmade]
    intro _ mem
    cases mem
  · rw [unmade]
    exact nodup_nil

/-- In every run in which the fall-back takes over only unused numbers, no number is
given to two accounts. -/
theorem numberedOnce_run (server : Server) (start final : Creations)
    (moves : List (Move Task Deletion Mishap)) (initial : start.Initial)
    (unused : Runs.Throughout (Creations.step server) (Creations.TakesUnused server) start moves)
    (reached : Runs.run (Creations.step server) start moves = some final) :
    NumberedOnce server final := by
  have numbering := Runs.run_invariant (Numbering server)
    (fun numbering => numbering.step) initial.numbering unused reached
  exact ⟨numbering.once,fun number mem => owns_iff.mp (numbering.made number mem).1⟩

def advanceTimes (count index : Nat) : List (Move Task Deletion Mishap) :=
  replicate count (.advance index none)

def leftGroupMoves : List (Move Task Deletion Mishap) :=
  .begin (createCall "first" "ada@example.org") :: advanceTimes 8 0 ++
    [.advance 0 (some (.failed (refusal "user.create"))),
      .advance 0 (some (.failed (refusal "group.delete")))] ++
    .begin (createCall "first" "ada@example.org") :: advanceTimes 13 1 ++
    .begin (createCall "second" "bea@example.org") :: advanceTimes 12 2

def emptyTarget : Creations :=
  { pool := { world := worldWith [], flights := [] }, created := [] }

theorem numberedOnce_leftGroupMoves :
    ∃ final, Runs.run (Creations.step plainServer) emptyTarget leftGroupMoves = some final ∧
      final.created = [200000,200002] ∧ NumberedOnce plainServer final := by
  refine Runs.exists_reached_and (by decide +kernel) fun final reached _ => ?_
  exact numberedOnce_run plainServer emptyTarget final leftGroupMoves ⟨rfl,rfl⟩ (by decide +kernel)
    reached

def deletedUserMoves : List (Move Task Deletion Mishap) :=
  .begin (createCall "first" "ada@example.org") :: advanceTimes 12 0 ++
    .outside (.user (some 1)) :: .begin (.release "first") :: advanceTimes 2 1 ++
    .begin (createCall "second" "ada@example.net") :: advanceTimes 13 2

/-- The subject that comes after is given the number of the one that left. -/
theorem numberedTwice_deletedUserMoves : emptyTarget.Initial ∧
      ∃ final, Runs.run (Creations.step plainServer) emptyTarget deletedUserMoves = some final ∧
        final.created = [200000,200000] ∧
        final.pool.world.bindings.map (fun binding => (binding.subjectId, binding.uid)) =
          [("second", 200000)] ∧
        ¬ NumberedOnce plainServer final := by
  refine ⟨⟨rfl,rfl⟩,?_⟩
  refine Runs.exists_reached_both (by decide +kernel) fun final _ made _ numbered => ?_
  have once := numbered.once
  rw [made] at once
  exact absurd once (by decide)

end Syndra.TrueNAS
