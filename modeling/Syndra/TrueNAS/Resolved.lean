/-
The record a one-shot operation acts on, against the account a convergence writes.

`recordID` asks for the recorded number first and falls back to the name; `locate` asks for
the name first and turns down a name held by another number.
-/

import Syndra.TrueNAS.Alone

namespace Syndra.TrueNAS

open Foundation.Programs Foundation.Text List World

section Lookups

variable {world : World} {filter : UserFilter} {user : NasUser}

def World.matching (world : World) (filter : UserFilter) : List NasUser :=
  world.target.users.filter filter.admits

theorem mem_matching :
    user ∈ world.matching filter ↔ user ∈ world.target.users ∧ filter.admits user = true :=
  mem_filter

variable {words : String} {rows : List NasUser} {id : ApiID}

theorem oneRecord_take :
    oneRecord words (rows.take 2) = .ok id ↔ ∃ user, rows = [user] ∧ user.id = id ∧ id.isSome := by
  match rows with
  | [] => simp [oneRecord]
  | [user] =>
    simp only [take_succ_cons,take_nil,oneRecord]
    split
    · next known =>
      constructor
      · intro same
        cases same
        exact ⟨user,rfl,rfl,known⟩
      · rintro ⟨other,same,rfl,-⟩
        cases same
        rfl
    · next unknown =>
      constructor
      · intro same
        cases same
      rintro ⟨_,same,rfl,known⟩
      cases same
      exact absurd known unknown
  | first :: second :: rest => simp [oneRecord]

theorem oneRecord_absent {failure : Failure}
    (failed : oneRecord words (rows.take 2) = .error failure) :
    failure.kind = .noSuchAccount ↔ rows = [] ∨ ∃ user, rows = [user] ∧ user.id = none := by
  match rows with
  | [] =>
    cases failed
    simp [noSuchAccount]
  | [user] =>
    simp only [take_succ_cons,take_nil,oneRecord] at failed
    split at failed
    · cases failed
    rename_i unknown
    cases failed
    simpa [noSuchAccount] using unknown
  | first :: second :: rest =>
    cases failed
    simp [ambiguousAccount]

theorem perform_lookupOne : perform effect (lookupOne filter) world =
      ([⟨.userQuery filter 2,.ok ((world.matching filter).take 2)⟩],
        oneRecord filter.words ((world.matching filter).take 2), world) := rfl

def World.numbered (world : World) (binding : Binding) : List NasUser :=
  if binding.uid = 0 then [] else world.matching (.uid binding.uid)

/-- Nothing is found by the number: it is 0, no account has it, or the one that has
it came without a record key. -/
def World.GoneByNumber (world : World) (binding : Binding) : Prop :=
  world.numbered binding = [] ∨ ∃ user, world.numbered binding = [user] ∧ user.id = none

def World.Resolves (world : World) (binding : Binding) (id : ApiID) : Prop :=
  (perform World.effect (recordID binding) world).2.1 = .ok id

theorem resolves_iff {binding : Binding} : world.Resolves binding id ↔
      (∃ user, world.numbered binding = [user] ∧ user.id = id ∧ id.isSome) ∨
        world.GoneByNumber binding ∧
          ∃ user, world.matching (.username binding.username) = [user] ∧ user.id = id ∧
            id.isSome := by
  have byName : (perform effect (lookupOne (.username binding.username)) world).2.1 = .ok id ↔
      ∃ user, world.matching (.username binding.username) = [user] ∧ user.id = id ∧ id.isSome := by
    exact oneRecord_take
  unfold World.Resolves World.GoneByNumber numbered recordID
  by_cases legacy : binding.uid = 0
  · simp only [legacy,↓reduceIte,byName]
    simp
  simp only [legacy,↓reduceIte]
  rw [perform_bind,perform_lookupOne]
  cases found : oneRecord (UserFilter.uid binding.uid).words
      ((world.matching (.uid binding.uid)).take 2) with
  | ok other =>
    obtain ⟨user,alone,rfl,known⟩ := oneRecord_take.mp found
    rw [alone]
    constructor
    · intro same
      cases same
      exact .inl ⟨user,rfl,rfl,known⟩
    rintro (⟨_,same,rfl,-⟩ | ⟨nothing | ⟨_,same,unknown⟩,-⟩)
    · cases same
      rfl
    · cases nothing
    cases same
    rw [unknown] at known
    cases known
  | error failure =>
    have absent := oneRecord_absent found
    dsimp only
    by_cases gone : failure.kind = .noSuchAccount
    · rw [if_pos gone]
      rw [byName]
      constructor
      · exact fun named => .inr ⟨absent.mp gone,named⟩
      rintro (numbered | ⟨-,named⟩)
      · rw [oneRecord_take.mpr numbered] at found
        cases found
      · exact named
    · rw [if_neg gone]
      constructor
      · intro same
        cases same
      rintro (numbered | ⟨none,-⟩)
      · rw [oneRecord_take.mpr numbered] at found
        cases found
      · exact absurd (absent.mpr none) gone

theorem find_alone (named : filter ≠ .everyone) (alone : world.matching filter = [user]) :
    (world.find filter).1 =
      if user.isSystem then none else some (user.toSubject world.target.groups) := by
  have admitted : filter.admits user = true := by
    have mem : user ∈ world.matching filter := by
      rw [alone]
      exact mem_singleton_self user
    exact (mem_matching.mp mem).2
  have names : filter.names (user.toSubject world.target.groups) = true := by
    cases filter with
    | everyone => exact absurd rfl named
    | username | uid => exact admitted
  unfold find foundIn
  unfold matching at alone
  rw [alone]
  cases system : user.isSystem with
  | true => simp [snapshotOf,withoutSystemAccounts,system,subjectReadCap]
  | false => simp [snapshotOf,withoutSystemAccounts,system,subjectReadCap,names]

theorem find_nothing (none : world.matching filter = []) : (world.find filter).1 = Option.none := by
  unfold find
  unfold matching at none
  rw [none]
  rfl

end Lookups

/-- The account a convergence of the subject would find has this record key, and
where the recorded number is one of ours, the record key's account has it. -/
structure OwnAccount (server : Server) (world : World) (binding : Binding) (id : ApiID) :
    Prop where
  accepted : ∃ current kept, world.locatedBound server binding = .found current kept ∧
    current.id = id
  numbered : server.owns binding.uid → ∀ user ∈ world.target.users, user.id = id →
    user.uid = binding.uid

/-- The account of the recorded number is not the machine's own, nobody else has the
recorded name, and it has that name itself unless the number is one of ours. Where
nothing is found by the number, the number is none of ours and the account of the
name not the machine's own. -/
def StillTheirs (server : Server) (world : World) (binding : Binding) : Prop :=
  (∀ user ∈ world.numbered binding, user.id.isSome →
    user.isSystem = false ∧ (server.owns binding.uid ∨ user.username = binding.username) ∧
      ∀ other ∈ world.target.users, other.username = binding.username →
        other.isSystem = false → other = user) ∧
  (world.GoneByNumber binding → server.owns binding.uid = false ∧
    ∀ user ∈ world.target.users, user.username = binding.username → user.isSystem = false)

structure Distinct (world : World) : Prop where
  keys : ∀ one ∈ world.target.users, ∀ other ∈ world.target.users,
    one.id.isSome → one.id = other.id → one = other
  names : (world.target.users.map NasUser.username).Nodup

private theorem filter_of_nodup {Row Key : Type} [DecidableEq Key] {key : Row → Key} {wanted : Key}
    {rows : List Row} (distinct : (rows.map key).Nodup) :
    rows.filter (fun row => key row = wanted) = [] ∨
      ∃ row, rows.filter (fun row => key row = wanted) = [row] := by
  induction rows with
  | nil => exact .inl rfl
  | cons first rest ih =>
    rw [map_cons,nodup_cons] at distinct
    by_cases same : key first = wanted
    · have others : rest.filter (fun row => key row = wanted) = [] := by
        rw [filter_eq_nil_iff]
        intro row mem sameRow
        have named := of_decide_eq_true sameRow
        exact distinct.1 (mem_map.mpr ⟨row,mem,named.trans same.symm⟩)
      refine .inr ⟨first,?_⟩
      rw [filter_cons_of_pos (by simpa using same),others]
    · rw [filter_cons_of_neg (by simpa using same)]
      exact ih distinct.2

theorem matching_username {world : World}
    (names : (world.target.users.map NasUser.username).Nodup) (name : String) :
    world.matching (.username name) = [] ∨ ∃ user, world.matching (.username name) = [user] :=
  filter_of_nodup names

theorem owns_pos {server : Server} {uid : Int} (owned : server.owns uid) : 0 < uid := by
  have floor : 0 < server.floor := by
    unfold Server.floor defaultIDFloor
    split <;> omega
  unfold Server.owns at owned
  rw [Bool.and_eq_true,decide_eq_true_eq] at owned
  omega

section Compare

variable {server : Server} {world : World} {binding : Binding} {id : ApiID} {user : NasUser}

theorem mem_alone {filter : UserFilter} (alone : world.matching filter = [user]) {other : NasUser} :
    other ∈ world.target.users ∧ filter.admits other = true ↔ other = user := by
  rw [← mem_matching,alone,mem_singleton]

theorem numbered_of_owns (owned : server.owns binding.uid) :
    world.numbered binding = world.matching (.uid binding.uid) := by
  unfold numbered
  rw [if_neg (Int.ne_of_gt (owns_pos owned))]

theorem ownAccount_of_numbered (distinct : Distinct world)
    (alone : world.numbered binding = [user]) (known : user.id.isSome) :
    OwnAccount server world binding user.id ↔ StillTheirs server world binding := by
  have byNumber : world.matching (.uid binding.uid) = [user] := by
    unfold numbered at alone
    split at alone
    · cases alone
    · exact alone
  obtain ⟨there,numbered⟩ := (mem_alone byNumber).mpr rfl
  have numbered : user.uid = binding.uid := of_decide_eq_true numbered
  have found := find_alone (by simp) byNumber
  have stays : ¬ world.GoneByNumber binding := by
    unfold World.GoneByNumber
    rw [alone]
    rintro (nothing | ⟨again,same,unknown⟩)
    · cases nothing
    cases same
    rw [unknown] at known
    cases known
  constructor
  · rintro ⟨⟨current,kept,located,sameKey⟩,-⟩
    refine ⟨fun again mem _ => ?_,fun gone => absurd gone stays⟩
    rw [alone,mem_singleton] at mem
    subst mem
    rcases locatedBound_found.mp ⟨kept,located⟩ with ⟨byName,-⟩ | ⟨noName,owned,byUID⟩
    · rcases matching_username distinct.names binding.username with nobody | ⟨named,aloneNamed⟩
      · rw [find_nothing nobody] at byName
        cases byName
      rw [find_alone (by simp) aloneNamed] at byName
      split at byName
      · cases byName
      rename_i person
      cases byName
      obtain ⟨inUsers,hasName⟩ := (mem_alone aloneNamed).mpr rfl
      cases distinct.keys again there named inUsers known sameKey.symm
      refine ⟨by simpa using person,.inr (of_decide_eq_true hasName),?_⟩
      exact fun other mem same _ =>
        (mem_alone aloneNamed).mp ⟨mem,decide_eq_true same⟩
    · rw [found] at byUID
      split at byUID
      · cases byUID
      rename_i person
      refine ⟨by simpa using person,.inl owned,fun other mem same personToo => ?_⟩
      rcases matching_username distinct.names binding.username with nobody | ⟨named,aloneNamed⟩
      · have inNobody : other ∈ world.matching (.username binding.username) :=
          mem_matching.mpr ⟨mem,decide_eq_true same⟩
        rw [nobody] at inNobody
        cases inNobody
      · cases (mem_alone aloneNamed).mp ⟨mem,decide_eq_true same⟩
        rw [find_alone (by simp) aloneNamed,personToo] at noName
        cases noName
  · rintro ⟨theirs,-⟩
    obtain ⟨person,ours,alike⟩ := theirs user (by rw [alone]; exact mem_singleton_self user)
      known
    rw [person] at found
    have accepted : ∃ kept, world.locatedBound server binding =
        .found (user.toSubject world.target.groups) kept := by
      apply locatedBound_found.mpr
      have owned_of_unnamed (unnamed : user.username ≠ binding.username) :
          server.owns binding.uid := ours.resolve_right unnamed
      rcases matching_username distinct.names binding.username with nobody | ⟨named,aloneNamed⟩
      · refine .inr ⟨find_nothing nobody,owned_of_unnamed fun same => ?_,found⟩
        have inNobody : user ∈ world.matching (.username binding.username) :=
          mem_matching.mpr ⟨there,decide_eq_true same⟩
        rw [nobody] at inNobody
        cases inNobody
      · obtain ⟨inUsers,hasName⟩ := (mem_alone aloneNamed).mpr rfl
        cases system : named.isSystem with
        | false =>
          cases alike named inUsers (of_decide_eq_true hasName) system
          refine .inl ⟨?_,fun _ => numbered⟩
          rw [find_alone (by simp) aloneNamed,person]
          rfl
        | true =>
          refine .inr ⟨?_,owned_of_unnamed fun same => ?_,found⟩
          · rw [find_alone (by simp) aloneNamed,system]
            rfl
          cases (mem_alone aloneNamed).mp ⟨there,decide_eq_true same⟩
          rw [person] at system
          cases system
    obtain ⟨kept,located⟩ := accepted
    refine ⟨⟨_,kept,located,rfl⟩,fun _ other mem same => ?_⟩
    cases distinct.keys user there other mem known same.symm
    exact numbered

theorem ownAccount_of_named (gone : world.GoneByNumber binding)
    (alone : world.matching (.username binding.username) = [user]) (known : user.id.isSome) :
    OwnAccount server world binding user.id ↔ StillTheirs server world binding := by
  have found := find_alone (by simp) alone
  obtain ⟨there,-⟩ := (mem_alone alone).mpr rfl
  have unkeyed {other : NasUser} (mem : other ∈ world.numbered binding) : other.id = none := by
    rcases gone with nothing | ⟨_,same,unknown⟩
    · rw [nothing] at mem
      cases mem
    rw [same,mem_singleton] at mem
    rw [mem]
    exact unknown
  have foreign (owned : server.owns binding.uid) : user.uid ≠ binding.uid := by
    intro same
    have mem : user ∈ world.numbered binding := by
      rw [numbered_of_owns owned]
      exact mem_matching.mpr ⟨there,decide_eq_true same⟩
    rw [unkeyed mem] at known
    cases known
  constructor
  · rintro ⟨⟨_,kept,located,_⟩,numbered⟩
    have unowned : server.owns binding.uid = false := by
      by_contra owned
      have owned : server.owns binding.uid := by simpa using owned
      exact foreign owned (numbered owned user there rfl)
    refine ⟨fun other mem knownToo => ?_,fun _ => ⟨unowned,fun other mem same => ?_⟩⟩
    · rw [unkeyed mem] at knownToo
      cases knownToo
    cases (mem_alone alone).mp ⟨mem,decide_eq_true same⟩
    rcases locatedBound_found.mp ⟨kept,located⟩ with ⟨byName,-⟩ | ⟨-,owned,-⟩
    · rw [found] at byName
      split at byName
      · cases byName
      · next person => simpa using person
    · rw [unowned] at owned
      cases owned
  · rintro ⟨-,theirs⟩
    obtain ⟨unowned,persons⟩ := theirs gone
    have person := persons user there
      (of_decide_eq_true ((mem_alone alone).mpr rfl).2)
    rw [person] at found
    obtain ⟨kept,located⟩ := locatedBound_found.mpr
      (.inl ⟨found,fun owned => by rw [unowned] at owned; cases owned⟩)
    refine ⟨⟨_,kept,located,rfl⟩,fun owned => ?_⟩
    rw [unowned] at owned
    cases owned

theorem ownAccount_iff_of_resolves (distinct : Distinct world)
    (resolved : world.Resolves binding id) :
    OwnAccount server world binding id ↔ StillTheirs server world binding := by
  rcases resolves_iff.mp resolved with ⟨_,alone,rfl,known⟩ | ⟨gone,_,alone,rfl,known⟩
  · exact ownAccount_of_numbered distinct alone known
  · exact ownAccount_of_named gone alone known

end Compare

inductive Operation where
  | passwordSet (password : Option String)
  | passwordRotate (minted : Option String)
  | accountPurge (elevatedKey : Option String)
deriving DecidableEq

def Operation.program (subject : String) : Operation → Call OperationReply
  | .passwordSet password => setPassword subject password
  | .passwordRotate minted => rotatePassword subject minted
  | .accountPurge elevatedKey => purgeAccount subject elevatedKey

def Request.actsOn : Request → Option ApiID
  | .userUpdate id _ => some id
  | .userDelete id => some id
  | _ => none

def World.actedOn (world : World) (subject : String) (operation : Operation) : List ApiID :=
  (perform World.effect (operation.program subject) world).1.filterMap
    fun exchange => exchange.request.actsOn

section Operations

variable {world : World} {subject : String} {binding : Binding} {id : ApiID}

def ActsOnly {Result : Type} (id : ApiID) (program : Call Result) : Prop :=
  program.Only fun request => ∀ other ∈ request.actsOn, other = id

def ActsNowhere {Result : Type} (program : Call Result) : Prop :=
  program.Only fun request => request.actsOn = none

variable {Result : Type}

theorem actsNowhere_of_plain {program : Call Result}
    (only : program.Only Request.Plain) : ActsNowhere program := by
  refine only.mono fun request plain => ?_
  cases request with
  | userUpdate | userDelete => exact plain.elim
  | _ => rfl

theorem mem_actedOn_bind {First : Type} {program : Call First}
    {next : First → Call OperationReply} (only : ActsNowhere program) :
    (perform effect (program >>= next) world).1.filterMap
        (fun exchange => exchange.request.actsOn) =
      (perform effect (next (perform effect program world).2.1)
        (perform effect program world).2.2).1.filterMap
          fun exchange => exchange.request.actsOn := by
  have nowhere : (perform effect program world).1.filterMap
      (fun exchange => exchange.request.actsOn) = [] := by
    rw [filterMap_eq_nil_iff]
    exact (ran_performed program world).only only
  rw [perform_bind,filterMap_append,nowhere,nil_append]

theorem resolves_of_actsOnly {next : Except Failure ApiID → Call OperationReply}
    (acts : id ∈ (perform effect (recordID binding >>= next) world).1.filterMap
      fun exchange => exchange.request.actsOn)
    (failed : ∀ failure, ActsNowhere (next (.error failure)))
    (only : ∀ found, ActsOnly found (next (.ok found))) : world.Resolves binding id := by
  rw [mem_actedOn_bind (actsNowhere_of_plain (only_of_neutral neutral_recordID))] at acts
  obtain ⟨exchange,mem,actsOn⟩ := mem_filterMap.mp acts
  unfold World.Resolves
  cases found : (perform effect (recordID binding) world).2.1 with
  | error failure =>
    rw [found] at mem
    have none := (ran_performed (next (.error failure)) _).only (failed failure) exchange mem
    rw [none] at actsOn
    cases actsOn
  | ok other =>
    rw [found] at mem
    have same := (ran_performed (next (.ok other)) _).only (only other) exchange mem id actsOn
    rw [same]

theorem perform_boundAccount (bound : world.bindingOf subject = some binding) :
    (perform effect (boundAccount subject) world).2 = (.ok binding, world) := by
  have read : world.effect (.getBinding subject) = (.ok (some binding), world) := by
    rw [← bound]
    rfl
  unfold boundAccount getBinding
  simp only [Program.ask_bind,perform_ask,read]
  rfl

theorem actsOnly_of_nowhere {program : Call Result}
    (nowhere : ActsNowhere program) : ActsOnly id program :=
  Program.Only.mono nowhere fun request none other acts => by
    rw [none] at acts
    cases acts

theorem actsNowhere_desiredSMB : ActsNowhere (desiredSMB subject) := by
  refine Program.only_bind ⟨rfl,fun _ => trivial⟩ fun found => ?_
  split <;> trivial

theorem actsOnly_purgeRecord {key : String} : ActsOnly id (purgeRecord subject binding key id) := by
  refine ⟨nofun,fun elevated => ?_⟩
  cases elevated with
  | error => trivial
  | ok done =>
    refine ⟨fun _ same => (Option.some.inj same).symm,fun deleted => ?_⟩
    cases deleted with
    | error => trivial
    | ok => exact ⟨nofun,fun _ => trivial⟩

theorem perform_self_world : (perform effect self world).2.2 = world := by
  have read : (world.effect .self).2 = world := @answer_of_reads .self trivial world none
  unfold self
  rw [perform_ask]
  cases (world.effect .self).1 with
  | error | ok => exact read

theorem resolves_of_mem_actedOn (bound : world.bindingOf subject = some binding)
    {operation : Operation} (acts : id ∈ world.actedOn subject operation) :
    world.Resolves binding id := by
  have account := actsNowhere_of_plain (only_of_neutral (neutral_boundAccount subject))
  unfold actedOn Operation.program at acts
  cases operation with
  | passwordSet =>
    dsimp only [setPassword] at acts
    split at acts
    · cases acts
    rw [mem_actedOn_bind account,perform_boundAccount bound] at acts
    refine resolves_of_actsOnly acts (fun _ => trivial) fun found => ?_
    refine Program.only_bind (actsOnly_of_nowhere actsNowhere_desiredSMB)
      fun smb => ⟨fun _ same => (Option.some.inj same).symm,fun answer => ?_⟩
    cases answer with
    | error | ok => trivial
  | passwordRotate =>
    dsimp only [rotatePassword] at acts
    rw [mem_actedOn_bind account,perform_boundAccount bound] at acts
    dsimp only at acts
    split at acts
    · cases acts
    refine resolves_of_actsOnly acts (fun _ => trivial) fun found =>
      ⟨fun _ same => (Option.some.inj same).symm,fun answer => ?_⟩
    cases answer with
    | error | ok => trivial
  | accountPurge =>
    dsimp only [purgeAccount] at acts
    split at acts
    · cases acts
    rw [mem_actedOn_bind account,perform_boundAccount bound] at acts
    rw [mem_actedOn_bind (actsNowhere_of_plain (only_of_neutral neutral_self))] at acts
    rw [perform_self_world] at acts
    split at acts
    · cases acts
    split at acts
    · cases acts
    · exact resolves_of_actsOnly acts (fun _ => trivial) fun found =>
        actsOnly_purgeRecord

end Operations

/-- An operation acts only on the record the binding resolves to, and that is the
subject's own account exactly where the account is still theirs. -/
theorem operation_acts_on_own_account (server : Server) (world : World) (subject : String)
    (binding : Binding) (distinct : Distinct world)
    (bound : world.bindingOf subject = some binding) :
    (∀ id, world.Resolves binding id →
      (OwnAccount server world binding id ↔ StillTheirs server world binding)) ∧
    ∀ operation, ∀ id ∈ world.actedOn subject operation, world.Resolves binding id :=
  ⟨fun _ => ownAccount_iff_of_resolves distinct,
    fun _ _ => resolves_of_mem_actedOn bound⟩

theorem operation_acts_on_renamed :
    let world := (worldWith [userNamed 1 "ada2" 200000]).put adaBinding
    world.actedOn "first" (.passwordSet (some "secret")) = [some 1] ∧
      OwnAccount plainServer world adaBinding (some 1) := by
  have distinct : Distinct ((worldWith [userNamed 1 "ada2" 200000]).put adaBinding) :=
    ⟨by decide,by decide⟩
  refine ⟨by decide,((operation_acts_on_own_account plainServer _ "first" adaBinding distinct
    (by decide)).1 (some 1) rfl).mpr ⟨by decide,?_⟩⟩
  rintro (nothing | ⟨_,same,unknown⟩)
  · cases nothing
  · cases same
    cases unknown

/-- The subject's account was deleted, and an account of its name was made by hand
under another number: its password is set and it is deleted, though no convergence
would touch it. -/
theorem operation_acts_on_stranger :
    let world := (worldWith [userNamed 1 "ada" 3000]).put adaBinding
    world.bindingOf "first" = some adaBinding ∧ plainServer.owns adaBinding.uid ∧
      world.actedOn "first" (.passwordSet (some "secret")) = [some 1] ∧
      world.actedOn "first" (.accountPurge (some "key")) = [some 1] ∧
      (∃ conflict, world.locatedBound plainServer adaBinding = .conflict conflict) ∧
      ¬ OwnAccount plainServer world adaBinding (some 1) := by
  refine ⟨by decide,by decide,by decide,by decide,⟨_,rfl⟩,fun own => ?_⟩
  have numbered := own.numbered (by decide) (userNamed 1 "ada" 3000) (by decide) rfl
  exact absurd numbered (by decide)

end Syndra.TrueNAS
