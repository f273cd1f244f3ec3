/-
Whose an account is.

An account is known by its record key, its name and its number.
-/

import Syndra.TrueNAS.Operations

namespace Syndra.TrueNAS

open Foundation.Buckets Foundation.Programs List World Target

structure Identity where
  id : ApiID
  username : String
  uid : Int
deriving DecidableEq

def NasUser.identity (user : NasUser) : Identity :=
  { id := user.id, username := user.username, uid := user.uid }

def Subject.identity (subject : Subject) : Identity :=
  { id := subject.id, username := subject.username, uid := subject.uid }

namespace World

def bindings (world : World) : List Binding := world.store.bindings.rows

def bindingOf (world : World) (subject : String) : Option Binding :=
  world.store.bindings.get subject

def accounts (world : World) : List Identity := world.target.users.map NasUser.identity

variable {world : World}

variable {subject : String} {binding other : Binding}

theorem bindingOf_eq_some : world.bindingOf subject = some binding ↔
      binding ∈ world.bindings ∧ binding.subjectId = subject :=
  Bucket.get_eq_some

def put (world : World) (binding : Binding) : World :=
  { world with store := { world.store with bindings := world.store.bindings.put binding } }

def forget (world : World) (subject : String) : World :=
  { world with store := { world.store with bindings := world.store.bindings.delete subject } }

theorem mem_put : other ∈ (world.put binding).bindings ↔
      other = binding ∨ other ∈ world.bindings ∧ other.subjectId ≠ binding.subjectId :=
  Bucket.mem_put

theorem mem_forget : other ∈ (world.forget subject).bindings ↔
      other ∈ world.bindings ∧ other.subjectId ≠ subject :=
  Bucket.mem_delete

end World

/-- No two subjects' bindings name one account, or could come to: the account
whose number a binding records never has a name another subject's records. -/
structure OneOwner (server : Server) (world : World) : Prop where
  names : ∀ one ∈ world.bindings, ∀ other ∈ world.bindings,
    one.username = other.username → one.subjectId = other.subjectId
  numbers : ∀ one ∈ world.bindings, ∀ other ∈ world.bindings,
    one.uid = other.uid → server.owns one.uid → one.subjectId = other.subjectId
  apart : ∀ one ∈ world.bindings, server.owns one.uid →
    ∀ account ∈ world.accounts, account.uid = one.uid →
      ∀ other ∈ world.bindings, other.subjectId ≠ one.subjectId →
        other.username ≠ account.username
  sameKey : ∀ one ∈ world.accounts, ∀ other ∈ world.accounts, one.id = other.id → one = other
  sameName : ∀ one ∈ world.accounts, ∀ other ∈ world.accounts,
    one.username = other.username → one = other
  sameNumber : ∀ one ∈ world.accounts, ∀ other ∈ world.accounts,
    one.uid = other.uid → one = other
  keyed : ∀ account ∈ world.accounts, ∀ key, account.id = some key →
    key < world.target.nextUser

namespace OneOwner

variable {server : Server} {world after : World}

section

variable (owner : OneOwner server world)
include owner

variable {binding : Binding}

/-- A binding may be put for an account that is there, where no other subject's
has its name or a number of ours. -/
theorem put {account : Identity}
    (there : account ∈ world.accounts) (sameUsername : account.username = binding.username)
    (sameUid : account.uid = binding.uid)
    (nameFree : ∀ other ∈ world.bindings, other.subjectId ≠ binding.subjectId →
      other.username ≠ binding.username)
    (numberFree : server.owns binding.uid → ∀ other ∈ world.bindings,
      other.subjectId ≠ binding.subjectId → other.uid ≠ binding.uid) :
    OneOwner server (world.put binding) where
  names := by
    intro one inOne other inOther same
    rcases mem_put.mp inOne with rfl | ⟨oldOne,apartOne⟩
    · rcases mem_put.mp inOther with rfl | ⟨oldOther,apartOther⟩
      · rfl
      · exact absurd same.symm (nameFree other oldOther apartOther)
    · rcases mem_put.mp inOther with rfl | ⟨oldOther,apartOther⟩
      · exact absurd same (nameFree one oldOne apartOne)
      · exact owner.names one oldOne other oldOther same
  numbers := by
    intro one inOne other inOther same owned
    rcases mem_put.mp inOne with rfl | ⟨oldOne,apartOne⟩
    · rcases mem_put.mp inOther with rfl | ⟨oldOther,apartOther⟩
      · rfl
      · exact absurd same.symm (numberFree owned other oldOther apartOther)
    · rcases mem_put.mp inOther with rfl | ⟨oldOther,_⟩
      · exact absurd same (numberFree (same ▸ owned) one oldOne apartOne)
      · exact owner.numbers one oldOne other oldOther same owned
  apart := by
    intro one inOne owned other inAccounts holds third inThird different
    rcases mem_put.mp inOne with rfl | ⟨oldOne,apartOne⟩
    · rcases mem_put.mp inThird with rfl | ⟨oldThird,-⟩
      · exact absurd rfl different
      have found := owner.sameNumber other inAccounts account there (holds.trans sameUid.symm)
      rw [found,sameUsername]
      exact nameFree third oldThird different
    · rcases mem_put.mp inThird with rfl | ⟨oldThird,-⟩
      · intro named
        have found := owner.sameName other inAccounts account there
          (named.symm.trans sameUsername.symm)
        have recorded : one.uid = third.uid := by
          rw [← holds,found,sameUid]
        exact numberFree (recorded ▸ owned) one oldOne apartOne recorded
      · exact owner.apart one oldOne owned other inAccounts holds third oldThird different
  sameKey := owner.sameKey
  sameName := owner.sameName
  sameNumber := owner.sameNumber
  keyed := owner.keyed

theorem put_same {old : Binding} (stored : world.bindingOf binding.subjectId = some old)
    (sameUsername : old.username = binding.username) (sameUid : old.uid = binding.uid) :
    OneOwner server (world.put binding) := by
  obtain ⟨inOld,sameSubject⟩ := bindingOf_eq_some.mp stored
  have reads {other : Binding} (mem : other ∈ (world.put binding).bindings) :
      ∃ before ∈ world.bindings, before.subjectId = other.subjectId ∧
        before.username = other.username ∧ before.uid = other.uid := by
    rcases mem_put.mp mem with rfl | ⟨kept,-⟩
    · exact ⟨old,inOld,sameSubject,sameUsername,sameUid⟩
    · exact ⟨other,kept,rfl,rfl,rfl⟩
  constructor
  · intro one inOne other inOther same
    obtain ⟨first,inFirst,firstSubject,firstName,-⟩ := reads inOne
    obtain ⟨second,inSecond,secondSubject,secondName,-⟩ := reads inOther
    rw [← firstSubject,← secondSubject]
    exact owner.names first inFirst second inSecond (by rw [firstName,secondName,same])
  · intro one inOne other inOther same owned
    obtain ⟨first,inFirst,firstSubject,-,firstUid⟩ := reads inOne
    obtain ⟨second,inSecond,secondSubject,-,secondUid⟩ := reads inOther
    rw [← firstSubject,← secondSubject]
    exact owner.numbers first inFirst second inSecond (by rw [firstUid,secondUid,same])
      (by rw [firstUid]; exact owned)
  · intro _ inOne owned account there holds _ inOther different
    obtain ⟨first,inFirst,firstSubject,-,firstUid⟩ := reads inOne
    obtain ⟨second,inSecond,secondSubject,secondName,-⟩ := reads inOther
    rw [← secondName]
    exact owner.apart first inFirst (by rw [firstUid]; exact owned) account there
      (by rw [holds,firstUid]) second inSecond (by rw [firstSubject,secondSubject]; exact different)
  · exact owner.sameKey
  · exact owner.sameName
  · exact owner.sameNumber
  · exact owner.keyed

theorem forget (subject : String) :
    OneOwner server (world.forget subject) where
  names := fun one inOne other inOther =>
    owner.names one (mem_forget.mp inOne).1 other (mem_forget.mp inOther).1
  numbers := fun one inOne other inOther =>
    owner.numbers one (mem_forget.mp inOne).1 other (mem_forget.mp inOther).1
  apart := fun one inOne owned account there holds other inOther =>
    owner.apart one (mem_forget.mp inOne).1 owned account there holds other
      (mem_forget.mp inOther).1
  sameKey := owner.sameKey
  sameName := owner.sameName
  sameNumber := owner.sameNumber
  keyed := owner.keyed

theorem shrink (stored : after.bindings = world.bindings)
    (fewer : ∀ account ∈ after.accounts, account ∈ world.accounts)
    (next : after.target.nextUser = world.target.nextUser) : OneOwner server after where
  names := by rw [stored]; exact owner.names
  numbers := by rw [stored]; exact owner.numbers
  apart := by
    rw [stored]
    exact fun one inOne owned account there => owner.apart one inOne owned account (fewer account there)
  sameKey := fun one inOne other inOther =>
    owner.sameKey one (fewer one inOne) other (fewer other inOther)
  sameName := fun one inOne other inOther =>
    owner.sameName one (fewer one inOne) other (fewer other inOther)
  sameNumber := fun one inOne other inOther =>
    owner.sameNumber one (fewer one inOne) other (fewer other inOther)
  keyed := by
    rw [next]
    exact fun account there => owner.keyed account (fewer account there)

/-- The accounts changed in one entry, whose name and number no other account
has, and whose name no binding has against a binding with its number. -/
theorem change {changed : Identity}
    (stored : after.bindings = world.bindings)
    (others : ∀ account ∈ after.accounts, account = changed ∨
      account ∈ world.accounts ∧ account.id ≠ changed.id ∧
        account.username ≠ changed.username ∧ account.uid ≠ changed.uid)
    (next : world.target.nextUser ≤ after.target.nextUser)
    (key : ∀ number, changed.id = some number → number < after.target.nextUser)
    (free : server.owns changed.uid → ∀ one ∈ world.bindings, one.uid = changed.uid →
      ∀ other ∈ world.bindings, other.subjectId ≠ one.subjectId →
        other.username ≠ changed.username) : OneOwner server after where
  names := by rw [stored]; exact owner.names
  numbers := by rw [stored]; exact owner.numbers
  apart := by
    rw [stored]
    intro one inOne owned account there holds other inOther different
    rcases others account there with rfl | ⟨old,-⟩
    · exact free (holds ▸ owned) one inOne holds.symm other inOther different
    · exact owner.apart one inOne owned account old holds other inOther different
  sameKey := by
    intro one inOne other inOther same
    rcases others one inOne with rfl | ⟨oldOne,apartOne,-⟩
    · rcases others other inOther with rfl | ⟨-,apartOther,-⟩
      · rfl
      · exact absurd same.symm apartOther
    · rcases others other inOther with rfl | ⟨oldOther,-⟩
      · exact absurd same apartOne
      · exact owner.sameKey one oldOne other oldOther same
  sameName := by
    intro one inOne other inOther same
    rcases others one inOne with rfl | ⟨oldOne,-,apartOne,-⟩
    · rcases others other inOther with rfl | ⟨-,-,apartOther,-⟩
      · rfl
      · exact absurd same.symm apartOther
    · rcases others other inOther with rfl | ⟨oldOther,-⟩
      · exact absurd same apartOne
      · exact owner.sameName one oldOne other oldOther same
  sameNumber := by
    intro one inOne other inOther same
    rcases others one inOne with rfl | ⟨oldOne,-,-,apartOne⟩
    · rcases others other inOther with rfl | ⟨-,-,-,apartOther⟩
      · rfl
      · exact absurd same.symm apartOther
    · rcases others other inOther with rfl | ⟨oldOther,-⟩
      · exact absurd same apartOne
      · exact owner.sameNumber one oldOne other oldOther same
  keyed := by
    intro account there number isKey
    rcases others account there with rfl | ⟨old,-⟩
    · exact key number isKey
    · exact Nat.lt_of_lt_of_le (owner.keyed account old number isKey) next

end

end OneOwner

structure SameOwners (world after : World) : Prop where
  bindings : after.store.bindings = world.store.bindings
  accounts : after.accounts = world.accounts
  nextUser : after.target.nextUser = world.target.nextUser

namespace SameOwners

variable {server : Server} {world after : World}

theorem refl (world : World) : SameOwners world world := ⟨rfl,rfl,rfl⟩

theorem rows (same : SameOwners world after) : after.bindings = world.bindings :=
  congrArg Bucket.rows same.bindings

theorem bindingOf (same : SameOwners world after) (subject : String) :
    after.bindingOf subject = world.bindingOf subject := by
  unfold World.bindingOf
  rw [same.bindings]

theorem oneOwner (same : SameOwners world after) (owner : OneOwner server world) :
    OneOwner server after :=
  owner.shrink same.rows (fun _ there => same.accounts ▸ there) same.nextUser

end SameOwners

def Request.Plain : Request → Prop
  | .putBinding _ | .bindIfFree _ | .deleteBinding _ | .userCreate _ | .userDelete _
  | .userUpdate _ _ => False
  | _ => True

def Request.Neutral : Request → Prop
  | .claimID _ _ _ | .groupNamed _ | .groupCreate _ _ => False
  | request => request.Plain

variable {request : Request} {world after : World} {fields : UserCreate}

theorem plain_of_neutral (neutral : request.Neutral) : request.Plain := by
  cases request with
  | claimID | groupNamed | groupCreate => trivial
  | _ => exact neutral

theorem accounts_withHome {target : Target} {home : Option String} {uid : Int} :
    (target.withHome home uid).users = target.users ∧
      (target.withHome home uid).nextUser = target.nextUser := by
  unfold withHome
  split
  · exact ⟨rfl,rfl⟩
  split <;> exact ⟨rfl,rfl⟩

variable {id : ApiID} {mishap : Option Mishap}

theorem sameOwners_updateUser {fields : UserUpdate} :
    SameOwners world (world.withTarget (world.target.updateUser id fields)).2 := by
  unfold updateUser
  split
  · exact SameOwners.refl world
  refine ⟨rfl,?_,accounts_withHome.2⟩
  unfold accounts withTarget
  rw [map_map]
  apply map_congr_left
  intro _ _
  simp only [Function.comp]
  split <;> rfl

theorem sameOwners_effect {request : Request} (plain : request.Plain) (world : World) :
    SameOwners world (world.effect request).2 := by
  cases request with
  | putBinding | bindIfFree | deleteBinding | userCreate | userDelete => exact plain.elim
  | userUpdate => exact plain.elim
  | claimID =>
    simp only [effect,Store.claimID]
    split
    · exact SameOwners.refl world
    · exact ⟨rfl,rfl,rfl⟩
  | self | stat =>
    simp only [effect]
    split <;> exact SameOwners.refl world
  | groupCreate =>
    simp only [effect,createGroup]
    split
    · exact SameOwners.refl world
    · exact ⟨rfl,rfl,rfl⟩
  | groupDelete =>
    simp only [effect,deleteGroup]
    split
    · exact ⟨rfl,rfl,rfl⟩
    · exact SameOwners.refl world
  | setQuota => exact ⟨rfl,rfl,rfl⟩
  | getBinding | boundUsernames | homeRoot | userQuery | highestUid => exact SameOwners.refl world
  | highestGid | groupQuery | groupNamed | elevate | homePlaces => exact SameOwners.refl world
  | getQuota => exact SameOwners.refl world

theorem answer_world (world : World) (request : Request) (mishap : Option Mishap) :
    (world.answer request mishap).2 = world ∨
      (world.answer request mishap).2 = (world.effect request).2 := by
  cases mishap with
  | none => exact .inr rfl
  | some mishap =>
    cases mishap with
    | failed => exact .inl rfl
    | lost => exact .inr rfl

theorem answer_ok {value : Value request} (ok : (world.answer request mishap).1 = .ok value) :
    world.answer request mishap = world.effect request := by
  cases mishap with
  | none => rfl
  | some mishap =>
    cases mishap with
    | failed | lost => cases ok

theorem sameOwners_answer (plain : request.Plain) (world : World) (mishap : Option Mishap) :
    SameOwners world (world.answer request mishap).2 := by
  rcases answer_world world request mishap with unchanged | effected
  · rw [unchanged]
    exact SameOwners.refl world
  · rw [effected]
    exact sameOwners_effect plain world

def World.madeBy (world : World) (fields : UserCreate) : Identity :=
  { id := some world.target.nextUser, username := fields.username, uid := fields.uid }

structure Made (world after : World) (fields : UserCreate) : Prop where
  bindings : after.store.bindings = world.store.bindings
  accounts : after.accounts = world.accounts ++ [world.madeBy fields]
  nextUser : after.target.nextUser = world.target.nextUser + 1
  free : ∀ account ∈ world.accounts,
    account.username ≠ fields.username ∧ account.uid ≠ fields.uid

theorem createUser_cases (world : World) (fields : UserCreate) :
    (world.target.createUser fields = (.error (refusal "user.create"), world.target)) ∨
      (world.target.createUser fields).1 = .ok (some world.target.nextUser) ∧
        Made world { world with target := (world.target.createUser fields).2 } fields := by
  unfold createUser
  split
  · exact .inl rfl
  rename_i unused
  refine .inr ⟨rfl,rfl,?_,rfl,?_⟩
  · unfold accounts
    rw [map_append]
    rfl
  intro account there
  obtain ⟨user,inUsers,rfl⟩ := mem_map.mp there
  constructor
  · intro named
    exact unused (any_eq_true.mpr ⟨user,inUsers,by
      rw [Bool.or_eq_true]; exact .inl (decide_eq_true named)⟩)
  · intro numbered
    exact unused (any_eq_true.mpr ⟨user,inUsers,by
      rw [Bool.or_eq_true]; exact .inr (decide_eq_true numbered)⟩)

theorem Made.rows (made : Made world after fields) : after.bindings = world.bindings :=
  congrArg Bucket.rows made.bindings

theorem Made.mem (made : Made world after fields) : world.madeBy fields ∈ after.accounts := by
  rw [made.accounts]
  exact mem_append_right _ (mem_singleton_self _)

theorem Made.oneOwner {server : Server} (made : Made world after fields)
    (owner : OneOwner server world)
    (free : server.owns fields.uid → ∀ one ∈ world.bindings, one.uid = fields.uid →
      ∀ other ∈ world.bindings, other.subjectId ≠ one.subjectId →
        other.username ≠ fields.username) : OneOwner server after := by
  refine @OneOwner.change server world after owner (world.madeBy fields)
    made.rows (fun account there => ?_)
    (by rw [made.nextUser]; omega) (fun number isKey => ?_) free
  · rw [made.accounts,mem_append,mem_singleton] at there
    rcases there with old | new
    · have fresh : account.id ≠ some world.target.nextUser :=
        fun same => Nat.lt_irrefl _ (owner.keyed account old _ same)
      exact .inr ⟨old,fresh,made.free account old⟩
    · exact .inl new
  · cases isKey
    rw [made.nextUser]
    omega

theorem sameOwners_userUpdate {fields : UserUpdate} :
    SameOwners world (world.answer (.userUpdate id fields) mishap).2 := by
  rcases answer_world world (.userUpdate id fields) mishap with unchanged | effected
  · rw [unchanged]
    exact SameOwners.refl world
  · rw [effected]
    exact sameOwners_updateUser

end Syndra.TrueNAS
