/-
Calls in flight together, and the conduct that keeps their accounts apart.

Applies, adoptions, releases and purges for any subjects run between one another's requests,
while accounts are made, deleted and renamed on the target by hand.
-/

import Syndra.TrueNAS.Owners

namespace Syndra.TrueNAS

open Foundation.Buckets Foundation.Programs Foundation.Text

inductive Task where
  | apply (req : ApplyRequest)
  | adopt (subject actor username : String)
  | release (subject : String)
  | purge (subject : String) (elevatedKey : Option String)
deriving DecidableEq

namespace Task

def subject : Task → String
  | .apply req => req.subject
  | .adopt subject _ _ => subject
  | .release subject => subject
  | .purge subject _ => subject

def program (server : Server) : Task → Call Unit
  | .apply req => do
      let _ ← applyOne server req
      return ()
  | .adopt subject actor username => do
      let _ ← adoptAccount subject actor username
      return ()
  | .release subject => do
      let _ ← releaseAccount subject
      return ()
  | .purge subject elevatedKey => do
      let _ ← purgeAccount subject elevatedKey
      return ()

end Task

inductive Outside where
  | createUser (fields : UserCreate)
  | deleteUser (id : ApiID)
  | renameUser (id : ApiID) (name : String)
  | createGroup (name : String) (gid : Int)
  | deleteGroup (id : ApiID)
deriving DecidableEq

def NasUser.renamed (name : String) (user : NasUser) : NasUser :=
  { user with username := name }

def Target.renameUser (target : Target) (id : ApiID) (name : String) :
    Except Failure Unit × Target :=
  if target.users.any (fun user => user.username = name) then
    (.error (refusal "user.update"), target)
  else
    (.ok (), { target with
      users := target.users.map fun user => if user.id = id then user.renamed name else user })

def accepted {Result : Type} (world : World) (outcome : Except Failure Result × Target) :
    Option World :=
  match outcome.1 with
  | .error _ => none
  | .ok _ => some { world with target := outcome.2 }

def outside (world : World) : Outside → Option World
  | .createUser fields => accepted world (world.target.createUser fields)
  | .deleteUser id => accepted world (world.target.deleteUser id)
  | .renameUser id name => accepted world (world.target.renameUser id name)
  | .createGroup name gid => accepted world (world.target.createGroup name gid)
  | .deleteGroup id => accepted world (world.target.deleteGroup id)

/-- The accounts an exchange showed the call. Of a read of everyone, an adoption
is shown the account it names. -/
def lookedUp (task : Task) : Exchange Answer → List Identity
  | ⟨.userQuery .everyone _,.ok rows⟩ =>
    match task with
    | .adopt _ _ username =>
      (rows.filter fun user => user.username = trimSpace username).map NasUser.identity
    | _ => []
  | ⟨.userQuery _ _,.ok rows⟩ => rows.map NasUser.identity
  | ⟨.userCreate fields,.ok id⟩ =>
    [{ id := id, username := fields.username, uid := fields.uid }]
  | _ => []

def told (task : Task) (heard : List (Exchange Answer)) : List Identity :=
  heard.flatMap (lookedUp task)

def NumberFree (server : Server) (world : World) (subject : String) (uid : Int) : Prop :=
  server.owns uid → ∀ other ∈ world.bindings, other.subjectId ≠ subject → other.uid ≠ uid
deriving Decidable

def NameFree (server : Server) (world : World) (uid : Int) (name : String) : Prop :=
  server.owns uid → ∀ one ∈ world.bindings, one.uid = uid →
    ∀ other ∈ world.bindings, other.subjectId ≠ one.subjectId → other.username ≠ name
deriving Decidable

/-- Calls for one subject do not overlap. What a call in flight has looked up or
made is not renamed or deleted under it. An account is made, or read for adoption,
only where no other subject's binding records its number, and made or renamed by
hand only where its new name is not recorded against that of its owner. -/
def conduct (server : Server) : Conduct World Task Outside Answer where
  Apart one other := one.subject ≠ other.subject
  Meets task world request :=
    match request, task with
    | .userCreate fields, _ => NumberFree server world task.subject fields.uid
    | .userQuery .everyone _, .adopt subject _ username =>
      ∀ user ∈ world.target.users, user.username = trimSpace username →
        NumberFree server world subject user.uid
    | _, _ => True
  Spares task heard request :=
    match request with
    | .userDelete id => ∀ account ∈ told task heard, account.id ≠ id
    | _ => True
  OutsideMeets world move :=
    match move with
    | .createUser fields => NameFree server world fields.uid fields.username
    | .renameUser id name =>
      ∀ user ∈ world.target.users, user.id = id → NameFree server world user.uid name
    | _ => True
  OutsideSpares task heard _ move :=
    match move with
    | .deleteUser id => ∀ account ∈ told task heard, account.id ≠ id
    | .renameUser id _ => ∀ account ∈ told task heard, account.id ≠ id
    | _ => True

def Claimable (server : Server) (subject : String) (account : Identity) (world : World) : Prop :=
  server.owns account.uid → ∀ other ∈ world.bindings, other.subjectId ≠ subject →
    other.uid = account.uid → other.username = account.username

variable {server : Server} {world : World}

variable {account : Identity} {task : Task} {heard : List (Exchange Answer)}

theorem claimable_of_numberFree {subject : String}
    (free : NumberFree server world subject account.uid) :
    Claimable server subject account world :=
  fun owned other mem different same => absurd same (free owned other mem different)

structure Rely (server : Server) (task : Task) (heard : List (Exchange Answer))
    (world after : World) : Prop where
  binding : after.bindingOf task.subject = world.bindingOf task.subject
  told : ∀ account ∈ told task heard, account ∈ world.accounts →
    account ∈ after.accounts ∧
      (Claimable server task.subject account world → Claimable server task.subject account after)

/-- A call writes only its subject's binding, and only for an account that is
there; it takes away only the account it deletes. -/
structure Guarantee (task : Task) (request : Request) (world after : World) : Prop where
  others : ∀ other ∈ after.bindings, other.subjectId ≠ task.subject → other ∈ world.bindings
  kept : ∀ subject ≠ task.subject, after.bindingOf subject = world.bindingOf subject
  own : ∀ binding ∈ after.bindings, binding.subjectId = task.subject →
    (∃ old ∈ world.bindings, old.subjectId = task.subject ∧ old.username = binding.username ∧
      old.uid = binding.uid) ∨
    ∃ account ∈ after.accounts, account.username = binding.username ∧
      account.uid = binding.uid
  accounts : ∀ account ∈ world.accounts, request ≠ .userDelete account.id →
    account ∈ after.accounts

def Owned (server : Server) (world : World) (subject : String) (id : ApiID) : Prop :=
  ∃ account ∈ world.accounts, account.id = id ∧ ∃ binding, world.bindingOf subject = some binding ∧
      (account.username = binding.username ∨ server.owns binding.uid ∧ account.uid = binding.uid)

theorem OneOwner.owned_unique (owner : OneOwner server world) {first second : String} {id : ApiID}
    (one : Owned server world first id) (other : Owned server world second id) :
    first = second := by
  obtain ⟨account,there,hasId,binding,stored,names⟩ := one
  obtain ⟨again,thereToo,sameId,otherBinding,storedOther,otherNames⟩ := other
  cases owner.sameKey account there again thereToo (hasId.trans sameId.symm)
  obtain ⟨inBinding,rfl⟩ := World.bindingOf_eq_some.mp stored
  obtain ⟨inOther,rfl⟩ := World.bindingOf_eq_some.mp storedOther
  rcases names with byName | ⟨owned,byNumber⟩
  · rcases otherNames with byNameToo | ⟨ownedToo,byNumberToo⟩
    · exact owner.names binding inBinding otherBinding inOther (byName.symm.trans byNameToo)
    by_contra different
    exact owner.apart otherBinding inOther ownedToo account there byNumberToo binding inBinding
      different byName.symm
  · rcases otherNames with byNameToo | ⟨_,byNumberToo⟩
    · by_contra different
      exact owner.apart binding inBinding owned account there byNumber otherBinding inOther
        (Ne.symm different) byNameToo.symm
    · exact owner.numbers binding inBinding otherBinding inOther
        (byNumber.symm.trans byNumberToo) owned

theorem mem_told_append {more : List (Exchange Answer)} :
    account ∈ told task (heard ++ more) ↔ account ∈ told task heard ∨ account ∈ told task more := by
  unfold told
  rw [List.flatMap_append,List.mem_append]

theorem rely_of_guarantee {other : Task} {request : Request}
    {after : World} (owner : OneOwner server after)
    (guaranteed : Guarantee task request world after) (different : other.subject ≠ task.subject)
    (spares : (conduct server).Spares other heard request) :
    Rely server other heard world after := by
  refine ⟨guaranteed.kept other.subject different,?_⟩
  intro account isTold there
  have notDeleted : request ≠ .userDelete account.id := by
    rintro rfl
    exact spares account isTold rfl
  have remains := guaranteed.accounts account there notDeleted
  refine ⟨remains,?_⟩
  intro claimable owned binding mem notOurs sameUid
  by_cases theirs : binding.subjectId = task.subject
  · rcases guaranteed.own binding mem theirs with ⟨old,inOld,oldSubject,oldName,oldUid⟩ |
      ⟨backing,there',backingName,backingUid⟩
    · rw [← oldName]
      exact claimable owned old inOld (by rw [oldSubject,← theirs]; exact notOurs)
        (oldUid.trans sameUid)
    · have same := owner.sameNumber backing there' account remains (backingUid.trans sameUid)
      rw [← backingName,same]
  · exact claimable owned binding (guaranteed.others binding mem theirs) notOurs sameUid

def discipline (server : Server) : Discipline World.answer (conduct server) where
  Holds := OneOwner server
  Rely := Rely server
  Guarantee := Guarantee
  Safe task world request :=
    ∀ req, task = .apply req → ∀ id fields, request = .userUpdate id fields →
      Owned server world req.subject id
  rely_refl := fun _ _ _ => ⟨rfl,fun _ _ there => ⟨there,id⟩⟩
  rely_trans := by
    intro task heard first second third one two
    refine ⟨two.binding.trans one.binding,fun account isTold there => ?_⟩
    obtain ⟨remains,keeps⟩ := one.told account isTold there
    obtain ⟨stays,keepsToo⟩ := two.told account isTold remains
    exact ⟨stays,keepsToo ∘ keeps⟩
  rely_of_guarantee := rely_of_guarantee

end Syndra.TrueNAS
