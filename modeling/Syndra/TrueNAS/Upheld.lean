/-
Every call keeps one owner an account.

The parts of a call that only read are passed over at once.
-/

import Syndra.TrueNAS.Tasks

namespace Syndra.TrueNAS

open Foundation.Buckets Foundation.Programs Foundation.Text List Program World

variable {allowed : Request → Prop}

theorem only_readGroups (groups : ∀ limit, allowed (.groupQuery limit)) :
    readGroups.Only allowed := by
  refine ⟨groups _,fun answer => ?_⟩
  cases answer with
  | error => trivial
  | ok =>
    dsimp only
    split <;> trivial

theorem neutral_readGroups : readGroups.Only Request.Neutral := only_readGroups fun _ => trivial

variable {filter : UserFilter} {current name : String} {change : Change}

theorem neutral_readSubjectsWhere : (readSubjectsWhere filter).Only Request.Neutral:=
  only_except ⟨trivial,fun _ => trivial⟩ (fun _ => trivial) fun _ =>
    only_except neutral_readGroups (fun _ => trivial) fun _ => trivial

theorem neutral_subjectWhere (filter : UserFilter) : (subjectWhere filter).Only Request.Neutral :=
  only_except neutral_readSubjectsWhere (fun _ => trivial) fun _ => trivial

variable {username subject : String} {desired : DesiredState} {server : Server}

theorem neutral_readBack : (readBack username).Only Request.Neutral := by
  refine only_except (neutral_subjectWhere _) (fun _ => trivial) fun found => ?_
  obtain ⟨found,_⟩ := found
  cases found with
  | none | some => trivial

theorem neutral_decodeDesired (server : Server) (raw : List (String × RawValue)) :
    (decodeDesired server raw).Only Request.Neutral := by
  unfold decodeDesired
  split
  · trivial
  split
  · refine ⟨trivial,fun answer => ?_⟩
    cases answer with
    | error | ok => trivial
  · trivial

theorem only_groupWrite (groups : ∀ limit, allowed (.groupQuery limit)) (server : Server)
    (names : Option (List String)) (kept : List ApiID) :
    (groupWrite server names kept).Only allowed := by
  unfold groupWrite
  split
  · trivial
  refine only_except ?_ (fun _ => trivial) fun _ => trivial
  unfold groupIDsFor
  split
  · trivial
  · exact only_except (only_readGroups groups) (fun _ => trivial) fun _ => trivial

theorem neutral_groupWrite (server : Server) (names : Option (List String)) (kept : List ApiID) :
    (groupWrite server names kept).Only Request.Neutral :=
  only_groupWrite (fun _ => trivial) server names kept

variable {uid : Int} {home : String}

theorem only_decideHome (stat : ∀ path, allowed (.stat path)) :
    (decideHome desired username current uid).Only allowed := by
  unfold decideHome
  split
  · trivial
  split
  · trivial
  split
  · trivial
  refine only_bind ⟨stat _,fun answer => ?_⟩ fun _ => trivial
  cases answer with
  | ok => trivial
  | error => exact only_ite trivial trivial

theorem neutral_decideHome : (decideHome desired username current uid).Only Request.Neutral:=
  only_decideHome (fun _ => trivial)

theorem only_quotaOwed (places : allowed .homePlaces)
    (quota : ∀ dataset uid, allowed (.getQuota dataset uid)) :
    (quotaOwed desired home uid).Only allowed := by
  unfold quotaOwed
  split
  · trivial
  refine ⟨places,fun answer => ?_⟩
  cases answer with
  | error => trivial
  | ok =>
    dsimp only
    split
    · trivial
    refine ⟨quota _ _,fun rows => ?_⟩
    cases rows with
    | error | ok => trivial

theorem neutral_quotaOwed : (quotaOwed desired home uid).Only Request.Neutral :=
  only_quotaOwed trivial (fun _ _ => trivial)

theorem neutral_convergeQuota : (convergeQuota server desired home uid).Only Request.Neutral := by
  refine only_except neutral_quotaOwed (fun _ => trivial) fun owed => ?_
  dsimp only
  split
  · trivial
  refine ⟨trivial,fun answer => ?_⟩
  cases answer with
  | error | ok => trivial

theorem neutral_convergeUnwritten {current : Subject} :
    (convergeUnwritten server subject desired current change).Only Request.Neutral := by
  refine only_except neutral_convergeQuota (fun _ => trivial) fun quota => ?_
  exact only_ite trivial (only_ite trivial trivial)

theorem neutral_convergeWritten {current : Subject} {update : UserUpdate} :
    (convergeWritten server subject desired current change update).Only Request.Neutral :=
  only_except neutral_readBack (fun _ => trivial) fun _ =>
    only_bind neutral_convergeQuota fun _ => trivial

theorem neutral_reportCreated {home : HomeDecision} {created : Except Failure Subject} :
    (reportCreated server subject desired username home created).Only Request.Neutral := by
  cases created with
  | error => trivial
  | ok => exact only_bind neutral_convergeQuota fun _ => trivial

theorem neutral_undoUnlessAdopted (group : PersonalGroup) :
    (undoUnlessAdopted group).Only Request.Neutral := by
  unfold undoUnlessAdopted undoGroup
  split
  · trivial
  split
  · trivial
  · exact ⟨trivial,fun _ => trivial⟩

theorem neutral_lookupOne : (lookupOne filter).Only Request.Neutral :=
  only_except ⟨trivial,fun _ => trivial⟩ (fun _ => trivial) fun _ => trivial

theorem neutral_recordID {binding : Binding} : (recordID binding).Only Request.Neutral := by
  unfold recordID
  split
  · exact neutral_lookupOne
  · exact only_except neutral_lookupOne
      (fun _ => only_ite neutral_lookupOne trivial) fun _ => trivial

theorem neutral_boundAccount (subject : String) : (boundAccount subject).Only Request.Neutral := by
  refine only_except ⟨trivial,fun _ => trivial⟩ (fun _ => trivial) fun found => ?_
  cases found with
  | none | some => trivial

theorem neutral_self : self.Only Request.Neutral := by
  refine ⟨trivial,fun answer => ?_⟩
  cases answer with
  | ok | error => trivial

theorem only_of_neutral {Result : Type} {program : Call Result}
    (neutral : program.Only Request.Neutral) : program.Only Request.Plain :=
  neutral.mono fun _ => plain_of_neutral

theorem only_nextIdentity (server : Server) : (nextIdentity server).Only Request.Plain := by
  refine ⟨trivial,fun users => ?_⟩
  cases users with
  | error => trivial
  | ok =>
    refine ⟨trivial,fun groups => ?_⟩
    cases groups with
    | error => trivial
    | ok => exact ⟨trivial,fun _ => trivial⟩

theorem only_emptyGroupNamed : (emptyGroupNamed server name).Only Request.Plain:= by
  refine ⟨trivial,fun answer => ?_⟩
  dsimp only
  split
  · split <;> trivial
  · trivial

theorem only_personalGroup {number : Int} :
    (personalGroup server name number).Only Request.Plain := by
  refine ⟨trivial,fun answer => ?_⟩
  cases answer with
  | ok => trivial
  | error =>
    refine only_bind only_emptyGroupNamed fun found => ?_
    cases found with
    | none | some => trivial

abbrev Upheld {Result : Type} (server : Server) (task : Task) (program : Call Result)
    (heard : List (Exchange Answer)) (world : World) : Prop :=
  (discipline server).Upholds task program heard world fun _ _ _ => True

section Rules

variable {server : Server} {task : Task} {world after : World}
variable {heard more : List (Exchange Answer)} {First Second : Type}

variable {subject : String} {ending : First → List (Exchange Answer) → World → Prop}
  {request : Request} {rest : Answer request → Call First} {filter : UserFilter} {binding : Binding}

variable {account : Identity} {program : Call First} {limit : Nat}

theorem SameOwners.claimable (same : SameOwners world after)
    (claimable : Claimable server subject account world) :
    Claimable server subject account after := by
  unfold Claimable
  rw [same.rows]
  exact claimable

theorem SameOwners.rely (same : SameOwners world after) : Rely server task heard world after :=
  ⟨same.bindingOf _,fun _ _ there => ⟨same.accounts ▸ there,same.claimable⟩⟩

theorem SameOwners.guarantee (same : SameOwners world after) (request : Request) :
    Guarantee task request world after where
  others := fun _ mem _ => same.rows ▸ mem
  kept := fun subject _ => same.bindingOf subject
  own := fun binding mem subject =>
    .inl ⟨binding,same.rows ▸ mem,subject,rfl,rfl⟩
  accounts := fun _ there _ => same.accounts ▸ there

theorem Rely.shorten (relied : Rely server task (heard ++ more) world after) :
    Rely server task heard world after :=
  ⟨relied.binding,fun account isTold there =>
    relied.told account (mem_told_append.mpr (.inl isTold)) there⟩

theorem upholds_same (same : ∀ later mishap, SameOwners later (answer later request mishap).2)
    (safe : ∀ later, Rely server task heard world later → OneOwner server later →
      (discipline server).Safe task later request)
    (next : ∀ later mishap, Rely server task heard world later → OneOwner server later →
      (conduct server).Meets task later request →
        (discipline server).Upholds task (rest (later.answer request mishap).1)
          (heard ++ [⟨request,(later.answer request mishap).1⟩]) later ending) :
    (discipline server).Upholds task (.ask request rest) heard world ending := by
  intro later relied owner
  refine ⟨safe later relied owner,fun meets mishap => ?_⟩
  have unchanged := same later mishap
  exact ⟨unchanged.oneOwner owner,unchanged.guarantee request,
    (next later mishap relied owner meets).later unchanged.rely⟩

variable {later : World}

theorem safe_of_plain (plain : request.Plain) : (discipline server).Safe task later request := by
  rintro _ - _ _ rfl
  exact plain.elim

theorem upholds_plain (plain : request.Plain)
    (next : ∀ later mishap, Rely server task heard world later → OneOwner server later →
      (discipline server).Upholds task (rest (later.answer request mishap).1)
        (heard ++ [⟨request,(later.answer request mishap).1⟩]) later ending) :
    (discipline server).Upholds task (.ask request rest) heard world ending :=
  upholds_same (sameOwners_answer plain)
    (fun _ _ _ => safe_of_plain plain)
    fun later mishap relied owner _ => next later mishap relied owner

theorem upholds_only {rest : First → Call Second}
    {ending : Second → List (Exchange Answer) → World → Prop}
    (only : program.Only Request.Plain) (owner : OneOwner server world)
    (next : ∀ result more later, Rely server task heard world later → OneOwner server later →
      (discipline server).Upholds task (rest result) (heard ++ more) later ending) :
    (discipline server).Upholds task (program >>= rest) heard world ending := by
  induction program generalizing heard world with
  | done result =>
    have here := next result [] world ((discipline server).rely_refl task heard world) owner
    rw [append_nil] at here
    exact here
  | ask _ _ ih =>
    refine upholds_plain only.1 fun later mishap relied ownerLater => ?_
    refine ih _ (only.2 _) ownerLater fun result more final reliedFinal ownerFinal => ?_
    rw [append_assoc]
    exact next result _ final
      ((discipline server).rely_trans relied reliedFinal.shorten) ownerFinal

theorem upholds_idle (only : program.Only Request.Plain)
    (owner : OneOwner server world) : Upheld server task program heard world := by
  induction program generalizing heard world with
  | done => exact fun _ _ _ => trivial
  | ask _ _ ih =>
    exact upholds_plain only.1 fun later mishap relied ownerLater =>
      ih _ (only.2 _) ownerLater

theorem upheld_except {program : Call (Except Failure First)}
    {rest : Except Failure First → Call Second} (only : program.Only Request.Plain)
    (owner : OneOwner server world) (failed : ∀ failure, (rest (.error failure)).Only Request.Plain)
    (next : ∀ result more later, Rely server task heard world later → OneOwner server later →
      Upheld server task (rest (.ok result)) (heard ++ more) later) :
    Upheld server task (program >>= rest) heard world := by
  refine upholds_only only owner fun result more later relied ownerLater => ?_
  cases result with
  | error failure => exact upholds_idle (failed failure) ownerLater
  | ok result => exact next result more later relied ownerLater

def foundIn (filter : UserFilter) (users : List NasUser) (groups : List NasGroup) :
    Option Subject × Bool :=
  ((snapshotOf users groups).subjects.find? filter.names, (snapshotOf users groups).truncated)

theorem subjectWhere_eq :
    subjectWhere filter = .ask (.userQuery filter (subjectReadCap + 1)) fun answer =>
      match answer with
      | .error failure => .done (.error failure)
      | .ok users => readGroups >>= fun groups => .done (groups.map (foundIn filter users)) := by
  unfold subjectWhere readSubjectsWhere userQuery
  rw [ask_bind,ask_bind]
  congr 1
  funext answer
  cases answer with
  | error => rfl
  | ok =>
    simp only [done_bind]
    unfold readGroups
    simp only [ask_bind]
    congr 1
    funext groups
    cases groups with
    | error => rfl
    | ok =>
      dsimp only
      split <;> rfl

variable {users : List NasUser}

theorem mem_of_foundIn {groups : List NasGroup} {found : Subject} {cut : Bool}
    (same : foundIn filter users groups = (some found, cut)) :
    (∃ user ∈ users, user.toSubject groups = found) ∧ filter.names found = true := by
  have sought := congrArg Prod.fst same
  have mem := mem_of_find?_eq_some sought
  obtain ⟨user,kept,rfl⟩ := mem_map.mp mem
  have inUsers : user ∈ users.take subjectReadCap := (mem_filter.mp kept).1
  exact ⟨⟨user,mem_of_mem_take inUsers,rfl⟩,find?_some sought⟩

theorem mem_of_userQuery {mishap : Option Mishap}
    (answered : (later.answer (.userQuery filter limit) mishap).1 = .ok users) {user : NasUser}
    (mem : user ∈ users) : user ∈ later.target.users := by
  rw [answer_ok answered] at answered
  have rows := Except.ok.inj answered
  rw [← rows] at mem
  exact (mem_filter.mp (mem_of_mem_take mem)).1

theorem told_query (named : filter ≠ .everyone) :
    told task [⟨.userQuery filter limit,.ok users⟩] = users.map NasUser.identity := by
  cases filter with
  | everyone => exact absurd rfl named
  | username | uid => exact append_nil _

theorem upholds_subjectWhere (named : filter ≠ .everyone)
    {rest : Except Failure (Option Subject × Bool) → Call Second}
    {ending : Second → List (Exchange Answer) → World → Prop}
    (next : ∀ outcome more later, Rely server task heard world later → OneOwner server later →
      (∀ found cut, outcome = .ok (some found, cut) →
        found.identity ∈ later.accounts ∧ found.identity ∈ told task (heard ++ more) ∧
          filter.names found = true) →
      (discipline server).Upholds task (rest outcome) (heard ++ more) later ending) :
    (discipline server).Upholds task (subjectWhere filter >>= rest) heard world ending := by
  rw [subjectWhere_eq,ask_bind]
  refine upholds_plain trivial fun later mishap relied ownerLater => ?_
  cases answered : (later.answer (.userQuery filter (subjectReadCap + 1)) mishap).1 with
  | error failure =>
    exact next (.error failure) _ later relied ownerLater nofun
  | ok users =>
    rw [bind_assoc]
    refine upholds_only (only_of_neutral neutral_readGroups) ownerLater
      fun groups more final reliedFinal ownerFinal => ?_
    rw [append_assoc]
    refine next _ _ final ((discipline server).rely_trans relied reliedFinal.shorten) ownerFinal
      fun found cut same => ?_
    cases groups with
    | error => cases same
    | ok =>
      obtain ⟨⟨user,inUsers,rfl⟩,names⟩ := mem_of_foundIn (Except.ok.inj same)
      have there : user.identity ∈ later.accounts :=
        mem_map_of_mem (mem_of_userQuery answered inUsers)
      have isTold : user.identity ∈
          told task (heard ++ [⟨.userQuery filter (subjectReadCap + 1),.ok users⟩]) := by
        rw [mem_told_append,told_query named]
        exact .inr (mem_map_of_mem inUsers)
      refine ⟨(reliedFinal.told _ isTold there).1,?_,names⟩
      rw [← append_assoc]
      exact mem_told_append.mpr (.inl isTold)

theorem bindingOf_put_self (mine : binding.subjectId = subject) :
    (world.put binding).bindingOf subject = some binding := by
  subst mine
  exact Bucket.get_put_self

theorem bindingOf_put_of_ne (different : subject ≠ binding.subjectId) :
    (world.put binding).bindingOf subject = world.bindingOf subject :=
  Bucket.get_put_of_ne different

/-- The binding reads like the subject's old one, or an account is there for it. -/
def Grounded (world : World) (binding : Binding) : Prop :=
  (∃ old ∈ world.bindings, old.subjectId = binding.subjectId ∧
    old.username = binding.username ∧ old.uid = binding.uid) ∨
  ∃ account ∈ world.accounts, account.username = binding.username ∧ account.uid = binding.uid

theorem guarantee_put (mine : binding.subjectId = task.subject)
    (grounded : Grounded world binding) :
    Guarantee task request world (world.put binding) where
  others := by
    intro other mem different
    rcases mem_put.mp mem with rfl | ⟨old,-⟩
    · exact absurd mine different
    · exact old
  kept := fun subject different => bindingOf_put_of_ne (by rw [mine]; exact different)
  own := by
    intro _ mem theirs
    rcases mem_put.mp mem with rfl | ⟨-,different⟩
    · rw [← mine]
      exact grounded
    · exact absurd (theirs.trans mine.symm) different
  accounts := fun _ there _ => there

theorem safe_of_notUpdate (other : ∀ id fields, request ≠ .userUpdate id fields) :
    (discipline server).Safe task later request := by
  rintro _ - id fields same
  exact absurd same (other id fields)

theorem upholds_put {rest : Except Failure Unit → Call First}
    (mine : binding.subjectId = task.subject)
    (keeps : ∀ later, Rely server task heard world later → OneOwner server later →
      OneOwner server (later.put binding) ∧ Grounded later binding)
    (next : ∀ later after answer more, Rely server task heard world later →
      OneOwner server later → after = later ∨ after = later.put binding →
        (discipline server).Upholds task (rest answer) (heard ++ more) after ending) :
    (discipline server).Upholds task (putBinding binding >>= rest) heard world ending := by
  intro later relied owner
  refine ⟨safe_of_notUpdate nofun,fun _ mishap => ?_⟩
  obtain ⟨kept,grounded⟩ := keeps later relied owner
  have goesOn := next later (later.answer (.putBinding binding) mishap).2
    (later.answer (.putBinding binding) mishap).1
    [⟨.putBinding binding,(later.answer (.putBinding binding) mishap).1⟩] relied owner
    (answer_world _ _ _)
  rcases answer_world later (.putBinding binding) mishap with unchanged | written
  · rw [unchanged] at goesOn ⊢
    exact ⟨owner,(SameOwners.refl later).guarantee _,goesOn⟩
  · rw [written] at goesOn ⊢
    exact ⟨kept,guarantee_put mine grounded,goesOn⟩

theorem effect_bindIfFree (world : World) (binding : Binding) :
    (world.effect (.bindIfFree binding)).2 = world ∨
      (world.effect (.bindIfFree binding)).2 = world.put binding ∧
        ∀ other ∈ world.bindings, other.subjectId ≠ binding.subjectId →
          other.username ≠ binding.username := by
  simp only [effect,Store.bindIfFree]
  split
  · exact .inl rfl
  rename_i free
  refine .inr ⟨rfl,fun other mem different named => ?_⟩
  have missed := find?_eq_none.mp free other mem
  rw [Bool.and_eq_true,decide_eq_true_eq,decide_eq_true_eq] at missed
  exact missed ⟨named,different⟩

theorem upholds_effect (other : ∀ id fields, request ≠ .userUpdate id fields)
    (kept : ∀ later, Rely server task heard world later → OneOwner server later →
      OneOwner server (later.effect request).2 ∧
        Guarantee task request later (later.effect request).2)
    (next : ∀ after answer, OneOwner server after →
      Upheld server task (rest answer) (heard ++ [⟨request,answer⟩]) after) :
    Upheld server task (.ask request rest) heard world := by
  intro later relied owner
  refine ⟨safe_of_notUpdate other,fun _ mishap => ?_⟩
  rcases answer_world later request mishap with unchanged | effected
  · rw [unchanged]
    exact ⟨owner,(SameOwners.refl later).guarantee _,next later _ owner⟩
  rw [effected]
  obtain ⟨ownerAfter,guaranteed⟩ := kept later relied owner
  exact ⟨ownerAfter,guaranteed,next _ _ ownerAfter⟩

theorem upholds_bindIfFree {rest : Except Failure Unit → Call First}
    (mine : binding.subjectId = task.subject) (sameUsername : account.username = binding.username)
    (sameUid : account.uid = binding.uid) (isTold : account ∈ told task heard)
    (there : account ∈ world.accounts) (claimable : Claimable server task.subject account world)
    (next : ∀ after answer, OneOwner server after → Upheld server task (rest answer)
        (heard ++ [⟨.bindIfFree binding,answer⟩]) after) :
    Upheld server task (.ask (.bindIfFree binding) rest) heard world := by
  refine upholds_effect nofun (fun later relied owner => ?_) next
  obtain ⟨stays,keeps⟩ := relied.told account isTold there
  rcases effect_bindIfFree later binding with refused | ⟨written,nameFree⟩
  · rw [refused]
    exact ⟨owner,(SameOwners.refl later).guarantee _⟩
  have numberFree : server.owns binding.uid → ∀ other ∈ later.bindings,
      other.subjectId ≠ binding.subjectId → other.uid ≠ binding.uid := by
    intro owned other mem different same
    have named := keeps claimable (by rw [sameUid]; exact owned) other mem
      (by rw [← mine]; exact different) (same.trans sameUid.symm)
    exact nameFree other mem different (named.trans sameUsername)
  rw [written]
  exact ⟨owner.put stays sameUsername sameUid nameFree numberFree,
    guarantee_put mine (.inr ⟨account,stays,sameUsername,sameUid⟩)⟩

theorem upholds_deleteBinding (mine : subject = task.subject)
    {rest : Except Failure Unit → Call First} (next : ∀ after answer, OneOwner server after →
      Upheld server task (rest answer)
        (heard ++ [⟨.deleteBinding subject,answer⟩]) after) :
    Upheld server task (.ask (.deleteBinding subject) rest) heard world := by
  refine upholds_effect nofun (fun later relied owner => ?_) next
  refine ⟨owner.forget subject,?_⟩
  constructor
  · exact fun other mem _ => (mem_forget.mp mem).1
  · exact fun other different => Bucket.get_delete_of_ne (by rw [mine]; exact different)
  · exact fun binding mem theirs =>
      absurd (theirs.trans mine.symm) (mem_forget.mp mem).2
  · exact fun account there _ => there

theorem upholds_getBinding {rest : Except Failure (Option Binding) → Call First}
    (next : ∀ outcome more later, Rely server task heard world later → OneOwner server later →
      (∀ found, outcome = .ok found → later.bindingOf subject = found) →
      (discipline server).Upholds task (rest outcome) (heard ++ more) later ending) :
    (discipline server).Upholds task (getBinding subject >>= rest) heard world ending := by
  refine upholds_plain trivial fun later mishap relied owner => ?_
  refine next _ _ later relied owner fun found same => ?_
  rw [answer_ok same] at same
  exact Except.ok.inj same

theorem upholds_rememberWantedSMB (desired : DesiredState) (reply : ApplyReply)
    (owner : OneOwner server world) :
    Upheld server task (rememberWantedSMB task.subject desired reply) heard world := by
  unfold rememberWantedSMB
  split
  · exact upholds_idle trivial owner
  split
  · exact upholds_idle trivial owner
  refine upholds_getBinding fun outcome more later relied ownerLater read => ?_
  split
  · next binding =>
    have stored := read (some binding) rfl
    obtain ⟨-,named⟩ := bindingOf_eq_some.mp stored
    refine upholds_put named (fun again reliedAgain ownerAgain => ?_)
      fun again after answer more reliedAgain ownerAgain written => ?_
    · have still : again.bindingOf binding.subjectId = some binding := by
        rw [named]
        exact reliedAgain.binding.trans stored
      refine ⟨OneOwner.put_same ownerAgain still rfl rfl,?_⟩
      exact .inl ⟨binding,(bindingOf_eq_some.mp still).1,rfl,rfl,rfl⟩
    · exact fun _ _ _ => trivial
  · exact upholds_idle trivial ownerLater

end Rules

end Syndra.TrueNAS
