/-
No account serves two subjects, whatever the interleaving.
-/

import Syndra.Foundation.Runs
import Syndra.TrueNAS.Alone

namespace Syndra.TrueNAS

open Foundation Foundation.Buckets Foundation.Programs Foundation.Text List World Program

section Calls

variable {server : Server} {task : Task} {world : World} {heard : List (Exchange Answer)}

attribute [local irreducible] trimSpace

/-! ### Locating -/

/-- The account found is told, there, and the subject's; an account found absent is
to be made under the name recorded. -/
def LocatedFor (server : Server) (task : Task) :
    Except Failure Located → List (Exchange Answer) → World → Prop
  | .ok (.found current _), heard, world =>
    current.identity ∈ told task heard ∧ current.identity ∈ world.accounts ∧
      ∃ binding, world.bindingOf task.subject = some binding ∧
        (current.username = binding.username ∨ server.owns binding.uid ∧ current.uid = binding.uid)
  | .ok (.absent binding _), _, world =>
    ∀ stored, world.bindingOf task.subject = some stored → stored.username = binding.username
  | _, _, _ => True

variable {outcome : Except Failure Located} {after : World} {email : String} {number : Int}
  {account : Identity} {fields : UserCreate}

theorem LocatedFor.later (located : LocatedFor server task outcome heard world)
    (relied : Rely server task heard world after) :
    LocatedFor server task outcome heard after := by
  cases outcome with
  | error => trivial
  | ok outcome =>
    cases outcome with
    | conflict => trivial
    | found =>
      obtain ⟨isTold,there,stored,isStored,names⟩ := located
      exact ⟨isTold,(relied.told _ isTold there).1,stored, relied.binding.trans isStored,names⟩
    | absent =>
      intro stored isStored
      exact located stored (relied.binding.symm.trans isStored)

private theorem upholds_located (located : LocatedFor server task outcome heard world) :
    (discipline server).Upholds task (.done outcome : Call (Except Failure Located)) heard world
      (LocatedFor server task) :=
  fun _ relied _ => located.later relied

variable {binding : Binding}

private theorem upholds_recordNumber {found : Subject} (mine : binding.subjectId = task.subject)
    (stored : world.bindingOf task.subject = some binding)
    (isTold : found.identity ∈ told task heard) (there : found.identity ∈ world.accounts)
    (named : found.username = binding.username) :
    (discipline server).Upholds task
      (do
        let _ ← putBinding { binding with uid := found.uid }
        return .ok (.found found { binding with uid := found.uid }) :
          Call (Except Failure Located)) heard world (LocatedFor server task) := by
  refine upholds_put mine (fun later relied owner => ?_)
    fun later after answer more relied owner written => ?_
  · have stays := (relied.told _ isTold there).1
    obtain ⟨inStored,-⟩ := bindingOf_eq_some.mp (relied.binding.trans stored)
    refine ⟨owner.put stays named rfl ?_ ?_,.inr ⟨_,stays,named,rfl⟩⟩
    · intro other mem different same
      exact different (owner.names other mem binding inStored same)
    intro owned other mem different same
    exact owner.apart other mem (same ▸ owned) _ stays same.symm binding inStored
      (Ne.symm different) named.symm
  · have stays := (relied.told _ isTold there).1
    refine upholds_located ⟨mem_told_append.mpr (.inl isTold),?_⟩
    rcases written with rfl | rfl
    · exact ⟨stays,binding,relied.binding.trans stored,.inl named⟩
    · exact ⟨stays,_,bindingOf_put_self mine,.inl named⟩

private theorem upholds_followRename {byUID : Subject} (mine : binding.subjectId = task.subject)
    (stored : world.bindingOf task.subject = some binding)
    (isTold : byUID.identity ∈ told task heard) (there : byUID.identity ∈ world.accounts)
    (owned : server.owns binding.uid) (numbered : byUID.uid = binding.uid) :
    (discipline server).Upholds task
      (do
        let _ ← putBinding { binding with username := byUID.username }
        return .ok (.found byUID { binding with username := byUID.username }) :
          Call (Except Failure Located)) heard world (LocatedFor server task) := by
  refine upholds_put mine (fun later relied owner => ?_)
    fun later after answer more relied owner written => ?_
  · have stays := (relied.told _ isTold there).1
    obtain ⟨inStored,-⟩ := bindingOf_eq_some.mp (relied.binding.trans stored)
    refine ⟨owner.put stays rfl numbered ?_ ?_,.inr ⟨_,stays,rfl,numbered⟩⟩
    · intro other mem different
      exact owner.apart binding inStored owned _ stays numbered other mem different
    · intro _ other mem different same
      exact different (owner.numbers binding inStored other mem same.symm owned).symm
  · have stays := (relied.told _ isTold there).1
    refine upholds_located ⟨mem_told_append.mpr (.inl isTold),?_⟩
    rcases written with rfl | rfl
    · exact ⟨stays,binding,relied.binding.trans stored,.inr ⟨owned,numbered⟩⟩
    · exact ⟨stays,_,bindingOf_put_self mine,.inl rfl⟩

private theorem upholds_locateBound (mine : binding.subjectId = task.subject)
    (stored : world.bindingOf task.subject = some binding) :
    (discipline server).Upholds task (locateBound server binding) heard world
      (LocatedFor server task) := by
  have absent {later : World} {heard : List (Exchange Answer)} (cut : Bool)
      (still : later.bindingOf task.subject = some binding) :
      LocatedFor server task (.ok (.absent binding cut)) heard later := by
    intro other isStored
    cases still.symm.trans isStored
    rfl
  refine upholds_subjectWhere (by simp) fun outcome more later relied owner shown => ?_
  have still : later.bindingOf task.subject = some binding := relied.binding.trans stored
  match outcome with
  | .error failure => exact upholds_located trivial
  | .ok (some found, cut) =>
    obtain ⟨there,isTold,named⟩ := shown found cut rfl
    have named : found.username = binding.username := of_decide_eq_true named
    dsimp only
    split
    · exact upholds_located trivial
    split
    · exact upholds_recordNumber mine still isTold there named
    · exact upholds_located ⟨isTold,there,binding,still,.inl named⟩
  | .ok (none, cut) =>
    dsimp only
    split
    · exact upholds_located (absent cut still)
    rename_i owned
    refine upholds_subjectWhere (by simp) fun outcome more final reliedFinal _ shownFinal => ?_
    have stillFinal := reliedFinal.binding.trans still
    match outcome with
    | .error failure => exact upholds_located trivial
    | .ok (some byUID, cutUID) =>
      obtain ⟨there,isTold,numbered⟩ := shownFinal byUID cutUID rfl
      have owned : server.owns binding.uid := by simpa using owned
      exact upholds_followRename mine stillFinal isTold there owned
        (of_decide_eq_true numbered)
    | .ok (none, cutUID) => exact upholds_located (absent _ stillFinal)

private theorem upholds_locateUnbound (owner : OneOwner server world)
    (unbound : world.bindingOf task.subject = none) :
    (discipline server).Upholds task (locateUnbound server task.subject email) heard world
      (LocatedFor server task) := by
  apply Discipline.Upholds.ite
  · intro _
    exact upholds_located trivial
  intro _
  refine upholds_only ⟨trivial,fun _ => trivial⟩ owner
    fun claimed more later relied ownerLater => ?_
  cases claimed with
  | error => exact upholds_located trivial
  | ok =>
    refine upholds_only (only_of_neutral (neutral_subjectWhere _)) ownerLater
      fun existing more final reliedFinal ownerFinal => ?_
    match existing with
    | .error failure => exact upholds_located trivial
    | .ok (some existing, cut) => exact upholds_located trivial
    | .ok (none, cut) =>
      refine upholds_located fun stored isStored => ?_
      rw [reliedFinal.binding.trans (relied.binding.trans unbound)] at isStored
      cases isStored

private theorem upholds_locate :
    (discipline server).Upholds task (locate server task.subject email) heard world
      (LocatedFor server task) := by
  refine upholds_getBinding fun outcome more later relied owner read => ?_
  match outcome with
  | .error failure => exact upholds_located trivial
  | .ok (some binding) =>
    have stored := read (some binding) rfl
    exact upholds_locateBound (bindingOf_eq_some.mp stored).2 stored
  | .ok none =>
    exact upholds_locateUnbound owner (read none rfl)

/-! ### Converging -/

variable (subject : String) (desired : DesiredState)

private theorem upholds_converge {current : Subject} (owner : OneOwner server world)
    (located : LocatedFor server task (.ok (.found current binding)) heard world) :
    Upheld server task (converge server subject desired current) heard world := by
  refine upheld_except (only_of_neutral (neutral_groupWrite _ _ _)) owner (fun _ => trivial)
    fun groups more later relied ownerLater => ?_
  refine upheld_except (only_of_neutral neutral_decideHome) ownerLater (fun _ => trivial)
    fun home again final reliedFinal ownerFinal => ?_
  dsimp only
  split
  · exact upholds_idle (only_of_neutral neutral_convergeUnwritten) ownerFinal
  refine upholds_same (fun later mishap => sameOwners_userUpdate)
    (fun last reliedLast ownerLast => ?_) fun last mishap reliedLast ownerLast _ => ?_
  · rintro req rfl _ _ same
    cases same
    have reached : Rely server (.apply req) heard world last :=
      (discipline server).rely_trans relied
        ((discipline server).rely_trans reliedFinal.shorten reliedLast.shorten.shorten)
    obtain ⟨-,there,stored,isStored,names⟩ := located.later reached
    exact ⟨current.identity,there,rfl,stored,isStored,names⟩
  · cases (last.answer (.userUpdate current.id _) mishap).1 with
    | error => exact upholds_idle trivial ownerLast
    | ok =>
      exact upholds_idle (only_of_neutral neutral_convergeWritten) ownerLast

/-! ### Making an account -/

private theorem upholds_bindCreated (home : HomeDecision)
    (created : Except Failure Subject) (named : account.username = binding.username)
    (numbered : account.uid = createdUid created number) (isTold : account ∈ told task heard)
    (there : account ∈ world.accounts) (claimable : Claimable server task.subject account world) :
    Upheld server task
      (bindCreated server task.subject desired binding number home created) heard world := by
  refine upholds_bindIfFree rfl named numbered isTold there claimable
    fun after answer ownerAfter => ?_
  cases answer with
  | error => exact upholds_idle trivial ownerAfter
  | ok => exact upholds_idle (only_of_neutral neutral_reportCreated) ownerAfter

private theorem upholds_readBack (home : HomeDecision)
    (named : account.username = binding.username) (numbered : account.uid = number)
    (isTold : account ∈ told task heard) (there : account ∈ world.accounts)
    (claimable : Claimable server task.subject account world) :
    Upheld server task
      (readBack binding.username >>=
        bindCreated server task.subject desired binding number home) heard world := by
  unfold readBack
  rw [bind_assoc]
  refine upholds_subjectWhere (by simp) fun outcome more later relied owner shown => ?_
  obtain ⟨stays,keeps⟩ := relied.told account isTold there
  have toldStill : account ∈ told task (heard ++ more) := mem_told_append.mpr (.inl isTold)
  match outcome with
  | .error failure =>
    exact upholds_bindCreated desired home (.error failure) named numbered toldStill stays
      (keeps claimable)
  | .ok (none, cut) =>
    exact upholds_bindCreated desired home (.error (notReadBack binding.username)) named
      numbered toldStill stays (keeps claimable)
  | .ok (some found, cut) =>
    obtain ⟨foundThere,-,foundNamed⟩ := shown found cut rfl
    have same := owner.sameName account stays _ foundThere
      (named.trans (of_decide_eq_true foundNamed).symm)
    exact upholds_bindCreated desired home (.ok found) named
      (congrArg Identity.uid same) toldStill stays (keeps claimable)

theorem Made.guarantee (made : Made world after fields)
    (request : Request) : Guarantee task request world after where
  others := fun _ mem _ => made.rows ▸ mem
  kept := fun subject _ => congrArg (fun bucket => bucket.get subject) made.bindings
  own := fun binding mem subject =>
    .inl ⟨binding,made.rows ▸ mem,subject,rfl,rfl⟩
  accounts := fun account there _ => by
    rw [made.accounts]
    exact mem_append_left _ there

private theorem upholds_userCreate {rest : Except Failure ApiID → Call ApplyReply}
    (named : ∀ stored, world.bindingOf task.subject = some stored →
      stored.username = fields.username)
    (refused : ∀ after more failure, OneOwner server after →
      Upheld server task (rest (.error failure)) (heard ++ more) after)
    (next : ∀ after more account id, account.username = fields.username →
      account.uid = fields.uid → account ∈ told task (heard ++ more) →
      account ∈ after.accounts → Claimable server task.subject account after →
        Upheld server task (rest (.ok id)) (heard ++ more) after) :
    Upheld server task (.ask (.userCreate fields) rest) heard world := by
  intro later relied owner
  refine ⟨safe_of_notUpdate nofun,fun meets mishap => ?_⟩
  have numberFree : NumberFree server later task.subject fields.uid := meets
  rcases createUser_cases later fields with turnedDown | ⟨answered,made⟩
  · have effect : later.effect (.userCreate fields) =
        (.error (refusal "user.create"), later) := by
      simp only [effect,withTarget,turnedDown]
    have unchanged : ∃ failure, later.answer (.userCreate fields) mishap = (.error failure, later) := by
      cases mishap with
      | none => exact ⟨_,effect⟩
      | some mishap =>
        cases mishap with
        | failed failure => exact ⟨failure,rfl⟩
        | lost failure =>
          refine ⟨failure,?_⟩
          simp only [answer,effect]
    obtain ⟨failure,same⟩ := unchanged
    rw [same]
    exact ⟨owner,(SameOwners.refl later).guarantee _,refused later _ failure owner⟩
  · have free : server.owns fields.uid → ∀ one ∈ later.bindings, one.uid = fields.uid →
        ∀ other ∈ later.bindings, other.subjectId ≠ one.subjectId →
          other.username ≠ fields.username := by
      intro owned one inOne sameUid other inOther different
      have ours : one.subjectId = task.subject := by
        by_contra theirs
        exact numberFree owned one inOne theirs sameUid
      have stored : world.bindingOf task.subject = some one :=
        relied.binding.symm.trans (bindingOf_eq_some.mpr ⟨inOne,ours⟩)
      rw [← named one stored]
      exact fun same => different (owner.names other inOther one inOne same)
    have kept := made.oneOwner owner free
    cases mishap with
    | none =>
      refine ⟨kept,made.guarantee _,?_⟩
      have result : (later.answer (.userCreate fields) none).1 =
          .ok (some later.target.nextUser) := answered
      rw [result]
      refine next _ _ (later.madeBy fields) _ rfl rfl ?_ made.mem ?_
      · rw [mem_told_append]
        exact .inr (mem_singleton_self _)
      · exact claimable_of_numberFree fun owned other member =>
          numberFree owned other (made.rows ▸ member)
    | some mishap =>
      cases mishap with
      | failed failure =>
        exact ⟨owner,(SameOwners.refl later).guarantee _,refused later _ failure owner⟩
      | lost failure => exact ⟨kept,made.guarantee _,refused _ _ failure kept⟩

private theorem upholds_createAndConverge {cut : Bool} (owner : OneOwner server world)
    (located : LocatedFor server task (.ok (.absent binding cut)) heard world) :
    Upheld server task
      (createAndConverge server task.subject desired binding) heard world := by
  have undone (group : PersonalGroup) (reply : ApplyReply) :
      (undoUnlessAdopted group >>= fun _ => pure reply).Only Request.Plain :=
    only_bind (only_of_neutral (neutral_undoUnlessAdopted group)) fun _ => trivial
  unfold createAndConverge
  split
  · exact upholds_idle trivial owner
  refine upheld_except (only_of_neutral (neutral_groupWrite _ _ _)) owner (fun _ => trivial)
    fun groups more one reliedOne ownerOne => ?_
  refine upheld_except (only_nextIdentity _) ownerOne (fun _ => trivial)
    fun number more two reliedTwo ownerTwo => ?_
  refine upheld_except only_personalGroup ownerTwo (fun _ => trivial)
    fun group more three reliedThree ownerThree => ?_
  refine upheld_except (only_of_neutral neutral_decideHome) ownerThree (fun _ => undone group _)
    fun home more four reliedFour ownerFour => ?_
  have stored : four.bindingOf task.subject = world.bindingOf task.subject :=
    reliedFour.binding.trans (reliedThree.binding.trans (reliedTwo.binding.trans reliedOne.binding))
  refine upholds_userCreate
    (fun other isStored => located other (stored.symm.trans isStored)) ?_ ?_
  · intro after more _ ownerAfter
    exact upholds_idle (undone group _) ownerAfter
  · intro _ _ _ _ sameName sameUid isTold there claimable
    exact upholds_readBack desired home sameName sameUid isTold there claimable

/-! ### The calls -/

private theorem upholds_applyOne (req : ApplyRequest) (owner : OneOwner server world) :
    Upheld server (.apply req) (applyOne server req) heard world := by
  have remembers (desired : DesiredState) (reply : ApplyReply) {heard : List (Exchange Answer)}
      {after : World} (ownerAfter : OneOwner server after) :
      Upheld server (.apply req)
        (rememberWantedSMB req.subject desired reply >>= fun _ => pure reply) heard after := by
    have noted := @upholds_rememberWantedSMB server (.apply req) after heard desired reply
      ownerAfter
    exact Discipline.Upholds.bind ownerAfter
      (noted.mono fun _ _ _ ownerLast _ => upholds_idle trivial ownerLast)
  refine upheld_except (only_of_neutral (neutral_decodeDesired _ _)) owner (fun _ => trivial)
    fun desired more later _ ownerLater => ?_
  refine Discipline.Upholds.bind ownerLater (upholds_locate.mono
    fun outcome heard final ownerFinal located => ?_)
  match outcome with
  | .error failure => exact upholds_idle (only_ite trivial trivial) ownerFinal
  | .ok (.conflict conflict) => exact upholds_idle trivial ownerFinal
  | .ok (.found current binding) =>
    dsimp only [applyTo]
    split
    · exact upholds_idle trivial ownerFinal
    exact Discipline.Upholds.bind ownerFinal
      ((upholds_converge req.subject desired ownerFinal located).mono
        fun reply _ _ ownerLast _ => remembers desired reply ownerLast)
  | .ok (.absent binding cut) =>
    dsimp only [applyTo]
    split
    · exact upholds_idle trivial ownerFinal
    split
    · exact upholds_idle trivial ownerFinal
    exact Discipline.Upholds.bind ownerFinal
      ((upholds_createAndConverge desired ownerFinal located).mono
        fun reply _ _ ownerLast _ => remembers desired reply ownerLast)

private theorem upholds_readSubjects {subject actor param : String}
    {rest : Except Failure Snapshot → Call OperationReply}
    (next : ∀ outcome more later, OneOwner server later →
      (∀ snapshot, outcome = .ok snapshot → ∀ account ∈ snapshot.subjects,
        account.username = trimSpace param →
          account.identity ∈ told (.adopt subject actor param) (heard ++ more) ∧
            account.identity ∈ later.accounts ∧
            Claimable server subject account.identity later) →
      Upheld server (.adopt subject actor param) (rest outcome) (heard ++ more)
        later) :
    Upheld server (.adopt subject actor param) (readSubjects >>= rest) heard world := by
  unfold readSubjects readSubjectsWhere userQuery
  rw [bind_assoc,ask_bind]
  have plain : (Request.userQuery .everyone (subjectReadCap + 1)).Plain := trivial
  refine upholds_same (sameOwners_answer plain)
    (fun later _ _ => safe_of_plain plain) fun later mishap relied owner meets => ?_
  cases answered : (later.answer (.userQuery .everyone (subjectReadCap + 1)) mishap).1 with
  | error failure => exact next (.error failure) _ later owner nofun
  | ok users =>
    rw [done_bind]
    rw [bind_assoc]
    refine upholds_only (only_of_neutral neutral_readGroups) owner
      fun groups more final reliedFinal ownerFinal => ?_
    rw [append_assoc]
    cases groups with
    | error failure => exact next (.error failure) _ final ownerFinal nofun
    | ok =>
      refine next _ _ final ownerFinal fun snapshot same account mem named => ?_
      cases same
      obtain ⟨user,kept,rfl⟩ := mem_map.mp mem
      have inUsers : user ∈ users := mem_of_mem_take (mem_filter.mp kept).1
      have inTarget := mem_of_userQuery answered inUsers
      have isTold : user.identity ∈ told (.adopt subject actor param)
          (heard ++ [⟨.userQuery .everyone (subjectReadCap + 1),.ok users⟩]) := by
        refine mem_told_append.mpr (.inr ?_)
        unfold told
        rw [flatMap_singleton]
        exact mem_map_of_mem (mem_filter.mpr ⟨inUsers,decide_eq_true named⟩)
      obtain ⟨stays,keeps⟩ := reliedFinal.told _ isTold (mem_map_of_mem inTarget)
      refine ⟨?_,stays,keeps (claimable_of_numberFree (meets user inTarget named))⟩
      rw [← append_assoc]
      exact mem_told_append.mpr (.inl isTold)

private theorem upholds_adoptFree (actor param : String) (owner : OneOwner server world) :
    Upheld server (.adopt subject actor param)
      (adoptFree subject actor (trimSpace param)) heard world := by
  refine upheld_except ⟨trivial,fun _ => trivial⟩ owner (fun _ => trivial)
    fun claimed more later _ ownerLater => ?_
  dsimp only
  split
  · exact upholds_idle trivial ownerLater
  refine upholds_readSubjects fun outcome more final ownerFinal shown => ?_
  cases outcome with
  | error => exact upholds_idle trivial ownerFinal
  | ok snapshot =>
    dsimp only
    split
    · exact upholds_idle trivial ownerFinal
    rename_i account found
    have named := find?_some found
    obtain ⟨isTold,there,claimable⟩ := shown snapshot rfl account
      (mem_of_find?_eq_some found) (of_decide_eq_true named)
    refine upholds_bindIfFree rfl rfl rfl isTold there claimable fun after answer ownerAfter => ?_
    cases answer with
    | error | ok => exact upholds_idle trivial ownerAfter

private theorem upholds_adoptAccount (actor param : String) (owner : OneOwner server world) :
    Upheld server (.adopt subject actor param) (adoptAccount subject actor param)
      heard world := by
  apply Discipline.Upholds.ite
  · intro _
    exact upholds_idle trivial owner
  intro _
  apply Discipline.Upholds.ite
  · intro _
    exact upholds_idle trivial owner
  intro _
  refine upholds_only (only_of_neutral neutral_self) owner fun known more later _ ownerLater => ?_
  split
  · exact upholds_idle trivial ownerLater
  refine upheld_except ⟨trivial,fun _ => trivial⟩ ownerLater (fun _ => trivial)
    fun found more final _ ownerFinal => ?_
  cases found with
  | some => exact upholds_idle (only_ite trivial trivial) ownerFinal
  | none => exact upholds_adoptFree subject actor param ownerFinal

private theorem upholds_releaseAccount (owner : OneOwner server world) :
    Upheld server (.release subject) (releaseAccount subject) heard world := by
  refine upheld_except ⟨trivial,fun _ => trivial⟩ owner (fun _ => trivial)
    fun found more later _ ownerLater => ?_
  cases found with
  | none => exact upholds_idle trivial ownerLater
  | some =>
    refine upholds_deleteBinding rfl fun after answer ownerAfter => ?_
    cases answer with
    | error | ok => exact upholds_idle trivial ownerAfter

private theorem deleteUser_cases (world : World) (id : ApiID) :
    (world.target.deleteUser id = (.error (refusal "user.delete"), world.target)) ∨
      (world.target.deleteUser id).1 = .ok () ∧
        (world.target.deleteUser id).2.nextUser = world.target.nextUser ∧
        ∀ account : Identity,
          account ∈ accounts { world with target := (world.target.deleteUser id).2 } ↔
            account ∈ world.accounts ∧ account.id ≠ id := by
  unfold Target.deleteUser
  split
  · refine .inr ⟨rfl,rfl,fun account => ?_⟩
    unfold accounts
    simp only [mem_map,mem_filter,decide_eq_true_eq]
    constructor
    · rintro ⟨user,⟨mem,kept⟩,rfl⟩
      exact ⟨⟨user,mem,rfl⟩,kept⟩
    · rintro ⟨⟨user,mem,rfl⟩,kept⟩
      exact ⟨user,⟨mem,kept⟩,rfl⟩
  · exact .inl rfl

private theorem upholds_userDelete {id : ApiID} {rest : Except Failure Unit → Call OperationReply}
    (next : ∀ after answer, OneOwner server after →
      Upheld server task (rest answer) (heard ++ [⟨.userDelete id,answer⟩]) after) :
    Upheld server task (.ask (.userDelete id) rest) heard world := by
  refine upholds_effect nofun (fun later relied owner => ?_) next
  rcases deleteUser_cases later id with refused | ⟨-,nextUser,remaining⟩
  · have unchanged : (later.effect (.userDelete id)).2 = later := by
      simp only [effect,withTarget,refused]
    rw [unchanged]
    exact ⟨owner,(SameOwners.refl later).guarantee _⟩
  refine ⟨owner.shrink rfl (fun account there => ((remaining account).mp there).1) nextUser,?_⟩
  constructor
  · exact fun _ mem _ => mem
  · exact fun _ _ => rfl
  · exact fun binding mem subject => .inl ⟨binding,mem,subject,rfl,rfl⟩
  · intro account there other
    exact (remaining account).mpr ⟨there,fun same => other (by rw [same])⟩

private theorem upholds_purgeAccount (elevatedKey : Option String) (owner : OneOwner server world) :
    Upheld server (.purge subject elevatedKey) (purgeAccount subject elevatedKey)
      heard world := by
  unfold purgeAccount
  split
  · exact upholds_idle trivial owner
  rename_i key _
  refine upheld_except (only_of_neutral (neutral_boundAccount _)) owner (fun _ => trivial)
    fun binding more one _ ownerOne => ?_
  refine upholds_only (only_of_neutral neutral_self) ownerOne fun known more two _ ownerTwo => ?_
  cases known with
  | none => exact upholds_idle trivial ownerTwo
  | some =>
    dsimp only
    split
    · exact upholds_idle trivial ownerTwo
    refine upheld_except (only_of_neutral neutral_recordID) ownerTwo (fun _ => trivial)
      fun id more three _ ownerThree => ?_
    refine upholds_plain trivial fun four mishap _ ownerFour => ?_
    cases (four.answer (.elevate key) mishap).1 with
    | error => exact upholds_idle trivial ownerFour
    | ok done =>
      refine upholds_userDelete fun after answer ownerAfter => ?_
      cases answer with
      | error => exact upholds_idle trivial ownerAfter
      | ok =>
        exact upholds_deleteBinding rfl fun last answer => upholds_idle trivial

private theorem upholds_program (owner : OneOwner server world) :
    Upheld server task (task.program server) [] world := by
  have ends {Result : Type} {program : Call Result}
      (upheld : Upheld server task program [] world) :
      Upheld server task (do let _ ← program; return ()) [] world :=
    Discipline.Upholds.bind owner (upheld.mono fun _ _ _ _ _ _ _ _ => trivial)
  cases task with
  | apply req => exact ends (upholds_applyOne req owner)
  | adopt subject actor username => exact ends (upholds_adoptAccount subject actor username owner)
  | release subject => exact ends (upholds_releaseAccount subject owner)
  | purge subject elevatedKey => exact ends (upholds_purgeAccount subject elevatedKey owner)

end Calls

/-! ### Outside moves -/

section Moves

variable {server : Server} {task : Task} {world after : World} {heard : List (Exchange Answer)}

theorem accepted_eq_some {Result : Type} {outcome : Except Failure Result × Target}
    (taken : accepted world outcome = some after) :
    (∃ value, outcome.1 = .ok value) ∧ after = { world with target := outcome.2 } := by
  unfold accepted at taken
  split at taken
  · cases taken
  · next value same => exact ⟨⟨value,same⟩,(Option.some.inj taken).symm⟩

inductive Moved (world after : World) : Outside → Prop
  | made (fields : UserCreate) : Made world after fields → Moved world after (.createUser fields)
  | deleted (id : ApiID) : after.store = world.store →
      after.target.nextUser = world.target.nextUser →
      (∀ account, account ∈ after.accounts ↔ account ∈ world.accounts ∧ account.id ≠ id) →
        Moved world after (.deleteUser id)
  | renamed (id : ApiID) (name : String) : after.store = world.store →
      after.target.nextUser = world.target.nextUser →
      (∀ account ∈ world.accounts, account.username ≠ name) →
      (∀ account, account ∈ after.accounts ↔ ∃ old ∈ world.accounts,
        account = if old.id = id then { old with username := name } else old) →
        Moved world after (.renameUser id name)
  | groups (move : Outside) : SameOwners world after → Moved world after move

variable {move : Outside}

private theorem moved_of_outside (taken : outside world move = some after) :
    Moved world after move := by
  cases move with
  | createUser fields =>
    obtain ⟨⟨value,ok⟩,rfl⟩ := accepted_eq_some taken
    rcases createUser_cases world fields with refused | ⟨-,made⟩
    · rw [refused] at ok
      cases ok
    · exact .made fields made
  | deleteUser id =>
    obtain ⟨⟨value,ok⟩,rfl⟩ := accepted_eq_some taken
    rcases deleteUser_cases world id with refused | ⟨-,nextUser,remaining⟩
    · rw [refused] at ok
      cases ok
    · exact .deleted id rfl nextUser remaining
  | renameUser id name =>
    obtain ⟨⟨value,ok⟩,rfl⟩ := accepted_eq_some taken
    unfold Target.renameUser at ok ⊢
    split at ok
    · cases ok
    rename_i unused
    rw [if_neg unused]
    refine .renamed id name rfl rfl (fun account there => ?_) fun account => ?_
    · obtain ⟨user,mem,rfl⟩ := mem_map.mp there
      exact fun named => unused (any_eq_true.mpr ⟨user,mem,decide_eq_true named⟩)
    unfold accounts
    simp only [mem_map]
    constructor
    · rintro ⟨renamed,⟨user,mem,rfl⟩,rfl⟩
      refine ⟨user.identity,⟨user,mem,rfl⟩,?_⟩
      by_cases same : user.id = id
      · simp only [same,↓reduceIte,NasUser.identity,NasUser.renamed]
      · simp only [same,↓reduceIte,NasUser.identity]
    · rintro ⟨old,⟨user,mem,rfl⟩,rfl⟩
      refine ⟨_,⟨user,mem,rfl⟩,?_⟩
      by_cases same : user.id = id
      · simp only [same,↓reduceIte,NasUser.identity,NasUser.renamed]
      · simp only [same,↓reduceIte,NasUser.identity]
  | createGroup name gid =>
    obtain ⟨-,rfl⟩ := accepted_eq_some taken
    exact .groups _ (@sameOwners_effect (.groupCreate name gid) trivial world)
  | deleteGroup id =>
    obtain ⟨-,rfl⟩ := accepted_eq_some taken
    exact .groups _ (@sameOwners_effect (.groupDelete id) trivial world)

private theorem oneOwner_outside (owner : OneOwner server world)
    (meets : (conduct server).OutsideMeets world move) (taken : outside world move = some after) :
    OneOwner server after := by
  cases moved_of_outside taken with
  | made _ made => exact made.oneOwner owner meets
  | deleted _ store nextUser remaining =>
    exact owner.shrink (by unfold bindings; rw [store])
      (fun account there => ((remaining account).mp there).1) nextUser
  | renamed id name store nextUser unused renamed =>
    have rows : after.bindings = world.bindings := by
      unfold bindings
      rw [store]
    by_cases held : ∃ old ∈ world.accounts, old.id = id
    · obtain ⟨old,there,rfl⟩ := held
      have free : NameFree server world old.uid name := by
        obtain ⟨user,mem,rfl⟩ := mem_map.mp there
        exact meets user mem rfl
      refine @OneOwner.change server world after owner { old with username := name } rows
        (fun account inAfter => ?_) (by rw [nextUser]) (fun number isKey => ?_) free
      · obtain ⟨before,inBefore,rfl⟩ := (renamed account).mp inAfter
        split
        · next same =>
          cases owner.sameKey before inBefore old there same
          exact .inl rfl
        · next other =>
          refine .inr ⟨inBefore,other,unused before inBefore,fun sameUid => other ?_⟩
          rw [owner.sameNumber before inBefore old there sameUid]
      · rw [nextUser]
        exact owner.keyed old there number isKey
    · refine owner.shrink rows (fun account inAfter => ?_) nextUser
      obtain ⟨before,inBefore,rfl⟩ := (renamed account).mp inAfter
      rw [if_neg fun same => held ⟨before,inBefore,same⟩]
      exact inBefore
  | groups _ same => exact same.oneOwner owner

private theorem rely_outside (spares : (conduct server).OutsideSpares task heard world move)
    (taken : outside world move = some after) : Rely server task heard world after := by
  have stays (stored : after.store.bindings = world.store.bindings)
      (kept : ∀ account ∈ told task heard, account ∈ world.accounts → account ∈ after.accounts) :
      Rely server task heard world after := by
    refine ⟨by unfold bindingOf; rw [stored],fun account isTold there =>
      ⟨kept account isTold there,fun claimable => ?_⟩⟩
    unfold Claimable bindings
    rw [stored]
    exact claimable
  cases moved_of_outside taken with
  | made _ made =>
    refine stays made.bindings fun account _ there => ?_
    rw [made.accounts]
    exact mem_append_left _ there
  | deleted _ store _ remaining =>
    exact stays (by rw [store]) fun account isTold there =>
      (remaining account).mpr ⟨there,spares account isTold⟩
  | renamed _ _ store _ _ renamed =>
    refine stays (by rw [store]) fun account isTold there => (renamed account).mpr ⟨account,there,?_⟩
    rw [if_neg (spares account isTold)]
  | groups _ same => exact same.rely

end Moves

/-! ### The conduct is decidable -/

section Decide

variable (server : Server)

instance (one other : Task) : Decidable ((conduct server).Apart one other) :=
  inferInstanceAs (Decidable (one.subject ≠ other.subject))

instance (task : Task) (world : World) (request : Request) :
    Decidable ((conduct server).Meets task world request) := by
  unfold conduct
  dsimp only
  split <;> infer_instance

instance (task : Task) (heard : List (Exchange Answer)) (request : Request) :
    Decidable ((conduct server).Spares task heard request) := by
  unfold conduct
  dsimp only
  split <;> infer_instance

instance (world : World) (move : Outside) :
    Decidable ((conduct server).OutsideMeets world move) := by
  unfold conduct
  dsimp only
  split <;> infer_instance

instance (task : Task) (heard : List (Exchange Answer)) (world : World) (move : Outside) :
    Decidable ((conduct server).OutsideSpares task heard world move) := by
  unfold conduct
  dsimp only
  split <;> infer_instance

instance (pool : Pool World Task Answer Unit) (move : Move Task Outside Mishap) :
    Decidable ((conduct server).Allows pool move) := by
  unfold Conduct.Allows
  split <;> infer_instance

end Decide

/-! ### Every interleaving -/

abbrev Calls : Type := Pool World Task Answer Unit

abbrev Calls.step (server : Server) : Calls → Move Task Outside Mishap → Option Calls :=
  Programs.step World.answer (Task.program server) outside

def updating (flight : Flight Task Answer Unit) : Option (String × ApiID) :=
  match flight.tag, flight.asks with
  | .apply req, some (.userUpdate id _) => some (req.subject, id)
  | _, _ => none

private theorem updating_eq_some {flight : Flight Task Answer Unit} {subject : String} {id : ApiID}
    (updates : updating flight = some (subject, id)) :
    ∃ req fields, flight.tag = .apply req ∧ req.subject = subject ∧
      flight.asks = some (.userUpdate id fields) := by
  unfold updating at updates
  split at updates
  · next req _ fields tag asks =>
    cases updates
    exact ⟨req,fields,tag,rfl,asks⟩
  · cases updates

def Updates (server : Server) (pool : Calls) (subject : String) (id : ApiID) : Prop :=
  (subject, id) ∈ pool.flights.filterMap updating ∨
    ∃ req exchanges reply final, req.subject = subject ∧
      Ran World.answer (applyOne server req) pool.world exchanges reply final ∧
        ∃ exchange ∈ exchanges, ∃ fields, exchange.request = .userUpdate id fields

structure NoSharedAccount (server : Server) (pool : Calls) : Prop where
  numbers : ∀ one ∈ pool.world.bindings, ∀ other ∈ pool.world.bindings,
    one.uid = other.uid → one.uid ≠ 0 → server.owns one.uid → one.subjectId = other.subjectId
  names : ∀ one ∈ pool.world.bindings, ∀ other ∈ pool.world.bindings,
    one.username = other.username → one.subjectId = other.subjectId
  updates : ∀ first second id, Updates server pool first id → Updates server pool second id →
    first = second

/-- No call is in flight and nobody is bound; the accounts of the target have names,
numbers and keys of their own. -/
structure Initial (pool : Calls) : Prop where
  idle : pool.flights = []
  unbound : pool.world.bindings = []
  sameKey : ∀ one ∈ pool.world.accounts, ∀ other ∈ pool.world.accounts,
    one.id = other.id → one = other
  sameName : ∀ one ∈ pool.world.accounts, ∀ other ∈ pool.world.accounts,
    one.username = other.username → one = other
  sameNumber : ∀ one ∈ pool.world.accounts, ∀ other ∈ pool.world.accounts,
    one.uid = other.uid → one = other
  keyed : ∀ account ∈ pool.world.accounts, ∀ key, account.id = some key →
    key < pool.world.target.nextUser

variable {server : Server} {pool : Calls}

theorem Initial.sound (initial : Initial pool) : (discipline server).Sound pool:= by
  refine ⟨⟨?_,?_,?_,initial.sameKey,initial.sameName,initial.sameNumber,initial.keyed⟩, ?_,?_⟩
  · rw [initial.unbound]
    intro one mem
    cases mem
  · rw [initial.unbound]
    intro one mem
    cases mem
  · rw [initial.unbound]
    intro one mem
    cases mem
  · rw [initial.idle]
    intro _ mem
    cases mem
  · rw [initial.idle]
    intro _ _ _ _ found
    cases found

private theorem noSharedAccount_of_sound
    (sound : (discipline server).Sound pool) : NoSharedAccount server pool := by
  have owner : OneOwner server pool.world := sound.holds
  have owned {subject : String} {id : ApiID} (updates : Updates server pool subject id) :
      Owned server pool.world subject id := by
    rcases updates with waiting |
      ⟨req,exchanges,reply,final,rfl,ran,exchange,mem,fields,request⟩
    · obtain ⟨_,mem,updates⟩ := mem_filterMap.mp waiting
      obtain ⟨req,fields,tag,rfl,asks⟩ := updating_eq_some updates
      exact sound.safe mem asks req tag id fields rfl
    · exact owned_of_updated ran mem request
  exact ⟨fun one inOne other inOther same _ => owner.numbers one inOne other inOther same,
    owner.names,fun first second id one other => owner.owned_unique (owned one) (owned other)⟩

/-- In every run whose moves all keep to the conduct, no account serves two
subjects. -/
theorem noSharedAccount_run (server : Server) (start final : Calls)
    (moves : List (Move Task Outside Mishap)) (initial : Initial start)
    (kept : Runs.Throughout (Calls.step server) (conduct server).Allows start moves)
    (reached : Runs.run (Calls.step server) start moves = some final) :
    NoSharedAccount server final := by
  apply noSharedAccount_of_sound
  refine Runs.run_invariant (discipline server).Sound ?_ initial.sound kept reached
  intro _ move _ sound allowed taken
  exact Discipline.sound_step Ne.symm
    (fun task world => upholds_program)
    (fun world move after => oneOwner_outside)
    (fun task heard world move after _ => rely_outside)
    sound allowed taken

def createCall (subject email : String) : Task :=
  .apply
    { subject := subject, email := email, fingerprint := fingerprintSubject plainServer none
      desired := [] }

def lockCall (subject : String) (planned : NasUser) : Task :=
  .apply
    { subject := subject, email := ""
      fingerprint := fingerprintSubject plainServer (some (planned.toSubject []))
      desired := [(fieldEnabled, .boolean false)] }

def advances (count index : Nat) : List (Move Task Outside Mishap) :=
  replicate count (.advance index none)

def apartMoves : List (Move Task Outside Mishap) :=
  [.begin (createCall "first" "ada@example.org"),.advance 0 none,
    .begin (.adopt "second" "operator" "bea")] ++
    advances 4 1 ++ advances 5 0 ++ advances 2 1 ++ advances 6 0 ++
    .outside (.renameUser (some 2) "ada2") :: .begin (lockCall "first" (userNamed 2 "ada2" 200006)) ::
      advances 6 2

theorem noSharedAccount_apartMoves : ∃ final, Runs.run (Calls.step plainServer)
        { world := worldWith [userNamed 1 "bea" 200005], flights := [] } apartMoves = some final ∧
      final.world.bindings.length = 2 ∧ NoSharedAccount plainServer final := by
  refine Runs.exists_reached_and (by decide) fun final reached _ => ?_
  exact noSharedAccount_run plainServer _ final apartMoves (by constructor <;> decide) (by decide)
    reached

/-- The account made for one subject is renamed by hand and adopted for another
under its new name. The first subject's next apply follows the rename. -/
def sharingMoves : List (Move Task Outside Mishap) :=
  .begin (createCall "first" "ada@example.org") :: advances 12 0 ++
    .outside (.renameUser (some 1) "ada2") :: .begin (.adopt "second" "operator" "ada2") ::
      advances 6 1 ++
    .begin (lockCall "first" (userNamed 1 "ada2" 200000)) :: advances 6 2 ++
    .begin (lockCall "second" (userNamed 1 "ada2" 200000)) :: advances 3 3

theorem sharedAccount_sharingMoves : Initial { world := worldWith [], flights := [] } ∧
      ∃ final, Runs.run (Calls.step plainServer) { world := worldWith [], flights := [] }
          sharingMoves = some final ∧
        final.world.bindings.map (fun binding => (binding.subjectId, binding.username, binding.uid)) =
          [("first", "ada2", 200000),("second", "ada2", 200000)] ∧
        Updates plainServer final "first" (some 1) ∧ Updates plainServer final "second" (some 1) ∧
        ¬ NoSharedAccount plainServer final := by
  refine ⟨by constructor <;> decide,?_⟩
  have ran : (Runs.run (Calls.step plainServer) { world := worldWith [], flights := [] }
      sharingMoves).any (fun final => decide (
        final.world.bindings.map (fun binding => (binding.subjectId, binding.username, binding.uid)) =
          [("first", "ada2", 200000),("second", "ada2", 200000)] ∧
        final.flights.filterMap updating = [("first", some 1),("second", some 1)])) = true := by
    decide
  obtain ⟨final,reached,shared,waiting⟩ := Runs.exists_reached ran
  have first : Updates plainServer final "first" (some 1) := by
    left
    rw [waiting]
    decide
  have second : Updates plainServer final "second" (some 1) := by
    left
    rw [waiting]
    decide
  exact ⟨final,reached,shared,first,second,fun apart =>
    absurd (apart.updates _ _ _ first second) (by decide)⟩

end Syndra.TrueNAS
