/-
Convergence reaches the desired state and stops.

One apply writes an account's groups, lock, SMB and home in one update and sets its limit
beside it; read back, the account is as wanted and nothing is left to write.
-/

import Mathlib.Data.List.Dedup
import Syndra.TrueNAS.Approved
import Syndra.TrueNAS.Resolved

namespace Syndra.TrueNAS

open Foundation.Programs Foundation.Text List World Target

/-! ### The target and the account -/

structure ReadWhole (world : World) : Prop where
  users : world.target.users.length ≤ subjectReadCap
  groups : world.target.groups.length ≤ subjectReadCap
  names : (world.target.users.map NasUser.username).Nodup

theorem find_username_eq_some {world : World} (whole : ReadWhole world) {name : String}
    {found : Subject} :
    (world.find (.username name)).1 = some found ↔
      ∃ user ∈ world.target.users, user.isSystem = false ∧ user.username = name ∧
        user.toSubject world.target.groups = found := by
  rcases matching_username whole.names name with nobody | ⟨user,alone⟩
  · rw [find_nothing nobody]
    constructor
    · intro same
      cases same
    rintro ⟨user,inUsers,-,named,-⟩
    have mem : user ∈ world.matching (.username name) :=
      mem_matching.mpr ⟨inUsers,decide_eq_true named⟩
    rw [nobody] at mem
    cases mem
  · rw [find_alone (by simp) alone]
    constructor
    · intro same
      split at same
      · cases same
      rename_i person
      obtain ⟨inUsers,named⟩ := (mem_alone alone).mpr rfl
      exact ⟨user,inUsers,by simpa using person,of_decide_eq_true named,
        Option.some.inj same⟩
    · rintro ⟨other,inUsers,person,named,rfl⟩
      cases (mem_alone alone).mp ⟨inUsers,decide_eq_true named⟩
      rw [person]
      rfl

theorem perform_readBack {world : World} {username : String} {found : Subject}
    (whole : world.GroupsWhole)
    (finds : (world.find (.username username)).1 = some found) :
    (perform effect (readBack username) world).2 = (.ok found, world) := by
  unfold readBack
  rw [perform_bind,perform_subjectWhere whole,← Prod.mk.eta (p := world.find (.username username)),
    finds]
  rfl

/-- Group memberships are kept as a set, in whatever order. -/
structure SetStore where
  keep : List ApiID → List ApiID
  nodup : ∀ ids, (keep ids).Nodup
  mem_keep : ∀ {id ids}, id ∈ keep ids ↔ id ∈ ids

def World.keeping (sets : SetStore) (world : World) : (request : Request) → Answer request × World
  | .userUpdate id fields =>
    world.withTarget (world.target.updateUser id { fields with groups := fields.groups.map sets.keep })
  | request => world.effect request

structure Account (world : World) (user : NasUser) : Prop where
  whole : ReadWhole world
  ids : (world.target.users.map NasUser.id).Nodup
  groupIds : (world.target.groups.map NasGroup.id).Nodup
  groupNames : (world.target.groups.map NasGroup.name).Nodup
  member : user ∈ world.target.users
  person : user.isSystem = false
  stored : user.groups.Nodup

/-! ### What one apply should come to -/

variable (sets : SetStore) (server : Server) (subject : String) (desired : DesiredState)

def World.applied (world : World) (current : Subject) :
    List (Exchange Answer) × ApplyReply × World :=
  perform (World.keeping sets) (converge server subject desired current) world

def World.replanned (world : World) (current : Subject) : List (Exchange Answer) :=
  (perform (World.keeping sets) (planConverge server subject desired current) world).1

/-- The account as it was and as it is now, and what doing it all again asks. -/
structure Settled (world after : World) (current now : Subject) : Prop where
  groups : desired.manages fieldGroup = true → ∀ name, name ∈ now.groups ↔ name ∈ desired.groups
  lock : desired.manages fieldEnabled = true → now.enabled = desired.enabled
  smbOff : desired.manages fieldSMBEnabled = true → desired.smbEnabled = false →
    now.smbEnabled = false
  otherGroups : desired.manages fieldGroup = false → now.groups = current.groups
  otherLock : desired.manages fieldEnabled = false → now.enabled = current.enabled
  otherSmb : desired.manages fieldSMBEnabled = false → now.smbEnabled = current.smbEnabled
  otherHome : desired.manages fieldHome = false → now.home = current.home
  otherLimits : desired.manages fieldHomeQuota = false →
    after.target.quotas = world.target.quotas
  itself : now.id = current.id ∧ now.uid = current.uid ∧ now.passwordSet = current.passwordSet
  builtin : ∀ id, id ∈ now.builtinGroups ↔ id ∈ current.builtinGroups
  quiet : ∀ exchange ∈ after.replanned sets server subject desired now ++
    (after.applied sets server subject desired now).1, exchange.request.Reads

/-- No group is wanted twice, and a home the account is given is read as one. -/
def Settles (world : World) (current : Subject) : Prop :=
  (desired.manages fieldGroup = true → desired.groups.Nodup) ∧
    ∀ path, (world.homeDecision desired current.username current.home current.uid).path = path →
      path ≠ "" → homeOf path = path

/-! ### The apply performed -/

variable {sets server subject desired} {world after : World} {user : NasUser} {Result : Type}
  {current : Subject}

variable {program : Call Result} {fields : UserUpdate}

theorem perform_keeping (quiet : program.Only Request.UpdatesNone) :
    perform (keeping sets) program world = perform effect program world := by
  induction program generalizing world with
  | done => rfl
  | ask request _ ih =>
    have same : world.keeping sets request = world.effect request := by
      cases request with
      | userUpdate => exact quiet.1.elim
      | _ => rfl
    rw [perform_ask,perform_ask,same,ih _ (quiet.2 _)]

theorem perform_keeping_neutral (neutral : program.Only Request.Neutral) :
    perform (keeping sets) program world = perform effect program world :=
  perform_keeping (neutral.mono fun _ is => updatesNone_of_plain (plain_of_neutral is))

def World.change (world : World) (desired : DesiredState) (current : Subject) : Change :=
  decideChange (some current) desired
    (world.homeDecision desired current.username current.home current.uid)

def sent (sets : SetStore) (change : Change) (keys : Option (List ApiID)) : UserUpdate :=
  { updateOf change keys with groups := keys.map sets.keep }

def World.withLimit (world : World) (owed : QuotaOwed) (uid : Int) : World :=
  if owed.owed then
    { world with target := world.target.setQuota ⟨owed.dataset,uid,owed.want⟩ }
  else world

variable (server) in
theorem perform_convergeQuota {home : String} {uid : Int} :
    (perform effect (convergeQuota server desired home uid) world).2.2 =
      world.withLimit (world.quota desired home uid) uid := by
  unfold convergeQuota withLimit
  rw [perform_bind,perform_quotaOwed]
  dsimp only
  cases (world.quota desired home uid).owed with
  | false | true => rfl

/-- The target after the update `fields` of an account and the limit beside it. -/
structure Landed (desired : DesiredState) (world after : World) (user : NasUser)
    (fields : UserUpdate) (home : String) : Prop where
  users : after.target.users = world.target.users.map fun other =>
    if other.id = user.id then other.updated fields else other
  groups : after.target.groups = world.target.groups
  places : after.target.homePlaces = world.target.homePlaces
  owners : after.target.owners = (world.target.withHome fields.home user.uid).owners
  quotas : after.target.quotas =
    (world.withLimit (world.quota desired home user.uid) user.uid).target.quotas

theorem updated_nothing (groups : fields.groups = none) (locked : fields.locked = none)
    (smb : fields.smb = none) (home : fields.home = none)
    (disabled : fields.passwordDisabled = none) {other : NasUser} :
    other.updated fields = other := by
  unfold NasUser.updated
  rw [groups,locked,smb,home,disabled]
  rfl

theorem withLimit_target {owed : QuotaOwed} {uid : Int} :
    (world.withLimit owed uid).target =
      { world.target with quotas := (world.withLimit owed uid).target.quotas } := by
  unfold withLimit
  split <;> rfl

theorem find_by_id (account : Account world user) :
    world.target.users.find? (fun other => other.id = user.id) = some user := by
  cases found : world.target.users.find? (fun other => other.id = user.id) with
  | none => exact absurd (decide_eq_true rfl) (find?_eq_none.mp found user account.member)
  | some other =>
    have same : other.id = user.id := by simpa using find?_some found
    rw [inj_on_of_nodup_map account.ids (mem_of_find?_eq_some found) account.member same]

def converging (server : Server) (subject : String) (desired : DesiredState) (current : Subject)
    (change : Change) (keys : Option (List ApiID)) : Call ApplyReply :=
  if !change.writes then convergeUnwritten server subject desired current change
  else
    .ask (.userUpdate current.id (updateOf change keys)) fun answer =>
      match answer with
      | .error failure => .done (.failed (statusFor failure) failure)
      | .ok () => convergeWritten server subject desired current change (updateOf change keys)

theorem converge_eq : converge server subject desired current = (do
    match ← groupWrite server (decideChange (some current) desired .nothing).groups
        current.builtinGroups with
    | .error failure => return .failed 422 failure
    | .ok keys =>
      match ← decideHome desired current.username current.home current.uid with
      | .error failure => return .failed (statusFor failure) failure
      | .ok home =>
        converging server subject desired current (decideChange (some current) desired home) keys) := by
  unfold converge
  dsimp only
  congr 1
  funext keys
  cases keys with
  | error => rfl
  | ok =>
    dsimp only
    congr 1
    funext home
    cases home with
    | error => rfl
    | ok home =>
      by_cases none : (!(decideChange (some current) desired home).writes) = true
      · exact (if_pos none).trans (if_pos none).symm
      refine (if_neg none).trans (Eq.trans ?_ (if_neg none).symm)
      congr 1
      funext answer
      cases answer with
      | error | ok => rfl

variable (world) in
theorem reads_performed (only : program.Only Request.Reads) :
    ∀ exchange ∈ (perform effect program world).1, exchange.request.Reads :=
  (ran_performed program world).only only

variable (sets server subject desired current) in
theorem applied_eq (whole : world.GroupsWhole) : ∃ reads : List (Exchange Answer),
    (∀ exchange ∈ reads, exchange.request.Reads) ∧
    world.applied sets server subject desired current =
      match world.groupKeys server (world.change desired current).groups
          current.builtinGroups with
      | .error failure => (reads, .failed 422 failure, world)
      | .ok keys =>
        let later := perform (keeping sets)
          (converging server subject desired current (world.change desired current) keys) world
        (reads ++ later.1, later.2) := by
  have sameGroups : (decideChange (some current) desired .nothing).groups =
      (world.change desired current).groups := rfl
  unfold applied
  rw [converge_eq,sameGroups,perform_bind,perform_keeping_neutral (neutral_groupWrite _ _ _),
    perform_groupWrite whole]
  have groups := reads_performed world (only_groupWrite (fun _ => trivial) server
    (world.change desired current).groups current.builtinGroups)
  cases world.groupKeys server (world.change desired current).groups current.builtinGroups with
  | error => exact ⟨_,groups,Prod.ext (append_nil _) rfl⟩
  | ok =>
    rw [perform_bind,perform_keeping_neutral neutral_decideHome,perform_decideHome]
    refine ⟨_ ++ _,fun exchange mem => ?_,Prod.ext (append_assoc _ _ _).symm rfl⟩
    rcases mem_append.mp mem with first | second
    · exact groups exchange first
    · exact reads_performed world (only_decideHome (fun _ => trivial)) exchange second

theorem quota_of_target {later : World}
    (places : later.target.homePlaces = world.target.homePlaces)
    (quotas : later.target.quotas = world.target.quotas) {home : String} {uid : Int} :
    later.quota desired home uid = world.quota desired home uid := by
  unfold quota
  rw [places,quotas]

def World.withUpdate (world : World) (user : NasUser) (fields : UserUpdate) : World :=
  { world with
    target := { world.target.withHome fields.home user.uid with
      users := world.target.users.map fun other =>
        if other.id = user.id then other.updated fields else other } }

theorem keeping_userUpdate (account : Account world user) {fields : UserUpdate} :
    world.keeping sets (.userUpdate user.id fields) =
      (.ok (), world.withUpdate user { fields with groups := fields.groups.map sets.keep }) := by
  change world.withTarget (world.target.updateUser user.id _) = _
  unfold updateUser
  rw [find_by_id account]
  rfl

theorem withHome_rest (home : Option String) (uid : Int) (target : Target) :
    (target.withHome home uid).groups = target.groups ∧
      (target.withHome home uid).homePlaces = target.homePlaces ∧
      (target.withHome home uid).quotas = target.quotas := by
  unfold withHome
  split
  · exact ⟨rfl,rfl,rfl⟩
  · split <;> exact ⟨rfl,rfl,rfl⟩

variable (after) in
theorem find_of_users (account : Account world user)
    (users : after.target.users = world.target.users.map fun other =>
      if other.id = user.id then other.updated fields else other)
    (groups : after.target.groups = world.target.groups) :
    ReadWhole after ∧ (after.find (.username user.username)).1 =
      some ((user.updated fields).toSubject world.target.groups) := by
  have names : after.target.users.map NasUser.username = world.target.users.map NasUser.username := by
    rw [users,map_map]
    refine map_congr_left fun other _ => ?_
    dsimp only [Function.comp]
    split <;> rfl
  have whole : ReadWhole after := by
    refine ⟨?_,groups ▸ account.whole.groups,names ▸ account.whole.names⟩
    rw [users,length_map]
    exact account.whole.users
  refine ⟨whole,(find_username_eq_some whole).mpr ⟨user.updated fields,?_,account.person,rfl,
    by rw [groups]⟩⟩
  rw [users]
  exact mem_map.mpr ⟨user,account.member,if_pos rfl⟩

theorem perform_convergeUnwritten {change : Change} :
    (perform effect (convergeUnwritten server subject desired current change) world).2.2 =
      world.withLimit (world.quota desired current.home current.uid) current.uid := by
  unfold convergeUnwritten
  rw [perform_bind,← perform_convergeQuota]
  cases (perform effect (convergeQuota server desired current.home current.uid)
      world).2.1 with
  | error failure => rfl
  | ok quota =>
    dsimp only
    split
    · rfl
    · split <;> rfl

theorem asks_convergeUnwritten {change : Change}
    (unowed : (world.quota desired current.home current.uid).owed = false) :
    (perform effect (convergeUnwritten server subject desired current change) world).1 =
      (perform effect (quotaOwed desired current.home current.uid) world).1 := by
  have quota : perform effect (convergeQuota server desired current.home current.uid) world =
      ((perform effect (quotaOwed desired current.home current.uid) world).1, .ok "",
        world) := by
    unfold convergeQuota
    rw [perform_bind,perform_quotaOwed]
    dsimp only
    rw [unowed]
    exact Prod.ext (append_nil _) rfl
  unfold convergeUnwritten
  rw [perform_bind,quota]
  dsimp only
  rw [if_neg (not_not.mpr rfl)]
  split <;> exact append_nil _

theorem perform_convergeWritten {change : Change} {update : UserUpdate} {now : Subject}
    (whole : ReadWhole world) (found : (world.find (.username current.username)).1 = some now) :
    (perform effect (convergeWritten server subject desired current change update)
      world).2.2 = world.withLimit (world.quota desired (change.applyTo current).home current.uid)
        current.uid := by
  unfold convergeWritten
  rw [perform_bind,perform_readBack whole.groups found]
  rw [perform_bind]
  exact perform_convergeQuota _

theorem writes_eq_false {change : Change} (unwritten : change.writes = false) :
    change.groups = none ∧ change.locked = none ∧ change.smbOff = false ∧ change.home.path =
    "" := by
  unfold Change.writes at unwritten
  simpa [and_assoc] using unwritten

theorem landed_of_applied (account : Account world user)
    (isCurrent : user.toSubject world.target.groups = current)
    (succeeded : ∃ outcome, (world.applied sets server subject desired current).2.1.result =
      .ok outcome) :
    ∃ keys, world.groupKeys server (world.change desired current).groups
        current.builtinGroups = .ok keys ∧
      Landed desired world (world.applied sets server subject desired current).2.2 user
        (sent sets (world.change desired current) keys)
        ((world.change desired current).applyTo current).home := by
  have isUid : current.uid = user.uid := by rw [← isCurrent]; rfl
  have isId : current.id = user.id := by rw [← isCurrent]; rfl
  have isName : current.username = user.username := by rw [← isCurrent]; rfl
  obtain ⟨_,_,applied⟩ := applied_eq sets server subject desired current account.whole.groups
  rw [applied] at succeeded ⊢
  cases keyed : world.groupKeys server (world.change desired current).groups
      current.builtinGroups with
  | error failure =>
    rw [keyed] at succeeded
    obtain ⟨_,failed⟩ := succeeded
    cases failed
  | ok keys =>
    refine ⟨keys,rfl,?_⟩
    dsimp only
    unfold converging
    by_cases unwritten : (world.change desired current).writes = false
    · rw [if_pos (by rw [unwritten]; rfl),
        perform_keeping_neutral neutral_convergeUnwritten,perform_convergeUnwritten]
      obtain ⟨groups,locked,smbOff,path⟩ := writes_eq_false unwritten
      rw [groups] at keyed
      cases keyed
      have noHome : (sent sets (world.change desired current) none).home = none := if_pos path
      have same : ((world.change desired current).applyTo current).home = current.home :=
        if_pos path
      rw [isUid,same]
      refine ⟨?_,?_,?_,?_,rfl⟩
      · rw [withLimit_target]
        refine (map_id _).symm.trans (map_congr_left fun other _ => ?_)
        split
        · exact (updated_nothing rfl locked (by rw [sent,updateOf,smbOff]; rfl) noHome rfl).symm
        · rfl
      · rw [withLimit_target]
      · rw [withLimit_target]
      · rw [withLimit_target,noHome]
        rfl
    · rw [if_neg (by simpa using unwritten),perform_ask]
      have answered : world.keeping sets (.userUpdate current.id
          (updateOf (world.change desired current) keys)) =
            (.ok (), world.withUpdate user (sent sets (world.change desired current) keys)) := by
        rw [isId]
        exact keeping_userUpdate account
      rw [answered]
      obtain ⟨sameGroups,samePlaces,sameQuotas⟩ := withHome_rest
        (sent sets (world.change desired current) keys).home user.uid world.target
      obtain ⟨whole,found⟩ := find_of_users
        (world.withUpdate user (sent sets (world.change desired current) keys)) account rfl sameGroups
      rw [perform_keeping_neutral neutral_convergeWritten,
        perform_convergeWritten whole (isName ▸ found),quota_of_target samePlaces sameQuotas,isUid]
      refine ⟨?_,?_,?_,?_,?_⟩
      · rw [withLimit_target]
        rfl
      · rw [withLimit_target]
        exact sameGroups
      · rw [withLimit_target]
        exact samePlaces
      · rw [withLimit_target]
        rfl
      · unfold withLimit
        split
        · simp only [setQuota,withUpdate,sameQuotas]
        · exact sameQuotas

/-! ### The groups read back -/

section Groups

variable {groups : List NasGroup} (ids : (groups.map NasGroup.id).Nodup)
  (names : (groups.map NasGroup.name).Nodup) {id : ApiID} {name : String}

include ids in
theorem groupName_eq_some : groupName groups id = some name ↔
    ∃ group ∈ groups, group.id = id ∧ group.name = name := by
  constructor
  · intro named
    obtain ⟨group,last,rfl⟩ := Option.map_eq_some_iff.mp named
    obtain ⟨mem,isId⟩ := mem_filter.mp (mem_of_getLast? last)
    exact ⟨group,mem,of_decide_eq_true isId,rfl⟩
  · rintro ⟨group,mem,rfl,rfl⟩
    have here : group ∈ groups.filter fun other => other.id = group.id :=
      mem_filter.mpr ⟨mem,decide_eq_true rfl⟩
    obtain ⟨_,last⟩ := Option.isSome_iff_exists.mp
      (getLast?_isSome.mpr (ne_nil_of_mem here))
    obtain ⟨otherIn,isId⟩ := mem_filter.mp (mem_of_getLast? last)
    rw [groupName,last,inj_on_of_nodup_map ids otherIn mem (of_decide_eq_true isId)]
    rfl

include ids names in
theorem managedName_inj {other : ApiID} (first : managedName groups id = some name)
    (second : managedName groups other = some name) : id = other := by
  obtain ⟨_,groupIn,rfl,named⟩ :=
    (groupName_eq_some ids).mp (Option.eq_some_of_filter_eq_some first)
  obtain ⟨_,sameIn,rfl,sameName⟩ :=
    (groupName_eq_some ids).mp (Option.eq_some_of_filter_eq_some second)
  rw [inj_on_of_nodup_map names groupIn sameIn (named.trans sameName.symm)]

include ids in
theorem managedName_of_groupID (written : groupID server groups name = .ok id) :
    groupName groups id = some name ∧ isBuiltinGroup groups name = false := by
  unfold groupID at written
  split at written
  · cases written
  next ordinary =>
    split at written
    · cases written
    next found recorded =>
      cases written
      obtain ⟨group,last,rfl⟩ := Option.map_eq_some_iff.mp recorded
      obtain ⟨mem,named⟩ := mem_filter.mp (mem_of_getLast? last)
      exact ⟨(groupName_eq_some ids).mpr ⟨group,mem,rfl,of_decide_eq_true named⟩,
        Bool.eq_false_of_not_eq_true ordinary⟩

theorem mem_of_mapM {wanted : List String} {keys : List ApiID}
    (read : wanted.mapM (groupID server groups) = .ok keys) :
    (∀ name ∈ wanted, ∃ id ∈ keys, groupID server groups name = .ok id) ∧
      ∀ id ∈ keys, ∃ name ∈ wanted, groupID server groups name = .ok id := by
  induction wanted generalizing keys with
  | nil =>
    cases read
    exact ⟨by simp,by simp⟩
  | cons first rest ih =>
    rw [mapM_cons] at read
    cases one : groupID server groups first with
    | error =>
      rw [one] at read
      cases read
    | ok key =>
      cases others : rest.mapM (groupID server groups) with
      | error =>
        rw [one,others] at read
        cases read
      | ok =>
        rw [one,others] at read
        cases read
        obtain ⟨forth,back⟩ := ih others
        refine ⟨fun name mem => ?_,fun id mem => ?_⟩
        · rcases mem_cons.mp mem with rfl | inRest
          · exact ⟨key,mem_cons_self,one⟩
          · obtain ⟨id,inLater,written⟩ := forth name inRest
            exact ⟨id,mem_cons_of_mem _ inLater,written⟩
        · rcases mem_cons.mp mem with rfl | inLater
          · exact ⟨first,mem_cons_self,one⟩
          · obtain ⟨name,inRest,written⟩ := back id inLater
            exact ⟨name,mem_cons_of_mem _ inRest,written⟩

end Groups

theorem sameSet_iff {first second : List String} : sameSet first second = true ↔
    first.Perm second := by
  unfold sameSet sortStrings
  rw [decide_eq_true_eq]
  constructor
  · intro same
    have sorted := perm_insertionSort (· ≤ ·) second
    rw [← same] at sorted
    exact (perm_insertionSort _ _).symm.trans sorted
  · intro perm
    exact Perm.eq_of_pairwise (fun _ _ _ _ => le_antisymm) (pairwise_insertionSort _ _)
      (pairwise_insertionSort _ _)
      ((perm_insertionSort _ _).trans (perm.trans (perm_insertionSort _ _).symm))

structure GroupsSettled (desired : DesiredState) (current now : Subject) : Prop where
  wanted : desired.manages fieldGroup = true → ∀ name, name ∈ now.groups ↔ name ∈ desired.groups
  once : now.groups.Nodup
  builtin : ∀ id, id ∈ now.builtinGroups ↔ id ∈ current.builtinGroups
  unwritten : (decideChange (some current) desired .nothing).groups = none →
    now.groups = current.groups

variable (sets) in
theorem groupsSettled (account : Account world user) {keys : Option (List ApiID)}
    (isCurrent : user.toSubject world.target.groups = current)
    (keyed : world.groupKeys server (world.change desired current).groups
      current.builtinGroups = .ok keys) :
    GroupsSettled desired current
      ((user.updated (sent sets (world.change desired current) keys)).toSubject
        world.target.groups) := by
  have sameGroups : (decideChange (some current) desired .nothing).groups =
      (world.change desired current).groups := rfl
  have distinct {stored : List ApiID} (nodup : stored.Nodup) :
      (stored.filterMap (managedName world.target.groups)).Nodup :=
    nodup.filterMap fun _ _ _ first second => managedName_inj account.groupIds account.groupNames
      first second
  cases change : (world.change desired current).groups with
  | none =>
    rw [change] at keyed
    cases keyed
    have same : ((user.updated (sent sets (world.change desired current) none)).toSubject
        world.target.groups).groups = current.groups := isCurrent ▸ rfl
    refine ⟨fun managed name => ?_,distinct account.stored,fun id => ?_,fun _ => same⟩
    · rw [same]
      unfold World.change decideChange at change
      simp only [managed,Option.all_some,Bool.true_and,Bool.not_eq_true',ite_eq_right_iff,
        reduceCtorEq,imp_false,Bool.not_eq_false] at change
      exact (sameSet_iff.mp change).mem_iff
    · rw [← isCurrent]
      exact .rfl
  | some wanted =>
    have isWanted : wanted = desired.groups := by
      unfold World.change decideChange at change
      split at change
      · exact (Option.some.inj change).symm
      · cases change
    rw [change] at keyed
    unfold groupKeys at keyed
    dsimp only at keyed
    split at keyed
    · cases keyed
    next ids read =>
      cases keyed
      obtain ⟨forth,back⟩ := mem_of_mapM read
      have mem_stored {id : ApiID} : id ∈ sets.keep (ids ++ current.builtinGroups) ↔
          id ∈ ids ∨ id ∈ current.builtinGroups := by
        rw [sets.mem_keep,mem_append]
      have ordinary {id : ApiID} (inIds : id ∈ ids) : ∃ name ∈ wanted,
          groupName world.target.groups id = some name ∧
            isBuiltinGroup world.target.groups name = false := by
        obtain ⟨name,isName,written⟩ := back id inIds
        exact ⟨name,isName,managedName_of_groupID account.groupIds written⟩
      have own {id : ApiID} : id ∈ current.builtinGroups ↔ id ∈ user.groups ∧
          (groupName world.target.groups id).any (isBuiltinGroup world.target.groups) = true := by
        rw [← isCurrent]
        exact mem_filter
      refine ⟨fun _ name => ⟨fun mem => ?_,fun isName => ?_⟩,distinct (sets.nodup _),
        fun id => ⟨fun mem => ?_,fun isOwn => ?_⟩,fun none => ?_⟩
      · obtain ⟨id,inStored,managed⟩ := mem_filterMap.mp mem
        obtain ⟨named,ours⟩ := Option.filter_eq_some_iff.mp managed
        rcases mem_stored.mp inStored with inIds | isOwn
        · obtain ⟨_,isOther,isNamed,_⟩ := ordinary inIds
          rw [named] at isNamed
          cases isNamed
          exact isWanted ▸ isOther
        · have builtin := (own.mp isOwn).2
          rw [named] at builtin
          simp only [Option.any_some] at builtin
          rw [builtin] at ours
          cases ours
      · obtain ⟨id,inIds,written⟩ := forth name (isWanted ▸ isName)
        obtain ⟨named,ours⟩ := managedName_of_groupID account.groupIds written
        refine mem_filterMap.mpr ⟨id,mem_stored.mpr (.inl inIds),?_⟩
        rw [managedName,named,Option.filter_some,ours]
        rfl
      · obtain ⟨inStored,builtin⟩ := mem_filter.mp mem
        rcases mem_stored.mp inStored with inIds | isOwn
        · obtain ⟨_,_,named,ours⟩ := ordinary inIds
          rw [named,Option.any_some,ours] at builtin
          cases builtin
        · exact isOwn
      · exact mem_filter.mpr ⟨mem_stored.mpr (.inr isOwn),(own.mp isOwn).2⟩
      · rw [sameGroups,change] at none
        cases none

/-! ### Doing it again -/

theorem quota_landed {home : String} {uid : Int}
    (places : after.target.homePlaces = world.target.homePlaces)
    (quotas : after.target.quotas =
      (world.withLimit (world.quota desired home uid) uid).target.quotas) :
    (after.quota desired home uid).owed = false := by
  cases owed : (world.quota desired home uid).owed with
  | false =>
    unfold withLimit at quotas
    rw [owed] at quotas
    rw [quota_of_target places quotas,owed]
  | true =>
    unfold withLimit at quotas
    rw [if_pos owed] at quotas
    unfold quota at owed quotas ⊢
    split at owed
    · cases owed
    next asked =>
      rw [if_neg asked] at quotas ⊢
      dsimp only at owed quotas ⊢
      rw [places]
      split at owed
      · cases owed
      next placed =>
        rw [if_neg placed] at quotas ⊢
        rw [quotas]
        simp [quotaHeld,setQuota]

theorem homeDecision_path {username home : String} {uid : Int}
    (given : (world.homeDecision desired username home uid).path ≠ "") :
    desired.asksHome = true ∧ desired.homeRoot ≠ "" ∧
      (world.homeDecision desired username home uid).path = joinPath desired.homeRoot username ∧
      world.folderFree (joinPath desired.homeRoot username) uid = true := by
  unfold homeDecision at given ⊢
  split at given
  · exact absurd rfl given
  next asks =>
    split at given
    · exact absurd rfl given
    next root =>
      split at given
      · exact absurd rfl given
      next homeless =>
        dsimp only at given
        split at given
        · next free =>
          rw [if_neg asks,if_neg root,if_neg homeless]
          rw [if_pos free]
          exact ⟨by simpa using asks,root,rfl,free⟩
        · exact absurd rfl given

theorem folderFree_landed {path : String} (account : Account world user)
    (owners : after.target.owners = (world.target.withHome fields.home user.uid).owners)
    (given : fields.home = some path) (free : world.folderFree path user.uid = true) :
    after.folderFree path user.uid = true := by
  have person : user.builtin = false ∧ ¬ user.uid < systemUIDCeiling := by
    simpa [NasUser.isSystem] using account.person
  unfold systemUIDCeiling at person
  rw [given,withHome] at owners
  cases owned : world.target.ownerOf path with
  | some =>
    rw [owned] at owners
    have same : after.target.ownerOf path = world.target.ownerOf path := by
      unfold ownerOf
      rw [owners]
      rfl
    rwa [folderFree,same]
  | none =>
    rw [owned] at owners
    have same : after.target.ownerOf path = some user.uid := by
      unfold ownerOf
      rw [owners]
      simp
    rw [folderFree,same]
    simp only [Bool.and_eq_true,decide_eq_true_eq,and_true]
    omega

structure Updated (change : Change) (current now : Subject) : Prop where
  username : now.username = current.username
  uid : now.uid = current.uid
  id : now.id = current.id
  passwordSet : now.passwordSet = current.passwordSet
  enabled : now.enabled = (change.locked.map not).getD current.enabled
  smbEnabled : now.smbEnabled = (current.smbEnabled && !change.smbOff)
  home : now.home = if change.home.path = "" then current.home else homeOf change.home.path

variable (user sets) in
theorem updated_sent (change : Change) (keys : Option (List ApiID))
    (groups : List NasGroup) :
    Updated change (user.toSubject groups)
      ((user.updated (sent sets change keys)).toSubject groups) := by
  refine ⟨rfl,rfl,rfl,rfl,?_,?_,?_⟩
  · simp only [sent,updateOf]
    cases change.locked with
    | _ => rfl
  · simp only [NasUser.toSubject,NasUser.updated,sent,updateOf]
    cases change.smbOff with
    | _ => simp
  · simp only [NasUser.toSubject,NasUser.updated,sent,updateOf]
    split <;> rfl

section Again

variable (account : Account world user) (isCurrent : user.toSubject world.target.groups = current)
  {keys : Option (List ApiID)} {now : Subject}
  (keyed : world.groupKeys server (world.change desired current).groups
    current.builtinGroups = .ok keys)
  (landed : Landed desired world after user (sent sets (world.change desired current) keys)
    ((world.change desired current).applyTo current).home)
  (isNow : (user.updated (sent sets (world.change desired current) keys)).toSubject
    world.target.groups = now)

include account isCurrent keyed landed isNow in
theorem writes_again : (after.change desired now).writes = false ↔
    Settles desired world current := by
  have updated : Updated (world.change desired current) current now := by
    rw [← isNow,← isCurrent]
    exact updated_sent sets user _ _ _
  have groups := groupsSettled sets account isCurrent keyed
  rw [isNow] at groups
  have locked : (after.change desired now).locked = none := by
    have enabled := updated.enabled
    unfold World.change decideChange at enabled ⊢
    dsimp only at enabled ⊢
    grind
  have smbOff : (after.change desired now).smbOff = false := by
    have smb := updated.smbEnabled
    unfold World.change decideChange at smb ⊢
    dsimp only at smb ⊢
    grind
  have sets : (after.change desired now).groups = none ↔
      (desired.manages fieldGroup = true → desired.groups.Nodup) := by
    unfold World.change decideChange
    simp only [Option.all_some,ite_eq_right_iff,reduceCtorEq,imp_false,Bool.and_eq_true,
      not_and,Bool.not_eq_true',Bool.not_eq_false]
    refine forall_congr' fun managed => ?_
    rw [sameSet_iff]
    constructor
    · intro perm
      exact perm.nodup_iff.mp groups.once
    · intro once
      exact (perm_ext_iff_of_nodup groups.once once).mpr (groups.wanted managed)
  have homes : (after.change desired now).home.path = "" ↔
      ∀ path, (world.homeDecision desired current.username current.home current.uid).path = path →
        path ≠ "" → homeOf path = path := by
    have decided : (world.change desired current).home =
        world.homeDecision desired current.username current.home current.uid := rfl
    have again : (after.change desired now).home =
        after.homeDecision desired current.username now.home current.uid := by
      rw [← updated.username,← updated.uid]
      rfl
    have isUid : current.uid = user.uid := by rw [← isCurrent]; rfl
    have isHome := updated.home
    have owners := landed.owners
    have sentHome : (sent ‹_› (world.change desired current) keys).home =
        if (world.change desired current).home.path = "" then none
        else some (world.change desired current).home.path := rfl
    rw [again]
    rw [decided] at isHome sentHome
    by_cases none : (world.homeDecision desired current.username current.home current.uid).path = ""
    · rw [if_pos none] at isHome sentHome
      rw [sentHome] at owners
      rw [isHome,homeDecision_congr owners,none]
      simp
    · obtain ⟨asks,root,isPath,free⟩ := homeDecision_path none
      rw [if_neg none] at isHome sentHome
      rw [isHome]
      generalize (world.homeDecision desired current.username current.home current.uid).path =
        path at *
      subst isPath
      have given : (∀ path, joinPath desired.homeRoot current.username = path → path ≠ "" →
          homeOf path = path) ↔ homeOf (joinPath desired.homeRoot current.username) ≠ "" := by
        rw [forall_eq',imp_iff_right none]
        unfold homeOf
        split
        · simpa using Ne.symm none
        · simpa using none
      have folder := folderFree_landed account owners sentHome (isUid ▸ free)
      rw [given]
      unfold homeDecision
      rw [asks,if_neg (by decide),if_neg root]
      by_cases kept : homeOf (joinPath desired.homeRoot current.username) = ""
      · rw [kept,if_neg (not_not.mpr rfl),isUid]
        simpa [folder] using none
      · rw [if_pos kept]
        simpa [HomeDecision.nothing] using kept
  unfold Change.writes Settles
  rw [← sets,← homes,locked,smbOff]
  simp

include account isCurrent keyed landed isNow in
theorem groupKeys_again : ∃ again, after.groupKeys server (after.change desired now).groups
    now.builtinGroups = .ok again := by
  have groups := groupsSettled sets account isCurrent keyed
  rw [isNow] at groups
  cases later : (after.change desired now).groups with
  | none => exact ⟨none,rfl⟩
  | some names =>
    unfold groupKeys at keyed ⊢
    rw [landed.groups]
    cases first : (world.change desired current).groups with
    | none =>
      have same : (after.change desired now).groups = (world.change desired current).groups := by
        unfold World.change decideChange
        simp only [groups.unwritten first,Option.all_some]
      rw [first,later] at same
      cases same
    | some =>
      have isDesired {w : World} {one : Subject} {names : List String}
          (is : (w.change desired one).groups = some names) : names = desired.groups := by
        unfold World.change decideChange at is
        dsimp only at is
        split at is
        · exact (Option.some.inj is).symm
        · cases is
      rw [first,isDesired first] at keyed
      rw [isDesired later]
      dsimp only at keyed ⊢
      split at keyed
      · cases keyed
      · exact ⟨_,rfl⟩

include account isCurrent keyed landed isNow in
variable (subject) in
theorem quiet_again (whole : ReadWhole after) :
    (∀ exchange ∈ after.replanned sets server subject desired now ++
      (after.applied sets server subject desired now).1, exchange.request.Reads) ↔
      Settles desired world current := by
  have again := writes_again account isCurrent keyed landed isNow
  obtain ⟨_,keyed'⟩ := groupKeys_again account isCurrent keyed landed isNow
  obtain ⟨_,areReads,applied⟩ := applied_eq sets server subject desired now whole.groups
  rw [keyed'] at applied
  dsimp only at applied
  rw [← again,applied]
  unfold converging
  constructor
  · intro quiet
    by_contra writes
    rw [if_neg (by simpa using writes),perform_ask] at quiet
    exact quiet _ (mem_append_right _ (mem_append_right _ mem_cons_self))
  · intro unwritten
    have settles := again.mp unwritten
    have updated : Updated (world.change desired current) current now := by
      rw [← isNow,← isCurrent]
      exact updated_sent sets user _ _ _
    have isHome : now.home = ((world.change desired current).applyTo current).home := by
      rw [updated.home,Change.applyTo]
      dsimp only
      split
      · rfl
      · next given => exact settles.2 _ rfl given
    have isUid : user.uid = now.uid := by rw [updated.uid,← isCurrent]; rfl
    have unowed : (after.quota desired now.home now.uid).owed = false := by
      rw [isHome,← isUid]
      exact quota_landed landed.places landed.quotas
    have home : (decideHome desired now.username now.home now.uid).Only Request.Reads :=
      only_decideHome (fun _ => trivial)
    have limit (at_ : String) : (quotaOwed desired at_ now.uid).Only Request.Reads :=
      only_quotaOwed trivial (fun _ _ => trivial)
    intro exchange mem
    rcases mem_append.mp mem with planned | later
    · have only : (planConverge server subject desired now).Only Request.Reads :=
        Program.only_except home (fun _ => trivial) fun decision =>
          Program.only_except (limit _) (fun _ => trivial) fun _ => trivial
      unfold replanned at planned
      rw [perform_keeping (only.mono fun request is => by cases request <;> trivial)] at planned
      exact reads_performed after only exchange planned
    · rw [if_pos (by rw [unwritten]; rfl),
        perform_keeping_neutral neutral_convergeUnwritten] at later
      rcases mem_append.mp later with first | later
      · exact areReads exchange first
      rw [asks_convergeUnwritten unowed] at later
      exact reads_performed after (limit _) exchange later

end Again

/-- One successful apply brings an account to the desired state, leaves the rest alone and
leaves nothing to do, exactly where no group is wanted twice and a home is read as one. -/
theorem settled_iff (sets : SetStore) (server : Server) (subject : String)
    (desired : DesiredState) (world : World) (user : NasUser) (account : Account world user)
    (succeeded : ∃ outcome, (world.applied sets server subject desired
      (user.toSubject world.target.groups)).2.1.result = .ok outcome) :
    (∃ now, ((world.applied sets server subject desired
        (user.toSubject world.target.groups)).2.2.find (.username user.username)).1 = some now ∧
      Settled sets server subject desired world
        (world.applied sets server subject desired (user.toSubject world.target.groups)).2.2
        (user.toSubject world.target.groups) now) ↔
      Settles desired world (user.toSubject world.target.groups) := by
  obtain ⟨keys,keyed,landed⟩ := landed_of_applied account rfl succeeded
  generalize (world.applied sets server subject desired
    (user.toSubject world.target.groups)).2.2 = after at *
  obtain ⟨whole,found⟩ := find_of_users after account landed.users landed.groups
  have quiet := quiet_again subject account rfl keyed landed rfl whole
  constructor
  · rintro ⟨_,isNow,settled⟩
    rw [found] at isNow
    cases isNow
    exact quiet.mp settled.quiet
  · intro settles
    have groups := groupsSettled sets account rfl keyed
    have updated := updated_sent sets user
      (world.change desired (user.toSubject world.target.groups)) keys world.target.groups
    refine ⟨_,found,?_⟩
    refine
      { groups := groups.wanted
        builtin := groups.builtin
        itself := ⟨updated.id,updated.uid,updated.passwordSet⟩
        quiet := quiet.mpr settles
        lock := ?_, smbOff := ?_, otherGroups := ?_, otherLock := ?_, otherSmb := ?_
        otherHome := ?_, otherLimits := ?_ }
    · intro managed
      rw [updated.enabled]
      unfold World.change decideChange
      grind
    · intro managed off
      rw [updated.smbEnabled]
      simp [World.change,decideChange,managed,off]
    · intro unmanaged
      exact groups.unwritten (by simp [decideChange,unmanaged])
    · intro unmanaged
      rw [updated.enabled]
      simp [World.change,decideChange,unmanaged]
    · intro unmanaged
      rw [updated.smbEnabled]
      simp [World.change,decideChange,unmanaged]
    · intro unmanaged
      have nothing : (world.change desired (user.toSubject world.target.groups)).home = .nothing := by
        unfold World.change World.homeDecision DesiredState.asksHome
        rw [unmanaged]
        rfl
      rw [updated.home,nothing]
      rfl
    · intro unmanaged
      rw [landed.quotas]
      unfold World.quota
      rw [unmanaged]
      rfl

namespace Wanted

def once : SetStore :=
  { keep := dedup, nodup := nodup_dedup, mem_keep := mem_dedup }

def target : World :=
  let plain := worldWith [userNamed 1 "ada" 200000]
  { plain with target := { plain.target with groups := [⟨some 7,3000,"makers",false⟩] } }

def locked (groups : List String) : DesiredState :=
  { DesiredState.empty with groups := groups, managed := [fieldEnabled,fieldGroup] }

def applied (groups : List String) : World :=
  (target.applied once plainServer "first" (locked groups)
    ((userNamed 1 "ada" 200000).toSubject target.target.groups)).2.2

theorem account : Account target (userNamed 1 "ada" 200000) := by
  refine ⟨⟨?_,?_,?_⟩,?_,?_,?_,?_,?_,?_⟩ <;> decide

theorem one_group_settled : ∃ now, ((applied ["makers"]).find (.username "ada")).1 = some now ∧
      Settled once plainServer "first" (locked ["makers"]) target (applied ["makers"])
        ((userNamed 1 "ada" 200000).toSubject target.target.groups) now := by
  refine (settled_iff once plainServer "first" (locked ["makers"]) target (userNamed 1 "ada" 200000)
    account ⟨_,rfl⟩).mpr ⟨fun _ => by decide,?_⟩
  rintro _ rfl given
  exact absurd (by decide +kernel) given

def writesAccount (exchange : Exchange Answer) : Bool :=
  match exchange.request with
  | .userUpdate _ _ => true
  | _ => false

/-- A group wanted twice is written again by every apply. -/
theorem group_twice_written : Account target (userNamed 1 "ada" 200000) ∧
      (decodeDesiredFields plainServer [(fieldGroup, .strings ["makers","makers"]),
        (fieldEnabled, .boolean false)]).toOption = some (locked ["makers","makers"]) ∧
      (∃ outcome, (target.applied once plainServer "first" (locked ["makers","makers"])
        ((userNamed 1 "ada" 200000).toSubject target.target.groups)).2.1.result = .ok outcome) ∧
      ¬ ∃ now, ((applied ["makers","makers"]).find (.username "ada")).1 = some now ∧
        Settled once plainServer "first" (locked ["makers","makers"]) target
          (applied ["makers","makers"])
          ((userNamed 1 "ada" 200000).toSubject target.target.groups) now := by
  refine ⟨account,by decide +kernel,⟨_,rfl⟩,?_⟩
  rintro ⟨now,isNow,settled⟩
  have again : ((applied ["makers","makers"]).find (.username "ada")).1.all fun now =>
      ((applied ["makers","makers"]).applied once plainServer "first"
        (locked ["makers","makers"]) now).1.any writesAccount := by decide +kernel
  rw [isNow] at again
  obtain ⟨exchange,mem,writes⟩ := any_eq_true.mp again
  have reads := settled.quiet exchange (mem_append_right _ mem)
  unfold writesAccount at writes
  split at writes
  · rename_i asked
    rw [asked] at reads
    exact reads
  · cases writes

end Wanted

end Syndra.TrueNAS
