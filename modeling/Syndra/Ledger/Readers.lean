/-
The two per-person readers of the ledger.

`collectUserRoles` feeds the person page and the webhook: it keeps, for every role held,
each reason it is held and when it ends.
-/

import Syndra.Ledger.Effects

namespace Syndra.Ledger

open Access Propagation Foundation.Grouping List AList Records

structure Names where
  grantReason : DirectGrant → String
  bundleName : String → String
  /-- `none` is a lookup that failed. -/
  projectName : String → Option String

def DirectGrant.ending (grant : DirectGrant) : EndTime :=
  match grant.expiresAt with
  | none => ⊤
  | some ending => (ending : EndTime)

def hold (base : Dated Role) (role : Role) (ending : EndTime) : Dated Role :=
  match base.lookup role with
  | none => base.insert role ending
  | some current => base.insert role (later current ending)

variable {role : Role} {records : Records}

variable {base : Dated Role} {other : Role} {now : Time} {userId : String}

theorem mem_hold {ending : EndTime} :
    other ∈ hold base role ending ↔ other = role ∨ other ∈ base := by
  unfold hold
  split <;> exact mem_insert base

inductive ReasonKind where
  | direct
  | bundle
  | mapping
deriving DecidableEq

structure RoleReason where
  kind : ReasonKind
  description : String
  bundleId : String
  bundleName : String
  viaBundleId : String
  viaBundleName : String
  triggerProject : String
  triggerRole : String
deriving DecidableEq

structure EffectiveRole where
  projectName : String
  projectNameResolved : Bool
  isSource : Bool
  reasons : List RoleReason
  ends : Option Time
deriving DecidableEq

abbrev RoleMap := AList (fun _ : Role => EffectiveRole)

structure HeldBundle where
  id : String
  pinnedVersion : Nat
deriving DecidableEq

def RoleReason.same (reason existing : RoleReason) : Bool :=
  existing.kind = reason.kind && existing.description = reason.description &&
    existing.bundleId = reason.bundleId && existing.triggerProject = reason.triggerProject &&
      existing.triggerRole = reason.triggerRole

/-- The row a role starts with; a failed or empty lookup leaves the project's id. -/
def freshRole (names : Names) (key : Role) (isSource : Bool) : EffectiveRole :=
  let projectName := (names.projectName key.projectId).getD key.projectId
  { projectName := projectName
    projectNameResolved := projectName ≠ key.projectId
    isSource := isSource
    reasons := []
    ends := none }

def upsertRole (names : Names) (roleMap : RoleMap) (key : Role) (isSource : Bool)
    (reason : RoleReason) : RoleMap :=
  let current := (roleMap.lookup key).getD (freshRole names key isSource)
  let current := if isSource then { current with isSource := true } else current
  roleMap.insert key
    (if current.reasons.any reason.same then current
    else { current with reasons := current.reasons ++ [reason] })

namespace Records

def getBundlesForUser (records : Records) (userId : String) : List HeldBundle :=
  (records.assignments.filter fun held => held.userId = userId).flatMap fun held =>
    (records.bundles.filter fun bundle => bundle.id = held.bundleId && !bundle.retired).flatMap
      fun bundle =>
        (records.versions.filter fun version => version.id = held.versionId).map fun version =>
          { id := bundle.id
            pinnedVersion := version.version }

/-- The included bundle a role of one bundle comes through, empty for the
bundle's own; of several the least. -/
def viaBundleId (records : Records) (userId bundleId : String) (role : Role) : String :=
  let pinned := (records.assignments.filter fun held =>
    held.userId = userId && held.bundleId = bundleId).flatMap fun held =>
      records.versions.filter fun version => version.id = held.versionId
  if pinned.any fun version => role ∈ version.roles then ""
  else
    let through := (pinned.flatMap BundleVersion.includes).filter fun child =>
      records.versions.any fun other => other.id = child.versionId && role ∈ other.roles
    ((through.map Include.bundleId).insertionSort (fun a b => !decide (b < a))).headD ""

def viaName (records : Records) (names : Names) (bundleId : String) : String :=
  if records.bundles.any fun bundle => bundle.id = bundleId then names.bundleName bundleId
  else bundleId

end Records

def directReason (names : Names) (grant : DirectGrant) : RoleReason :=
  { kind := .direct
    description :=
      if names.grantReason grant = "" then "Direct Zitadel grant" else names.grantReason grant
    bundleId := ""
    bundleName := ""
    viaBundleId := ""
    viaBundleName := ""
    triggerProject := ""
    triggerRole := "" }

def bundleReason (names : Names) (records : Records) (userId : String) (bundle : HeldBundle)
    (role : Role) : RoleReason :=
  let name := names.bundleName bundle.id
  let via := records.viaBundleId userId bundle.id role
  let viaName := if via = "" then "" else records.viaName names via
  { kind := .bundle
    description :=
      if via = "" then "Given by bundle " ++ name ++ " v" ++ toString bundle.pinnedVersion
      else "Via " ++ name ++ ", from " ++ viaName
    bundleId := bundle.id
    bundleName := name
    viaBundleId := via
    viaBundleName := viaName
    triggerProject := ""
    triggerRole := "" }

def mappingReason (rule : MappingRule) : RoleReason :=
  { kind := .mapping
    description := "Derived from " ++ rule.sourceProject ++ ":" ++ rule.sourceRole
    bundleId := ""
    bundleName := ""
    viaBundleId := ""
    viaBundleName := ""
    triggerProject := rule.sourceProject
    triggerRole := rule.sourceRole }

structure GivenRole where
  role : Role
  ending : EndTime
  reason : RoleReason

def givenRoles (names : Names) (records : Records) (now : Time) (userId : String) :
    List GivenRole :=
  ((records.getDirectGrantsForUser now userId false).map fun grant =>
    { role := grant.role
      ending := grant.ending
      reason := directReason names grant }) ++
  (records.getBundlesForUser userId).flatMap fun bundle =>
    (((records.bundleRolesFor userId).filter fun held => held.1 = bundle.id).flatMap
      Prod.snd).map fun role =>
        { role := role
          ending := ⊤
          reason := bundleReason names records userId bundle role }

def giveRole (names : Names) (out : Dated Role × RoleMap) (given : GivenRole) :
    Dated Role × RoleMap :=
  (hold out.1 given.role given.ending, upsertRole names out.2 given.role true given.reason)

def upsertFired (names : Names) (roleMap : RoleMap) (rule : MappingRule) : RoleMap :=
  upsertRole names roleMap { projectId := rule.targetProject, roleKey := rule.targetRole } false
    (mappingReason rule)

def setEnds (dated : Dated Role) (roleMap : RoleMap) : RoleMap :=
  roleMap.keys.foldl
    (fun out key =>
      match dated.lookup key, out.lookup key with
      | some (some ending), some current =>
        out.replace key { current with ends := some ending }
      | _, _ => out)
    roleMap

def collectUserRoles (names : Names) (records : Records) (now : Time) (userId : String) :
    RoleMap × List HeldBundle :=
  let sources := (givenRoles names records now userId).foldl (giveRole names) (∅, ∅)
  let dated := ends Role.mk sources.1 records.rules
  let roleMap := (fired Role.mk dated.keys records.rules).foldl (upsertFired names) sources.2
  (setEnds dated roleMap, records.getBundlesForUser userId)

structure UserRoles where
  userId : String
  active : Grouped String String
  ends : Grouped String (String × Time)
  bundles : Grouped String String

def activateRole (out : Grouped String String) (role : Role) : Grouped String String :=
  addUnder out role.projectId role.roleKey

/-- Names of the bundles in force, sorted; one without a name is left out. -/
def bundleNamesByProject (names : Names) (records : Records) (byProject : Grouped String String) :
    Grouped String String :=
  byProject.keys.foldl
    (fun out projectId =>
      out.insert projectId
        ((((under byProject projectId).filter fun id =>
            records.bundles.any fun bundle => bundle.id = id && !bundle.retired).map
              names.bundleName).filter (fun name => name ≠ "")
          |>.insertionSort (fun a b => !decide (b < a))))
    ∅

def compileUser (names : Names) (records : Records) (now : Time) (userId : String) : UserRoles :=
  let baseGrants := records.getDirectGrantsForUser now userId false
  let bundleRoles := (records.bundleRolesFor userId).flatMap fun held =>
    held.2.map fun role => (held.1, role)
  let base := baseGrants.foldl (fun base grant => hold base grant.role grant.ending) ∅
  let base := bundleRoles.foldl (fun base given => hold base given.2 ⊤) base
  let bundleIds := bundleRoles.foldl
    (fun out given => addUnder out given.2.projectId given.1) ∅
  let dated := ends Role.mk base records.rules
  { userId := userId
    active := dated.keys.foldl activateRole ∅
    ends := dated.keys.foldl
      (fun out role =>
        match dated.lookup role with
        | some (some ending) => addUnder out role.projectId (role.roleKey, ending)
        | _ => out)
      ∅
    bundles := bundleNamesByProject names records bundleIds }

/-- `active[project][role]`. -/
def UserRoles.holds (user : UserRoles) (role : Role) : Bool :=
  role.roleKey ∈ under user.active role.projectId

variable (names : Names)

variable {roleMap : RoleMap}

theorem mem_upsertRole {key : Role} {isSource : Bool} {reason : RoleReason} :
    other ∈ upsertRole names roleMap key isSource reason ↔ other = key ∨ other ∈ roleMap :=
  mem_insert roleMap

theorem mem_giveRoles (given : List GivenRole) (out : Dated Role × RoleMap) (role : Role) :
    (role ∈ (given.foldl (giveRole names) out).1 ↔
      (∃ one ∈ given, one.role = role) ∨ role ∈ out.1) ∧
    (role ∈ (given.foldl (giveRole names) out).2 ↔
      (∃ one ∈ given, one.role = role) ∨ role ∈ out.2) := by
  constructor
  · refine foldl_collects (fun out role => role ∈ out.1) (giveRole names)
      (fun one role => one.role = role) ?_ given out role
    intro out one role
    exact mem_hold.trans (or_congr_left eq_comm)
  · refine foldl_collects (fun out role => role ∈ out.2) (giveRole names)
      (fun one role => one.role = role) ?_ given out role
    intro _ _ _
    exact (mem_upsertRole _).trans (or_congr_left eq_comm)

theorem mem_upsertFired {rules : List MappingRule} :
    role ∈ rules.foldl (upsertFired names) roleMap ↔
      (∃ rule ∈ rules, Role.mk rule.targetProject rule.targetRole = role) ∨ role ∈ roleMap := by
  refine foldl_collects (fun (roleMap : RoleMap) role => role ∈ roleMap) (upsertFired names)
    (fun rule role => Role.mk rule.targetProject rule.targetRole = role) ?_ rules roleMap role
  intro _ _ _
  exact (mem_upsertRole _).trans (or_congr_left eq_comm)

theorem mem_setEnds {dated : Dated Role} : role ∈ setEnds dated roleMap ↔ role ∈ roleMap := by
  refine (foldl_collects (fun (out : RoleMap) role => role ∈ out) _ (fun _ _ => False) ?_
    roleMap.keys roleMap role).trans (by simp)
  intro _ _ _
  rw [false_or]
  split
  · rw [AList.mem_keys,AList.keys_replace,← AList.mem_keys]
  · rfl

theorem mem_collectUserRoles : role ∈ (collectUserRoles names records now userId).1 ↔
      ∃ given ∈ givenRoles names records now userId, Reaches Role.mk records.rules given.role role := by
  have sourced (role : Role) := mem_giveRoles names (givenRoles names records now userId) (∅, ∅) role
  simp only [notMem_empty,or_false] at sourced
  change role ∈ setEnds _ _ ↔ _
  rw [mem_setEnds,mem_upsertFired,(sourced role).2,← (sourced role).1,or_comm,
    ← mem_ends_iff_fired,mem_ends_iff]
  constructor
  · rintro ⟨start,based,reached⟩
    obtain ⟨given,listed,rfl⟩ := (sourced start).1.mp based
    exact ⟨given,listed,reached⟩
  · rintro ⟨given,listed,reached⟩
    exact ⟨given.role,(sourced given.role).1.mpr ⟨given,listed,rfl⟩,reached⟩

def Records.AssignmentsReferenced (records : Records) : Prop :=
  ∀ held ∈ records.assignments, ∃ bundle ∈ records.bundles, bundle.id = held.bundleId

def Records.RetiredUnassigned (records : Records) : Prop :=
  ∀ bundle ∈ records.bundles, bundle.retired = true →
    ∀ held ∈ records.assignments, held.bundleId ≠ bundle.id

theorem Records.mem_getBundlesForUser (records : Records) (userId : String)
    (listed : HeldBundle) :
    listed ∈ records.getBundlesForUser userId ↔ ∃ held ∈ records.assignments, held.userId = userId ∧
        ∃ bundle ∈ records.bundles, bundle.id = held.bundleId ∧ bundle.retired = false ∧
          ∃ version ∈ records.versions, version.id = held.versionId ∧
            HeldBundle.mk bundle.id version.version = listed := by
  unfold getBundlesForUser
  simp only [mem_flatMap,mem_map,mem_filter,decide_eq_true_eq,
    Bool.and_eq_true,Bool.not_eq_true',and_assoc]

theorem mem_givenRoles (now : Time) (userId : String) (referenced : records.AssignmentsReferenced)
    (unassigned : records.RetiredUnassigned) (role : Role) :
    (∃ given ∈ givenRoles names records now userId, given.role = role) ↔
      role ∈ records.holdings now userId := by
  unfold givenRoles
  simp only [mem_holdings,mem_append,mem_map,mem_flatMap,
    mem_filter,mem_getDirectGrants,mem_bundleRolesFor,decide_eq_true_eq]
  constructor
  · rintro ⟨_,(⟨grant,⟨listed,person,current⟩,rfl⟩ |
      ⟨bundle,-,role,⟨pair,⟨⟨held,listed,person,rfl⟩,-⟩,inside⟩,rfl⟩),rfl⟩
    · exact .inl ⟨grant,listed,person,current,rfl⟩
    · exact .inr ⟨held,listed,person,inside⟩
  rintro (⟨grant,listed,person,current,rfl⟩ | ⟨held,listed,person,inside⟩)
  · exact ⟨_,.inl ⟨grant,⟨listed,person,current⟩,rfl⟩,rfl⟩
  obtain ⟨bundle,among,same⟩ := referenced held listed
  have inForce : bundle.retired = false := by
    rw [← Bool.not_eq_true]
    exact fun retired => unassigned bundle among retired held listed same.symm
  obtain ⟨version,pinned,-⟩ := mem_flatMap.mp inside
  obtain ⟨published,number⟩ := mem_filter.mp pinned
  have named := (records.mem_getBundlesForUser userId ⟨bundle.id,version.version⟩).mpr
    ⟨held,listed,person,bundle,among,same,inForce,version,published, of_decide_eq_true number,rfl⟩
  exact ⟨_,.inr ⟨_,named,role, ⟨_,⟨⟨held,listed,person,rfl⟩,same.symm⟩,inside⟩,rfl⟩,rfl⟩

/-- The page lists the closure of what the records give. -/
theorem mem_collectUserRoles_closed (now : Time) (userId : String)
    (referenced : records.AssignmentsReferenced) (unassigned : records.RetiredUnassigned)
    (role : Role) :
    role ∈ (collectUserRoles names records now userId).1 ↔
      role ∈ effectiveClosure (records.holdings now userId) records.rules := by
  rw [mem_collectUserRoles,mem_effectiveClosure]
  have given := mem_givenRoles names now userId referenced unassigned
  constructor
  · rintro ⟨one,listed,reached⟩
    exact ⟨one.role,(given one.role).mp ⟨one,listed,rfl⟩,reached⟩
  rintro ⟨start,held,reached⟩
  obtain ⟨one,listed,rfl⟩ := (given start).mpr held
  exact ⟨one,listed,reached⟩

theorem Records.RetiredUnassigned.retired {gate : Option CancelGate} {state next : AccessState}
    {bundleId : String} (unassigned : state.records.RetiredUnassigned)
    (done : cascadeBundleRetired gate state bundleId = .ok next) :
    next.records.RetiredUnassigned := by
  unfold cascadeBundleRetired at done
  split at done
  · cases done
  split at done
  · cases done
  split at done
  · cases done
  obtain ⟨_,_,-,rfl⟩ := commit_ok done
  intro _ among retired held listed
  obtain ⟨before,was,rfl⟩ := mem_map.mp among
  obtain ⟨kept,other⟩ := mem_filter.mp listed
  split at retired
  · next same =>
    rw [if_pos same]
    rw [same]
    exact of_decide_eq_true other
  · next apart =>
    rw [if_neg apart]
    exact unassigned before was retired held kept

theorem mem_holdEach {α : Type} {items : List α} (roleOf : α → Role) (ending : α → EndTime)
    :
    role ∈ items.foldl (fun base item => hold base (roleOf item) (ending item)) base ↔
      (∃ item ∈ items, roleOf item = role) ∨ role ∈ base := by
  refine foldl_collects (fun (base : Dated Role) role => role ∈ base) _
    (fun item role => roleOf item = role) ?_ items base role
  intro _ _ _
  exact mem_hold.trans (or_congr_left eq_comm)

theorem mem_activated {roles : List Role} :
    role.roleKey ∈ under (roles.foldl activateRole ∅) role.projectId ↔ role ∈ roles := by
  have collected := foldl_collects
    (fun (out : Grouped String String) (role : Role) => role.roleKey ∈ under out role.projectId)
    activateRole (fun given role => given = role) ?_ roles ∅ role
  · rw [collected,under_empty]
    simp only [exists_eq_right,not_mem_nil,or_false]
  intro _ _ _
  refine mem_under_addUnder.trans (or_congr_left ?_)
  rw [Role.mk.injEq]

theorem mem_compileUser : (compileUser names records now userId).holds role = true ↔
      role ∈ effectiveClosure (records.holdings now userId) records.rules := by
  unfold UserRoles.holds
  rw [decide_eq_true_eq]
  refine mem_activated.trans ?_
  rw [← AList.mem_keys,mem_ends_iff,mem_effectiveClosure]
  apply exists_congr
  intro start
  apply and_congr_left
  intro _reached
  rw [mem_holdEach (fun given : String × Role => given.2) (fun _ => ⊤),mem_holdEach]
  simp only [notMem_empty,or_false,holdings,mem_append,mem_map, mem_flatMap]
  rw [or_comm]
  apply or_congr_right
  constructor
  · rintro ⟨-,⟨held,listed,_,inside,rfl⟩,rfl⟩
    exact ⟨held,listed,inside⟩
  · rintro ⟨held,listed,inside⟩
    exact ⟨_,⟨held,listed,start,inside,rfl⟩,rfl⟩

end Syndra.Ledger
