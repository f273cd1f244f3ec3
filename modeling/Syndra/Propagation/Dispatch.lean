/-
The dispatch of a row to Zitadel.

A row asks for an operation on the set of roles a person has in a project. Zitadel has one
grant object for that set, so the dispatcher reads it and creates it, changes its whole list
or removes it.
-/

import Syndra.Remote.Grants

namespace Syndra.Propagation

open Observe Remote List GrantStore

inductive AckClass where
  | applied
  | failed
  | transient
deriving DecidableEq

/-- By status; a 409 is an add that was there. -/
def classifyZitadelError (error : CallError) : AckClass :=
  let code := error.code.getD 0
  if code = 409 then .applied
  else if 400 ≤ code && code < 500 && !retryableStatus code then .failed
  else .transient

def satisfied (row : OutboxRow) (live : List String) : Bool :=
  match row.opType with
  | .add => row.roleKeys.all fun role => decide (role ∈ live)
  | .replace =>
    decide (live.length = row.roleKeys.length) &&
      row.roleKeys.all fun role => decide (role ∈ live)
  | .revoke => row.roleKeys.all fun role => decide (role ∉ live)
  | .apply => false

def alreadyExists (wire : Wire) (row : OutboxRow) (line : Line GrantStore) :
    Line GrantStore × Bool :=
  match row.opType with
  | .apply => (line, false)
  | _ =>
    match liveUserGrant wire row.userId row.projectId line with
    | (after, .error _) => (after, false)
    | (after, .ok (_, live)) => (after, satisfied row live)

def acknowledged (result : Line GrantStore × Except CallError Unit) :
    Line GrantStore × AckClass × String :=
  match result with
  | (after, .ok _) => (after, .applied, "")
  | (after, .error error) => (after, classifyZitadelError error, error.text)

def merged (live roleKeys : List String) : List String :=
  (live ++ roleKeys.filter fun role => decide (role ∉ live)).mergeSort fun left right =>
    decide (left ≤ right)

def remaining (live roleKeys : List String) : List String :=
  live.filter fun role => decide (role ∉ roleKeys)

def dispatchOnto (wire : Wire) (row : OutboxRow) (grantId : String) (live : List String)
    (line : Line GrantStore) : Line GrantStore × AckClass × String :=
  match row.opType with
  | .add =>
    if grantId = "" then acknowledged (addUserGrant wire row.userId row.projectId row.roleKeys line)
    else acknowledged (updateUserGrant wire row.userId grantId (merged live row.roleKeys) line)
  | .replace =>
    if grantId = "" then
      if row.roleKeys = [] then (line, .applied, "")
      else acknowledged (addUserGrant wire row.userId row.projectId row.roleKeys line)
    else acknowledged (updateUserGrant wire row.userId grantId row.roleKeys line)
  | .revoke =>
    if grantId = "" then (line, .applied, "")
    else if remaining live row.roleKeys = [] then
      acknowledged (removeUserGrant wire row.userId grantId line)
    else
      acknowledged
        (updateUserGrant wire row.userId grantId (remaining live row.roleKeys) line)
  | .apply => (line, .failed, "unknown op_type \"apply\"")

def couldNotRead : OpType → String
  | .add => "add: could not read live grant: "
  | .replace => "replace: could not read live grant: "
  | .revoke => "revoke: could not read live grant roles: "
  | .apply => ""

def classifyDispatch (wire : Wire) (row : OutboxRow) (line : Line GrantStore) :
    Line GrantStore × AckClass × String :=
  if row.opType = .apply then dispatchOnto wire row "" [] line
  else
    match liveUserGrant wire row.userId row.projectId line with
    | (after, .error error) =>
      (after, classifyZitadelError error, couldNotRead row.opType ++ error.text)
    | (after, .ok (grantId, live)) => dispatchOnto wire row grantId live after

structure Dispatched where
  /-- The check answered, and nothing was sent. -/
  existed : Bool
  ack : AckClass
  errMsg : String
deriving DecidableEq

def dispatchRow (wire : Wire) (row : OutboxRow) (line : Line GrantStore) :
    Line GrantStore × Dispatched :=
  let checked := alreadyExists wire row line
  if checked.2 then (checked.1, { existed := true, ack := .applied, errMsg := "" })
  else
    let called := classifyDispatch wire row checked.1
    (called.1, { existed := false, ack := called.2.1, errMsg := called.2.2 })

def asked (row : OutboxRow) (before : Zitadel) : Zitadel := fun key =>
  if key.userId = row.userId ∧ key.projectId = row.projectId then
    match row.opType with
    | .add => before key || decide (key.roleKey ∈ row.roleKeys)
    | .replace => decide (key.roleKey ∈ row.roleKeys)
    | .revoke => before key && !decide (key.roleKey ∈ row.roleKeys)
    | .apply => before key
  else before key

def Exact (row : OutboxRow) (before : GrantStore) (result : Line GrantStore × Dispatched) : Prop :=
  result.2.ack = .applied → result.1.server.held = asked row before.held ∧
      (result.2.existed = true → before.held = asked row before.held)

def liveRoles (store : GrantStore) (row : OutboxRow) : List String :=
  ((store.grantOf row.userId row.projectId).map fun grant => grant.roleKeys.dedup).getD []

/-- A replace that repeats a role, where the person has every role it names and as many more
as it repeats, and no more grants than a read returns. -/
structure Overcounted (store : GrantStore) (row : OutboxRow) : Prop where
  replace : row.opType = .replace
  repeats : ¬row.roleKeys.Nodup
  names : ∀ role ∈ row.roleKeys, role ∈ liveRoles store row
  many : (liveRoles store row).length = row.roleKeys.length
  listed : store.listed row.userId ≤ 100

def Sets (store : GrantStore) (row : OutboxRow) (roles : List String) (after : GrantStore) : Prop :=
  ∀ key : HeldRole, after.held key = if key.userId = row.userId ∧ key.projectId = row.projectId then
      decide (key.roleKey ∈ roles)
    else store.held key

section Sets

variable {store after : GrantStore} {row : OutboxRow}

private theorem held_own {key : HeldRole}
    (own : key.userId = row.userId ∧ key.projectId = row.projectId) :
    store.held key = decide (key.roleKey ∈ liveRoles store row) := by
  unfold held liveRoles
  rw [own.1,own.2]
  cases store.grantOf row.userId row.projectId with
  | none | some => simp

private theorem sets_self : Sets store row (liveRoles store row) store := by
  intro _
  split
  · next own => exact held_own own
  · rfl

variable {roles : List String}

private theorem sets_created (created : Created store row.userId row.projectId roles after) :
    Sets store row roles after := by
  obtain ⟨_,_,added⟩ := created
  intro key
  unfold held
  rw [grantOf_add added]
  by_cases own : key.userId = row.userId ∧ key.projectId = row.projectId
  · rw [if_pos own,if_pos ⟨own.1.symm,own.2.symm⟩]
    rfl
  · rw [if_neg own,if_neg fun owns => own ⟨owns.1.symm,owns.2.symm⟩]

variable {grant : UserGrant}

section

variable (found : store.grantOf row.userId row.projectId = some grant)
include found

private theorem id_ne_of_other {other : UserGrant} {key : HeldRole}
    (foreign : store.grantOf key.userId key.projectId = some other)
    (differs : ¬(key.userId = row.userId ∧ key.projectId = row.projectId)) :
    other.id ≠ grant.id := by
  intro same
  obtain ⟨mem,owns⟩ := grantOf_eq_some_iff.mp found
  obtain ⟨otherMember,otherOwns⟩ := grantOf_eq_some_iff.mp foreign
  have equal := inj_on_of_nodup_map store.idsDistinct otherMember mem same
  subst equal
  exact differs ⟨otherOwns.1.symm.trans owns.1,otherOwns.2.symm.trans owns.2⟩

private theorem sets_change :
    Sets store row roles (store.change grant.id roles) := by
  intro key
  unfold held
  rw [grantOf_change]
  split
  · next own =>
    rw [own.1,own.2,found]
    simp
  rename_i foreign
  cases other : store.grantOf key.userId key.projectId with
  | none => rfl
  | some => simp [id_ne_of_other found other foreign]

private theorem sets_remove :
    Sets store row [] (store.remove grant.id) := by
  intro key
  unfold held
  rw [grantOf_remove]
  split
  · next own =>
    rw [own.1,own.2,found]
    simp [Option.filter]
  rename_i foreign
  cases other : store.grantOf key.userId key.projectId with
  | none => rfl
  | some => simp [id_ne_of_other found other foreign]

end

def askedRole (row : OutboxRow) (live : List String) (role : String) : Prop :=
  match row.opType with
  | .add => role ∈ live ∨ role ∈ row.roleKeys
  | .replace => role ∈ row.roleKeys
  | .revoke => role ∈ live ∧ role ∉ row.roleKeys
  | .apply => role ∈ live

theorem Sets.asked (sets : Sets store row roles after)
    (exact_ : ∀ role, role ∈ roles ↔ askedRole row (liveRoles store row) role) :
    after.held = asked row store.held := by
  funext key
  rw [sets key]
  unfold Propagation.asked
  by_cases own : key.userId = row.userId ∧ key.projectId = row.projectId
  · rw [if_pos own,if_pos own,held_own own,Bool.eq_iff_iff,decide_eq_true_iff,exact_]
    unfold askedRole
    cases row.opType <;> simp
  · rw [if_neg own,if_neg own]

end Sets

section Dispatch

variable {store : GrantStore} {row : OutboxRow}

variable {id : String} {live roles : List String} {line : Line GrantStore} {wire : Wire}

private theorem live_of_shows (shows : Shows store row.userId row.projectId id live) :
    live = liveRoles store row := by
  unfold Shows at shows
  unfold liveRoles
  cases found : store.grantOf row.userId row.projectId with
  | none | some =>
    rw [found] at shows
    exact shows.2

section Told

variable (told : ConflictsAnswered wire.fate)
include told

private theorem alreadyExists_reads (row : OutboxRow) (line : Line GrantStore) :
    (alreadyExists wire row line).1.server = line.server ∧ ((alreadyExists wire row line).2 = true →
        line.server.listed row.userId ≤ 100 ∧
          satisfied row (liveRoles line.server row) = true) := by
  obtain ⟨kept,reads,_⟩ := liveUserGrant_reads told row.userId row.projectId line
  unfold alreadyExists
  generalize liveUserGrant wire row.userId row.projectId line = read at kept reads ⊢
  obtain ⟨_,_ | ⟨id,live⟩⟩ := read
  · split
    · exact ⟨rfl,nofun⟩
    · exact ⟨kept,nofun⟩
  split
  · exact ⟨rfl,nofun⟩
  obtain ⟨few,shows⟩ := reads id live rfl
  rw [← live_of_shows shows]
  exact ⟨kept,fun yes => ⟨few,yes⟩⟩

end Told

variable {role : String}

private theorem mem_of_length_eq (distinct : roles.Nodup) (names : ∀ role ∈ roles, role ∈ live)
    (many : live.length = roles.length) (listed : role ∈ live) : role ∈ roles :=
  (subperm_of_subset distinct names).perm_of_length_le many.le |>.mem_iff.mpr listed

private theorem satisfied_asked (well : ¬Overcounted store row)
    (few : store.listed row.userId ≤ 100)
    (yes : satisfied row (liveRoles store row) = true) :
    store.held = asked row store.held := by
  refine sets_self.asked fun role => ?_
  unfold satisfied at yes
  unfold askedRole
  cases op : row.opType with
  | add =>
    simp only [op,all_eq_true,decide_eq_true_eq] at yes
    exact ⟨.inl,fun either => either.elim id (yes role)⟩
  | replace =>
    simp only [op,Bool.and_eq_true,all_eq_true,decide_eq_true_eq] at yes
    refine ⟨fun listed => ?_,yes.2 role⟩
    by_cases distinct : row.roleKeys.Nodup
    · exact mem_of_length_eq distinct yes.2 yes.1 listed
    · exact absurd ⟨op,distinct,yes.2,yes.1,few⟩ well
  | revoke =>
    simp only [op,all_eq_true,decide_eq_true_eq] at yes
    exact ⟨fun listed => ⟨listed,fun named => yes role named listed⟩,And.left⟩
  | apply => simp [op] at yes

private theorem classify_conflict {error : CallError}
    (applied : classifyZitadelError error = .applied) :
    error.code = some 409 := by
  unfold classifyZitadelError at applied
  dsimp only at applied
  split at applied
  · next conflict =>
    cases said : error.code with
    | none =>
      rw [said] at conflict
      cases conflict
    | some =>
      rw [said] at conflict
      exact congrArg some conflict
  · split at applied <;> cases applied

variable {result : Line GrantStore × Except CallError Unit} {roleKeys : List String}

private theorem acknowledged_applied (applied : (acknowledged result).2.1 = .applied) :
    result.2 = .ok () ∨ ∃ error, result.2 = .error error ∧ error.code = some 409 := by
  obtain ⟨_,error | _⟩ := result
  · exact .inr ⟨error,rfl,classify_conflict applied⟩
  · exact .inl rfl

private theorem acknowledged_server : (acknowledged result).1 = result.1:= by
  obtain ⟨after,error | done⟩ := result <;> rfl

private theorem mem_merged : role ∈ merged live roleKeys ↔ role ∈ live ∨ role ∈ roleKeys:= by
  unfold merged
  by_cases listed : role ∈ live <;> simp [listed]

private theorem mem_remaining :
    role ∈ remaining live roleKeys ↔ role ∈ live ∧ role ∉ roleKeys := by
  unfold remaining
  rw [mem_filter,decide_eq_true_iff]

section Told

variable (told : ConflictsAnswered wire.fate)
include told

private theorem addUserGrant_sets (free : line.server.grantOf row.userId row.projectId = none)
    (applied : (acknowledged (addUserGrant wire row.userId row.projectId roles line)).2.1 =
      .applied) :
    Sets line.server row roles
      (acknowledged (addUserGrant wire row.userId row.projectId roles line)).1.server := by
  rw [acknowledged_server]
  obtain ⟨done,conflict⟩ := addUserGrant_lands told roles free
  rcases acknowledged_applied applied with ok | ⟨error,said,code⟩
  · exact sets_created (done ok)
  · exact sets_created (conflict error said code)

private theorem write_lands {write : GrantStore → GrantStore}
    (twice : ∀ store, write (write store) = write store)
    (applied : (acknowledged (call wire.fate (writeUserGrant wire row.userId id write) false none
      zitadelRetries false line)).2.1 = .applied) :
    (acknowledged (call wire.fate (writeUserGrant wire row.userId id write) false none
      zitadelRetries false line)).1.server = write line.server := by
  have tried := writeUserGrant_lands told row.userId id twice line
  rw [acknowledged_server]
  rcases acknowledged_applied applied with ok | ⟨_,said,code⟩
  · exact tried.written twice ok
  · exact absurd code (tried.unconflicted said)

variable {grant : UserGrant}

private theorem updateUserGrant_sets
    (found : line.server.grantOf row.userId row.projectId = some grant)
    (applied : (acknowledged (updateUserGrant wire row.userId grant.id roles line)).2.1 =
      .applied) :
    Sets line.server row roles
      (acknowledged (updateUserGrant wire row.userId grant.id roles line)).1.server := by
  unfold updateUserGrant at applied ⊢
  rw [write_lands told (fun other => other.change_change grant.id roles) applied]
  exact sets_change found

private theorem removeUserGrant_sets
    (found : line.server.grantOf row.userId row.projectId = some grant)
    (applied : (acknowledged (removeUserGrant wire row.userId grant.id line)).2.1 = .applied) :
    Sets line.server row []
      (acknowledged (removeUserGrant wire row.userId grant.id line)).1.server := by
  unfold removeUserGrant at applied ⊢
  rw [write_lands told (fun other => other.remove_remove grant.id) applied]
  exact sets_remove found

private theorem dispatchOnto_asked (shows : Shows line.server row.userId row.projectId id live)
    (applied : (dispatchOnto wire row id live line).2.1 = .applied) :
    (dispatchOnto wire row id live line).1.server.held = asked row line.server.held := by
  have lives := live_of_shows shows
  unfold Shows at shows
  cases found : line.server.grantOf row.userId row.projectId with
  | none =>
    rw [found] at shows
    obtain ⟨rfl,none⟩ := shows
    rw [lives] at none
    unfold dispatchOnto at applied ⊢
    cases op : row.opType with
    | add =>
      simp only [op] at applied ⊢
      refine (addUserGrant_sets told found applied).asked fun role => ?_
      simp [askedRole,op,none]
    | replace =>
      simp only [op] at applied ⊢
      by_cases empty : row.roleKeys = []
      · rw [if_pos empty]
        refine sets_self.asked fun role => ?_
        simp [askedRole,op,none,empty]
      · rw [if_neg empty] at applied ⊢
        refine (addUserGrant_sets told found applied).asked fun role => ?_
        simp [askedRole,op]
    | revoke =>
      refine sets_self.asked fun role => ?_
      simp [askedRole,op,none]
    | apply =>
      simp only [op] at applied
      cases applied
  | some grant =>
    rw [found] at shows
    obtain ⟨rfl,_⟩ := shows
    have named : grant.id ≠ "" :=
      (line.server.named grant (grantOf_eq_some_iff.mp found).1).1
    unfold dispatchOnto at applied ⊢
    cases op : row.opType with
    | add =>
      simp only [op,if_neg named] at applied ⊢
      refine (updateUserGrant_sets told found applied).asked fun role => ?_
      simp only [askedRole,op,mem_merged,lives]
    | replace =>
      simp only [op,if_neg named] at applied ⊢
      refine (updateUserGrant_sets told found applied).asked fun role => ?_
      simp only [askedRole,op]
    | revoke =>
      simp only [op,if_neg named] at applied ⊢
      by_cases empty : remaining live row.roleKeys = []
      · rw [if_pos empty] at applied ⊢
        refine (removeUserGrant_sets told found applied).asked fun role => ?_
        rw [← empty]
        simp only [askedRole,op,mem_remaining,lives]
      · rw [if_neg empty] at applied ⊢
        refine (updateUserGrant_sets told found applied).asked fun role => ?_
        simp only [askedRole,op,mem_remaining,lives]
    | apply =>
      simp only [op] at applied
      cases applied

private theorem classifyDispatch_asked (applied : (classifyDispatch wire row line).2.1 = .applied) :
    (classifyDispatch wire row line).1.server.held = asked row line.server.held := by
  obtain ⟨kept,reads,fails⟩ := liveUserGrant_reads told row.userId row.projectId line
  unfold classifyDispatch at applied ⊢
  by_cases apply : row.opType = .apply
  · simp only [dispatchOnto,apply] at applied
    cases applied
  rw [if_neg apply] at applied ⊢
  generalize liveUserGrant wire row.userId row.projectId line = read at kept reads fails applied ⊢
  obtain ⟨_,error | ⟨id,live⟩⟩ := read
  · exact absurd (classify_conflict applied) (fails error rfl)
  obtain ⟨_,shows⟩ := reads id live rfl
  rw [← kept] at shows ⊢
  exact dispatchOnto_asked told shows applied

private theorem dispatchRow_exact (well : ¬Overcounted line.server row) :
    Exact row line.server (dispatchRow wire row line) := by
  obtain ⟨kept,checks⟩ := alreadyExists_reads told row line
  intro applied
  unfold dispatchRow at applied ⊢
  by_cases there : (alreadyExists wire row line).2 = true
  · obtain ⟨few,yes⟩ := checks there
    have done := satisfied_asked well few yes
    simp only [there,if_true]
    rw [kept]
    exact ⟨done,fun _ => done⟩
  · simp only [there] at applied ⊢
    refine ⟨?_,nofun⟩
    rw [← kept]
    exact classifyDispatch_asked told applied

end Told

end Dispatch

def clearWire : Wire :=
  { fate := fun _ => .answered, place := fun _ => 0, newId := fun _ => "", words := fun _ => "" }

variable {store : GrantStore} {row : OutboxRow}

private theorem liveUserGrant_clear (few : store.listed row.userId ≤ 100) :
    ∃ id, liveUserGrant clearWire row.userId row.projectId { server := store, sent := 0 } =
      ({ server := store, sent := 1 }, .ok (id, liveRoles store row)) := by
  have listed : listUserGrants clearWire row.userId 100 { server := store, sent := 0 } =
      ({ server := store, sent := 1 }, (searchUserGrants row.userId 100 0 store).2) := rfl
  have whole : ¬incomplete
      { items := (store.grants.filter fun grant => grant.userId = row.userId).take 100
        total := store.listed row.userId } = true := by
    simpa [incomplete,GrantStore.listed] using few
  have roles : ((store.grantOf row.userId row.projectId).toList.flatMap UserGrant.roleKeys).dedup =
      liveRoles store row := by
    unfold liveRoles
    cases store.grantOf row.userId row.projectId with
    | none => rfl
    | some => simp
  unfold liveUserGrant
  rw [listed]
  dsimp only
  refine ⟨((store.grantOf row.userId row.projectId).toList.getLast?.map UserGrant.id).getD "",
    (if_neg whole).trans ?_⟩
  rw [take_of_length_le few,filter_owns,roles]

private theorem alreadyExists_clear (counted : Overcounted store row) :
    alreadyExists clearWire row { server := store, sent := 0 } =
      ({ server := store, sent := 1 }, true) := by
  obtain ⟨_,read⟩ := liveUserGrant_clear counted.listed
  have yes : satisfied row (liveRoles store row) = true := by
    simp only [satisfied,counted.replace,Bool.and_eq_true,all_eq_true,decide_eq_true_eq]
    exact ⟨counted.many,counted.names⟩
  unfold alreadyExists
  simp only [counted.replace,read,yes]

private theorem Overcounted.mistaken (counted : Overcounted store row) :
    ¬Exact row store (dispatchRow clearWire row { server := store, sent := 0 }) := by
  intro always
  have result : dispatchRow clearWire row { server := store, sent := 0 } =
      ({ server := store, sent := 1 }, { existed := true, ack := .applied, errMsg := "" }) := by
    unfold dispatchRow
    simp only [alreadyExists_clear counted,if_true]
  rw [result] at always
  have done := (always rfl).1
  refine counted.repeats ?_
  have distinct : (liveRoles store row).Nodup := by
    unfold liveRoles
    cases store.grantOf row.userId row.projectId with
    | none => exact nodup_nil
    | some => exact nodup_dedup _
  have named : ∀ role ∈ liveRoles store row, role ∈ row.roleKeys := by
    intro role listed
    have own := congrFun done ⟨row.userId,row.projectId,role⟩
    rw [held_own ⟨rfl,rfl⟩,decide_eq_true listed] at own
    simpa [asked,counted.replace] using own.symm
  exact ((subperm_of_subset distinct named).perm_of_length_le counted.many.ge).nodup distinct

/-- Where a conflict is only ever Zitadel's own answer, a dispatch of the row counted applied
does what the row asks, whatever becomes of its requests, exactly where the row is not an
over-counted replace. -/
theorem dispatch_exact_iff (store : GrantStore) (row : OutboxRow) :
    (∀ wire : Wire, ConflictsAnswered wire.fate → ∀ sent,
        Exact row store (dispatchRow wire row { server := store, sent := sent })) ↔
      ¬Overcounted store row :=
  ⟨fun always counted => counted.mistaken (always clearWire (fun _ _ _ _ => nofun) 0),
    fun well _ told _ => dispatchRow_exact told well⟩

namespace Twice

def ada : UserGrant :=
  { id := "1", userId := "ada", projectId := "lab", roleKeys := ["member","keeper"] }

def lab : GrantStore :=
  { grants := [ada]
    idsDistinct := nodup_singleton _
    named := by decide
    oneEach := pairwise_singleton _ _ }

def replacing (roleKeys : List String) : OutboxRow :=
  { target := zitadelTarget, opType := .replace, userId := "ada", projectId := "lab"
    roleKeys := roleKeys, source := .direct, sourceRef := "", withdrawsOnly := false
    status := .inFlight, attempts := 0, waitReason := none, notBefore := none, id := 1
    intentSeq := 1 }

theorem replace_exact_once : Exact (replacing ["member"]) lab
    (dispatchRow clearWire (replacing ["member"]) { server := lab, sent := 0 }) :=
  (dispatch_exact_iff lab (replacing ["member"])).mpr (fun counted => counted.repeats (by decide))
    clearWire (fun _ _ _ _ => nofun) 0

def onlyMember : OutboxRow := replacing ["member","member"]

def keeper : HeldRole := ⟨"ada","lab","keeper"⟩

/-- The row is counted applied by the check, and the other role stays. -/
theorem replace_keeps_unnamed_role :
    let result := dispatchRow clearWire onlyMember { server := lab, sent := 0 }
    result.2 = { existed := true, ack := .applied, errMsg := "" } ∧
      result.1.server.held keeper = true ∧ asked onlyMember lab.held keeper = false := by
  decide +kernel

end Twice

end Syndra.Propagation
