/-
Zitadel's grants behind the management API.

Zitadel has at most one grant for a person and a project, with every role the person has
there.
-/

import Syndra.Observe.Index
import Syndra.Propagation.Table
import Syndra.Remote.Calls

namespace Syndra.Remote

open Observe Propagation List

def Owns (userId projectId : String) (grant : UserGrant) : Prop :=
  grant.userId = userId ∧ grant.projectId = projectId
deriving Decidable

structure GrantStore extends Directory where
  oneEach : grants.Pairwise fun earlier later =>
    ¬Owns earlier.userId earlier.projectId later

namespace GrantStore

def grantOf (store : GrantStore) (userId projectId : String) : Option UserGrant :=
  store.grants.find? fun grant => decide (Owns userId projectId grant)

def held (store : GrantStore) : Zitadel := fun key =>
  (store.grantOf key.userId key.projectId).any fun grant => decide (key.roleKey ∈ grant.roleKeys)

variable {left right : UserGrant} {roleKeys : List String}

theorem owns_symm (apart : ¬Owns left.userId left.projectId right) :
    ¬Owns right.userId right.projectId left :=
  fun owns => apart ⟨owns.1.symm,owns.2.symm⟩

variable {projectId userId : String} {store after : GrantStore} {grant : UserGrant} {place : Nat}

theorem eq_of_owns (leftMember : left ∈ store.grants)
    (rightMember : right ∈ store.grants) (leftOwns : Owns userId projectId left)
    (rightOwns : Owns userId projectId right) :
    left = right := by
  by_contra differ
  have : Std.Symm fun earlier later : UserGrant =>
      ¬Owns earlier.userId earlier.projectId later := ⟨fun _ _ => owns_symm⟩
  refine store.oneEach.forall leftMember rightMember differ ?_
  exact ⟨rightOwns.1.trans leftOwns.1.symm,rightOwns.2.trans leftOwns.2.symm⟩

theorem grantOf_eq_some_iff : store.grantOf userId projectId = some grant ↔
      grant ∈ store.grants ∧ Owns userId projectId grant := by
  constructor
  · intro found
    exact ⟨mem_of_find?_eq_some found,by simpa using find?_some found⟩
  rintro ⟨mem,owns⟩
  cases found : store.grantOf userId projectId with
  | none => exact absurd (decide_eq_true owns) (find?_eq_none.mp found grant mem)
  | some other =>
    have otherOwns : Owns userId projectId other := by simpa using find?_some found
    rw [eq_of_owns (mem_of_find?_eq_some found) mem otherOwns owns]

theorem grantOf_eq_none_iff : store.grantOf userId projectId = none ↔
      ∀ grant ∈ store.grants, ¬Owns userId projectId grant := by
  unfold grantOf
  simp

/-- A grant at a place of the listing; `none` where there is one, the id is taken or a field
is empty. -/
def add (store : GrantStore) (place : Nat) (grant : UserGrant) : Option GrantStore :=
  if taken : (store.grantOf grant.userId grant.projectId).isSome = true then none
  else
    match created : store.toDirectory.create place grant with
    | none => none
    | some directory =>
      some
        { directory with
          oneEach := by
            refine ((Directory.create_perm created).pairwise_iff owns_symm).mpr ?_
            refine pairwise_cons.mpr ⟨fun other member owns => taken ?_,store.oneEach⟩
            rw [grantOf_eq_some_iff.mpr ⟨member,owns⟩]
            rfl }

def change (store : GrantStore) (id : String) (roleKeys : List String) : GrantStore :=
  { store.toDirectory.change id roleKeys with
    oneEach := by
      refine pairwise_map.mpr (store.oneEach.imp fun {earlier later} apart => ?_)
      split <;> split <;> exact apart }

def remove (store : GrantStore) (id : String) : GrantStore :=
  { store.toDirectory.delete id with oneEach := store.oneEach.filter _ }

variable {id : String}

theorem grants_change : (store.change id roleKeys).grants = store.grants.map fun grant =>
      if grant.id = id then { grant with roleKeys := roleKeys } else grant := rfl

theorem grants_remove :
    (store.remove id).grants = store.grants.filter fun grant => grant.id ≠ id := rfl

theorem add_perm (added : store.add place grant = some after) :
    after.grants.Perm (grant :: store.grants) := by
  unfold add at added
  split at added
  · cases added
  split at added
  · cases added
  rename_i directory created
  cases added
  exact Directory.create_perm created

theorem add_free (added : store.add place grant = some after) :
    store.grantOf grant.userId grant.projectId = none := by
  unfold add at added
  split at added
  · cases added
  · next free => simpa using free

theorem grantOf_add (added : store.add place grant = some after) : after.grantOf userId projectId =
      if Owns userId projectId grant then some grant else store.grantOf userId projectId := by
  refine Option.ext fun other => ?_
  rw [grantOf_eq_some_iff,(add_perm added).mem_iff,mem_cons]
  by_cases owns : Owns userId projectId grant
  · rw [if_pos owns,Option.some_inj]
    constructor
    · rintro ⟨rfl | mem,otherOwns⟩
      · rfl
      · refine absurd ?_ (grantOf_eq_none_iff.mp (add_free added) other mem)
        exact ⟨otherOwns.1.trans owns.1.symm,otherOwns.2.trans owns.2.symm⟩
    · rintro rfl
      exact ⟨.inl rfl,owns⟩
  · rw [if_neg owns,grantOf_eq_some_iff]
    constructor
    · rintro ⟨rfl | mem,otherOwns⟩
      · exact absurd otherOwns owns
      · exact ⟨mem,otherOwns⟩
    · rintro ⟨mem,otherOwns⟩
      exact ⟨.inr mem,otherOwns⟩

theorem grantOf_change : (store.change id roleKeys).grantOf userId projectId =
      (store.grantOf userId projectId).map fun grant =>
        if grant.id = id then { grant with roleKeys := roleKeys } else grant := by
  unfold grantOf
  rw [grants_change,find?_map]
  congr 2
  funext grant
  dsimp only [Function.comp_apply]
  split <;> rfl

theorem grantOf_remove : (store.remove id).grantOf userId projectId =
      (store.grantOf userId projectId).filter fun grant => grant.id ≠ id := by
  refine Option.ext fun other => ?_
  rw [grantOf_eq_some_iff,Option.filter_eq_some_iff,grantOf_eq_some_iff,grants_remove,
    mem_filter,and_right_comm]

end GrantStore

structure Page where
  items : List UserGrant
  total : Nat
deriving DecidableEq

/-- What is not Syndra's to choose: the fate of each request, the place and id of a grant it
creates, and the words of an error. -/
structure Wire where
  fate : Nat → Fate
  place : Nat → Nat
  newId : Nat → String
  words : Nat → String

def zitadelRetries : Nat := 2

section Client

variable (wire : Wire)

def searchUserGrants (userId : String) (limit : Nat) : Handler GrantStore Page := fun _ store =>
  let mine := store.grants.filter fun grant => grant.userId = userId
  (store, .ok { items := mine.take limit, total := mine.length })

def listUserGrants (userId : String) (limit : Nat) (line : Line GrantStore) :
    Line GrantStore × Except CallError Page :=
  call wire.fate (searchUserGrants userId limit) true none zitadelRetries false line

def incomplete (page : Page) : Bool := decide (page.items.length < page.total)

def containsAll (have_ want : List String) : Bool := want.all fun role => decide (role ∈ have_)

def grantHolds (userId projectId : String) (roleKeys : List String) : ReadBack GrantStore Unit :=
  fun line =>
    match listUserGrants wire userId 100 line with
    | (after, .error error) => (after, .error error)
    | (after, .ok page) =>
      if incomplete page then
        (after, .error (.other ("incomplete grant read: " ++ toString page.items.length ++
          " of " ++ toString page.total)))
      else
        (after, .ok (if page.items.any fun grant =>
          grant.projectId = projectId && containsAll grant.roleKeys roleKeys
          then some () else none))

def createUserGrant (userId projectId : String) (roleKeys : List String) :
    Handler GrantStore Unit := fun number store =>
  if (store.grantOf userId projectId).isSome then
    (store, .error (.status 409 (wire.words number)))
  else
    match store.add (wire.place number)
        { id := wire.newId number, userId := userId, projectId := projectId
          roleKeys := roleKeys } with
    | some after => (after, .ok ())
    | none => (store, .error (.status 400 (wire.words number)))

def addUserGrant (userId projectId : String) (roleKeys : List String) (line : Line GrantStore) :
    Line GrantStore × Except CallError Unit :=
  call wire.fate (createUserGrant wire userId projectId roleKeys) false
    (some (grantHolds wire userId projectId roleKeys)) zitadelRetries false line

def writeUserGrant (userId grantId : String) (write : GrantStore → GrantStore) :
    Handler GrantStore Unit := fun number store =>
  if store.grants.any fun grant => grant.userId = userId && grant.id = grantId then
    (write store, .ok ())
  else (store, .error (.status 404 (wire.words number)))

def updateUserGrant (userId grantId : String) (roleKeys : List String) (line : Line GrantStore) :
    Line GrantStore × Except CallError Unit :=
  call wire.fate (writeUserGrant wire userId grantId fun store => store.change grantId roleKeys)
    false none zitadelRetries false line

def removeUserGrant (userId grantId : String) (line : Line GrantStore) :
    Line GrantStore × Except CallError Unit :=
  call wire.fate (writeUserGrant wire userId grantId fun store => store.remove grantId) false none
    zitadelRetries false line

def liveUserGrant (userId projectId : String) (line : Line GrantStore) :
    Line GrantStore × Except CallError (String × List String) :=
  match listUserGrants wire userId 100 line with
  | (after, .error error) => (after, .error error)
  | (after, .ok page) =>
    if incomplete page then
      (after, .error (.other ("incomplete grant read for user " ++ userId ++ ": " ++
        toString page.total ++ " grants exist, " ++ toString page.items.length ++ " returned")))
    else
      let there := page.items.filter fun grant => grant.projectId = projectId
      (after, .ok ((there.getLast?.map UserGrant.id).getD "",
        (there.flatMap UserGrant.roleKeys).dedup))

end Client

def GrantStore.listed (store : GrantStore) (userId : String) : Nat :=
  (store.grants.filter fun grant => grant.userId = userId).length

def Shows (store : GrantStore) (userId projectId id : String) (live : List String) : Prop :=
  match store.grantOf userId projectId with
  | none => id = "" ∧ live = []
  | some grant => id = grant.id ∧ live = grant.roleKeys.dedup

theorem filter_eq_find?_toList {α : Type*} {chosen : α → Bool} :
    ∀ {list : List α}, list.Pairwise (fun earlier later => ¬(chosen earlier ∧ chosen later)) →
      list.filter chosen = (list.find? chosen).toList
  | [], _ => rfl
  | head :: tail, apart => by
      obtain ⟨fromHead,fromTail⟩ := pairwise_cons.mp apart
      cases picks : chosen head with
      | false => rw [filter_cons_of_neg (by simp [picks]),find?_cons_of_neg (by simp [picks]),
          filter_eq_find?_toList fromTail]
      | true =>
        have rest : tail.filter chosen = [] :=
          filter_eq_nil_iff.mpr fun other mem also => fromHead other mem ⟨picks,also⟩
        rw [filter_cons_of_pos picks,find?_cons_of_pos picks,rest]
        rfl

variable {store : GrantStore} {userId projectId : String} {wire : Wire}

theorem filter_owns : ((store.grants.filter fun grant => grant.userId = userId).filter fun grant =>
        grant.projectId = projectId) = (store.grantOf userId projectId).toList := by
  rw [filter_filter]
  have same : (fun grant : UserGrant => decide (grant.projectId = projectId) &&
      decide (grant.userId = userId)) = fun grant => decide (Owns userId projectId grant) := by
    funext grant
    rw [Bool.eq_iff_iff,decide_eq_true_iff,Bool.and_eq_true,decide_eq_true_iff, decide_eq_true_iff]
    exact and_comm
  rw [same]
  refine filter_eq_find?_toList (store.oneEach.imp fun {earlier later} apart both => apart ?_)
  obtain ⟨first,second⟩ := both
  have first := of_decide_eq_true first
  have second := of_decide_eq_true second
  exact ⟨second.1.trans first.1.symm,second.2.trans first.2.symm⟩

section Reads

variable {wire : Wire} (told : ConflictsAnswered wire.fate)
include told

theorem listUserGrants_reads (userId : String) (limit : Nat)
    (line : Line GrantStore) :
    (listUserGrants wire userId limit line).1.server = line.server ∧
      (∀ page, (listUserGrants wire userId limit line).2 = .ok page →
        (searchUserGrants userId limit 0 line.server).2 = .ok page) ∧
      ∀ error, (listUserGrants wire userId limit line).2 = .error error →
        error.code ≠ some 409 := by
  have tried : Tried (searchUserGrants userId limit) (· = line.server) _ _ :=
    call_tried true told (fun number before same => same) zitadelRetries false line rfl
  refine ⟨tried.kept,fun page said => ?_,fun error said conflict => ?_⟩
  · obtain ⟨number,before,rfl,handled⟩ := tried.success page said
    exact (congrArg Prod.snd handled).trans said
  · obtain ⟨_,_,rfl,handled⟩ := tried.conflict error said conflict
    exact nomatch (congrArg Prod.snd handled).trans said

theorem liveUserGrant_reads (userId projectId : String) (line : Line GrantStore) :
    (liveUserGrant wire userId projectId line).1.server = line.server ∧
      (∀ id live, (liveUserGrant wire userId projectId line).2 = .ok (id, live) →
        line.server.listed userId ≤ 100 ∧ Shows line.server userId projectId id live) ∧
      ∀ error, (liveUserGrant wire userId projectId line).2 = .error error →
        error.code ≠ some 409 := by
  obtain ⟨kept,lists,fails⟩ := listUserGrants_reads told userId 100 line
  unfold liveUserGrant
  generalize listUserGrants wire userId 100 line = listed at kept lists fails ⊢
  obtain ⟨after,error | page⟩ := listed
  · refine ⟨kept,fun id live impossible => ?_,fun other said => ?_⟩
    · cases impossible
    · cases said
      exact fails error rfl
  have whole := Except.ok.inj (lists page rfl)
  subst whole
  dsimp only
  split
  · refine ⟨kept,fun id live impossible => ?_,fun other said => ?_⟩
    · cases impossible
    · cases said
      exact nofun
  rename_i all
  refine ⟨kept,fun id live said => ?_,fun other impossible => ?_⟩
  · have few : line.server.listed userId ≤ 100 := by
      simpa [incomplete,GrantStore.listed] using all
    refine ⟨few,?_⟩
    rw [take_of_length_le few,filter_owns] at said
    unfold Shows
    cases found : line.server.grantOf userId projectId with
    | none =>
      rw [found] at said
      cases said
      exact ⟨rfl,rfl⟩
    | some =>
      rw [found] at said
      cases said
      exact ⟨rfl,by simp⟩
  · cases impossible

end Reads

theorem GrantStore.eq_of_grants {left right : GrantStore} (same : left.grants = right.grants) :
    left = right := by
  obtain ⟨⟨_,_⟩,_⟩ := right
  cases same
  rfl

theorem GrantStore.change_change (store : GrantStore) (id : String) (roleKeys : List String) :
    (store.change id roleKeys).change id roleKeys = store.change id roleKeys := by
  apply eq_of_grants
  rw [grants_change,grants_change,map_map]
  refine map_congr_left fun grant _member => ?_
  dsimp only [Function.comp_apply]
  split <;> rfl

theorem GrantStore.remove_remove (store : GrantStore) (id : String) :
    (store.remove id).remove id = store.remove id := by
  apply eq_of_grants
  rw [grants_remove,grants_remove]
  simp

theorem writeUserGrant_lands (told : ConflictsAnswered wire.fate) (userId grantId : String)
    {write : GrantStore → GrantStore} (twice : ∀ store, write (write store) = write store)
    (line : Line GrantStore) :
    Tried (writeUserGrant wire userId grantId write)
        (fun store => store = line.server ∨ store = write line.server)
        (call wire.fate (writeUserGrant wire userId grantId write) false none zitadelRetries false
          line).1.server
        (call wire.fate (writeUserGrant wire userId grantId write) false none zitadelRetries false
          line).2 := by
  refine call_tried false told (fun number before either => ?_) zitadelRetries false line
    (.inl rfl)
  unfold writeUserGrant
  split
  · rcases either with rfl | rfl
    · exact .inr rfl
    · exact .inr (twice _)
  · exact either

section Writes

variable {wire : Wire} {userId grantId : String} {write : GrantStore → GrantStore}
  {start after : GrantStore} {answer : Except CallError Unit}

theorem Tried.written (twice : ∀ store, write (write store) = write store)
    (tried : Tried (writeUserGrant wire userId grantId write)
      (fun store => store = start ∨ store = write start) after answer)
    (done : answer = .ok ()) : after = write start := by
  obtain ⟨_,_,either,handled⟩ := tried.success () done
  unfold writeUserGrant at handled
  split at handled
  · refine (congrArg Prod.fst handled).symm.trans ?_
    rcases either with rfl | rfl
    · rfl
    · exact twice _
  · exact absurd ((congrArg Prod.snd handled).trans done) (by simp)

theorem Tried.unconflicted {inv : GrantStore → Prop}
    (tried : Tried (writeUserGrant wire userId grantId write) inv after answer)
    {error : CallError} (said : answer = .error error) : error.code ≠ some 409 := by
  intro conflict
  obtain ⟨_,_,_,handled⟩ := tried.conflict error said conflict
  have answered := (congrArg Prod.snd handled).trans said
  unfold writeUserGrant at answered
  split at answered
  · cases answered
  · cases answered
    cases conflict

end Writes

def Created (store : GrantStore) (userId projectId : String) (roleKeys : List String)
    (after : GrantStore) : Prop :=
  ∃ place id, store.add place
    { id := id, userId := userId, projectId := projectId, roleKeys := roleKeys } = some after

theorem Created.grantOf {after : GrantStore}
    {roleKeys : List String} (created : Created store userId projectId roleKeys after) :
    ∃ grant, after.grantOf userId projectId = some grant ∧ grant.roleKeys = roleKeys := by
  obtain ⟨_,_,added⟩ := created
  refine ⟨_,(GrantStore.grantOf_add added).trans (if_pos ⟨rfl,rfl⟩),rfl⟩

section Creates

variable {wire : Wire} {userId projectId : String} {roleKeys : List String} {start : GrantStore}

variable {after : GrantStore} {answer : Except CallError Unit}

theorem createUserGrant_free (free : start.grantOf userId projectId = none) (number : Nat)
    (handled : createUserGrant wire userId projectId roleKeys number start = (after, answer)) :
    (after = start ∧ ∃ message, answer = .error (.status 400 message)) ∨
      Created start userId projectId roleKeys after := by
  unfold createUserGrant at handled
  rw [free] at handled
  dsimp only [Option.isSome_none] at handled
  cases added : start.add (wire.place number)
      { id := wire.newId number, userId := userId, projectId := projectId
        roleKeys := roleKeys } with
  | none =>
    rw [added] at handled
    cases handled
    exact .inl ⟨rfl,_,rfl⟩
  | some store =>
    rw [added] at handled
    cases handled
    exact .inr ⟨_,_,added⟩

theorem createUserGrant_created (wire : Wire) {store : GrantStore}
    (created : Created start userId projectId roleKeys store) (number : Nat) :
    (createUserGrant wire userId projectId roleKeys number store).1 = store := by
  obtain ⟨_,found,_⟩ := created.grantOf
  unfold createUserGrant
  rw [found]
  rfl

theorem grantHolds_reads (told : ConflictsAnswered wire.fate) (userId projectId : String)
    (roleKeys : List String) (line : Line GrantStore) :
    (grantHolds wire userId projectId roleKeys line).1.server = line.server ∧
      ((grantHolds wire userId projectId roleKeys line).2 = .ok (some ()) →
        line.server.grantOf userId projectId ≠ none) := by
  obtain ⟨kept,lists,_⟩ := listUserGrants_reads told userId 100 line
  unfold grantHolds
  generalize listUserGrants wire userId 100 line = listed at kept lists ⊢
  obtain ⟨_,_ | page⟩ := listed
  · exact ⟨kept,nofun⟩
  dsimp only
  split
  · exact ⟨kept,nofun⟩
  refine ⟨kept,fun said none => ?_⟩
  have whole := Except.ok.inj (lists page rfl)
  subst whole
  split at said
  · next some =>
    obtain ⟨grant,listed,carries⟩ := any_eq_true.mp some
    have mine := mem_filter.mp (mem_of_mem_take listed)
    have there := (Bool.and_eq_true_iff.mp carries).1
    refine GrantStore.grantOf_eq_none_iff.mp none grant mine.1 ?_
    exact ⟨of_decide_eq_true mine.2,of_decide_eq_true there⟩
  · cases said

theorem created_of_handled (free : start.grantOf userId projectId = none)
    (proper : ∀ message, answer ≠ .error (.status 400 message))
    (handled : Handled (createUserGrant wire userId projectId roleKeys)
      (fun store => store = start ∨ Created start userId projectId roleKeys store) after answer) :
    Created start userId projectId roleKeys after := by
  obtain ⟨number,before,either,handled⟩ := handled
  rcases either with rfl | created
  · rcases createUserGrant_free free number handled with ⟨_,message,said⟩ | created
    · exact absurd said (proper message)
    · exact created
  · have same : after = before :=
      (congrArg Prod.fst handled).symm.trans (createUserGrant_created wire created number)
    exact same ▸ created

end Creates

/-- Where there was no grant a success and a conflict alike mean that it was created: a
conflict answers a try after one that landed. -/
theorem addUserGrant_lands (told : ConflictsAnswered wire.fate) (roleKeys : List String)
    {line : Line GrantStore} (free : line.server.grantOf userId projectId = none) :
    ((addUserGrant wire userId projectId roleKeys line).2 = .ok () →
        Created line.server userId projectId roleKeys
          (addUserGrant wire userId projectId roleKeys line).1.server) ∧
      ∀ error, (addUserGrant wire userId projectId roleKeys line).2 = .error error →
        error.code = some 409 → Created line.server userId projectId roleKeys
            (addUserGrant wire userId projectId roleKeys line).1.server := by
  have concluded : Concluded (createUserGrant wire userId projectId roleKeys)
      (some (grantHolds wire userId projectId roleKeys))
      (fun store => store = line.server ∨ Created line.server userId projectId roleKeys store)
      (addUserGrant wire userId projectId roleKeys line).1
      (addUserGrant wire userId projectId roleKeys line).2 := by
    refine call_concluded false told (fun number before either => ?_)
      (fun back same other either => ?_) zitadelRetries false line (.inl rfl)
    · rcases either with rfl | created
      · rcases createUserGrant_free free number rfl with ⟨same,_⟩ | created
        · exact .inl same
        · exact .inr created
      · rw [createUserGrant_created wire created]
        exact .inr created
    · cases same
      rw [(grantHolds_reads told userId projectId roleKeys other).1]
      exact either
  constructor
  · intro done
    rcases concluded.success () done with handled | ⟨_,other,same,either,landed⟩
    · exact created_of_handled free (fun message impossible => by
        rw [done] at impossible
        cases impossible) handled
    cases same
    obtain ⟨kept,finds⟩ := grantHolds_reads told userId projectId roleKeys other
    rw [landed] at kept finds
    rw [kept]
    rcases either with same | created
    · exact absurd (same ▸ free) (finds rfl)
    · exact created
  · intro error said conflict
    refine created_of_handled free (fun message same => ?_)
      (concluded.conflict error said conflict)
    rw [said] at same
    cases same
    cases conflict

end Syndra.Remote
