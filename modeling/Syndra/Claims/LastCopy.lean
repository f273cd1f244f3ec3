/-
The last copy of the facts.

A lookup asks Redis, keeps what it read, forgets it when Redis says there is none, and
serves the copy while Redis fails and the copy is young enough.
-/

import Syndra.Claims.Config
import Syndra.Foundation.Framing

namespace Syndra.Claims

open List

structure LkgEntry where
  key : String
  facts : Facts
  at_ : Time

/-- The most recently served entry first. -/
structure Lru where
  cap : Int
  order : List LkgEntry
  distinct : (order.map LkgEntry.key).Nodup
  bounded : (order.length : Int) ≤ max cap 0

namespace Lru

def new (cap : Int) : Lru :=
  { cap := cap
    order := []
    distinct := nodup_nil
    bounded := Int.le_max_right cap 0 }

variable {order : List LkgEntry}

private theorem keys_filter {p : LkgEntry → Bool} (distinct : (order.map LkgEntry.key).Nodup) :
    ((order.filter p).map LkgEntry.key).Nodup :=
  distinct.sublist (filter_sublist.map _)

private theorem keys_front (entry : LkgEntry) (distinct : (order.map LkgEntry.key).Nodup) :
    ((entry :: order.filter (·.key ≠ entry.key)).map LkgEntry.key).Nodup := by
  rw [map_cons,nodup_cons]
  refine ⟨fun mem => ?_,keys_filter distinct⟩
  obtain ⟨_,kept,same⟩ := mem_map.mp mem
  exact of_decide_eq_true (mem_filter.mp kept).2 same

private theorem length_front {key : String} {entry : LkgEntry} (mem : entry ∈ order)
    (named : entry.key = key) :
    (order.filter (·.key ≠ key)).length + 1 ≤ order.length := by
  have fewer : (order.filter (·.key ≠ key)).length < order.length :=
    length_filter_lt_length_iff_exists.mpr ⟨entry,mem,by simp [named]⟩
  omega

def put (c : Lru) (key : String) (f : Facts) (at_ : Time) : Lru :=
  if known : ∃ entry ∈ c.order, entry.key = key then
    { c with
      order := ⟨key,f,at_⟩ :: c.order.filter (·.key ≠ key)
      distinct := keys_front ⟨key,f,at_⟩ c.distinct
      bounded := by
        obtain ⟨entry,member,named⟩ := known
        have fewer := length_front member named
        have bounded := c.bounded
        rw [length_cons]
        omega }
  else
    have distinct : ((⟨key,f,at_⟩ :: c.order : List LkgEntry).map LkgEntry.key).Nodup := by
      rw [map_cons,nodup_cons]
      refine ⟨fun member => known ?_,c.distinct⟩
      obtain ⟨entry,inOrder,same⟩ := mem_map.mp member
      exact ⟨entry,inOrder,same⟩
    if full : c.cap < (c.order.length + 1 : Nat) then
      { c with
        order := (⟨key,f,at_⟩ :: c.order).dropLast
        distinct := distinct.sublist ((dropLast_sublist _).map _)
        bounded := by
          have bounded := c.bounded
          rw [length_dropLast,length_cons]
          omega }
    else
      { c with
        order := ⟨key,f,at_⟩ :: c.order
        distinct := distinct
        bounded := by
          rw [length_cons]
          omega }

def get (c : Lru) (key : String) : Option (Facts × Time) :=
  (c.order.find? (·.key = key)).map fun entry => (entry.facts, entry.at_)

def touch (c : Lru) (key : String) : Lru :=
  match found : c.order.find? (·.key = key) with
  | none => c
  | some entry =>
    have named : entry.key = key := by simpa using find?_some found
    { c with
      order := entry :: c.order.filter (·.key ≠ entry.key)
      distinct := keys_front entry c.distinct
      bounded := by
        have fewer := length_front (mem_of_find?_eq_some found) named
        have bounded := c.bounded
        rw [named,length_cons]
        omega }

def drop (c : Lru) (key : String) : Lru :=
  { c with
    order := c.order.filter (·.key ≠ key)
    distinct := keys_filter c.distinct
    bounded := by
      have fewer := length_filter_le (fun entry : LkgEntry => decide (entry.key ≠ key)) c.order
      have bounded := c.bounded
      omega }

end Lru

inductive Outcome where
  | served
  | servedLKG
  | servedWelcome
  | servedRolesOnly
  | degradedShapeUnreadable
  | degradedMalformed
  | noGrants
  | contractFault
  | refusedCrossProject
  | notLanding
  | unknownFunction
  | badRequest
  | deadlineExceeded
deriving DecidableEq

inductive Reply where
  | value (raw : String)
  | nil
  | error
deriving DecidableEq

structure Lookup where
  userID : String
  projectID : String
  maxAge : Time
  hGet : Reply
  get : Reply
  now : Time
deriving DecidableEq

namespace Lookup

def rawFacts (lookup : Lookup) : Reply :=
  match lookup.hGet with
  | .nil => lookup.get
  | reply => reply

def key (lookup : Lookup) : String := lookup.userID ++ "\x00" ++ lookup.projectID

def named (lookup : Lookup) (f : Facts) : Facts :=
  let f := if f.projectID = "" then { f with projectID := lookup.projectID } else f
  if f.userID = "" then { f with userID := lookup.userID } else f

end Lookup

def facts (decode : String → Option Facts) (lkg : Lru) (lookup : Lookup) :
    (Facts × Outcome × Bool) × Lru :=
  match lookup.rawFacts with
  | .value raw =>
    match decode raw with
    | none => ((Facts.zero, .degradedMalformed, false), lkg)
    | some f =>
      ((lookup.named f, .served, false), lkg.put lookup.key (lookup.named f) lookup.now)
  | .nil => ((Facts.zero, .servedRolesOnly, true), lkg.drop lookup.key)
  | .error =>
    match lkg.get lookup.key with
    | some (f, at_) =>
      if lookup.now - at_ ≤ lookup.maxAge then
        ((f, .servedLKG, false), lkg.touch lookup.key)
      else ((Facts.zero, .servedRolesOnly, false), lkg.touch lookup.key)
    | none => ((Facts.zero, .servedRolesOnly, false), lkg)

def afterLookups (decode : String → Option Facts) (cap : Int) (lookups : List Lookup) : Lru :=
  lookups.foldl (fun lkg lookup => (facts decode lkg lookup).2) (Lru.new cap)

section History

variable (decode : String → Option Facts)

def Lookup.read (lookup : Lookup) : Option Facts :=
  match lookup.rawFacts with
  | .value raw => (decode raw).map lookup.named
  | _ => none

def Lookup.samePair (lookup other : Lookup) : Prop :=
  lookup.userID = other.userID ∧ lookup.projectID = other.projectID

/-- The pair's last good read gave these facts then, and no miss came after it. -/
def LatestRead (lookups : List Lookup) (call : Lookup) (f : Facts) (at_ : Time) : Prop :=
  ∃ before good after, lookups = before ++ good :: after ∧ good.samePair call ∧
    good.read decode = some f ∧ good.now = at_ ∧
    ∀ later ∈ after, later.samePair call → later.read decode = none ∧ later.rawFacts ≠ .nil

def Lookup.Plain (lookup : Lookup) : Prop :=
  '\x00' ∉ lookup.userID.toList ∧ '\x00' ∉ lookup.projectID.toList

instance (lookup : Lookup) : Decidable lookup.Plain := by
  unfold Lookup.Plain
  infer_instance

end History

section Proofs

variable {decode : String → Option Facts} {lookups : List Lookup} {lkg : Lru}
variable {lookup call : Lookup} {f : Facts} {at_ : Time}

theorem samePair_of_key (plain : lookup.Plain) (plainToo : call.Plain)
    (same : lookup.key = call.key) : lookup.samePair call := by
  have lists := congrArg String.toList same
  simp only [Lookup.key,String.toList_append,append_assoc] at lists
  obtain ⟨users,projects⟩ := Foundation.Framing.append_mark_inj plain.1 plainToo.1 lists
  exact ⟨String.toList_injective users,String.toList_injective projects⟩

theorem key_of_samePair (same : lookup.samePair call) : lookup.key = call.key := by
  unfold Lookup.key
  rw [same.1,same.2]

theorem LatestRead.append (latest : LatestRead decode lookups call f at_)
    (spares : lookup.samePair call → lookup.read decode = none ∧ lookup.rawFacts ≠ .nil) :
    LatestRead decode (lookups ++ [lookup]) call f at_ := by
  obtain ⟨before,good,after,rfl,same,gave,when_,quiet⟩ := latest
  refine ⟨before,good,after ++ [lookup],by simp,same,gave,when_,?_⟩
  intro later mem
  rcases mem_append.mp mem with old | new
  · exact quiet later old
  · cases mem_singleton.mp new
    exact spares

theorem latestRead_now (gave : lookup.read decode = some f) :
    LatestRead decode (lookups ++ [lookup]) lookup f lookup.now :=
  ⟨lookups,lookup,[],rfl,⟨rfl,rfl⟩,gave,rfl,nofun⟩

def Remembers (decode : String → Option Facts) (lookups : List Lookup) (lkg : Lru) : Prop :=
  ∀ entry ∈ lkg.order, ∃ call : Lookup, call.Plain ∧ entry.key = call.key ∧
    LatestRead decode lookups call entry.facts entry.at_

variable {key : String} {entry : LkgEntry}

theorem mem_put (mem : entry ∈ (lkg.put key f at_).order) :
    entry = ⟨key,f,at_⟩ ∨ entry ∈ lkg.order ∧ entry.key ≠ key := by
  unfold Lru.put at mem
  split at mem
  · rcases mem_cons.mp mem with rfl | old
    · exact .inl rfl
    · obtain ⟨inOrder,different⟩ := mem_filter.mp old
      exact .inr ⟨inOrder,of_decide_eq_true different⟩
  rename_i unknown
  have either : entry = ⟨key,f,at_⟩ ∨ entry ∈ lkg.order := by
    split at mem
    · exact mem_cons.mp ((dropLast_sublist _).subset mem)
    · exact mem_cons.mp mem
  exact either.imp_right fun inOrder => ⟨inOrder,fun named => unknown ⟨entry,inOrder,named⟩⟩

theorem mem_touch (mem : entry ∈ (lkg.touch key).order) : entry ∈ lkg.order:= by
  unfold Lru.touch at mem
  split at mem
  · exact mem
  rename_i found
  rcases mem_cons.mp mem with rfl | old
  · exact mem_of_find?_eq_some found
  · exact (mem_filter.mp old).1

theorem Remembers.step (remembers : Remembers decode lookups lkg) (plain : lookup.Plain) :
    Remembers decode (lookups ++ [lookup]) (facts decode lkg lookup).2 := by
  have stays (entry : LkgEntry) (mem : entry ∈ lkg.order)
      (spares : entry.key = lookup.key → lookup.read decode = none ∧ lookup.rawFacts ≠ .nil) :
      ∃ call : Lookup, call.Plain ∧ entry.key = call.key ∧
        LatestRead decode (lookups ++ [lookup]) call entry.facts entry.at_ := by
    obtain ⟨call,plainCall,named,latest⟩ := remembers entry mem
    exact ⟨call,plainCall,named,
      latest.append fun same => spares (named.trans (key_of_samePair same).symm)⟩
  intro entry mem
  unfold facts at mem
  cases raw : lookup.rawFacts with
  | value text =>
    rw [raw] at mem
    dsimp only at mem
    cases decoded : decode text with
    | none =>
      rw [decoded] at mem
      refine stays entry mem fun _ => ⟨?_,by simp [raw]⟩
      simp only [Lookup.read,raw,decoded,Option.map_none]
    | some f =>
      rw [decoded] at mem
      have gave : lookup.read decode = some (lookup.named f) := by
        simp only [Lookup.read,raw,decoded,Option.map_some]
      rcases mem_put mem with rfl | ⟨inOrder,different⟩
      · exact ⟨lookup,plain,rfl,latestRead_now gave⟩
      · exact stays entry inOrder fun named => absurd named different
  | nil =>
    rw [raw] at mem
    obtain ⟨inOrder,different⟩ := mem_filter.mp mem
    exact stays entry inOrder fun named => absurd named (of_decide_eq_true different)
  | error =>
    rw [raw] at mem
    have quiet : lookup.read decode = none ∧ Reply.error ≠ .nil :=
      ⟨by simp only [Lookup.read,raw],by simp⟩
    rw [← raw] at quiet
    have inOrder : entry ∈ lkg.order := by
      dsimp only at mem
      split at mem
      · split at mem <;> exact mem_touch mem
      · exact mem
    exact stays entry inOrder fun _ => quiet

theorem remembers_afterLookups (cap : Int) :
    ∀ lookups : List Lookup, (∀ lookup ∈ lookups, lookup.Plain) →
      Remembers decode lookups (afterLookups decode cap lookups) := by
  intro lookups
  induction lookups using reverseRecOn with
  | nil => exact nofun
  | append_singleton _ lookup ih =>
    intro plain
    have remembers := ih fun other mem => plain other (mem_append_left _ mem)
    unfold afterLookups at remembers ⊢
    rw [foldl_append]
    exact remembers.step (plain lookup (by simp))

end Proofs

/-- Facts served from the copy are those of the pair's latest good read, which is not
older than the maximum age, and Redis has said no miss for the pair since. -/
theorem lastCopy_latest (decode : String → Option Facts) (cap : Int) (earlier : List Lookup)
    (call : Lookup) (f : Facts) (miss : Bool)
    (plain : ∀ lookup ∈ call :: earlier, lookup.Plain)
    (served : (facts decode (afterLookups decode cap earlier) call).1 = (f, .servedLKG, miss)) :
    ∃ at_, LatestRead decode earlier call f at_ ∧ call.now - at_ ≤ call.maxAge := by
  have remembers : Remembers decode earlier (afterLookups decode cap earlier) :=
    remembers_afterLookups cap earlier fun lookup mem =>
      plain lookup (mem_cons_of_mem _ mem)
  unfold facts at served
  split at served
  · split at served <;> cases served
  · cases served
  split at served
  · next got =>
    split at served
    · next young =>
      cases served
      obtain ⟨entry,found,copied⟩ := Option.map_eq_some_iff.mp got
      cases copied
      obtain ⟨_,plainOwner,named,latest⟩ := remembers entry (mem_of_find?_eq_some found)
      have mine : entry.key = call.key := by simpa using find?_some found
      have same := samePair_of_key (plain call mem_cons_self) plainOwner
        (mine.symm.trans named)
      refine ⟨entry.at_,?_,young⟩
      obtain ⟨before,good,after,rfl,pair,gave,when_,quiet⟩ := latest
      refine ⟨before,good,after,rfl,⟨pair.1.trans same.1.symm,pair.2.trans same.2.symm⟩,
        gave,when_,fun later mem samePair => quiet later mem ?_⟩
      exact ⟨samePair.1.trans same.1,samePair.2.trans same.2⟩
    · cases served
  · cases served

def teamOnly (raw : String) : Option Facts :=
  if raw = "" then none else some { Facts.zero with team := raw }

def lookupOf (user project : String) (reply : Reply) (now : Time) : Lookup :=
  { userID := user, projectID := project, maxAge := 10, hGet := reply, get := .nil, now := now }

def mixedLookups : List Lookup :=
  [lookupOf "ada" "lab" (.value "first") 1,lookupOf "bea" "lab" (.value "other") 2,
    lookupOf "ada" "lab" (.value "second") 4,lookupOf "ada" "lab" (.value "") 5,
    lookupOf "bea" "lab" .nil 6]

theorem lastCopy_mixedLookups :
    (facts teamOnly (afterLookups teamOnly 2 mixedLookups) (lookupOf "ada" "lab" .error 12)).1 =
        ({ Facts.zero with team := "second", projectID := "lab", userID := "ada" }, .servedLKG,
          false) ∧
      ∃ at_, LatestRead teamOnly mixedLookups (lookupOf "ada" "lab" .error 12)
        { Facts.zero with team := "second", projectID := "lab", userID := "ada" } at_ ∧
          (lookupOf "ada" "lab" .error 12).now - at_ ≤ (lookupOf "ada" "lab" .error 12).maxAge := by
  have served : (facts teamOnly (afterLookups teamOnly 2 mixedLookups)
      (lookupOf "ada" "lab" .error 12)).1 =
        ({ Facts.zero with team := "second", projectID := "lab", userID := "ada" }, .servedLKG,
          false) := by decide +kernel
  exact ⟨served,lastCopy_latest teamOnly 2 mixedLookups (lookupOf "ada" "lab" .error 12) _ false
    (by decide +kernel) served⟩

end Syndra.Claims
