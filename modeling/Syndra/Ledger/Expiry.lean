/-
Expired access is taken back.

The clock, the access changes, deliveries in any order and the expiry sweep. A sweep fetches
a batch of lapsed grants and expires them one at a time, each under the access lock and re-
checked there.
-/

import Syndra.Ledger.Lapsed
import Syndra.Ledger.Owed

namespace Syndra.Ledger

open Access Propagation Foundation List

/-! ### The sweep -/

structure SweepState where
  access : AccessState
  candidates : List DirectGrant

def AccessState.tick (state : AccessState) (elapsed : Nat) : AccessState :=
  { state with now := state.now + elapsed }

def clampBatch (batchSize : Int) : Nat :=
  if batchSize < 1 then 1 else if 10000 < batchSize then 10000 else batchSize.toNat

/-- `expires_at <= NOW() ORDER BY expires_at ASC LIMIT`. -/
def Records.getExpiredDirectGrants (records : Records) (now : Time) (limit : Nat) :
    List DirectGrant :=
  ((records.grants.filter (DirectGrant.lapsed now)).insertionSort fun first second =>
    first.expiresAt.getD 0 ≤ second.expiresAt.getD 0).take limit

inductive ExpiryMove where
  | tick (elapsed : Nat)
  | change (gate : Option CancelGate) (change : Change)
  | deliver (id : Nat)
  | sweep (batchSize : Int)
  | expireOne (candidate : DirectGrant)
deriving DecidableEq

def Change.byHand : Change → Bool
  | .removeGrant _ _ => true
  | _ => false

/-- The people of a batch are visited in no particular order, and a candidate that
was renewed or is gone is left alone. -/
def expiryStep (state : SweepState) : ExpiryMove → Option SweepState
  | .tick elapsed => some { state with access := state.access.tick elapsed }
  | .change gate change =>
    if change.byHand then none
    else (change.perform gate state.access).map fun access => { state with access := access }
  | .deliver id =>
    match state.access.outbox.rows.find? fun row => row.id = id && row.status = .pending with
    | none => none
    | some row => (state.access.applyRow row).map fun access => { state with access := access }
  | .sweep batchSize =>
    some { state with
      candidates := state.candidates ++
        state.access.records.getExpiredDirectGrants state.access.now (clampBatch batchSize) }
  | .expireOne candidate =>
    if candidate ∈ state.candidates then
      match expireDirectGrant state.access candidate.userId candidate.id candidate.role with
      | .error _ => some { state with candidates := state.candidates.erase candidate }
      | .ok access => some { access := access, candidates := state.candidates.erase candidate }
    else none

/-- Every role of which an add is left standing, and no record in force gives, has a
revoke queued after that add. -/
def TakenBack (state : AccessState) : Prop :=
  ∀ add ∈ state.outbox.rows, add.opType = .add → add.status ≠ .superseded →
    Role.mk add.projectId (add.roleKeys.headD "") ∉ state.closed add.userId →
      ∃ later ∈ state.outbox.rows, later.opType = .revoke ∧ later.status ≠ .superseded ∧
        rowKey later = rowKey add ∧ add.intentSeq < later.intentSeq
deriving Decidable

/-! ### The condition on a step -/

/-- Where a removal on this account only cancels a queued add, nobody else has
queued one of the same role. -/
def WithdrawsAll (state : AccessState) (cause : Cause) : Prop :=
  ∀ row ∈ state.outbox.rows, queuedBy cause row = true →
    standingFor zitadelTarget state.outbox (rowKey row) = false →
      ∀ other ∈ state.outbox.rows, other.status = .pending → other.opType = .add →
        rowKey other = rowKey row → queuedBy cause other = true
deriving Decidable

def Change.alters : Change → Option String
  | .updateRule rule => some rule.id
  | .retireRule ruleId => some ruleId
  | _ => none

def AltersIdleRule (state : AccessState) (change : Change) : Prop :=
  match change.alters with
  | none => True
  | some ruleId => RuleIdle state ruleId

instance (state : AccessState) (change : Change) : Decidable (AltersIdleRule state change) :=
  match found : change.alters with
  | none => isTrue (by unfold AltersIdleRule; rw [found]; trivial)
  | some ruleId =>
    if idle : RuleIdle state ruleId then
      isTrue (by unfold AltersIdleRule; rw [found]; exact idle)
    else isFalse (by unfold AltersIdleRule; rw [found]; exact idle)

def expiryCause (candidate : DirectGrant) : Cause :=
  { source := .direct
    sourceRef := toString candidate.id
    person := some candidate.userId }

def SweepsCleanly (state : SweepState) : ExpiryMove → Prop
  | .change _ change =>
    AltersIdleRule state.access change ∧
      (change.removes = true → WithdrawsAll state.access change.cause)
  | .expireOne candidate => WithdrawsAll state.access (expiryCause candidate)
  | _ => True

instance (state : SweepState) (move : ExpiryMove) : Decidable (SweepsCleanly state move) :=
  match move with
  | .tick _ => isTrue trivial
  | .change _ change =>
    inferInstanceAs (Decidable (AltersIdleRule state.access change ∧ (change.removes = true → _)))
  | .deliver _ => isTrue trivial
  | .sweep _ => isTrue trivial
  | .expireOne candidate =>
    inferInstanceAs (Decidable (WithdrawsAll state.access (expiryCause candidate)))

/-! ### Adds with no revoke after them -/

def Uncovered (outbox : Outbox) (key : HeldRole) : Prop :=
  ∃ add ∈ outbox.rowsFor key, add.opType = .add ∧ add.status ≠ .superseded ∧
    ∀ later ∈ outbox.rowsFor key, later.opType = .revoke → later.status ≠ .superseded →
      later.intentSeq ≤ add.intentSeq

variable {outbox : Outbox}

theorem exists_later_revoke {key : HeldRole} (plain : ∀ row ∈ outbox.rows, PlainRow row)
    (notStanding : standingFor zitadelTarget outbox key = false) {add : OutboxRow}
    (mem : add ∈ outbox.rowsFor key) (op : add.opType = .add) (applied : add.status = .applied) :
    ∃ later ∈ outbox.rowsFor key, later.opType = .revoke ∧ later.status = .applied ∧
      add.intentSeq < later.intentSeq := by
  obtain ⟨present,isFor⟩ := mem_filter.mp mem
  obtain ⟨target,user,project,role⟩ := (add.isFor_iff key).mp isFor
  have counts : CountsApplied zitadelTarget key [.add,.replace] add := by
    refine ⟨target,user,applied,project,?_,?_⟩
    · rw [role]
      exact mem_singleton.mpr rfl
    · rw [op]
      exact mem_cons_self
  have below : add.intentSeq ≤ maxApplied zitadelTarget outbox key [.revoke] :=
    Nat.le_trans (le_maxApplied present counts)
      (Nat.not_lt.mp (of_decide_eq_false notStanding))
  have positive := (outbox.numbered add present).1
  obtain ⟨later,laterPresent,laterCounts,number⟩ :=
    exists_of_maxApplied (Nat.lt_of_lt_of_le positive below)
  obtain ⟨laterTarget,laterUser,laterApplied,laterProject,listed,revoke⟩ := laterCounts
  have laterRevoke : later.opType = .revoke := mem_singleton.mp revoke
  rw [(plain later laterPresent).roleKeys,mem_singleton] at listed
  have laterIsFor : later.isFor key = true := by
    rw [OutboxRow.isFor_iff]
    refine ⟨laterTarget,laterUser,laterProject,?_⟩
    rw [(plain later laterPresent).roleKeys,listed]
  refine ⟨later,mem_filter.mpr ⟨laterPresent,laterIsFor⟩,laterRevoke,laterApplied,?_⟩
  rw [← number] at below
  refine Nat.lt_of_le_of_ne below fun same => ?_
  rw [outbox.eq_of_seq_eq present laterPresent same,laterRevoke] at op
  cases op

/-- A revoke that went through is newer than every add, or nothing of the role is
left standing that has no revoke after it. -/
theorem not_uncovered_after_revoke {named : Bool} {after : Outbox} {p : EnqueueParams} {seq : Nat}
    {inserted : List OutboxRow} (plain : ∀ row ∈ outbox.rows, PlainRow row)
    (op : p.opType = .revoke) (own : OwnRow named outbox p seq inserted)
    (number : outbox.nextSeq ≤ seq) (rows : after.rowsFor p.key =
      (outbox.rowsFor p.key).map (OutboxRow.afterWrite p) ++ inserted)
    (noAdds : cancelled outbox p ≠ [] → standingFor zitadelTarget outbox p.key = false →
      ∀ row ∈ uncancelled outbox p, row.opType ≠ .add) : ¬ Uncovered after p.key := by
  rintro ⟨add,mem,isAdd,stands,newest⟩
  rw [rows] at mem newest
  have notFresh : add ∉ inserted := by
    intro fresh
    rw [own.eq_fresh add fresh] at isAdd
    change p.opType = .add at isAdd
    rw [op] at isAdd
    cases isAdd
  obtain ⟨before,among,rfl⟩ := mem_map.mp
    ((mem_append.mp mem).resolve_right notFresh)
  have present := (mem_filter.mp among).1
  have number' : (before.afterWrite p).intentSeq = before.intentSeq := by
    unfold OutboxRow.afterWrite
    split <;> rfl
  rcases own with ⟨rfl,-⟩ | ⟨rfl,some,notOwed⟩ | ⟨-,-,add,-⟩
  · have late := newest _ (mem_append_right _ (mem_singleton.mpr rfl)) op nofun
    rw [number'] at late
    have early := (outbox.numbered before present).2.1
    change seq ≤ before.intentSeq at late
    omega
  · have notStanding := not_standing_of_notOwed op notOwed
    have kept : before ∉ cancelled outbox p := by
      intro answered
      obtain ⟨waiting,matching⟩ := mem_filter.mp answered
      apply stands
      unfold OutboxRow.afterWrite
      rw [(mem_filter.mp waiting).2,matching]
      rfl
    rw [afterWrite_eq_self present kept] at isAdd stands newest
    have isFor := (mem_filter.mp among).2
    rcases (plain before present).status with pending | applied | superseded
    · refine noAdds some notStanding before ?_ isAdd
      have waits : before ∈ outbox.queuedFor p.key :=
        mem_filter.mpr ⟨present,(before.waitsFor_iff_isFor p.key).mpr ⟨isFor,pending⟩⟩
      refine mem_filter.mpr ⟨waits,?_⟩
      cases matching : answers p before.queuedChange with
      | false => rfl
      | true => exact absurd (mem_filter.mpr ⟨waits,matching⟩) kept
    · obtain ⟨later,laterAmong,revoke,laterApplied,_⟩ :=
        exists_later_revoke plain notStanding among isAdd applied
      have untouched : later.afterWrite p = later := by
        apply afterWrite_eq_self (mem_filter.mp laterAmong).1
        intro answered
        have waits := (mem_filter.mp (mem_filter.mp answered).1).2
        rw [((later.waitsFor_iff_isFor p.key).mp waits).2] at laterApplied
        cases laterApplied
      have late := newest later
        (mem_append_left _ (mem_map.mpr ⟨later,laterAmong,untouched⟩)) revoke
        (by rw [laterApplied]; intro impossible; cases impossible)
      omega
    · exact stands superseded
  · rw [op] at add
    cases add

/-! ### What supports an add -/

namespace AccessState

def RevokeWaits (state : AccessState) (userId : String) (role : Role) : Prop :=
  ∃ row ∈ state.outbox.queuedFor (heldBy userId role), row.opType = .revoke

def Supported (state : AccessState) (userId : String) (role : Role) : Prop :=
  role ∈ state.closed userId ∨
    ∃ grant ∈ state.records.grants, grant.userId = userId ∧ grant.lapsed state.now = true ∧
      ¬ state.RevokeWaits userId grant.role ∧
      Reaches Role.mk state.records.rules grant.role role

def AddsSupported (state : AccessState) : Prop :=
  ∀ userId role, Uncovered state.outbox (heldBy userId role) → state.Supported userId role

end AccessState

def Revoked (writes : List (Bool × EnqueueParams)) (userId : String) (role : Role) : Prop :=
  ∃ write ∈ writes, write.2.key = heldBy userId role ∧ write.2.opType = .revoke

structure Reckoned (state next : AccessState) (writes : List (Bool × EnqueueParams)) : Prop where
  kept : ∀ grant ∈ state.records.grants, grant.lapsed state.now = true →
    ∀ role, Reaches Role.mk state.records.rules grant.role role →
      StillReached next grant role ∨ Revoked writes grant.userId role
  /-- Where a role is revoked, so is everything it reaches that is not held. -/
  chained : ∀ write ∈ writes, write.2.opType = .revoke →
    ∀ role, Reaches Role.mk state.records.rules (roleOf write.2) role →
      role ∈ next.closed write.2.userId ∨ Revoked writes write.2.userId role

variable {next state : AccessState}

section

variable {cause : Cause} {writes : List (Bool × EnqueueParams)}
  (effects : Effects cause state next writes)
include effects

theorem revoked_of_reaches {userId : String} {first role : Role}
    (held : first ∈ state.closed userId)
    (reached : Reaches Role.mk state.records.rules first role) :
    role ∈ next.closed userId ∨ Revoked writes userId role := by
  have wasHeld := AccessState.mem_closed_of_reaches held reached
  by_cases stays : role ∈ next.closed userId
  · exact .inl stays
  · exact .inr (effects.lost _ _ wasHeld stays)

theorem Reckoned.of_held (held : RevokesHeld state writes) (keeps : KeepsLapsed state next) :
    Reckoned state next writes := by
  constructor
  · intro grant mem ended role reached
    exact .inl (keeps grant mem ended role reached)
  · intro write mem revoke role reached
    exact revoked_of_reaches effects (held write mem revoke) reached

end

section Change

variable {cause : Cause} {state next : AccessState} {writes : List (Bool × EnqueueParams)}

theorem not_revokeWaits_of_add (effects : Effects cause state next writes)
    {write : Bool × EnqueueParams} (mem : write ∈ writes) (add : write.2.opType = .add) :
    ¬ next.RevokeWaits write.2.userId (roleOf write.2) := by
  rintro ⟨_,waiting,revoke⟩
  obtain ⟨single,_,_,-,own,-,queue⟩ := effects.enqueued.isolate effects.distinct mem
  rw [← key_eq_heldBy,queue] at waiting
  exact not_revoke_after_add single add own waiting revoke

theorem WithdrawsAll.noAdds (clean : WithdrawsAll state cause) (steady : state.Steady)
    (effects : Effects cause state next writes) {write : Bool × EnqueueParams}
    (mem : write ∈ writes) (single : write.2.Single) (revoke : write.2.opType = .revoke)
    (some : cancelled state.outbox write.2 ≠ [])
    (notStanding : standingFor zitadelTarget state.outbox write.2.key = false) :
    ∀ row ∈ uncancelled state.outbox write.2, row.opType ≠ .add := by
  obtain ⟨source,ref,covered⟩ := effects.caused write mem revoke
  obtain ⟨answered,present,queued,key⟩ :=
    queuedBy_of_cancelled steady.plain single revoke source ref covered some
  have alone := clean answered present queued (by rw [key]; exact notStanding)
  rw [key] at alone
  exact not_add_of_uncancelled single revoke source ref alone

theorem AccessState.AddsSupported.change (supported : state.AddsSupported)
    (steady : state.Steady) (effects : Effects cause state next writes)
    (reckoned : Reckoned state next writes)
    (clean : ∀ write ∈ writes, write.2.opType = .revoke → WithdrawsAll state cause) :
    next.AddsSupported := by
  intro userId role uncovered
  by_cases listed : heldBy userId role ∈ writeKeys writes
  · obtain ⟨write,mem,key⟩ := mem_map.mp listed
    obtain ⟨single,_,_,number,own,rows,-⟩ := effects.enqueued.isolate effects.distinct mem
    rcases single.op with add | revoke
    · rw [key_eq_heldBy] at key
      obtain ⟨rfl,rfl⟩ := heldBy_injective key
      rcases effects.added write mem add with held | ⟨grant,present,person,same,ended⟩
      · exact .inl held
      refine .inr ⟨grant,present,person,ended,?_,?_⟩
      · rw [same]
        exact not_revokeWaits_of_add effects mem add
      · rw [same]
        exact Reaches.refl _ _ _
    · rw [← key] at uncovered
      exact absurd uncovered (not_uncovered_after_revoke steady.plain revoke own number rows
        ((clean write mem revoke).noAdds steady effects mem single revoke))
  · have notRevoked : ¬ Revoked writes userId role := by
      rintro ⟨write,mem,key,-⟩
      exact listed (mem_map.mpr ⟨write,mem,key⟩)
    have before : Uncovered state.outbox (heldBy userId role) := by
      unfold Uncovered at uncovered ⊢
      rwa [effects.enqueued.rowsFor_of_notMem listed] at uncovered
    rcases supported userId role before with held | ⟨grant,mem,rfl,ended,free,reached⟩
    · exact .inl ((effects.unmoved listed).mpr held)
    rcases (reckoned.kept grant mem ended role reached).resolve_right notRevoked with
      held | ⟨kept,present,person,same,stillEnded,stillReached⟩
    · exact .inl held
    rw [← same] at stillReached free
    by_cases moved : heldBy grant.userId grant.role ∈ writeKeys writes
    · obtain ⟨write,among,key⟩ := mem_map.mp moved
      rw [key_eq_heldBy] at key
      obtain ⟨person',role'⟩ := heldBy_injective key
      obtain ⟨single,-⟩ := effects.enqueued.isolate effects.distinct among
      rcases single.op with add | revoke
      · refine .inr ⟨kept,present,person,stillEnded,?_,stillReached⟩
        have notWaiting := not_revokeWaits_of_add effects among add
        rwa [person',role',← same] at notWaiting
      · rw [← role'] at reached
        have chained := reckoned.chained write among revoke role reached
        rw [person'] at chained
        exact .inl (chained.resolve_right notRevoked)
    · refine .inr ⟨kept,present,person,stillEnded,?_,stillReached⟩
      rintro ⟨row,waiting,revoke⟩
      rw [same,effects.enqueued.queuedFor_of_notMem moved,← same] at waiting
      exact free ⟨row,waiting,revoke⟩

end Change

/-! ### Deliveries and the clock -/

section Deliver

variable {state next : AccessState} {row : OutboxRow}

theorem Delivered.rowsFor (delivered : Delivered state next row) (key : HeldRole) :
    next.outbox.rowsFor key = (state.outbox.rowsFor key).map (appliedIf row.id) := by
  unfold Outbox.rowsFor
  rw [delivered.rows,filter_map]
  congr 1
  apply filter_congr
  intro _ _member
  rw [Function.comp_apply]
  unfold appliedIf
  split <;> rfl

theorem Delivered.uncovered (delivered : Delivered state next row)
    (mem : row ∈ state.outbox.rows) (pending : row.status = .pending) {key : HeldRole}
    (uncovered : Uncovered next.outbox key) : Uncovered state.outbox key := by
  have intents (other : OutboxRow) : (appliedIf row.id other).opType = other.opType ∧
      (appliedIf row.id other).intentSeq = other.intentSeq := by
    unfold appliedIf
    split <;> exact ⟨rfl,rfl⟩
  have stands {other : OutboxRow} (present : other ∈ state.outbox.rowsFor key) :
      (appliedIf row.id other).status = .superseded ↔ other.status = .superseded := by
    unfold appliedIf
    split
    · next same =>
      rw [state.outbox.eq_of_id_eq (mem_filter.mp present).1 mem same,pending]
      constructor <;> intro impossible <;> cases impossible
    · exact Iff.rfl
  obtain ⟨_,among,isAdd,live,newest⟩ := uncovered
  rw [delivered.rowsFor] at among newest
  obtain ⟨before,present,rfl⟩ := mem_map.mp among
  refine ⟨before,present,(intents before).1.symm.trans isAdd,
    fun superseded => live ((stands present).mpr superseded),?_⟩
  intro later laterPresent revoke laterLive
  have late := newest _ (mem_map_of_mem laterPresent) ((intents later).1.trans revoke)
    fun superseded => laterLive ((stands laterPresent).mp superseded)
  rwa [(intents later).2,(intents before).2] at late

theorem AccessState.AddsSupported.deliver (supported : state.AddsSupported)
    (steady : state.Steady) (delivered : Delivered state next row)
    (mem : row ∈ state.outbox.rows) (pending : row.status = .pending) :
    next.AddsSupported := by
  intro userId role uncovered
  rcases supported userId role (delivered.uncovered mem pending uncovered) with
    held | ⟨grant,recorded,person,ended,free,reached⟩
  · exact .inl ((delivered.closed userId role).mpr held)
  refine .inr ⟨grant,?_,person,?_,?_,?_⟩
  · by_contra gone
    obtain ⟨revoke,key⟩ := delivered.dropped grant recorded gone
    have waits := (steady.plain row mem).waitsFor pending
    rw [← key,person] at waits
    exact free ⟨row,mem_filter.mpr ⟨mem,waits⟩,revoke⟩
  · rw [delivered.now]
    exact ended
  · rintro ⟨waiting,among,revoke⟩
    rw [delivered.queuedFor] at among
    exact free ⟨waiting,(mem_filter.mp among).1,revoke⟩
  · rw [delivered.rules]
    exact reached

end Deliver

section Tick

variable (state : AccessState) (elapsed : Nat)

theorem lapsed_tick {grant : DirectGrant} (ended : grant.lapsed state.now = true) :
    grant.lapsed (state.tick elapsed).now = true := by
  unfold DirectGrant.lapsed at ended ⊢
  cases found : grant.expiresAt with
  | none => rw [found] at ended; cases ended
  | some =>
    simp only [found,decide_eq_true_eq] at ended ⊢
    exact Nat.le_trans ended (Nat.le_add_right _ _)

theorem closed_tick_subset (userId : String) :
    (state.tick elapsed).closed userId ⊆ state.closed userId := by
  apply effectiveClosure_mono
  intro _ held
  rw [Records.mem_holdings] at held ⊢
  rcases held with ⟨grant,mem,person,current,same⟩ | bundled
  · refine .inl ⟨grant,mem,person,?_,same⟩
    cases ended : grant.lapsed state.now with
    | false => rfl
    | true =>
      rw [lapsed_tick state elapsed ended] at current
      cases current
  · exact .inr bundled

variable {state}

theorem AccessState.Steady.tick (steady : state.Steady) : (state.tick elapsed).Steady where
  plain := steady.plain
  revoking := fun userId role row waiting revoke held =>
    steady.revoking userId role row waiting revoke (closed_tick_subset state elapsed userId held)

theorem AccessState.AddsSupported.tick (supported : state.AddsSupported) (steady : state.Steady) :
    (state.tick elapsed).AddsSupported := by
  intro userId role uncovered
  rcases supported userId role uncovered with held | ⟨grant,mem,person,ended,free,reached⟩
  · obtain ⟨start,based,reached⟩ := mem_effectiveClosure.mp held
    by_cases counted : start ∈ state.records.holdings (state.now + elapsed) userId
    · exact .inl (mem_effectiveClosure.mpr ⟨start,counted,reached⟩)
    rw [Records.mem_holdings] at counted
    rcases (Records.mem_holdings _ _ _ _).mp based with
      ⟨grant,mem,person,current,rfl⟩ | bundled
    · refine .inr ⟨grant,mem,person,?_,?_,reached⟩
      · cases ended : grant.lapsed (state.tick elapsed).now with
        | true => rfl
        | false => exact absurd (.inl ⟨grant,mem,person,ended,rfl⟩) counted
      · rintro ⟨row,waiting,revoke⟩
        exact steady.revoking userId grant.role row waiting revoke
          (state.holdings_subset_closed userId based)
    · exact absurd (.inr bundled) counted
  · exact .inr ⟨grant,mem,person,lapsed_tick state elapsed ended,free,reached⟩

end Tick

/-! ### One expiry -/

def Known (records : Records) (candidate : DirectGrant) : Prop :=
  candidate.id < records.nextGrant ∧ ∀ grant ∈ records.grants, grant.id = candidate.id →
      grant.userId = candidate.userId ∧ grant.role = candidate.role

theorem Known.follow {before after : Records} {candidate : DirectGrant}
    (known : Known before candidate) (follows : GrantsFollow before after) :
    Known after candidate := by
  refine ⟨Nat.lt_of_lt_of_le known.1 follows.next,?_⟩
  intro grant mem same
  rcases follows.known grant mem with ⟨old,present,number,person,role⟩ | fresh
  · obtain ⟨user,sameRole⟩ := known.2 old present (number.trans same)
    exact ⟨person.symm.trans user,role.symm.trans sameRole⟩
  · rw [same] at fresh
    exact absurd known.1 (Nat.not_lt.mpr fresh)

theorem known_of_mem {records : Records} {grant : DirectGrant} (mem : grant ∈ records.grants) :
    Known records grant := by
  refine ⟨records.grantsNumbered grant mem,?_⟩
  intro _ present same
  rw [inj_on_of_nodup_map records.grantsDistinct present mem same]
  exact ⟨rfl,rfl⟩

theorem expired_reckoned {candidate : DirectGrant} (steady : state.Steady)
    (known : Known state.records candidate)
    (done : expireDirectGrant state candidate.userId candidate.id candidate.role = .ok next) :
    ∃ writes, Effects (expiryCause candidate) state next writes ∧ Reckoned state next writes := by
  obtain ⟨writes,effects,taken,within⟩ := expired_effects steady done
  obtain ⟨rules,now,-,-,others⟩ := expired_records done
  have revoked {role : Role} (reached : Reaches Role.mk state.records.rules candidate.role role) :
      role ∈ next.closed candidate.userId ∨ Revoked writes candidate.userId role := by
    by_cases held : role ∈ next.closed candidate.userId
    · exact .inl held
    · exact .inr (taken role reached held)
  refine ⟨writes,effects,?_,?_⟩
  · intro grant mem ended role reached
    by_cases same : grant.id = candidate.id
    · obtain ⟨person,sameRole⟩ := known.2 grant mem same
      rw [sameRole] at reached
      unfold StillReached
      rw [person]
      exact (revoked reached).imp .inl id
    · refine .inl (.inr ⟨grant,others grant mem same,rfl,rfl,?_,?_⟩)
      · rw [now]
        exact ended
      · rw [rules]
        exact reached
  · intro write mem revoke role reached
    obtain ⟨person,fromLapsed | held⟩ := within write mem revoke
    · rw [person]
      exact revoked (Relation.ReflTransGen.trans fromLapsed reached)
    · exact revoked_of_reaches effects held reached

/-! ### Every run -/

theorem Change.ledger {gate : Option CancelGate} {change : Change}
    (notByHand : change.byHand = false) (idle : AltersIdleRule state change)
    (done : change.perform gate state = some next) :
    KeepsLapsed state next ∧ GrantsFollow state.records next.records := by
  cases change with
  | give =>
    simp only [Change.perform] at done
    split at done
    · have gave := ok_of_toOption done
      refine ⟨gave_keepsLapsed gave,?_⟩
      rw [gave_records gave]
      exact GrantsFollow.upsert
    · cases done
  | removeGrant => cases notByHand
  | assign =>
    have same := assigned_sameLedger (ok_of_toOption done)
    exact ⟨same.keepsLapsed,same.follows⟩
  | unassign =>
    have same := unassigned_sameLedger (ok_of_toOption done)
    exact ⟨same.keepsLapsed,same.follows⟩
  | retireBundle =>
    have same := bundleRetired_sameLedger (ok_of_toOption done)
    exact ⟨same.keepsLapsed,same.follows⟩
  | createRule =>
    obtain ⟨changed,unmet⟩ := ruleCreated_changed (ok_of_toOption done)
    exact ⟨changed.keepsLapsed unmet,changed.follows⟩
  | updateRule =>
    have changed := ruleUpdated_changed (ok_of_toOption done)
    exact ⟨changed.keepsLapsed idle,changed.follows⟩
  | retireRule =>
    have changed := ruleRetired_changed (ok_of_toOption done)
    exact ⟨changed.keepsLapsed idle,changed.follows⟩

theorem nextGrant_reconcile {records : Records} {row : OutboxRow} :
    (reconcileLedgerOnApplied records outbox row).nextGrant = records.nextGrant := by
  unfold reconcileLedgerOnApplied
  cases row.opType <;> rfl

structure Accounted (state : SweepState) : Prop where
  steady : state.access.Steady
  supported : state.access.AddsSupported
  known : ∀ candidate ∈ state.candidates, Known state.access.records candidate

theorem accounted_step {state next : SweepState} {move : ExpiryMove}
    (accounted : Accounted state) (clean : SweepsCleanly state move)
    (taken : expiryStep state move = some next) : Accounted next := by
  obtain ⟨steady,supported,known⟩ := accounted
  cases move with
  | tick elapsed =>
    cases taken
    exact ⟨steady.tick elapsed,supported.tick elapsed steady,known⟩
  | change _ change =>
    simp only [expiryStep] at taken
    split at taken
    · cases taken
    rename_i notByHand
    obtain ⟨access,done,rfl⟩ := Option.map_eq_some_iff.mp taken
    obtain ⟨keeps,follows⟩ := Change.ledger (Bool.eq_false_iff.mpr notByHand) clean.1 done
    obtain ⟨writes,effects,held,adds⟩ := Change.effects steady done
    refine ⟨effects.steady steady, supported.change steady effects (.of_held effects held keeps) ?_,
      fun candidate listed => (known candidate listed).follow follows⟩
    intro write mem revoke
    cases removes : change.removes with
    | true => exact clean.2 removes
    | false => exact absurd revoke (adds removes write mem)
  | deliver =>
    simp only [expiryStep] at taken
    split at taken
    · cases taken
    rename_i row found
    obtain ⟨access,done,rfl⟩ := Option.map_eq_some_iff.mp taken
    have mem := mem_of_find?_eq_some found
    have matching := find?_some found
    simp only [Bool.and_eq_true,decide_eq_true_eq] at matching
    have delivered := applyRow_delivered steady mem matching.2 done
    refine ⟨delivered.steady steady, supported.deliver steady delivered mem matching.2,?_⟩
    intro candidate listed
    refine (known candidate listed).follow (.of_subset ?_ delivered.fewer)
    obtain ⟨outbox,-,rfl⟩ := Option.map_eq_some_iff.mp done
    exact nextGrant_reconcile
  | sweep =>
    cases taken
    refine ⟨steady,supported,?_⟩
    intro candidate listed
    rcases mem_append.mp listed with old | fetched
    · exact known candidate old
    have sorted := mem_of_mem_take fetched
    rw [mem_insertionSort] at sorted
    exact known_of_mem (mem_filter.mp sorted).1
  | expireOne candidate =>
    simp only [expiryStep] at taken
    split at taken
    · next listed =>
      split at taken
      · cases taken
        exact ⟨steady,supported,fun other among => known other (mem_of_mem_erase among)⟩
      rename_i access done
      cases taken
      obtain ⟨writes,effects,reckoned⟩ := expired_reckoned steady (known candidate listed) done
      refine ⟨effects.steady steady, supported.change steady effects reckoned fun _ _ _ => clean,?_⟩
      intro other among
      exact (known other (mem_of_mem_erase among)).follow
        (expired_records done).2.2.1
    · cases taken

theorem AccessState.AddsSupported.takenBack (supported : state.AddsSupported)
    (plain : ∀ row ∈ state.outbox.rows, PlainRow row)
    (swept : ∀ grant ∈ state.records.grants, grant.lapsed state.now = false) : TakenBack state := by
  intro add mem isAdd stands gone
  have key : rowKey add = heldBy add.userId (Role.mk add.projectId (add.roleKeys.headD "")) := rfl
  by_contra none
  have uncovered : Uncovered state.outbox (rowKey add) := by
    refine ⟨add,mem_filter.mpr ⟨mem,(plain add mem).isFor⟩,isAdd,stands,?_⟩
    intro later among revoke live
    obtain ⟨present,isFor⟩ := mem_filter.mp among
    by_contra newer
    exact none ⟨later,present,revoke,live,rowKey_eq_of_isFor isFor,Nat.not_le.mp newer⟩
  rw [key] at uncovered
  rcases supported _ _ uncovered with held | ⟨grant,recorded,-,ended,-⟩
  · exact gone held
  · rw [swept grant recorded] at ended
    cases ended

/-- From an empty queue, once no lapsed grant is left, every add that was not
withdrawn and whose role no record in force gives has a revoke after it. -/
theorem expired_access_taken_back {initial final : SweepState} {moves : List ExpiryMove}
    (unqueued : initial.access.outbox.rows = []) (idle : initial.candidates = [])
    (clean : Runs.Throughout expiryStep SweepsCleanly initial moves)
    (reached : Runs.run expiryStep initial moves = some final)
    (swept : ∀ grant ∈ final.access.records.grants, grant.lapsed final.access.now = false) :
    TakenBack final.access := by
  have start : Accounted initial := by
    refine ⟨⟨?_,?_⟩,?_,?_⟩
    · intro row mem
      rw [unqueued] at mem
      cases mem
    · intro userId role _ waiting
      have mem := (mem_filter.mp waiting).1
      rw [unqueued] at mem
      cases mem
    · rintro _ _ ⟨_,among,-⟩
      have mem := (mem_filter.mp among).1
      rw [unqueued] at mem
      cases mem
    · intro _ listed
      rw [idle] at listed
      cases listed
  have accounted := Runs.run_invariant Accounted accounted_step start clean reached
  exact accounted.supported.takenBack accounted.steady.plain swept

namespace Workshop

def quiet : SweepState :=
  { access :=
      { records := records.keepAssignments fun _ => false
        outbox := Outbox.empty
        zitadel := fun _ => false
        now := 0 }
    candidates := [] }

def giveMember : ExpiryMove :=
  .change none (.give
    { userId := "ada", projectId := "workshop", roleKey := "member", expiresAt := some 5
      endRule := .set, sourceRef := "", waitReason := none })

def lapsedMember : DirectGrant :=
  { id := 1, userId := "ada", projectId := "workshop", roleKey := "member", expiresAt := some 5
    source := .direct, sourceRef := "" }

def sweptAfterSending : List ExpiryMove :=
  [giveMember,.deliver 1,.deliver 2,.tick 6,.sweep 100,.expireOne lapsedMember]

theorem expired_access_taken_back_workshop :
    ∃ final, Runs.run expiryStep quiet sweptAfterSending = some final ∧ TakenBack final.access ∧
      final.access.outbox.rows.map (fun row => (row.opType, row.status)) =
        [(.add, .applied),(.add, .applied),(.revoke, .pending),(.revoke, .pending)] := by
  have ran : (Runs.run expiryStep quiet sweptAfterSending).any (fun final =>
      decide ((∀ grant ∈ final.access.records.grants, grant.lapsed final.access.now = false) ∧
        final.access.outbox.rows.map (fun row => (row.opType, row.status)) =
          [(.add, .applied),(.add, .applied),(.revoke, .pending),(.revoke, .pending)])) =
        true := by decide
  obtain ⟨final,reached,swept,rows⟩ := Runs.exists_reached ran
  exact ⟨final,reached,expired_access_taken_back rfl rfl (by decide) reached swept,rows⟩

/-- The rule is retired between the lapse and the sweep. -/
def retiredBeforeSweep : List ExpiryMove :=
  [giveMember,.deliver 1,.deliver 2,.tick 6,.change none (.retireRule "r1"),.sweep 100,
    .expireOne lapsedMember]

/-- A bundle gives the role anew after the lapse, and its removal withdraws only its own add. -/
def givenTwice : List ExpiryMove :=
  [giveMember,.tick 6,.change none (.assign "ada" "makers"),.sweep 100,.expireOne lapsedMember,
    .change reviewed (.unassign "ada" "makers")]

def Missed (moves : List ExpiryMove) : Prop :=
  ∃ final, Runs.run expiryStep quiet moves = some final ∧
    (∀ grant ∈ final.access.records.grants, grant.lapsed final.access.now = false) ∧
    ¬ TakenBack final.access

/-- The grant lapses before its add was sent: the sweep withdraws the add and
queues no revoke of the role. And two runs in which an add that was not withdrawn has none. -/
theorem withdrawn_add_has_no_revoke : (∃ final, Runs.run expiryStep quiet
        [giveMember,.tick 6,.sweep 100,.expireOne lapsedMember] = some final ∧
      (∀ grant ∈ final.access.records.grants, grant.lapsed final.access.now = false) ∧
      lapsedMember.role ∉ final.access.closed lapsedMember.userId ∧
      ∃ add ∈ final.access.outbox.rows, add.opType = .add ∧
        rowKey add = heldBy lapsedMember.userId lapsedMember.role ∧
        ∀ later ∈ final.access.outbox.rows, later.opType = .revoke → rowKey later ≠ rowKey add) ∧
      Missed retiredBeforeSweep ∧ Missed givenTwice :=
  ⟨Runs.exists_reached (by decide),Runs.exists_reached (by decide),Runs.exists_reached (by decide)⟩

end Workshop

end Syndra.Ledger
