/-
The limit on a member's own operations.

A first send is counted against the records of the window, and recorded in a second
statement; a resend is recorded without a count, once for each first send.
-/

import Syndra.Operate.Dispatch

namespace Syndra.Operate

open Foundation.Runs List Bool

def memberOpWindow : Nat := 3600

def defaultMemberOpRate : Nat := 10

def AddonOperation.isFirst (call : CallKey) (row : AddonOperation) : Bool :=
  row.call = call && row.retryOf.isNone

/-- The page's one automatic resend is not counted. -/
def countRecentAddonOperations (table : Table) (now window : Nat) (call : CallKey) : Nat :=
  table.rows.countP fun row => row.isFirst call && decide (now < row.createdAt + window)

structure RateState where
  table : Table
  now : Nat
  /-- Calls the limit let through that have yet to record, each with the number of first sends
  there were at its count. -/
  admitted : List Nat
  /-- The records whose request left. -/
  sent : List Nat

inductive RateMove where
  | count
  | record (seen id : Nat)
  | resend (id first : Nat)
  | claim (id : Nat)
  | settle (id : Nat) (status : Status)
  | tick
deriving DecidableEq

def firstSends (table : Table) (call : CallKey) : Nat :=
  table.rows.countP (AddonOperation.isFirst call)

section Step

variable (params : AddonOperationParams) (window limit : Nat)

def rateStep (state : RateState) : RateMove → Option RateState
  | .count =>
    match withinSubjectRate true
        (some (countRecentAddonOperations state.table state.now window params.call)) limit with
    | some _ => none
    | none =>
      some { state with
        admitted := firstSends state.table params.call :: state.admitted }
  | .record seen id =>
    if seen ∈ state.admitted then
      match insertAddonOperation state.table state.now id { params with retryOf := none } with
      | .ok table =>
        some { state with table := table, admitted := state.admitted.erase seen }
      | .error _ => none
    else none
  | .resend id first =>
    match insertAddonOperation state.table state.now id { params with retryOf := some first } with
    | .ok table => some { state with table := table }
    | .error _ => none
  | .claim id =>
    match claimAddonOperation state.table state.now id params.call with
    | .ok table => some { state with table := table, sent := id :: state.sent }
    | .error _ => none
  | .settle id status =>
    match settleAddonOperation state.table state.now id status with
    | .ok table => some { state with table := table }
    | .error _ => none
  | .tick => some { state with now := state.now + 1 }

end Step

def inWindow (call : CallKey) (window start : Nat) (row : AddonOperation) : Bool :=
  row.isFirst call && decide (start < row.createdAt) && decide (row.createdAt ≤ start + window)

def ofWindow (call : CallKey) (window start : Nat) (table : Table) (id : Nat) : Bool :=
  table.rows.any fun row => row.id = id &&
    (inWindow call window start row ||
      table.rows.any fun first => inWindow call window start first && row.retryOf = some first.id)

structure WithinLimit (call : CallKey) (window limit : Nat) (state : RateState) : Prop where
  records : ∀ start, state.table.rows.countP (inWindow call window start) ≤ limit
  requests : ∀ start, state.sent.countP (ofWindow call window start state.table) ≤ 2 * limit

def Uncontested (call : CallKey) (state : RateState) : RateMove → Prop
  | .record seen _ => seen = firstSends state.table call
  | _ => True

section Counts

variable {table after : Table} {claims : Option Nat} {settles : Option (Nat × Status)}
  {call : CallKey} {window now : Nat} {next row : AddonOperation}

theorem Changes.isFirst (changes : Changes claims settles row next) :
    next.isFirst call = row.isFirst call := by
  unfold AddonOperation.isFirst
  rw [changes.call,changes.retryOf]

theorem Table.Changed.countP (changed : table.Changed claims settles after)
    (p : AddonOperation → Bool)
    (same : ∀ row next, Changes claims settles row next → p next = p row) :
    after.rows.countP p = table.rows.countP p := by
  obtain ⟨set,rows,changes⟩ := changed
  rw [rows,countP_map]
  refine countP_congr fun row mem => ?_
  rw [Function.comp_apply,same row (set row) (changes row mem)]

theorem Table.Changed.claimed (changed : table.Changed claims settles after)
    (present : row ∈ table.rows) (claimed : row.claimedAt ≠ none) :
    ∃ next ∈ after.rows, next.id = row.id ∧ next.claimedAt ≠ none := by
  obtain ⟨set,rows,changes⟩ := changed
  refine ⟨set row,by rw [rows]; exact mem_map_of_mem present,(changes row present).key,?_⟩
  rcases (changes row present).claimed with same | ⟨unclaimed,-⟩
  · rw [same]
    exact claimed
  · exact absurd unclaimed claimed

theorem Changes.recent (changes : Changes claims settles row next) :
    (next.isFirst call && decide (now < next.createdAt + window)) =
      (row.isFirst call && decide (now < row.createdAt + window)) := by
  rw [changes.isFirst,changes.created]

variable {start : Nat}

theorem Changes.inWindow (changes : Changes claims settles row next) :
    inWindow call window start next = inWindow call window start row := by
  unfold Operate.inWindow
  rw [changes.isFirst,changes.created]

theorem countP_inWindow_le (table : Table) (call : CallKey) (reaches : now ≤ start + window) :
    table.rows.countP (inWindow call window start) ≤
      countRecentAddonOperations table now window call := by
  refine countP_mono_left fun row _ held => ?_
  simp only [Operate.inWindow,and_eq_true,decide_eq_true_eq] at held ⊢
  exact ⟨held.1.1,by omega⟩

theorem count_tick : countRecentAddonOperations table (now + 1) window call ≤
      countRecentAddonOperations table now window call := by
  refine countP_mono_left fun row _ held => ?_
  simp only [and_eq_true,decide_eq_true_eq] at held ⊢
  exact ⟨held.1,by omega⟩

end Counts

structure RateInvariant (call : CallKey) (window limit : Nat) (state : RateState) : Prop where
  records : ∀ start, state.table.rows.countP (inWindow call window start) ≤ limit
  admitted : ∀ seen ∈ state.admitted, seen ≤ firstSends state.table call ∧
    (seen = firstSends state.table call →
      countRecentAddonOperations state.table state.now window call < limit)
  sentOnce : state.sent.Nodup
  sentClaimed : ∀ id ∈ state.sent,
    ∃ row ∈ state.table.rows, row.id = id ∧ row.claimedAt ≠ none

section Steps

variable {params : AddonOperationParams} {call : CallKey} {window limit now id : Nat}
  {state next : RateState} {table after : Table}

theorem withinSubjectRate_none {count : Nat}
    (passed : withinSubjectRate true (some count) limit = none) : count < limit := by
  unfold withinSubjectRate at passed
  by_cases reached : limit ≤ count
  · simp [reached] at passed
  · omega

structure Appended (call : CallKey) (now : Nat) (first : Bool) (table after : Table) where
  row : AddonOperation
  rows : after.rows = table.rows ++ [row]
  isFirst : row.isFirst call = first
  created : row.createdAt = now

theorem appended_of_insert {p : AddonOperationParams} (sameCall : p.call = call)
    (inserted : insertAddonOperation table now id p = .ok after) :
    Nonempty (Appended call now p.retryOf.isNone table after) := by
  obtain ⟨row,-,hasCall,-,-,created,linked,rows⟩ := insertAddonOperation_ok inserted
  refine ⟨{ row, rows, created, isFirst := ?_ }⟩
  simp only [AddonOperation.isFirst,hasCall,sameCall,linked,decide_true,Bool.true_and]

variable {first : Bool}

theorem Appended.countP (appended : Appended call now first table after)
    (p : AddonOperation → Bool) :
    after.rows.countP p = table.rows.countP p + if p appended.row then 1 else 0 := by
  rw [appended.rows,countP_append,countP_singleton]

theorem Appended.claimed (appended : Appended call now first table after)
    {sent : List Nat}
    (exist : ∀ id ∈ sent, ∃ row ∈ table.rows, row.id = id ∧ row.claimedAt ≠ none) :
    ∀ id ∈ sent, ∃ row ∈ after.rows, row.id = id ∧ row.claimedAt ≠ none := by
  intro id left
  obtain ⟨row,present,facts⟩ := exist id left
  exact ⟨row,by rw [appended.rows]; exact mem_append_left _ present,facts⟩

section

variable (invariant : RateInvariant call window limit state)
include invariant

theorem record_keeps {admitted : List Nat}
    (appended : Appended call state.now true state.table after)
    (free : countRecentAddonOperations state.table state.now window call < limit)
    (kept : ∀ seen ∈ admitted, seen ∈ state.admitted) :
    RateInvariant call window limit { state with table := after, admitted := admitted } where
  records := by
    intro start
    rw [appended.countP]
    by_cases held : inWindow call window start appended.row = true
    · have reaches : state.now ≤ start + window := by
        simp only [inWindow,and_eq_true,decide_eq_true_eq,appended.created] at held
        exact held.2
      have before := countP_inWindow_le state.table call reaches
      rw [if_pos held]
      omega
    · rw [if_neg held]
      exact invariant.records start
  admitted := by
    intro seen mem
    have atMost := (invariant.admitted seen (kept seen mem)).1
    have grown : firstSends after call = firstSends state.table call + 1 := by
      unfold firstSends
      rw [appended.countP,if_pos appended.isFirst]
    exact ⟨by simp only [grown]; omega,fun same => by simp only [grown] at same; omega⟩
  sentOnce := invariant.sentOnce
  sentClaimed := appended.claimed invariant.sentClaimed

theorem resend_keeps
    (appended : Appended call state.now false state.table after) :
    RateInvariant call window limit { state with table := after } where
  records := by
    intro start
    have outside : inWindow call window start appended.row = false := by
      simp [inWindow,appended.isFirst]
    rw [appended.countP,outside]
    exact invariant.records start
  admitted := by
    intro seen mem
    have facts := invariant.admitted seen mem
    have sends : firstSends after call = firstSends state.table call := by
      unfold firstSends
      rw [appended.countP,appended.isFirst]
      rfl
    have recent : countRecentAddonOperations after state.now window call =
        countRecentAddonOperations state.table state.now window call := by
      unfold countRecentAddonOperations
      rw [appended.countP]
      simp [appended.isFirst]
    simp only [sends,recent]
    exact facts
  sentOnce := invariant.sentOnce
  sentClaimed := appended.claimed invariant.sentClaimed

theorem changed_keeps {claims : Option Nat} {settles : Option (Nat × Status)} {sent : List Nat}
    (changed : state.table.Changed claims settles after) (once : sent.Nodup)
    (claimed : ∀ id ∈ sent, ∃ row ∈ after.rows, row.id = id ∧ row.claimedAt ≠ none) :
    RateInvariant call window limit { state with table := after, sent := sent } where
  records := by
    intro start
    rw [changed.countP _ fun _ _ changes => changes.inWindow]
    exact invariant.records start
  admitted := by
    intro seen mem
    have facts := invariant.admitted seen mem
    have sends : firstSends after call = firstSends state.table call :=
      changed.countP _ fun _ _ changes => changes.isFirst
    have recent : countRecentAddonOperations after state.now window call =
        countRecentAddonOperations state.table state.now window call :=
      changed.countP _ fun _ _ changes => changes.recent
    simp only [sends,recent]
    exact facts
  sentOnce := once
  sentClaimed := claimed

theorem claim_keeps
    (claimed : claimAddonOperation state.table state.now id call = .ok after) :
    RateInvariant call window limit { state with table := after, sent := id :: state.sent } := by
  obtain ⟨⟨_,mem,hasId,-,unclaimed⟩,⟨next,present,sameId,-,now⟩,changed⟩ :=
    claimAddonOperation_ok claimed
  refine changed_keeps invariant changed (nodup_cons.mpr ⟨fun left => ?_,invariant.sentOnce⟩) ?_
  · obtain ⟨other,present,sameId,already⟩ := invariant.sentClaimed id left
    rw [state.table.eq_of_id present mem (sameId.trans hasId.symm)] at already
    exact already unclaimed
  intro one left
  rcases mem_cons.mp left with rfl | earlier
  · exact ⟨next,present,sameId,Option.isSome_iff_ne_none.mp now⟩
  · obtain ⟨_,present,rfl,already⟩ := invariant.sentClaimed one earlier
    exact changed.claimed present already

theorem settle_keeps {status : Status}
    (settled : settleAddonOperation state.table state.now id status = .ok after) :
    RateInvariant call window limit { state with table := after } := by
  have changed := settleAddonOperation_ok settled
  refine changed_keeps invariant changed invariant.sentOnce fun one left => ?_
  obtain ⟨_,present,rfl,already⟩ := invariant.sentClaimed one left
  exact changed.claimed present already

end

theorem rateStep_keeps {move : RateMove} (invariant : RateInvariant params.call window limit state)
    (uncontested : Uncontested params.call state move)
    (step : rateStep params window limit state move = some next) :
    RateInvariant params.call window limit next := by
  cases move with
  | count =>
    simp only [rateStep] at step
    split at step
    · cases step
    rename_i passed
    cases step
    refine { invariant with admitted := fun seen mem => ?_ }
    rcases mem_cons.mp mem with rfl | earlier
    · exact ⟨le_refl _,fun _ => withinSubjectRate_none passed⟩
    · exact invariant.admitted seen earlier
  | record seen =>
    simp only [rateStep] at step
    split at step
    · next waiting =>
      split at step
      · next inserted =>
        cases step
        obtain ⟨appended⟩ := appended_of_insert rfl inserted
        have free := (invariant.admitted seen waiting).2 uncontested
        exact record_keeps invariant appended free fun _ => mem_of_mem_erase
      · cases step
    · cases step
  | resend =>
    simp only [rateStep] at step
    split at step
    · next inserted =>
      cases step
      obtain ⟨appended⟩ := appended_of_insert rfl inserted
      exact resend_keeps invariant appended
    · cases step
  | claim =>
    simp only [rateStep] at step
    split at step
    · next claimed =>
      cases step
      exact claim_keeps invariant claimed
    · cases step
  | settle =>
    simp only [rateStep] at step
    split at step
    · next settled =>
      cases step
      exact settle_keeps invariant settled
    · cases step
  | tick =>
    cases step
    refine { invariant with admitted := fun seen mem => ?_ }
    obtain ⟨atMost,free⟩ := invariant.admitted seen mem
    exact ⟨atMost,fun same => lt_of_le_of_lt count_tick (free same)⟩

end Steps

section Requests

variable {call : CallKey} {window start : Nat} {table : Table}

def resendsOf (call : CallKey) (window start : Nat) (table : Table) : List AddonOperation :=
  table.rows.filter fun row =>
    table.rows.any fun first => inWindow call window start first && row.retryOf = some first.id

theorem rows_nodup (table : Table) : table.rows.Nodup :=
  table.constraints.1.imp fun {_ _} distinct same => distinct (congrArg AddonOperation.id same)

theorem resendsOf_length (call : CallKey) (window start : Nat) (table : Table) :
    (resendsOf call window start table).length ≤ table.rows.countP (inWindow call window start) := by
  have distinct : ((resendsOf call window start table).map AddonOperation.retryOf).Nodup := by
    refine Nodup.map_on (fun one inOne other inOther same => ?_) ((rows_nodup table).filter _)
    obtain ⟨present,linked⟩ := mem_filter.mp inOne
    obtain ⟨first,-,holds⟩ := any_eq_true.mp linked
    simp only [and_eq_true,decide_eq_true_eq] at holds
    exact table.oneResend present (mem_filter.mp inOther).1 (by rw [holds.2]; rfl) same
  have within : (resendsOf call window start table).map AddonOperation.retryOf ⊆
      (table.rows.filter (inWindow call window start)).map fun first => some first.id := by
    intro _ listed
    obtain ⟨_,mem,rfl⟩ := mem_map.mp listed
    obtain ⟨first,present,holds⟩ := any_eq_true.mp (mem_filter.mp mem).2
    simp only [and_eq_true,decide_eq_true_eq] at holds
    exact mem_map.mpr ⟨first,mem_filter.mpr ⟨present,holds.1⟩,holds.2.symm⟩
  have bound := (subperm_of_subset distinct within).length_le
  rwa [length_map,length_map,← countP_eq_length_filter] at bound

theorem requests_le {sent : List Nat} (once : sent.Nodup) :
    sent.countP (ofWindow call window start table) ≤
      2 * table.rows.countP (inWindow call window start) := by
  have within : sent.filter (ofWindow call window start table) ⊆
      (table.rows.filter (inWindow call window start) ++
        resendsOf call window start table).map AddonOperation.id := by
    intro _ listed
    obtain ⟨row,present,holds⟩ := any_eq_true.mp (mem_filter.mp listed).2
    simp only [and_eq_true,decide_eq_true_eq,or_eq_true] at holds
    refine mem_map.mpr ⟨row,mem_append.mpr ?_,holds.1⟩
    exact holds.2.imp (fun held => mem_filter.mpr ⟨present,held⟩)
      fun linked => mem_filter.mpr ⟨present,linked⟩
  have bound := (subperm_of_subset (once.filter _) within).length_le
  rw [length_map,length_append,← countP_eq_length_filter, ← countP_eq_length_filter] at bound
  have resends := resendsOf_length call window start table
  omega

end Requests

variable {call : CallKey} {state : RateState}

theorem RateInvariant.withinLimit {window limit : Nat}
    (invariant : RateInvariant call window limit state) : WithinLimit call window limit state where
  records := invariant.records
  requests := fun start =>
    (requests_le invariant.sentOnce).trans (Nat.mul_le_mul_left 2 (invariant.records start))

structure RateState.Fresh (call : CallKey) (state : RateState) : Prop where
  rows : ∀ row ∈ state.table.rows, row.call ≠ call
  admitted : state.admitted = []
  sent : state.sent = []

theorem RateState.Fresh.invariant (fresh : state.Fresh call)
    (window limit : Nat) : RateInvariant call window limit state where
  records := fun start => by
    have none : state.table.rows.countP (inWindow call window start) = 0 :=
      countP_eq_zero.mpr fun row mem => by
        simp [inWindow,AddonOperation.isFirst,fresh.rows row mem]
    omega
  admitted := fun seen mem => by rw [fresh.admitted] at mem; cases mem
  sentOnce := by rw [fresh.sent]; exact nodup_nil
  sentClaimed := fun id left => by rw [fresh.sent] at left; cases left

/-- Where nothing is recorded between a call's count and its record, no window holds more
first sends than the limit, nor lets more requests than twice the limit leave. -/
theorem member_within_limit (params : AddonOperationParams) (window limit : Nat)
    {start final : RateState} (fresh : start.Fresh params.call) {moves : List RateMove}
    (uncontested : Throughout (rateStep params window limit) (Uncontested params.call) start moves)
    (runs : run (rateStep params window limit) start moves = some final) :
    WithinLimit params.call window limit final := by
  have invariant : RateInvariant params.call window limit final :=
    run_invariant (RateInvariant params.call window limit)
      rateStep_keeps
      (fresh.invariant window limit) uncontested runs
  exact invariant.withinLimit

namespace Rushed

def passwordSet : AddonOperationParams :=
  { target := "nas", operation := "password.set", actorId := "ada", subjectId := "ada",
    about := "", retryOf := none }

def start : RateState :=
  { table := Table.empty, now := 1, admitted := [], sent := [] }

def step : RateState → RateMove → Option RateState :=
  rateStep passwordSet memberOpWindow defaultMemberOpRate

theorem start_fresh : start.Fresh passwordSet.call where
  rows := fun _ => nofun
  admitted := rfl
  sent := rfl

def oneByOne : List RateMove :=
  [.count,.record 0 1,.claim 1,.resend 2 1,.claim 2,.tick,.count,.record 1 3,.claim 3]

theorem oneByOne_uncontested : Throughout step (Uncontested passwordSet.call) start oneByOne :=
  ⟨trivial,rfl,trivial,trivial,trivial,trivial,trivial,rfl,trivial,trivial⟩

def afterOneByOne : RateState := (run step start oneByOne).getD start

theorem member_within_limit_one_by_one :
    WithinLimit passwordSet.call memberOpWindow defaultMemberOpRate afterOneByOne :=
  member_within_limit passwordSet memberOpWindow defaultMemberOpRate start_fresh oneByOne_uncontested
    (by rfl)

def rush : List RateMove :=
  replicate 11 .count ++ (range 11).map (RateMove.record 0)

def afterRush : RateState := (run step start rush).getD start

theorem member_outruns_limit : run step start rush = some afterRush ∧
      ¬ WithinLimit passwordSet.call memberOpWindow defaultMemberOpRate afterRush := by
  refine ⟨rfl,fun within => ?_⟩
  have outrun : defaultMemberOpRate <
      afterRush.table.rows.countP (inWindow passwordSet.call memberOpWindow 0) := by
    decide +kernel
  exact absurd (within.records 0) (Nat.not_le_of_lt outrun)

end Rushed

end Syndra.Operate
