/-
One record, one request, one outcome.

A claim has one winner, so only one caller ever sends under a record, and only a dispatcher
settles the record its own request went out under.
-/

import Syndra.Foundation.Places
import Syndra.Operate.Dispatch

namespace Syndra.Operate

open Foundation List Operate.System Places

/-! ### The property -/

def Event.sentUnder (id : Nat) : Event → Bool
  | .sent other _ => other = id
  | _ => false

def sentCount (id : Nat) (log : List Event) : Nat := log.countP (Event.sentUnder id)

def ClaimedFor (log : List Event) (id : Nat) (call : CallKey) : Prop :=
  ∃ first later : Nat, first < later ∧ log[first]? = some (.committed id call) ∧
    log[later]? = some (.claimed id)

def EndedSo (log : List Event) (id : Nat) (outcome : Outcome) : Prop :=
  (∃ call, .sent id call ∈ log) ∧ .ended id outcome ∈ log

structure OneRequest (earlier later : System) : Prop where
  once : ∀ id, sentCount id later.log ≤ 1
  ownCall : ∀ id call, .sent id call ∈ later.log →
    ∃ row ∈ later.table.rows, row.id = id ∧ row.call = call
  claimedBefore : ∀ place id call, later.log[place]? = some (.sent id call) →
    ClaimedFor (later.log.take place) id call
  endedSo : ∀ row ∈ later.table.rows, ∀ outcome, outcome = .succeeded ∨ outcome = .rejected →
    row.status = statusFor outcome → EndedSo later.log row.id outcome
  settled : ∀ row ∈ earlier.table.rows, row.status ≠ .dispatching →
    ∃ next ∈ later.table.rows, next.id = row.id ∧ next.status = row.status
  answered : ∀ row ∈ earlier.table.rows, row.answered →
    ∃ next ∈ later.table.rows, next.id = row.id ∧ next.status ≠ .succeeded
  oneResend : ∀ one ∈ later.table.rows, ∀ other ∈ later.table.rows, one.retryOf.isSome →
    one.retryOf = other.retryOf → one = other

/-- No kept-alive connection closes under a request before its answer begins. -/
def System.Steady (_ : System) : Move → Prop
  | .request _ network => network.Steady
  | _ => True

instance (system : System) (move : Move) : Decidable (system.Steady move) := by
  cases move with
  | request index network =>
    unfold System.Steady
    infer_instance
  | _ => exact instDecidableTrue

/-! ### Logs -/

section Logs

variable {log more : List Event} {id : Nat} {call : CallKey}

theorem ClaimedFor.append (claimed : ClaimedFor log id call) (more : List Event) :
    ClaimedFor (log ++ more) id call := by
  obtain ⟨first,later,before,isCommitted,isClaimed⟩ := claimed
  refine ⟨first,later,before,?_,?_⟩
  · rw [List.getElem?_append_left (List.getElem?_eq_some_iff.mp isCommitted).1]
    exact isCommitted
  · rw [List.getElem?_append_left (List.getElem?_eq_some_iff.mp isClaimed).1]
    exact isClaimed

theorem ClaimedFor.committed (claimed : ClaimedFor log id call) : .committed id call ∈ log := by
  obtain ⟨_,_,_,isCommitted,-⟩ := claimed
  exact mem_of_getElem? isCommitted

theorem ClaimedFor.claimed (claimed : ClaimedFor log id call) : .claimed id ∈ log := by
  obtain ⟨_,_,_,-,isClaimed⟩ := claimed
  exact mem_of_getElem? isClaimed

private theorem claimedFor_of_claim (isCommitted : .committed id call ∈ log) :
    ClaimedFor (log ++ [.claimed id]) id call := by
  obtain ⟨first,found⟩ := mem_iff_getElem?.mp isCommitted
  have bound := (List.getElem?_eq_some_iff.mp found).1
  refine ⟨first,log.length,bound,?_,getElem?_concat_length⟩
  rw [getElem?_append_left bound]
  exact found

private theorem claimedBefore_append
    (before : ∀ place id call, log[place]? = some (.sent id call) →
      ClaimedFor (log.take place) id call)
    (claimed : ∀ id call, .sent id call ∈ more → ClaimedFor log id call) (place : Nat)
    (id : Nat) (call : CallKey) (found : (log ++ more)[place]? = some (.sent id call)) :
    ClaimedFor ((log ++ more).take place) id call := by
  rcases Nat.lt_or_ge place log.length with inside | beyond
  · rw [getElem?_append_left inside] at found
    rw [take_append_of_le_length (Nat.le_of_lt inside)]
    exact before place id call found
  · rw [getElem?_append_right beyond] at found
    rw [take_append,take_of_length_le beyond]
    exact (claimed id call (mem_of_getElem? found)).append _

private theorem sentCount_append : sentCount id (log ++ more) =
    sentCount id log + sentCount id more :=
  countP_append

private theorem sentCount_eq_zero (unsent : ∀ call, .sent id call ∉ log) : sentCount id log =
    0 := by
  refine countP_eq_zero.mpr fun event mem => ?_
  cases event with
  | sent _ call =>
    simp only [Event.sentUnder,decide_eq_true_eq]
    rintro rfl
    exact unsent call mem
  | _ => exact Bool.false_ne_true

theorem EndedSo.append {outcome : Outcome} (ended : EndedSo log id outcome)
    (more : List Event) : EndedSo (log ++ more) id outcome := by
  obtain ⟨⟨call,sent⟩,isEnded⟩ := ended
  exact ⟨⟨call,mem_append_left more sent⟩,mem_append_left more isEnded⟩

end Logs

/-! ### The invariant -/

def Phase.Owns (log : List Event) (id : Nat) : Phase → Prop
  | .starting _ => True
  | .calling request => ∃ call, request.record = some { callId := id, call := call }
  | .sending record => record.callId = id
  | .answered outcome => outcome = .succeeded ∨ outcome = .rejected → EndedSo log id outcome
  | .over => True

structure Recorded (table : Table) (log : List Event) : Prop where
  committed : ∀ row ∈ table.rows, .committed row.id row.call ∈ log
  recorded : ∀ id call, .committed id call ∈ log →
    ∃ row ∈ table.rows, row.id = id ∧ row.call = call
  claimed : ∀ id, .claimed id ∈ log → ∃ row ∈ table.rows, row.id = id ∧ row.claimedAt.isSome
  claimedBefore : ∀ place id call, log[place]? = some (.sent id call) →
    ClaimedFor (log.take place) id call
  once : ∀ id, sentCount id log ≤ 1
  endedSo : ∀ row ∈ table.rows, ∀ outcome, outcome = .succeeded ∨ outcome = .rejected →
    row.status = statusFor outcome → EndedSo log row.id outcome
  answered : ∀ row ∈ table.rows, row.answered → row.status = .indeterminate

structure Caller.Sound (log : List Event) (caller : Caller) : Prop where
  sending : ∀ record, caller.phase = .sending record →
    ClaimedFor log record.callId record.call ∧ ∀ call, .sent record.callId call ∉ log
  owns : ∀ id, caller.own = some id → caller.phase.Owns log id

structure Invariant (system : System) : Prop where
  recorded : Recorded system.table system.log
  sound : ∀ caller ∈ system.callers, caller.Sound system.log
  apart : ∀ (first second : Nat) (one another : Caller) (record other : DispatchRecord),
    system.callers[first]? = some one → system.callers[second]? = some another → first ≠ second →
      one.phase = .sending record → another.phase = .sending other →
        record.callId ≠ other.callId

private theorem statusFor_answer {outcome : Outcome}
    (isAnswer : outcome = .succeeded ∨ outcome = .rejected) :
    statusFor outcome ≠ .unreached ∧ statusFor outcome ≠ .indeterminate ∧
      statusFor outcome ≠ .dispatching := by
  rcases isAnswer with rfl | rfl <;> decide

section Tables

variable {table after : Table} {log more : List Event} {id : Nat} {call : CallKey}

private theorem Recorded.sent_claimed (recorded : Recorded table log) (sent : .sent id call ∈ log) :
    ClaimedFor log id call := by
  obtain ⟨place,found⟩ := mem_iff_getElem?.mp sent
  have claimed := (recorded.claimedBefore place id call found).append (log.drop place)
  rw [take_append_drop] at claimed
  exact claimed

theorem Recorded.changed {claims : Option Nat} {settles : Option (Nat × Status)}
    (recorded : Recorded table log) (changed : table.Changed claims settles after)
    (settling : ∀ id outcome, outcome = .succeeded ∨ outcome = .rejected →
      settles = some (id, statusFor outcome) → EndedSo log id outcome) :
    Recorded after log := by
  obtain ⟨set,rows,changes⟩ := changed
  have each {next : AddonOperation} (mem : next ∈ after.rows) :
      ∃ row ∈ table.rows, Changes claims settles row next := by
    rw [rows] at mem
    obtain ⟨row,inRows,rfl⟩ := mem_map.mp mem
    exact ⟨row,inRows,changes row inRows⟩
  have kept {row : AddonOperation} (mem : row ∈ table.rows) : set row ∈ after.rows := by
    rw [rows]
    exact mem_map_of_mem mem
  refine ⟨?_,?_,?_,recorded.claimedBefore,recorded.once,?_,?_⟩
  · intro next mem
    obtain ⟨row,inRows,change⟩ := each mem
    rw [change.key,change.call]
    exact recorded.committed row inRows
  · intro id call isCommitted
    obtain ⟨row,mem,hasId,hasCall⟩ := recorded.recorded id call isCommitted
    have change := changes row mem
    exact ⟨set row,kept mem,change.key.trans hasId,change.call.trans hasCall⟩
  · intro id isClaimed
    obtain ⟨row,mem,hasId,isSome⟩ := recorded.claimed id isClaimed
    have change := changes row mem
    refine ⟨set row,kept mem,change.key.trans hasId,?_⟩
    rcases change.claimed with same | ⟨_,nowClaimed,-⟩
    · rw [same]
      exact isSome
    · exact nowClaimed
  · intro next mem outcome isAnswer hasStatus
    obtain ⟨row,inRows,change⟩ := each mem
    rw [change.key]
    rcases change.status with same | ⟨-,unreached | lost | settled⟩
    · exact recorded.endedSo row inRows outcome isAnswer (same.symm.trans hasStatus)
    · exact absurd (hasStatus.symm.trans unreached) (statusFor_answer isAnswer).1
    · exact absurd (hasStatus.symm.trans lost) (statusFor_answer isAnswer).2.1
    · rw [hasStatus] at settled
      exact settling row.id outcome isAnswer settled
  · intro _ mem isAnswered
    obtain ⟨row,inRows,change⟩ := each mem
    rcases change.answered isAnswered with before | now
    · have lost := recorded.answered row inRows before
      rcases change.status with same | ⟨waiting,-⟩
      · rw [same]
        exact lost
      · rw [lost] at waiting
        cases waiting
    · exact now

theorem Recorded.append (recorded : Recorded table log)
    (committed : ∀ id call, .committed id call ∈ more →
      ∃ row ∈ table.rows, row.id = id ∧ row.call = call)
    (claimed : ∀ id, .claimed id ∈ more → ∃ row ∈ table.rows, row.id = id ∧ row.claimedAt.isSome)
    (sent : ∀ id call, .sent id call ∈ more → ClaimedFor log id call)
    (once : ∀ id, sentCount id (log ++ more) ≤ 1) : Recorded table (log ++ more) where
  committed := fun row mem => mem_append_left more (recorded.committed row mem)
  recorded := fun id call mem =>
    (mem_append.mp mem).elim (recorded.recorded id call) (committed id call)
  claimed := fun id mem =>
    (mem_append.mp mem).elim (recorded.claimed id) (claimed id)
  claimedBefore := claimedBefore_append recorded.claimedBefore sent
  once := once
  endedSo := fun row mem outcome isAnswer hasStatus =>
    (recorded.endedSo row mem outcome isAnswer hasStatus).append more
  answered := recorded.answered

theorem Recorded.insert {row : AddonOperation} (recorded : Recorded table log)
    (rows : after.rows = table.rows ++ [row]) (waiting : row.status = .dispatching)
    (unanswered : row.resolution = none) :
    Recorded after (log ++ [.committed row.id row.call]) := by
  have old {other : AddonOperation} (mem : other ∈ table.rows) : other ∈ after.rows := by
    rw [rows]
    exact mem_append_left _ mem
  have new : row ∈ after.rows := by
    rw [rows]
    exact mem_append_right _ (mem_singleton_self row)
  have each {other : AddonOperation} (mem : other ∈ after.rows) :
      other ∈ table.rows ∨ other = row := by
    rw [rows] at mem
    exact (mem_append.mp mem).imp_right mem_singleton.mp
  refine ⟨?_,?_,?_,?_,?_,?_,?_⟩
  · intro other mem
    rcases each mem with before | rfl
    · exact mem_append_left _ (recorded.committed other before)
    · exact mem_append_right _ (mem_singleton_self _)
  · intro id call mem
    rcases mem_append.mp mem with before | now
    · obtain ⟨other,inRows,facts⟩ := recorded.recorded id call before
      exact ⟨other,old inRows,facts⟩
    · cases mem_singleton.mp now
      exact ⟨row,new,rfl,rfl⟩
  · intro id mem
    rcases mem_append.mp mem with before | now
    · obtain ⟨other,inRows,facts⟩ := recorded.claimed id before
      exact ⟨other,old inRows,facts⟩
    · cases mem_singleton.mp now
  · refine claimedBefore_append recorded.claimedBefore fun id call now => ?_
    cases mem_singleton.mp now
  · intro id
    rw [sentCount_append]
    exact recorded.once id
  · intro other mem outcome isAnswer hasStatus
    rcases each mem with before | rfl
    · exact (recorded.endedSo other before outcome isAnswer hasStatus).append _
    exact absurd (hasStatus.symm.trans waiting) (statusFor_answer isAnswer).2.2
  · intro other mem isAnswered
    rcases each mem with before | rfl
    · exact recorded.answered other before isAnswered
    unfold AddonOperation.answered at isAnswered
    rw [unanswered] at isAnswered
    cases isAnswered

end Tables

section Callers

variable {system : System} {caller : Caller} {log more : List Event}

theorem Phase.Owns.append {id : Nat} {phase : Phase} (owns : phase.Owns log id)
    (more : List Event) : phase.Owns (log ++ more) id := by
  cases phase with
  | answered => exact fun isAnswer => (owns isAnswer).append more
  | _ => exact owns

theorem Caller.Sound.append (sound : caller.Sound log)
    (unsent : ∀ record call, caller.phase = .sending record →
      .sent record.callId call ∉ more) : caller.Sound (log ++ more) where
  sending := fun record isSending =>
    ⟨(sound.sending record isSending).1.append more,fun call mem =>
      (mem_append.mp mem).elim ((sound.sending record isSending).2 call)
        (unsent record call isSending)⟩
  owns := fun id isOwn => (sound.owns id isOwn).append more

private theorem sound_over : ({ caller with phase := .over } : Caller).Sound log :=
  ⟨nofun,fun _ _ => trivial⟩

private theorem sound_refused :
    ({ caller with phase := .answered .unreached } : Caller).Sound log := by
  refine ⟨nofun,fun _ _ isAnswer => ?_⟩
  rcases isAnswer with succeeded | rejected
  · cases succeeded
  · cases rejected

private theorem mem_of_put {index : Nat} {other : Caller}
    (mem : other ∈ (system.put index caller).callers) :
    other = caller ∨ other ∈ system.callers :=
  (mem_or_eq_of_mem_set mem).symm

theorem Invariant.put (invariant : Invariant system) (index : Nat)
    (sound : caller.Sound system.log) (idle : ∀ record, caller.phase ≠ .sending record) :
    Invariant (system.put index caller) := by
  refine ⟨invariant.recorded,?_,?_⟩
  · intro other mem
    rcases mem_of_put mem with rfl | old
    · exact sound
    · exact invariant.sound other old
  intro first second one another record other atFirst atSecond different oneSends anotherSends
  rcases of_set atFirst with ⟨-,rfl⟩ | ⟨-,oldFirst⟩
  · exact absurd oneSends (idle record)
  rcases of_set atSecond with ⟨-,rfl⟩ | ⟨-,oldSecond⟩
  · exact absurd anotherSends (idle other)
  · exact invariant.apart first second one another record other oldFirst oldSecond different
      oneSends anotherSends

theorem Invariant.join (invariant : Invariant system) (unowned : caller.own = none)
    (idle : ∀ record, caller.phase ≠ .sending record) : Invariant (system.join caller) := by
  have sound : caller.Sound system.log := by
    refine ⟨fun record isSending => absurd isSending (idle record),fun id isOwn => ?_⟩
    rw [unowned] at isOwn
    cases isOwn
  refine ⟨invariant.recorded,?_,?_⟩
  · intro other mem
    rcases mem_append.mp mem with old | new
    · exact invariant.sound other old
    · cases mem_singleton.mp new
      exact sound
  · intro first second one another record other atFirst atSecond different oneSends anotherSends
    rcases of_append atFirst with oldFirst | ⟨-,rfl⟩
    · rcases of_append atSecond with oldSecond | ⟨-,rfl⟩
      · exact invariant.apart first second one another record other oldFirst oldSecond different
          oneSends anotherSends
      · exact absurd anotherSends (idle other)
    · exact absurd oneSends (idle record)

variable {table : Table}

section

variable (invariant : Invariant system)
include invariant

theorem Invariant.changed {settles : Option (Nat × Status)}
    (changed : system.table.Changed none settles table)
    (settling : ∀ id outcome, outcome = .succeeded ∨ outcome = .rejected →
      settles = some (id, statusFor outcome) → EndedSo system.log id outcome) :
    Invariant { system with table := table } :=
  ⟨invariant.recorded.changed changed settling,invariant.sound,invariant.apart⟩

private theorem Invariant.unsettling
    (changed : system.table.Changed none none table) :
    Invariant { system with table := table } ∧ system.table.Follows table :=
  ⟨invariant.changed changed nofun,follows_of_changed changed⟩

theorem Invariant.append
    (recorded : Recorded table (system.log ++ more)) (unsent : ∀ id call, .sent id call ∉ more) :
    Invariant { system with table := table, log := system.log ++ more } :=
  ⟨recorded,fun caller mem => (invariant.sound caller mem).append
    fun record call _ => unsent record.callId call,invariant.apart⟩

theorem Invariant.over (index : Nat) (caller : Caller) :
    Invariant (system.put index { caller with phase := .over }) :=
  invariant.put index sound_over nofun

theorem Invariant.refused (index : Nat) (caller : Caller) :
    Invariant (system.put index { caller with phase := .answered .unreached }) :=
  invariant.put index sound_refused nofun

end

end Callers

/-! ### Steps -/

section Steps

variable {system : System} {caller : Caller} {index : Nat}

theorem Invariant.beginStep (invariant : Invariant system) (id : Nat) (caller : Caller)
    (params : AddonOperationParams) (mishap : Option Mishap) :
    Invariant (system.beginStep index id caller params mishap) := by
  unfold System.beginStep
  split
  · exact invariant.over index caller
  split
  · exact invariant.over index caller
  rename_i table inserted
  obtain ⟨row,rfl,hasCall,waiting,unanswered,-,-,rows⟩ := insertAddonOperation_ok inserted
  have recorded := invariant.recorded.insert rows waiting unanswered
  rw [hasCall] at recorded
  have appended := invariant.append recorded
    fun id call mem => by cases mem_singleton.mp mem
  split
  · exact appended.over index caller
  refine appended.put index ⟨nofun,?_⟩ nofun
  rintro id ⟨⟩
  exact ⟨params.call,rfl⟩

variable {record : DispatchRecord} {count : Nat} {outcome : Outcome}

variable {request : CallRequest} {id : Nat}

variable {gate : Gate} {log : List Event}

private theorem admitted_ok {path : Path}
    (admitted : System.admitted path request gate = .ok record) :
    request.record = some record := by
  unfold System.admitted at admitted
  split at admitted
  · unfold CallRequest.admitted at admitted
    split at admitted
    · cases admitted
    split at admitted
    · cases admitted
    split at admitted
    · cases admitted
    rename_i found
    split at admitted
    · cases admitted
    split at admitted
    · cases admitted
    split at admitted
    · cases admitted
    split at admitted
    · cases admitted
    · cases admitted
      exact found
  · split at admitted
    · cases admitted
    · cases admitted
    rename_i found
    cases admitted
    exact found

theorem Invariant.unclaimed (invariant : Invariant system) {row : AddonOperation}
    (mem : row ∈ system.table.rows) (unclaimed : row.claimedAt = none) :
    .claimed row.id ∉ system.log := by
  intro isClaimed
  obtain ⟨_,inRows,sameId,isSome⟩ := invariant.recorded.claimed row.id isClaimed
  cases system.table.eq_of_id inRows mem sameId
  rw [unclaimed] at isSome
  cases isSome

theorem Invariant.claimStep (invariant : Invariant system)
    (found : system.callers[index]? = some caller) (calling : caller.phase = .calling request)
    (gate : Gate) (mishap : Option Mishap) :
    Invariant (system.claimStep index caller request gate mishap) := by
  unfold System.claimStep
  split
  · exact invariant.refused index caller
  rename_i record admits
  split
  · exact invariant.refused index caller
  split
  · exact invariant.refused index caller
  rename_i table claimed
  obtain ⟨⟨row,mem,hasId,hasCall,unclaimed⟩,⟨next,inAfter,nextId,-,isSome⟩,
    changed⟩ := claimAddonOperation_ok claimed
  have unspent : .claimed record.callId ∉ system.log := by
    rw [← hasId]
    exact invariant.unclaimed mem unclaimed
  have isCommitted : .committed record.callId record.call ∈ system.log := by
    rw [← hasId,← hasCall]
    exact invariant.recorded.committed row mem
  have recorded : Recorded table (system.log ++ [.claimed record.callId]) := by
    refine (invariant.recorded.changed changed nofun).append ?_ ?_ ?_ fun id => ?_
    · intro id call now
      cases mem_singleton.mp now
    · intro id now
      cases mem_singleton.mp now
      exact ⟨next,inAfter,nextId,isSome⟩
    · intro id call now
      cases mem_singleton.mp now
    · rw [sentCount_append]
      exact invariant.recorded.once id
  have appended := invariant.append recorded
    fun id call now => by cases mem_singleton.mp now
  split
  · exact appended.refused index caller
  have others {other : Caller} {spent : DispatchRecord} (inCallers : other ∈ system.callers)
      (isSending : other.phase = .sending spent) : spent.callId ≠ record.callId := by
    intro same
    apply unspent
    rw [← same]
    exact ((invariant.sound other inCallers).sending spent isSending).1.claimed
  have sound : ({ caller with phase := .sending record } : Caller).Sound
      (system.log ++ [.claimed record.callId]) := by
    refine ⟨?_,?_⟩
    · rintro spent ⟨⟩
      refine ⟨claimedFor_of_claim isCommitted,fun call sent => ?_⟩
      rcases mem_append.mp sent with before | now
      · exact unspent (invariant.recorded.sent_claimed before).claimed
      · cases mem_singleton.mp now
    · intro id isOwn
      have owns := (invariant.sound caller (mem_of_getElem? found)).owns id isOwn
      rw [calling] at owns
      obtain ⟨call,hasRecord⟩ := owns
      rw [admitted_ok admits] at hasRecord
      cases hasRecord
      rfl
  refine ⟨recorded,?_,?_⟩
  · intro other inCallers
    rcases mem_of_put inCallers with rfl | old
    · exact sound
    · exact appended.sound other old
  intro first second one another spent other atFirst atSecond different oneSends
    anotherSends
  rcases of_set atFirst with ⟨rfl,rfl⟩ | ⟨-,oldFirst⟩
  · rcases of_set atSecond with ⟨rfl,-⟩ | ⟨-,oldSecond⟩
    · exact absurd rfl different
    · cases oneSends
      exact (others (mem_of_getElem? oldSecond) anotherSends).symm
  rcases of_set atSecond with ⟨rfl,rfl⟩ | ⟨-,oldSecond⟩
  · cases anotherSends
    exact others (mem_of_getElem? oldFirst) oneSends
  · exact invariant.apart first second one another spent other oldFirst oldSecond
      different oneSends anotherSends

def exchanged (record : DispatchRecord) (count : Nat) (outcome : Outcome) : List Event :=
  replicate count (.sent record.callId record.call) ++ [.ended record.callId outcome]

private theorem mem_exchanged {event : Event} (mem : event ∈ exchanged record count outcome) :
    event = .sent record.callId record.call ∨ event = .ended record.callId outcome :=
  (mem_append.mp mem).imp eq_of_mem_replicate mem_singleton.mp

private theorem sentCount_exchanged_self :
    sentCount record.callId (exchanged record count outcome) ≤ count := by
  unfold exchanged
  rw [sentCount_append]
  have few : sentCount record.callId (replicate count (.sent record.callId record.call)) ≤
      count := countP_le_length.trans_eq length_replicate
  exact few

private theorem sentCount_exchanged_of_ne (different : id ≠ record.callId) :
    sentCount id (exchanged record count outcome) = 0 := by
  refine sentCount_eq_zero fun call mem => ?_
  rcases mem_exchanged mem with sent | ended
  · cases sent
    exact different rfl
  · cases ended

private theorem Recorded.exchanged {table : Table} (recorded : Recorded table log)
    (claimed : ClaimedFor log record.callId record.call)
    (unsent : ∀ call, .sent record.callId call ∉ log) (atMost : count ≤ 1) (outcome : Outcome) :
    Recorded table (log ++ exchanged record count outcome) := by
  refine recorded.append ?_ ?_ ?_ fun id => ?_
  · intro id call mem
    rcases mem_exchanged mem with sent | ended
    · cases sent
    · cases ended
  · intro id mem
    rcases mem_exchanged mem with sent | ended
    · cases sent
    · cases ended
  · intro id _ mem
    rcases mem_exchanged mem with sent | ended
    · cases sent
      exact claimed
    · cases ended
  · rw [sentCount_append]
    by_cases same : id = record.callId
    · rw [same,sentCount_eq_zero unsent,Nat.zero_add]
      exact sentCount_exchanged_self.trans atMost
    · rw [sentCount_exchanged_of_ne same,Nat.add_zero]
      exact recorded.once id

private theorem endedSo_exchanged (left : 0 < count) :
    EndedSo (log ++ exchanged record count outcome) record.callId outcome := by
  refine ⟨⟨record.call,?_⟩,?_⟩
  · apply mem_append_right
    apply mem_append_left
    exact mem_replicate.mpr ⟨Nat.ne_of_gt left,rfl⟩
  · apply mem_append_right
    apply mem_append_right
    exact mem_singleton_self _

theorem Invariant.requestStep (invariant : Invariant system)
    (found : system.callers[index]? = some caller) (sending : caller.phase = .sending record)
    {network : Network} (steady : network.Steady) :
    Invariant (system.requestStep index caller record network) := by
  have sound := invariant.sound caller (mem_of_getElem? found)
  obtain ⟨claimed,unsent⟩ := sound.sending record sending
  have atMost := doAuthenticated_sent (httpRequest caller.path record) steady
  have answered := @doAuthenticated_answered (httpRequest caller.path record) network
  unfold System.requestStep
  generalize doAuthenticated (httpRequest caller.path record) network = answer
    at atMost answered ⊢
  obtain ⟨_,outcome⟩ := answer
  dsimp only at atMost answered ⊢
  rw [append_assoc]
  refine ⟨invariant.recorded.exchanged claimed unsent atMost outcome,?_,?_⟩
  · intro other mem
    obtain ⟨place,there⟩ := mem_iff_getElem?.mp mem
    rcases of_set there with ⟨-,rfl⟩ | ⟨different,old⟩
    · refine ⟨nofun,fun id isOwn isAnswer => ?_⟩
      have owns := sound.owns id isOwn
      rw [sending] at owns
      cases owns
      exact endedSo_exchanged (answered isAnswer)
    · refine (invariant.sound other (mem_of_getElem? old)).append fun spent call isSending => ?_
      intro mem
      have apart := invariant.apart place index other caller spent record old found different
        isSending sending
      rcases mem_exchanged mem with sent | ended
      · exact apart (Event.sent.inj sent).1
      · cases ended
  · intro first second one another spent other atFirst atSecond different oneSends anotherSends
    rcases of_set atFirst with ⟨-,rfl⟩ | ⟨-,oldFirst⟩
    · cases oneSends
    rcases of_set atSecond with ⟨-,rfl⟩ | ⟨-,oldSecond⟩
    · cases anotherSends
    · exact invariant.apart first second one another spent other oldFirst oldSecond different
        oneSends anotherSends

private theorem statusFor_injective : Function.Injective statusFor := by
  intro one other same
  cases one <;> cases other <;> first | rfl | cases same

theorem Invariant.settleStep (invariant : Invariant system)
    (found : system.callers[index]? = some caller) (isAnswered : caller.phase = .answered outcome)
    (isOwn : caller.own = some id) (mishap : Option Mishap) :
    Invariant (system.settleStep index id caller outcome mishap) := by
  unfold System.settleStep
  split
  · exact invariant.over index caller
  split
  · exact invariant.over index caller
  rename_i table settled
  have done := invariant.over index caller
  refine done.changed (settleAddonOperation_ok settled) fun other asked isAnswer same => ?_
  have owns := (invariant.sound caller (mem_of_getElem? found)).owns id isOwn
  rw [isAnswered] at owns
  have pair := Option.some.inj same
  cases (Prod.mk.inj pair).1
  cases statusFor_injective (Prod.mk.inj pair).2
  exact owns isAnswer

variable {mishap : Option Mishap}

private theorem follows_beginStep {params : AddonOperationParams} :
    system.table.Follows (system.beginStep index id caller params mishap).table := by
  unfold System.beginStep
  split
  · exact Table.Follows.refl _
  split
  · exact Table.Follows.refl _
  rename_i inserted
  obtain ⟨row,-,-,-,-,-,-,rows⟩ := insertAddonOperation_ok inserted
  exact follows_of_insert rows

private theorem follows_claimStep :
    system.table.Follows (system.claimStep index caller request gate mishap).table := by
  unfold System.claimStep
  split
  · exact Table.Follows.refl _
  split
  · exact Table.Follows.refl _
  split
  · exact Table.Follows.refl _
  · next claimed => exact follows_of_changed (claimAddonOperation_ok claimed).2.2

private theorem follows_settleStep :
    system.table.Follows (system.settleStep index id caller outcome mishap).table := by
  unfold System.settleStep
  split
  · exact Table.Follows.refl _
  split
  · exact Table.Follows.refl _
  · next settled => exact follows_of_changed (settleAddonOperation_ok settled)

theorem Invariant.step {next : System} {move : Move} (invariant : Invariant system)
    (steady : system.Steady move) (taken : system.step move = some next) :
    Invariant next ∧ system.table.Follows next.table := by
  cases move with
  | dispatch =>
    rw [System.step] at taken
    split at taken
    · cases taken
    · cases taken
      exact ⟨invariant.join rfl nofun,Table.Follows.refl _⟩
  | operate | hold =>
    cases taken
    exact ⟨invariant.join rfl nofun,Table.Follows.refl _⟩
  | begin _ id mishap =>
    rw [System.step] at taken
    split at taken
    · split at taken
      · cases taken
        exact ⟨invariant.beginStep id _ _ mishap,follows_beginStep⟩
      · cases taken
    · cases taken
  | claim _ gate mishap =>
    rw [System.step] at taken
    split at taken
    · next found =>
      split at taken
      · next calling =>
        cases taken
        exact ⟨invariant.claimStep found calling gate mishap,follows_claimStep⟩
      · cases taken
    · cases taken
  | request =>
    rw [System.step] at taken
    split at taken
    · next found =>
      split at taken
      · next sending =>
        cases taken
        exact ⟨invariant.requestStep found sending steady,Table.Follows.refl _⟩
      · cases taken
    · cases taken
  | settle _ mishap =>
    rw [System.step] at taken
    split at taken
    · next found =>
      split at taken
      · next isAnswered isOwn =>
        cases taken
        exact ⟨invariant.settleStep found isAnswered isOwn mishap,follows_settleStep⟩
      · cases taken
    · cases taken
  | settleUnclaimed =>
    obtain ⟨table,settled,rfl⟩ := Option.map_eq_some_iff.mp taken
    exact invariant.unsettling (settleUnclaimedAddonOperations_some settled)
  | resolve =>
    rw [System.step] at taken
    split at taken
    · cases taken
    rename_i resolved
    cases taken
    exact invariant.unsettling (resolveAddonOperation_ok resolved)
  | supersede =>
    obtain ⟨table,superseded,rfl⟩ := Option.map_eq_some_iff.mp taken
    exact invariant.unsettling (supersedeAddonOperations_some superseded)
  | tick =>
    cases taken
    exact ⟨⟨invariant.recorded,invariant.sound,invariant.apart⟩,Table.Follows.refl _⟩

end Steps

/-! ### Runs -/

def System.initial : System := { table := Table.empty, now := 0, callers := [], log := [] }

private theorem invariant_initial : Invariant initial where
  recorded :=
    { committed := fun _ mem => nomatch mem
      recorded := fun _ _ mem => nomatch mem
      claimed := fun _ mem => nomatch mem
      claimedBefore := nofun
      once := fun _ => Nat.zero_le 1
      endedSo := fun _ => nofun
      answered := fun _ mem => nomatch mem }
  sound := fun _ mem => nomatch mem
  apart := fun _ _ _ _ _ _ found => nomatch found

/-- In every run in which no kept-alive connection closes unanswered under a request,
a record stands for one request and one outcome. -/
theorem oneRequest_run (first second : List Move) (earlier later : System)
    (reachedEarlier : Runs.run System.step System.initial first = some earlier)
    (reachedLater : Runs.run System.step earlier second = some later)
    (steadyFirst : Runs.Throughout System.step System.Steady System.initial first)
    (steadySecond : Runs.Throughout System.step System.Steady earlier second) :
    OneRequest earlier later := by
  have before := Runs.run_invariant Invariant
    (fun invariant steady taken => (invariant.step steady taken).1)
    invariant_initial steadyFirst reachedEarlier
  obtain ⟨invariant,follows⟩ := Runs.run_invariant
    (fun system => Invariant system ∧ earlier.table.Follows system.table)
    (fun holds steady taken => (holds.1.step steady taken).imp_right holds.2.trans)
    ⟨before,Table.Follows.refl _⟩ steadySecond reachedLater
  have recorded := invariant.recorded
  refine ⟨recorded.once,?_,recorded.claimedBefore,recorded.endedSo,?_,?_,?_⟩
  · intro id call sent
    exact recorded.recorded id call (recorded.sent_claimed sent).committed
  · intro row mem settled
    obtain ⟨next,inLater,sameId,same⟩ := follows row mem
    exact ⟨next,inLater,sameId,same settled⟩
  · intro row mem isAnswered
    have lost := before.recorded.answered row mem isAnswered
    obtain ⟨next,inLater,sameId,same⟩ := follows row mem
    refine ⟨next,inLater,sameId,?_⟩
    rw [same (by rw [lost]; decide),lost]
    decide
  · intro _ inOne _ inOther isResend same
    exact Table.oneResend inOne inOther isResend same

def releaseRequest (retryOf : Option Nat) : Request :=
  { target := "nas", operation := "account.release", actorId := "root", subjectId := "ada",
    confirmed := true, about := "ada", retryOf := retryOf }

def releaseDispatch (retryOf : Option Nat) : Move :=
  .dispatch (releaseRequest retryOf) (some { confirm := true, member := false }) true (some 0) 3

def openGate : Gate :=
  { callable := true, paramsValid := true, registered := true, encodes := true,
    breakerAllows := true, credential := true }

def answeredMoves : List Move :=
  [releaseDispatch none,.begin 0 1 none, .hold (CallRequest.mk (releaseRequest none).params.call
      (some { callId := 1, call := (releaseRequest none).params.call })),
    .claim 0 openGate none,.claim 1 openGate none,
    .request 0 { cancelled := false, tries := [⟨true,.nothingWritten⟩,⟨false,.lost⟩] },
    .settle 0 none,.tick,.resolve "nas" 1 false "root" 0]

def resentMoves : List Move :=
  [releaseDispatch (some 1),.begin 2 2 none,.claim 2 openGate none,
    .request 2 { cancelled := false, tries := [⟨false,.answered 200 false true⟩] },
    .settle 2 none,.supersede 2]

theorem oneRequest_resentMoves :
    ∃ earlier later, Runs.run System.step System.initial answeredMoves = some earlier ∧
      Runs.run System.step earlier resentMoves = some later ∧
      later.table.rows.map (fun row => (row.id, row.status, row.resolution)) =
        [(1, .indeterminate, some .notHappened),(2, .succeeded, none)] ∧
      OneRequest earlier later := by
  have ran : (Runs.run System.step System.initial answeredMoves).any (fun earlier =>
      decide (Runs.Throughout System.step System.Steady earlier resentMoves) &&
      (Runs.run System.step earlier resentMoves).any fun later =>
        decide (later.table.rows.map (fun row => (row.id, row.status, row.resolution)) =
          [(1, .indeterminate, some .notHappened),(2, .succeeded, none)])) = true := by
    decide +kernel
  have steadyFirst : Runs.Throughout System.step System.Steady System.initial answeredMoves := by
    decide +kernel
  obtain ⟨earlier,reachedEarlier,facts⟩ := (Option.any_eq_true _ _).mp ran
  obtain ⟨steady,ranLater⟩ := Bool.and_eq_true_iff.mp facts
  obtain ⟨later,reachedLater,rows⟩ := Runs.exists_reached ranLater
  exact ⟨earlier,later,reachedEarlier,reachedLater,rows,
    oneRequest_run answeredMoves resentMoves earlier later reachedEarlier reachedLater steadyFirst
      (of_decide_eq_true steady)⟩

def repeatedMoves : List Move :=
  [releaseDispatch none,.begin 0 1 none,.claim 0 openGate none, .request 0
      { cancelled := false,
        tries := [⟨true,.closedUnanswered⟩,⟨false,.answered 200 false true⟩] },
    .settle 0 none]

theorem twoRequests_repeatedMoves :
    ∃ final, Runs.run System.step System.initial repeatedMoves = some final ∧
      sentCount 1 final.log = 2 ∧
      final.table.rows.map (fun row => (row.id, row.status)) = [(1, .succeeded)] ∧
      ¬ OneRequest final final := by
  refine Runs.exists_reached_both (by decide +kernel) fun final _ twice _ one => ?_
  have once := one.once 1
  rw [twice] at once
  exact absurd once (by decide)

end Syndra.Operate
