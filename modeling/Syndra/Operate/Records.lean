/-
The records of one-shot operations: the table and the statements on it.

A record is committed before its call and claimed as the call goes out. Each statement is
one update whose condition says which rows it may touch.
-/

import Mathlib.Data.List.Pairwise

namespace Syndra.Operate

open List Bool

inductive Status where
  | dispatching
  | succeeded
  | rejected
  | unreached
  | indeterminate
deriving DecidableEq

inductive Resolution where
  | happened
  | notHappened
  | superseded
deriving DecidableEq

structure CallKey where
  target : String
  operation : String
  subject : String
deriving DecidableEq

structure AddonOperation where
  id : Nat
  target : String
  operation : String
  actorId : String
  subjectId : String
  status : Status
  createdAt : Nat
  claimedAt : Option Nat
  settledAt : Option Nat
  about : Option String
  attempt : Nat
  retryOf : Option Nat
  resolution : Option Resolution
  resolvedBy : Option String
  resolvedAt : Option Nat
  supersededBy : Option Nat
deriving DecidableEq

namespace AddonOperation

def call (row : AddonOperation) : CallKey :=
  { target := row.target, operation := row.operation, subject := row.subjectId }

def answered (row : AddonOperation) : Bool :=
  row.resolution = some .happened || row.resolution = some .notHappened

def Checked (row : AddonOperation) : Prop :=
  (row.status = .dispatching ↔ row.settledAt = none) ∧
    (row.claimedAt.isSome ∨ row.status = .dispatching ∨ row.status = .unreached) ∧
    ((row.attempt = 1 ∨ row.attempt = 2) ∧ (row.attempt = 1 ↔ row.retryOf = none)) ∧
    (row.resolution = none ↔ row.resolvedAt = none) ∧
    (row.resolution = none ↔ row.resolvedBy = none) ∧
    (row.resolution = some .superseded ↔ row.supersededBy.isSome)

instance (row : AddonOperation) : Decidable row.Checked := by
  unfold Checked
  infer_instance

end AddonOperation

def Constraints (rows : List AddonOperation) : Prop :=
  rows.Pairwise (fun one other => one.id ≠ other.id) ∧
    rows.Pairwise (fun one other => one.retryOf.isSome → one.retryOf ≠ other.retryOf) ∧
    ∀ row ∈ rows, row.Checked
deriving Decidable

structure Table where
  rows : List AddonOperation
  constraints : Constraints rows

inductive DbError where
  | violation
  | notResendable
  | notOpen
  | alreadySettled
  | notUnresolved
deriving DecidableEq

namespace Table

def empty : Table :=
  { rows := [], constraints := ⟨Pairwise.nil,Pairwise.nil,fun _ => nofun⟩ }

def write (rows : List AddonOperation) : Option Table :=
  if holds : Constraints rows then some { rows := rows, constraints := holds } else none

def update (table : Table) (guard : AddonOperation → Bool)
    (set : AddonOperation → AddonOperation) : Option Table :=
  write (table.rows.map fun row => if guard row then set row else row)

def updateFound (table : Table) (guard : AddonOperation → Bool)
    (set : AddonOperation → AddonOperation) (missing : DbError) : Except DbError Table :=
  if table.rows.any guard then
    match table.update guard set with
    | none => .error .violation
    | some after => .ok after
  else .error missing

end Table

structure AddonOperationParams where
  target : String
  operation : String
  actorId : String
  subjectId : String
  about : String
  retryOf : Option Nat
deriving DecidableEq

namespace AddonOperationParams

def call (p : AddonOperationParams) : CallKey :=
  { target := p.target, operation := p.operation, subject := p.subjectId }

def firstSend (p : AddonOperationParams) (now id : Nat) : AddonOperation :=
  { id := id
    target := p.target
    operation := p.operation
    actorId := p.actorId
    subjectId := p.subjectId
    status := .dispatching
    createdAt := now
    claimedAt := none
    settledAt := none
    about := if p.about = "" then none else some p.about
    attempt := 1
    retryOf := none
    resolution := none
    resolvedBy := none
    resolvedAt := none
    supersededBy := none }

/-- A resend links to the first send and carries no line of its own. -/
def resend (p : AddonOperationParams) (now id first : Nat) : AddonOperation :=
  { p.firstSend now id with about := none, attempt := 2, retryOf := some first }

end AddonOperationParams

def insertAddonOperation (table : Table) (now id : Nat) (p : AddonOperationParams) :
    Except DbError Table :=
  match p.retryOf with
  | none =>
    match Table.write (table.rows ++ [p.firstSend now id]) with
    | none => .error .violation
    | some after => .ok after
  | some link =>
    match table.rows.find? fun first =>
        first.id = link && first.attempt = 1 && first.call = p.call with
    | none => .error .notResendable
    | some first =>
      match Table.write (table.rows ++ [p.resend now id first.id]) with
      | none => .error .notResendable
      | some after => .ok after

def claimAddonOperation (table : Table) (now id : Nat) (call : CallKey) : Except DbError Table :=
  table.updateFound
    (fun row => row.id = id && row.status = .dispatching && row.claimedAt.isNone && row.call = call)
    (fun row => { row with claimedAt := some now }) .notOpen

def settleAddonOperation (table : Table) (now id : Nat) (status : Status) : Except DbError Table :=
  table.updateFound
    (fun row => row.id = id && row.status = .dispatching &&
      (row.claimedAt.isSome || status = .unreached))
    (fun row => { row with status := status, settledAt := some now }) .alreadySettled

def pastGrace (now grace : Nat) (stamp : Nat) : Bool := stamp + grace < now

def settleUnclaimedAddonOperations (table : Table) (now : Nat) (target : String) (grace : Nat) :
    Option Table :=
  table.update
    (fun row => row.target = target && row.status = .dispatching && row.claimedAt.isNone &&
      pastGrace now grace row.createdAt)
    (fun row => { row with status := .unreached, settledAt := some now })

def selfSettledOperations : List String := ["password.set","password.rotate"]

def AddonOperation.unresolved (row : AddonOperation) (now grace : Nat) : Bool :=
  row.resolution.isNone && row.claimedAt.isSome && row.operation ∉ selfSettledOperations &&
    (row.status = .indeterminate ||
      (row.status = .dispatching && row.claimedAt.any (pastGrace now grace)))

def resolveAddonOperation (table : Table) (now : Nat) (target : String) (id : Nat)
    (happened : Bool) (actor : String) (grace : Nat) : Except DbError Table :=
  table.updateFound (fun row => row.id = id && row.target = target && row.unresolved now grace)
    (fun row =>
      { row with
        status := .indeterminate
        settledAt := some (row.settledAt.getD now)
        resolution := some (if happened then .happened else .notHappened)
        resolvedBy := some actor
        resolvedAt := some now })
    .notUnresolved

def AddonOperation.supersededOpen (row later : AddonOperation) : Bool :=
  later.status = .succeeded && row.call = later.call && row.id ≠ later.id &&
    row.createdAt ≤ later.createdAt && row.resolution.isNone && row.claimedAt.isSome &&
    (row.status = .dispatching || row.status = .indeterminate)

def supersedeAddonOperations (table : Table) (now confirmed : Nat) : Option Table :=
  match table.rows.find? fun row => row.id = confirmed with
  | none => some table
  | some later =>
    table.update (fun row => row.supersededOpen later)
      (fun row =>
        { row with
          resolution := some .superseded
          supersededBy := some later.id
          resolvedBy := some later.subjectId
          resolvedAt := some now })

/-- A row keeps its identity. It is claimed only by a claim for it, leaves
`dispatching` once, and has an answer only where it is indeterminate. -/
structure Changes (claims : Option Nat) (settles : Option (Nat × Status))
    (row next : AddonOperation) : Prop where
  key : next.id = row.id
  call : next.call = row.call
  created : next.createdAt = row.createdAt
  retryOf : next.retryOf = row.retryOf
  claimed : next.claimedAt = row.claimedAt ∨
    row.claimedAt = none ∧ next.claimedAt.isSome ∧ claims = some row.id
  status : next.status = row.status ∨ row.status = .dispatching ∧
    (next.status = .unreached ∨ next.status = .indeterminate ∨
      settles = some (row.id, next.status))
  answered : next.answered → row.answered ∨ next.status = .indeterminate

theorem Changes.refl (claims : Option Nat) (settles : Option (Nat × Status))
    (row : AddonOperation) : Changes claims settles row row :=
  ⟨rfl,rfl,rfl,rfl,.inl rfl,.inl rfl,.inl⟩

def Table.Changed (claims : Option Nat) (settles : Option (Nat × Status))
    (table after : Table) : Prop :=
  ∃ set : AddonOperation → AddonOperation, after.rows = table.rows.map set ∧
    ∀ row ∈ table.rows, Changes claims settles row (set row)

section Statements

variable {table after : Table} {claims : Option Nat} {settles : Option (Nat × Status)}

variable {one other : AddonOperation} {guard : AddonOperation → Bool}
  {set : AddonOperation → AddonOperation} {grace : Nat} {target : String}

theorem Table.eq_of_id (inOne : one ∈ table.rows)
    (inOther : other ∈ table.rows) (same : one.id = other.id) : one = other := by
  by_contra different
  have symmetric : Std.Symm fun one other : AddonOperation => one.id ≠ other.id :=
    ⟨fun _ _ => Ne.symm⟩
  exact table.constraints.1.forall inOne inOther different same

theorem Table.oneResend (inOne : one ∈ table.rows)
    (inOther : other ∈ table.rows) (resent : one.retryOf.isSome)
    (same : one.retryOf = other.retryOf) : one = other := by
  by_contra different
  have symmetric : Std.Symm fun one other : AddonOperation =>
      one.retryOf.isSome → one.retryOf ≠ other.retryOf :=
    ⟨fun _ _ apart resent same => apart (same ▸ resent) same.symm⟩
  exact table.constraints.2.1.forall inOne inOther different resent same

theorem rows_of_write {rows : List AddonOperation} (written : Table.write rows = some after) :
    after.rows = rows := by
  unfold Table.write at written
  split at written
  · cases written
    rfl
  · cases written

theorem Table.Changed.refl (table : Table) : Table.Changed claims settles table table :=
  ⟨id,(map_id _).symm,fun row _ => Changes.refl claims settles row⟩

theorem changed_of_update (updated : table.update guard set = some after)
    (changes : ∀ row, guard row = true → Changes claims settles row (set row)) :
    table.Changed claims settles after := by
  refine ⟨_,rows_of_write updated,fun row _ => ?_⟩
  split
  · next guarded => exact changes row guarded
  · exact Changes.refl claims settles row

theorem updateFound_ok {missing : DbError}
    (updated : table.updateFound guard set missing = .ok after) :
    (∃ row ∈ table.rows, guard row = true) ∧ table.update guard set = some after := by
  unfold Table.updateFound at updated
  split at updated
  · next found =>
    split at updated
    · cases updated
    rename_i _ written
    cases updated
    exact ⟨any_eq_true.mp found,written⟩
  · cases updated

variable {id now : Nat}

theorem insertAddonOperation_ok {p : AddonOperationParams}
    (inserted : insertAddonOperation table now id p = .ok after) :
    ∃ row : AddonOperation, row.id = id ∧ row.call = p.call ∧ row.status = .dispatching ∧
      row.resolution = none ∧ row.createdAt = now ∧
      row.retryOf.isNone = p.retryOf.isNone ∧ after.rows = table.rows ++ [row] := by
  unfold insertAddonOperation at inserted
  split at inserted
  · next first =>
    split at inserted
    · cases inserted
    rename_i _ written
    cases inserted
    exact ⟨p.firstSend now id,rfl,rfl,rfl,rfl,rfl,by rw [first]; rfl,
      rows_of_write written⟩
  · next linked =>
    split at inserted
    · cases inserted
    rename_i first _
    split at inserted
    · cases inserted
    rename_i _ written
    cases inserted
    exact ⟨p.resend now id first.id,rfl,rfl,rfl,rfl,rfl,by rw [linked]; rfl,
      rows_of_write written⟩

theorem claimAddonOperation_ok {call : CallKey}
    (claimed : claimAddonOperation table now id call = .ok after) :
    (∃ row ∈ table.rows, row.id = id ∧ row.call = call ∧ row.claimedAt = none) ∧
      (∃ row ∈ after.rows, row.id = id ∧ row.call = call ∧ row.claimedAt.isSome) ∧
      table.Changed (some id) none after := by
  obtain ⟨⟨row,mem,guarded⟩,updated⟩ := updateFound_ok claimed
  have opened := guarded
  simp only [and_eq_true,decide_eq_true_eq,Option.isNone_iff_eq_none] at opened
  obtain ⟨⟨⟨hasId,-⟩,unclaimed⟩,hasCall⟩ := opened
  refine ⟨⟨row,mem,hasId,hasCall,unclaimed⟩,?_,?_⟩
  · refine ⟨{ row with claimedAt := some now },?_,hasId,hasCall,rfl⟩
    rw [rows_of_write updated]
    refine mem_map.mpr ⟨row,mem,?_⟩
    rw [if_pos guarded]
  · refine changed_of_update updated fun row guarded => ?_
    simp only [and_eq_true,decide_eq_true_eq,Option.isNone_iff_eq_none] at guarded
    obtain ⟨⟨⟨rfl,-⟩,unclaimed⟩,-⟩ := guarded
    exact ⟨rfl,rfl,rfl,rfl,.inr ⟨unclaimed,rfl,rfl⟩,.inl rfl,.inl⟩

theorem settleAddonOperation_ok {status : Status}
    (settled : settleAddonOperation table now id status = .ok after) :
    table.Changed none (some (id, status)) after := by
  refine changed_of_update (updateFound_ok settled).2 fun row guarded => ?_
  simp only [and_eq_true,decide_eq_true_eq] at guarded
  obtain ⟨⟨rfl,isOpen⟩,-⟩ := guarded
  exact ⟨rfl,rfl,rfl,rfl,.inl rfl,.inr ⟨isOpen,.inr (.inr rfl)⟩,.inl⟩

theorem settleUnclaimedAddonOperations_some
    (settled : settleUnclaimedAddonOperations table now target grace = some after) :
    table.Changed none none after := by
  refine changed_of_update settled fun row guarded => ?_
  simp only [and_eq_true,decide_eq_true_eq] at guarded
  obtain ⟨⟨⟨-,isOpen⟩,-⟩,-⟩ := guarded
  exact ⟨rfl,rfl,rfl,rfl,.inl rfl,.inr ⟨isOpen,.inl rfl⟩,.inl⟩

theorem resolveAddonOperation_ok {actor : String} {happened : Bool}
    (resolved : resolveAddonOperation table now target id happened actor grace = .ok after) :
    table.Changed none none after := by
  refine changed_of_update (updateFound_ok resolved).2 fun row guarded => ?_
  simp only [AddonOperation.unresolved,and_eq_true,or_eq_true,decide_eq_true_eq,
    Option.isNone_iff_eq_none] at guarded
  obtain ⟨-,-,lost | ⟨isOpen,-⟩⟩ := guarded
  · exact ⟨rfl,rfl,rfl,rfl,.inl rfl,.inl lost.symm,fun _ => .inr rfl⟩
  · exact ⟨rfl,rfl,rfl,rfl,.inl rfl,.inr ⟨isOpen,.inr (.inl rfl)⟩,fun _ => .inr rfl⟩

theorem supersedeAddonOperations_some {confirmed : Nat}
    (superseded : supersedeAddonOperations table now confirmed = some after) :
    table.Changed none none after := by
  unfold supersedeAddonOperations at superseded
  split at superseded
  · cases superseded
    exact Table.Changed.refl table
  refine changed_of_update superseded fun row guarded => ?_
  exact ⟨rfl,rfl,rfl,rfl,.inl rfl,.inl rfl,nofun⟩

def Table.Follows (table after : Table) : Prop :=
  ∀ row ∈ table.rows, ∃ next ∈ after.rows, next.id = row.id ∧
    (row.status ≠ .dispatching → next.status = row.status)

theorem Table.Follows.refl (table : Table) : table.Follows table :=
  fun row mem => ⟨row,mem,rfl,fun _ => rfl⟩

theorem Table.Follows.trans {first second third : Table} (one : first.Follows second)
    (two : second.Follows third) : first.Follows third := by
  intro row mem
  obtain ⟨next,inSecond,sameId,settled⟩ := one row mem
  obtain ⟨last,inThird,sameIdToo,settledToo⟩ := two next inSecond
  refine ⟨last,inThird,sameIdToo.trans sameId,fun done => ?_⟩
  have same := settled done
  rw [← same] at done ⊢
  exact settledToo done

theorem follows_of_changed (changed : table.Changed claims settles after) :
    table.Follows after := by
  obtain ⟨set,rows,changes⟩ := changed
  intro row mem
  have change := changes row mem
  refine ⟨set row,?_,change.key,fun done => ?_⟩
  · rw [rows]
    exact mem_map_of_mem mem
  rcases change.status with same | ⟨waiting,-⟩
  · exact same
  · exact absurd waiting done

theorem follows_of_insert {row : AddonOperation} (rows : after.rows = table.rows ++ [row]) :
    table.Follows after := by
  intro other mem
  refine ⟨other,?_,rfl,fun _ => rfl⟩
  rw [rows]
  exact mem_append_left _ mem

end Statements

end Syndra.Operate
