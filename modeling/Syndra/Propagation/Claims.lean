/-
The claims and the settles of the outbox.

Four claims move rows to in flight, each under its own predicate and order; the settles are
guarded by the in-flight status.
-/

import Syndra.Propagation.Table

namespace Syndra.Propagation

open Access List

structure Setting where
  activeTargets : List String
  roleWaits : List Role
  now : Time
deriving DecidableEq

def claimLimit (limit : Int) : Nat :=
  if limit ≤ 0 then 100 else limit.toNat

def claimable (setting : Setting) (target : String) (row : OutboxRow) : Bool :=
  decide row.Unresolved && row.target = target && row.target ∈ setting.activeTargets

def notBeforeDue (setting : Setting) (row : OutboxRow) : Bool :=
  match row.notBefore with
  | none => true
  | some due => decide (due ≤ setting.now)

def markedToWait (setting : Setting) (row : OutboxRow) : Bool :=
  setting.roleWaits.any fun wait =>
    wait.projectId = row.projectId && wait.roleKey ∈ row.roleKeys

def withdraws (row : OutboxRow) : Bool :=
  row.opType = .revoke || row.withdrawsOnly

def hasRevocation (outbox : Outbox) (row : OutboxRow) : Bool :=
  outbox.rows.any fun other =>
    other.target = row.target && other.userId = row.userId &&
      other.opType = .revoke && decide other.Unresolved

/-- Revocation subjects first, then intent order. The rows are in intent order. -/
def revocationFirst (outbox : Outbox) (rows : List OutboxRow) : List OutboxRow :=
  rows.filter (hasRevocation outbox) ++ rows.filter fun row => !hasRevocation outbox row

def olderConferring (outbox : Outbox) (row : OutboxRow) : Bool :=
  outbox.rows.any fun earlier =>
    earlier.target = row.target && earlier.userId = row.userId &&
      earlier.projectId = row.projectId &&
      (earlier.opType = .add || earlier.opType = .replace ||
        (earlier.opType = .apply && !earlier.withdrawsOnly)) &&
      decide earlier.Unresolved && earlier.intentSeq < row.intentSeq

def Outbox.claim (outbox : Outbox) (ids : List Nat) : Outbox :=
  outbox.update fun row =>
    if row.id ∈ ids then { row.toDelivery with status := .inFlight } else row.toDelivery

def pendingClaim (setting : Setting) (target : String) (limit : Int) (outbox : Outbox) :
    List OutboxRow :=
  (revocationFirst outbox (outbox.rows.filter (claimable setting target))).take (claimLimit limit)

def revocationsClaim (setting : Setting) (target : String) (limit : Int) (outbox : Outbox) :
    List OutboxRow :=
  (outbox.rows.filter fun row =>
    claimable setting target row && withdraws row && notBeforeDue setting row &&
      row.waitReason ≠ some .roleWaits && !markedToWait setting row &&
      !olderConferring outbox row).take (claimLimit limit)

def retriesClaim (setting : Setting) (target : String) (limit : Int) (outbox : Outbox) :
    List OutboxRow :=
  (revocationFirst outbox (outbox.rows.filter fun row =>
    claimable setting target row &&
      (row.status = .inFlight || row.notBefore.isSome) && notBeforeDue setting row &&
      !withdraws row && row.waitReason ≠ some .roleWaits && row.waitReason ≠ some .manual &&
      !markedToWait setting row)).take (claimLimit limit)

def idClaim (setting : Setting) (target : String) (id : Nat) (outbox : Outbox) : List OutboxRow :=
  outbox.rows.filter fun row => claimable setting target row && row.id = id

inductive ClaimKind where
  | pending (limit : Int)
  | revocations (limit : Int)
  | retries (limit : Int)
  | byId (id : Nat)
deriving DecidableEq

def ClaimKind.rows (kind : ClaimKind) (setting : Setting) (target : String) (outbox : Outbox) :
    List OutboxRow :=
  match kind with
  | .pending limit => pendingClaim setting target limit outbox
  | .revocations limit => revocationsClaim setting target limit outbox
  | .retries limit => retriesClaim setting target limit outbox
  | .byId id => idClaim setting target id outbox

/-- A drain claims once it has nothing in hand; the background one claims its retries after
its revocations. -/
def ClaimKind.fits (kind : ClaimKind) (session : List OutboxRow) : Bool :=
  match kind with
  | .retries _ => session.all withdraws
  | _ => session.isEmpty

def claimPendingPropagations (setting : Setting) (target : String) (limit : Int)
    (outbox : Outbox) : Outbox :=
  outbox.claim ((pendingClaim setting target limit outbox).map OutboxRow.id)

def claimPropagationById (setting : Setting) (target : String) (id : Nat)
    (outbox : Outbox) : Outbox :=
  outbox.claim ((idClaim setting target id outbox).map OutboxRow.id)

def claimPendingRevocations (setting : Setting) (target : String) (limit : Int)
    (outbox : Outbox) : Outbox :=
  outbox.claim ((revocationsClaim setting target limit outbox).map OutboxRow.id)

def claimDueRetries (setting : Setting) (target : String) (limit : Int)
    (outbox : Outbox) : Outbox :=
  outbox.claim ((retriesClaim setting target limit outbox).map OutboxRow.id)

def settleOne (outbox : Outbox) (id : Nat) (change : OutboxRow → Delivery) : Option Outbox :=
  if outbox.rows.any fun row => row.id = id && row.status = .inFlight then
    some (outbox.update fun row =>
      if row.id = id ∧ row.status = .inFlight then change row else row.toDelivery)
  else none

def markPropagationApplied (outbox : Outbox) (id : Nat) : Option Outbox :=
  settleOne outbox id fun row => { row.toDelivery with status := .applied }

def markPropagationFailed (outbox : Outbox) (id : Nat) : Option Outbox :=
  settleOne outbox id fun row => { row.toDelivery with status := .failed }

def markPropagationRefused (outbox : Outbox) (id : Nat) (cause : String) : Option Outbox :=
  settleOne outbox id fun row =>
    { row.toDelivery with status := .failed, waitReason := some (.refused cause) }

/-- `wait` is the jittered backoff the row's attempt count selects. -/
def requeuePropagation (outbox : Outbox) (id : Nat) (now wait : Time) : Option Outbox :=
  settleOne outbox id fun row =>
    { row.toDelivery with
      status := .pending
      attempts := row.attempts + 1
      notBefore := some (now + wait) }

def releasePropagation (outbox : Outbox) (id : Nat) : Option Outbox :=
  settleOne outbox id fun row => { row.toDelivery with status := .pending }

def scheduleRetry (outbox : Outbox) (ids : List Nat) (now wait : Time) : Outbox :=
  outbox.update fun row =>
    if row.id ∈ ids ∧ row.status = .pending ∧ row.notBefore = none ∧
        row.waitReason ≠ some .roleWaits ∧ row.waitReason ≠ some .manual then
      { status := .pending
        attempts := row.attempts + 1
        waitReason := some (.halted "retrying")
        notBefore := some (now + wait) }
    else row.toDelivery

def Claimed (before after : Outbox) : Prop :=
  ∃ ids, after = before.claim ids ∧ ∀ row ∈ before.rows, row.id ∈ ids → row.Unresolved

variable {setting : Setting} {target : String} {outbox : Outbox} {limit : Int}

variable {row : OutboxRow} {rows : List OutboxRow} {kind : ClaimKind}

theorem unresolved_of_claimable
    (admitted : claimable setting target row = true) : row.Unresolved := by
  simp only [claimable,Bool.and_eq_true,decide_eq_true_eq] at admitted
  exact admitted.1.1

theorem mem_revocationFirst (mem : row ∈ revocationFirst outbox rows) : row ∈ rows:= by
  rcases mem_append.mp mem with urgent | other
  · exact (mem_filter.mp urgent).1
  · exact (mem_filter.mp other).1

theorem ClaimKind.rows_open (chosen : row ∈ kind.rows setting target outbox) :
    row ∈ outbox.rows ∧ row.Unresolved := by
  cases kind with
  | pending =>
    have ordered := mem_revocationFirst (mem_of_mem_take chosen)
    obtain ⟨mem,admitted⟩ := mem_filter.mp ordered
    exact ⟨mem,unresolved_of_claimable admitted⟩
  | byId =>
    obtain ⟨mem,admitted⟩ := mem_filter.mp chosen
    rw [Bool.and_eq_true] at admitted
    exact ⟨mem,unresolved_of_claimable admitted.1⟩
  | revocations =>
    obtain ⟨mem,admitted⟩ := mem_filter.mp (mem_of_mem_take chosen)
    simp only [Bool.and_eq_true] at admitted
    exact ⟨mem,unresolved_of_claimable admitted.1.1.1.1.1⟩
  | retries =>
    have ordered := mem_revocationFirst (mem_of_mem_take chosen)
    obtain ⟨mem,admitted⟩ := mem_filter.mp ordered
    simp only [Bool.and_eq_true] at admitted
    exact ⟨mem,unresolved_of_claimable admitted.1.1.1.1.1.1⟩

theorem ClaimKind.claimed (kind : ClaimKind) (setting : Setting) (target : String)
    (outbox : Outbox) :
    Claimed outbox (outbox.claim ((kind.rows setting target outbox).map OutboxRow.id)) := by
  refine ⟨_,rfl,?_⟩
  intro _ mem listed
  obtain ⟨_,among,same⟩ := mem_map.mp listed
  obtain ⟨present,unresolved⟩ := ClaimKind.rows_open among
  rw [← outbox.eq_of_id_eq present mem same]
  exact unresolved

theorem claimPendingPropagations_claimed :
    Claimed outbox (claimPendingPropagations setting target limit outbox) :=
  (ClaimKind.pending limit).claimed setting target outbox

theorem claimPropagationById_claimed {id : Nat} :
    Claimed outbox (claimPropagationById setting target id outbox) :=
  (ClaimKind.byId id).claimed setting target outbox

theorem claimPendingRevocations_claimed :
    Claimed outbox (claimPendingRevocations setting target limit outbox) :=
  (ClaimKind.revocations limit).claimed setting target outbox

theorem claimDueRetries_claimed : Claimed outbox (claimDueRetries setting target limit outbox) :=
  (ClaimKind.retries limit).claimed setting target outbox

/-- One person's rows on a target are in intent order. -/
def InScopeOrder (first second : OutboxRow) : Prop :=
  first.target = second.target → first.userId = second.userId →
    first.intentSeq < second.intentSeq

theorem pairwise_revocationFirst
    (ordered : rows.Pairwise fun first second => first.intentSeq < second.intentSeq) :
    (revocationFirst outbox rows).Pairwise InScopeOrder := by
  refine pairwise_append.mpr ⟨(ordered.filter _).imp fun lt _ _ => lt,
    (ordered.filter _).imp fun lt _ _ => lt,?_⟩
  intro first urgent second other sameTarget sameUser
  have urgent := (mem_filter.mp urgent).2
  have other := (mem_filter.mp other).2
  unfold hasRevocation at urgent other
  rw [← sameTarget,← sameUser,urgent] at other
  cases other

theorem ClaimKind.rows_inScopeOrder : (kind.rows setting target outbox).Pairwise InScopeOrder:= by
  have ordered := outbox.ordered
  cases kind with
  | pending | retries =>
    exact (pairwise_revocationFirst (ordered.filter _)).sublist (take_sublist _ _)
  | revocations => exact ((ordered.filter _).sublist (take_sublist _ _)).imp fun lt _ _ => lt
  | byId => exact (ordered.filter _).imp fun lt _ _ => lt

theorem settleOne_eq_some {after : Outbox} {id : Nat} {change : OutboxRow → Delivery}
    (settled : settleOne outbox id change = some after) :
    (∃ row ∈ outbox.rows, row.id = id ∧ row.status = .inFlight) ∧ after = outbox.update fun row =>
        if row.id = id ∧ row.status = .inFlight then change row else row.toDelivery := by
  unfold settleOne at settled
  split at settled
  · next found =>
    obtain ⟨row,mem,matching⟩ := any_eq_true.mp found
    simp only [Bool.and_eq_true,decide_eq_true_eq] at matching
    exact ⟨⟨row,mem,matching⟩,(Option.some.inj settled).symm⟩
  · cases settled

end Syndra.Propagation
