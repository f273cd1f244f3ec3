/-
The propagation outbox as a table.

A row is an intent, written once, and a delivery, which the claims and the settles change.
-/

import Syndra.Access.Closure

namespace Syndra.Propagation

open Access List

inductive OpType where
  | add
  | revoke
  | replace
  | apply
deriving DecidableEq

def OpType.name : OpType → String
  | .add => "add"
  | .revoke => "revoke"
  | .replace => "replace"
  | .apply => "apply"

inductive Status where
  | pending
  | inFlight
  | applied
  | failed
  | superseded
  | abandoned
deriving DecidableEq

inductive Source where
  | direct
  | bundle
  | rule
  | externalBackfill
  | lifecycleCascade
deriving DecidableEq

def Source.name : Source → String
  | .direct => "direct"
  | .bundle => "bundle"
  | .rule => "rule"
  | .externalBackfill => "external_backfill"
  | .lifecycleCascade => "lifecycle_cascade"

inductive WaitReason where
  | roleWaits
  | manual
  | halted (reason : String)
  | refused (cause : String)
deriving DecidableEq

/-- What a row asks for. A NULL project or reference is the empty string. -/
structure Intent where
  target : String
  opType : OpType
  userId : String
  projectId : String
  roleKeys : List String
  source : Source
  sourceRef : String
  withdrawsOnly : Bool
deriving DecidableEq

structure Delivery where
  status : Status
  attempts : Nat
  waitReason : Option WaitReason
  notBefore : Option Time
deriving DecidableEq

structure OutboxRow extends Intent, Delivery where
  id : Nat
  intentSeq : Nat
deriving DecidableEq

def OutboxRow.withDelivery (row : OutboxRow) (delivery : Delivery) : OutboxRow :=
  { row with toDelivery := delivery }

@[simp] theorem OutboxRow.toIntent_withDelivery (row : OutboxRow) (delivery : Delivery) :
    (row.withDelivery delivery).toIntent = row.toIntent := rfl

@[simp] theorem OutboxRow.toDelivery_withDelivery (row : OutboxRow) (delivery : Delivery) :
    (row.withDelivery delivery).toDelivery = delivery := rfl

def Intent.freshRow (intent : Intent) (waitReason : Option WaitReason) (seq : Nat) : OutboxRow :=
  { intent with
    status := .pending
    attempts := 0
    waitReason := waitReason
    notBefore := none
    id := seq
    intentSeq := seq }

structure Outbox where
  rows : List OutboxRow
  nextSeq : Nat
  ordered : rows.Pairwise fun earlier later => earlier.intentSeq < later.intentSeq
  idsDistinct : (rows.map OutboxRow.id).Nodup
  numbered : ∀ row ∈ rows, 0 < row.intentSeq ∧ row.intentSeq < nextSeq ∧ row.id < nextSeq
  started : 0 < nextSeq

namespace Outbox

def empty : Outbox :=
  { rows := []
    nextSeq := 1
    ordered := Pairwise.nil
    idsDistinct := nodup_nil
    numbered := fun _ => nofun
    started := Nat.one_pos }

/-- One UPDATE: every row keeps its number and its intent. -/
def update (outbox : Outbox) (change : OutboxRow → Delivery) : Outbox :=
  { rows := outbox.rows.map fun row => row.withDelivery (change row)
    nextSeq := outbox.nextSeq
    ordered := by
      rw [pairwise_map]
      exact outbox.ordered
    idsDistinct := by
      rw [map_map]
      exact outbox.idsDistinct
    numbered := by
      intro row member
      obtain ⟨before,present,rfl⟩ := mem_map.mp member
      exact outbox.numbered before present
    started := outbox.started }

def insert (outbox : Outbox) (intent : Intent) (waitReason : Option WaitReason) : Outbox :=
  { rows := outbox.rows ++ [intent.freshRow waitReason outbox.nextSeq]
    nextSeq := outbox.nextSeq + 1
    ordered := by
      rw [pairwise_append]
      refine ⟨outbox.ordered,pairwise_singleton _ _,?_⟩
      intro row member fresh inserted
      rw [mem_singleton] at inserted
      subst inserted
      exact (outbox.numbered row member).2.1
    idsDistinct := by
      rw [map_append,nodup_append]
      refine ⟨outbox.idsDistinct,nodup_singleton _,?_⟩
      intro id member fresh inserted same
      obtain ⟨row,present,rfl⟩ := mem_map.mp member
      rw [map_singleton,mem_singleton] at inserted
      have below := (outbox.numbered row present).2.2
      rw [same,inserted] at below
      exact Nat.lt_irrefl _ below
    numbered := by
      intro row member
      rcases mem_append.mp member with old | fresh
      · have known := outbox.numbered row old
        omega
      · rw [mem_singleton] at fresh
        subst fresh
        have positive := outbox.started
        exact ⟨positive,Nat.lt_succ_self _,Nat.lt_succ_self _⟩
    started := Nat.succ_pos _ }

variable (outbox : Outbox) (change : OutboxRow → Delivery)

@[simp] theorem rows_update : (outbox.update change).rows =
      outbox.rows.map fun row => row.withDelivery (change row) := rfl

@[simp] theorem rows_insert (intent : Intent) (waitReason : Option WaitReason) :
    (outbox.insert intent waitReason).rows =
      outbox.rows ++ [intent.freshRow waitReason outbox.nextSeq] := rfl

theorem mem_update (row : OutboxRow) : row ∈ (outbox.update change).rows ↔
      ∃ before ∈ outbox.rows, before.withDelivery (change before) = row := by
  rw [rows_update,mem_map]

theorem mem_update_of_mem {row : OutboxRow} (mem : row ∈ outbox.rows) :
    row.withDelivery (change row) ∈ (outbox.update change).rows :=
  mem_map_of_mem mem

theorem mem_insert (intent : Intent) (waitReason : Option WaitReason) (row : OutboxRow) :
    row ∈ (outbox.insert intent waitReason).rows ↔
      row ∈ outbox.rows ∨ row = intent.freshRow waitReason outbox.nextSeq := by
  rw [rows_insert,mem_append,mem_singleton]

variable {left right : OutboxRow}

theorem eq_of_id_eq (leftMember : left ∈ outbox.rows)
    (rightMember : right ∈ outbox.rows) (same : left.id = right.id) : left = right :=
  inj_on_of_nodup_map outbox.idsDistinct leftMember rightMember same

private theorem pairwise_seq_inj : ∀ (rows : List OutboxRow),
    (rows.Pairwise fun earlier later => earlier.intentSeq < later.intentSeq) →
      ∀ left ∈ rows, ∀ right ∈ rows, left.intentSeq = right.intentSeq → left = right
  | [], _ => fun _ => nofun
  | first :: rest, ordered => by
      obtain ⟨before,tail⟩ := pairwise_cons.mp ordered
      intro left leftMember right rightMember same
      rcases mem_cons.mp leftMember with rfl | leftLater
      · rcases mem_cons.mp rightMember with rfl | rightLater
        · rfl
        · exact absurd same (Nat.ne_of_lt (before right rightLater))
      · rcases mem_cons.mp rightMember with rfl | rightLater
        · exact absurd same.symm (Nat.ne_of_lt (before left leftLater))
        · exact pairwise_seq_inj rest tail left leftLater right rightLater same

theorem eq_of_seq_eq (leftMember : left ∈ outbox.rows)
    (rightMember : right ∈ outbox.rows) (same : left.intentSeq = right.intentSeq) : left = right :=
  pairwise_seq_inj outbox.rows outbox.ordered left leftMember right rightMember same

end Outbox

structure HeldRole where
  userId : String
  projectId : String
  roleKey : String
deriving DecidableEq

abbrev Zitadel := HeldRole → Bool

def zitadelTarget : String := "zitadel"

/-- The value a delivered row leaves at a role: an add unites, a revoke takes
away, a replace leaves exactly the listed set. Other rows say nothing. -/
def Intent.effect (intent : Intent) (key : HeldRole) : Option Bool :=
  if intent.target = zitadelTarget ∧ intent.userId = key.userId ∧
      intent.projectId = key.projectId then
    match intent.opType with
    | .add => if key.roleKey ∈ intent.roleKeys then some true else none
    | .revoke => if key.roleKey ∈ intent.roleKeys then some false else none
    | .replace => some (decide (key.roleKey ∈ intent.roleKeys))
    | .apply => none
  else none

variable {intent : Intent} {key : HeldRole} {value : Bool}

theorem Intent.scope_of_effect (written : intent.effect key = some value) :
    intent.target = zitadelTarget ∧ intent.userId = key.userId ∧
      intent.projectId = key.projectId := by
  unfold Intent.effect at written
  split at written
  · assumption
  · cases written

theorem Intent.effect_unlisted
    (written : intent.effect key = some value) (unlisted : key.roleKey ∉ intent.roleKeys) :
    value = false := by
  unfold Intent.effect at written
  split at written
  · cases op : intent.opType with
    | add | revoke | apply => simp only [op,reduceCtorEq] at written
    | replace =>
      simp only [op,decide_eq_false unlisted,Option.some.injEq] at written
      exact written.symm
  · cases written

def Intent.Names (intent : Intent) (key : HeldRole) : Prop := (intent.effect key).isSome = true
deriving Decidable

def Intent.Gives (intent : Intent) (key : HeldRole) : Prop := intent.effect key = some true
deriving Decidable

def Zitadel.take (zitadel : Zitadel) (intent : Intent) : Zitadel :=
  fun key => (intent.effect key).getD (zitadel key)

def OutboxRow.Unresolved (row : OutboxRow) : Prop :=
  row.status = .pending ∨ row.status = .inFlight

instance (row : OutboxRow) : Decidable row.Unresolved :=
  inferInstanceAs (Decidable (_ ∨ _))

end Syndra.Propagation
