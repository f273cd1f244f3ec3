/-
What stands, and what the applied rows left.

A role stands when its last applied row is not a revoke. Only rows that list the role are
asked, while a replace also takes away what it does not list.
-/

import Syndra.Foundation.Replay
import Syndra.Propagation.Withdraw

namespace Syndra.Propagation

open Foundation.Replay List

def Outbox.replayed (outbox : Outbox) (key : HeldRole) : Bool :=
  replay (fun row : OutboxRow => row.effect key) false
    (outbox.rows.filter fun row => row.status = .applied)

def LeavesOut (key : HeldRole) (row : OutboxRow) : Prop :=
  row.target = zitadelTarget ∧ row.userId = key.userId ∧ row.status = .applied ∧
    row.projectId = key.projectId ∧ key.roleKey ∉ row.roleKeys ∧ row.opType = .replace

section Proofs

variable {key : HeldRole}

theorem CountsApplied.mono {target : String} {fewer more : List OpType} {row : OutboxRow}
    (counts : CountsApplied target key fewer row) (subset : fewer ⊆ more) :
    CountsApplied target key more row := by
  obtain ⟨isTarget,user,applied,project,role,op⟩ := counts
  exact ⟨isTarget,user,applied,project,role,subset op⟩

variable {outbox : Outbox} {row : OutboxRow}

theorem effect_true_iff (applied : row.status = .applied) :
    row.effect key = some true ↔ CountsApplied zitadelTarget key [.add,.replace] row := by
  unfold Intent.effect CountsApplied
  cases row.opType with
  | add | replace => simp [applied,and_assoc]
  | revoke | apply => simp

theorem effect_false_iff (applied : row.status = .applied) : row.effect key = some false ↔
      CountsApplied zitadelTarget key [.revoke] row ∨ LeavesOut key row := by
  unfold Intent.effect CountsApplied LeavesOut
  cases row.opType with
  | add | apply => simp
  | revoke | replace => simp [applied,and_assoc]

theorem replayed_iff : outbox.replayed key = true ↔
      ∃ row ∈ outbox.rows, CountsApplied zitadelTarget key [.add,.replace] row ∧
        ∀ other ∈ outbox.rows,
          CountsApplied zitadelTarget key [.revoke] other ∨ LeavesOut key other →
            other.intentSeq < row.intentSeq := by
  unfold Outbox.replayed
  rw [replay_iff_last (outbox.ordered.filter _)]
  constructor
  · rintro ⟨row,mem,gives,last⟩
    obtain ⟨listed,applied⟩ := mem_filter.mp mem
    refine ⟨row,listed,(effect_true_iff (of_decide_eq_true applied)).mp gives,?_⟩
    intro other isOther takes
    have otherApplied : other.status = .applied := takes.elim (·.2.2.1) (·.2.2.1)
    exact last other (mem_filter.mpr ⟨isOther,decide_eq_true otherApplied⟩)
      ((effect_false_iff otherApplied).mpr takes)
  · rintro ⟨row,listed,gives,last⟩
    have applied := gives.2.2.1
    refine ⟨row,mem_filter.mpr ⟨listed,decide_eq_true applied⟩,
      (effect_true_iff applied).mpr gives,?_⟩
    intro other isOther takes
    obtain ⟨otherListed,otherApplied⟩ := mem_filter.mp isOther
    exact last other otherListed ((effect_false_iff (of_decide_eq_true otherApplied)).mp takes)

theorem standingFor_iff : standingFor zitadelTarget outbox key = true ↔
      ∃ row ∈ outbox.rows, CountsApplied zitadelTarget key [.add,.replace] row ∧
        ∀ other ∈ outbox.rows, CountsApplied zitadelTarget key [.revoke] other →
          other.intentSeq < row.intentSeq := by
  unfold standingFor
  rw [decide_eq_true_eq]
  constructor
  · intro later
    obtain ⟨row,listed,gives,isLast⟩ := exists_of_maxApplied (Nat.lt_of_le_of_lt (Nat.zero_le _) later)
    refine ⟨row,listed,gives,fun other isOther takes => ?_⟩
    rw [isLast]
    exact Nat.lt_of_le_of_lt (le_maxApplied isOther takes) later
  · rintro ⟨row,listed,gives,last⟩
    refine Nat.lt_of_lt_of_le ?_ (le_maxApplied listed gives)
    rcases Nat.eq_zero_or_pos (maxApplied zitadelTarget outbox key [.revoke]) with zero | some
    · rw [zero]
      exact (outbox.numbered row listed).1
    obtain ⟨other,isOther,takes,isLast⟩ := exists_of_maxApplied some
    rw [← isLast]
    exact last other isOther takes

theorem last_of_standing (stands : standingFor zitadelTarget outbox key = true) :
    ∃ row ∈ outbox.rows, CountsApplied zitadelTarget key [.add,.replace] row ∧
      ∀ other ∈ outbox.rows, CountsApplied zitadelTarget key [.add,.revoke,.replace] other →
        other.intentSeq ≤ row.intentSeq := by
  have later := of_decide_eq_true stands
  obtain ⟨row,listed,gives,isLast⟩ :=
    exists_of_maxApplied (Nat.lt_of_le_of_lt (Nat.zero_le _) later)
  refine ⟨row,listed,gives,fun other isOther counts => ?_⟩
  obtain ⟨target,user,applied,project,role,op⟩ := counts
  rw [isLast]
  by_cases revokes : other.opType = .revoke
  · have takes : CountsApplied zitadelTarget key [.revoke] other :=
      ⟨target,user,applied,project,role,mem_singleton.mpr revokes⟩
    exact Nat.le_of_lt (Nat.lt_of_le_of_lt (le_maxApplied isOther takes) later)
  · refine le_maxApplied isOther ⟨target,user,applied,project,role,?_⟩
    simp only [mem_cons] at op ⊢
    exact op.imp id fun rest => rest.resolve_left revokes

theorem revoked_of_not_standing (fallen : ¬ standingFor zitadelTarget outbox key = true)
    (listed : row ∈ outbox.rows) (gives : CountsApplied zitadelTarget key [.add,.replace] row) :
    ∃ taken ∈ outbox.rows, CountsApplied zitadelTarget key [.revoke] taken ∧
      row.intentSeq < taken.intentSeq := by
  rw [standingFor_iff] at fallen
  by_contra none
  refine fallen ⟨row,listed,gives,fun other isOther takes => ?_⟩
  by_contra notBefore
  refine none ⟨other,isOther,takes,Nat.lt_of_le_of_ne (Nat.not_lt.mp notBefore) fun same => ?_⟩
  have isRow := outbox.eq_of_seq_eq listed isOther same
  have revokes := mem_singleton.mp takes.2.2.2.2.2
  have op := gives.2.2.2.2.2
  rw [isRow,revokes] at op
  exact absurd op (by decide)

end Proofs

/-- Standing is the replay of what was applied exactly where each replace that left the
role out was followed by a row that lists it, or found it not standing. -/
theorem standing_iff_replayed (outbox : Outbox) (key : HeldRole) :
    (standingFor zitadelTarget outbox key = true ↔ outbox.replayed key = true) ↔
      ∀ gone ∈ outbox.rows, LeavesOut key gone →
        (∃ row ∈ outbox.rows, CountsApplied zitadelTarget key [.add,.revoke,.replace] row ∧
          gone.intentSeq < row.intentSeq) ∨
        ∀ row ∈ outbox.rows, CountsApplied zitadelTarget key [.add,.replace] row →
          ∃ taken ∈ outbox.rows, CountsApplied zitadelTarget key [.revoke] taken ∧
            row.intentSeq < taken.intentSeq := by
  constructor
  · intro same gone isGone leaves
    by_cases stands : standingFor zitadelTarget outbox key = true
    · obtain ⟨row,listed,gives,last⟩ := replayed_iff.mp (same.mp stands)
      exact .inl ⟨row,listed,gives.mono (by decide),last gone isGone (.inr leaves)⟩
    · exact .inr fun row => revoked_of_not_standing stands
  · intro again
    refine ⟨fun stands => ?_,fun replayed => ?_⟩
    · obtain ⟨row,listed,gives,last⟩ := last_of_standing stands
      refine replayed_iff.mpr ⟨row,listed,gives,fun other isOther takes => ?_⟩
      rcases takes with revokes | leaves
      · obtain ⟨giver,isGiver,givesToo,lastRevoke⟩ := standingFor_iff.mp stands
        exact Nat.lt_of_lt_of_le (lastRevoke other isOther revokes)
          (last giver isGiver (givesToo.mono (by decide)))
      rcases again other isOther leaves with ⟨later,isLater,counts,after⟩ | fallen
      · exact Nat.lt_of_lt_of_le after (last later isLater counts)
      · obtain ⟨taken,isTaken,revokes,after⟩ := fallen row listed gives
        exact absurd (last taken isTaken (revokes.mono (by decide))) (Nat.not_le.mpr after)
    · obtain ⟨row,listed,gives,last⟩ := replayed_iff.mp replayed
      exact standingFor_iff.mpr ⟨row,listed,gives,fun other isOther revokes =>
        last other isOther (.inl revokes)⟩

namespace Replaced

def member : HeldRole := ⟨"ada","lab","member"⟩

def row (opType : OpType) (roleKeys : List String) (seq : Nat) : OutboxRow :=
  { target := zitadelTarget, opType := opType, userId := "ada", projectId := "lab"
    roleKeys := roleKeys, source := .direct, sourceRef := "", withdrawsOnly := false
    status := .applied, attempts := 0, waitReason := none, notBefore := none, id := seq
    intentSeq := seq }

theorem three_pos : 0 < 3 := by decide

def outbox : Outbox :=
  { rows := [row .add ["member"] 1,row .replace ["guest"] 2], nextSeq := 3, ordered := by decide
    idsDistinct := by decide, numbered := by decide, started := three_pos }

theorem stands_replacedOut :
    standingFor zitadelTarget outbox member = true ∧ outbox.replayed member = false := by
  decide

end Replaced

end Syndra.Propagation
