/-
The backend's memory of an add-on's log.

The add-on reports the head of its log and its last number.
-/

import Syndra.Foundation.Runs
import Syndra.MutationLog.Chain

namespace Syndra.MutationLog

open Foundation.Framing Foundation.Runs Foundation.Text List Function

/-! ### The anchor -/

inductive Verdict where
  | firstSighting
  | extended
  | unchanged
  | recordsDecreased
  | headRewritten
deriving DecidableEq

structure Finding where
  reason : Verdict
  head : String
  records : Int
deriving DecidableEq

structure LogAnchor where
  head : String
  records : Int
  violation : Option Finding
deriving DecidableEq

def classifyLogHead (prevHead : String) (prevRecords : Int) (head : String) (records : Int) :
    Verdict :=
  if records < prevRecords then .recordsDecreased
  else if records = prevRecords ∧ head ≠ prevHead then .headRewritten
  else if records = prevRecords then .unchanged
  else if head = prevHead then .headRewritten
  else .extended

def anchorViolation (verdict : Verdict) : Bool :=
  verdict = .recordsDecreased || verdict = .headRewritten

inductive AnchorError where
  | noTarget
  | negativeCount
  | nothingToCompare
  | noActor
  | noExplanation
  | noAnchor
  | noFinding
  | moved
deriving DecidableEq

abbrev Anchors := String → Option LogAnchor

def recordLogHead (anchors : Anchors) (target head : String) (records : Int) :
    Except AnchorError (Anchors × Verdict) :=
  if trimSpace target = "" then .error .noTarget
  else if records < 0 then .error .negativeCount
  else
    match anchors target with
    | none =>
      if trimSpace head = "" then .error .nothingToCompare
      else
        .ok (Function.update anchors target
          (some { head := head, records := records, violation := none }), .firstSighting)
    | some anchor =>
      let verdict := classifyLogHead anchor.head anchor.records head records
      if anchorViolation verdict then
        .ok (Function.update anchors target
          (some { anchor with violation := some ⟨verdict,head,records⟩ }), verdict)
      else if anchor.violation = none then
        .ok (Function.update anchors target
          (some { anchor with head := head, records := records }), verdict)
      else .ok (anchors, verdict)

def resolveLogViolation (anchors : Anchors) (target actor note citedHead : String) :
    Except AnchorError Anchors :=
  if trimSpace actor = "" then .error .noActor
  else if trimSpace note = "" then .error .noExplanation
  else
    match anchors target with
    | none => .error .noAnchor
    | some anchor =>
      match anchor.violation with
      | none => .error .noFinding
      | some finding =>
        if finding.head ≠ citedHead then .error .moved
        else
          .ok (Function.update anchors target
            (some { head := finding.head, records := finding.records, violation := none }))

/-! ### What a call does -/

inductive Recorded (anchors : Anchors) (target head : String) (records : Int) :
    Anchors → Verdict → Prop where
  | first : anchors target = none →
      Recorded anchors target head records
        (Function.update anchors target
          (some { head := head, records := records, violation := none })) .firstSighting
  | violation (anchor : LogAnchor) (verdict : Verdict) : anchors target = some anchor →
      anchorViolation verdict = true →
      Recorded anchors target head records
        (Function.update anchors target
          (some { anchor with violation := some ⟨verdict,head,records⟩ })) verdict
  | moves (anchor : LogAnchor) : anchors target = some anchor → anchor.violation = none →
      anchorViolation (classifyLogHead anchor.head anchor.records head records) = false →
      Recorded anchors target head records
        (Function.update anchors target (some { anchor with head := head, records := records }))
        (classifyLogHead anchor.head anchor.records head records)
  | stands (anchor : LogAnchor) (verdict : Verdict) : anchors target = some anchor →
      anchor.violation ≠ none → Recorded anchors target head records anchors verdict

variable {anchors next : Anchors} {target : String} {records : Int}

theorem recorded_of_recordLogHead {head : String}
    {verdict : Verdict} (called : recordLogHead anchors target head records = .ok (next, verdict)) :
    Recorded anchors target head records next verdict := by
  unfold recordLogHead at called
  split at called
  · cases called
  split at called
  · cases called
  split at called
  · next missing =>
    split at called
    · cases called
    · cases called
      exact .first missing
  · next anchor present =>
    dsimp only at called
    split at called
    · next violates =>
      cases called
      exact .violation anchor _ present violates
    rename_i healthy
    split at called
    · next none =>
      cases called
      exact .moves anchor present none (Bool.not_eq_true _ ▸ healthy)
    · next some =>
      cases called
      exact .stands anchor _ present some

theorem resolved_of_resolveLogViolation {actor note citedHead : String}
    (called : resolveLogViolation anchors target actor note citedHead = .ok next) :
    ∃ finding : Finding, next = update anchors target
      (some { head := finding.head, records := finding.records, violation := none }) := by
  unfold resolveLogViolation at called
  split at called
  · cases called
  split at called
  · cases called
  split at called
  · cases called
  split at called
  · cases called
  rename_i finding _
  split at called
  · cases called
  · cases called
    exact ⟨finding,rfl⟩

theorem classifyLogHead_healthy {prevHead head : String} {prevRecords : Int}
    (healthy : anchorViolation (classifyLogHead prevHead prevRecords head records) = false) :
    (records = prevRecords ∧ head = prevHead) ∨ prevRecords < records := by
  unfold classifyLogHead at healthy
  split at healthy
  · cases healthy
  rename_i notFewer
  split at healthy
  · cases healthy
  rename_i notOther
  split at healthy
  · next same =>
    refine .inl ⟨same,?_⟩
    by_contra differ
    exact notOther ⟨same,differ⟩
  · exact .inr (by omega)

/-! ### Logs that verify -/

structure Verified (sha256 : List UInt8 → List UInt8) where
  records : List Record
  passes : (records.foldlM (verifyRecord sha256) ("", 0)).toBool = true

namespace Verified

variable {sha256 : List UInt8 → List UInt8}

def head (log : Verified sha256) : String := headFrom "" log.records

def count (log : Verified sha256) : Nat := ((log.records.getLast?).map Record.seq).getD 0

end Verified

/-! ### What stands behind a head -/

/-- The record is in the chain that the digest ends. Pruned records are in it too. -/
inductive Ends (sha256 : List UInt8 → List UInt8) (r : Record) : String → Prop where
  | last : r.digest = r.digestOf sha256 → Ends sha256 r r.digest
  | before (later : Record) :
      later.digest = later.digestOf sha256 → Ends sha256 r later.prev → Ends sha256 r later.digest

def Verified.Includes {sha256 : List UInt8 → List UInt8} (log : Verified sha256) (r : Record) :
    Prop :=
  r ∈ log.records ∨ ∃ first ∈ log.records.head?, Ends sha256 r first.prev

section Proofs

variable {sha256 : List UInt8 → List UInt8}

variable {r : Record} {seq : Nat}

variable {digest : String}

theorem Ends.trans {middle : Record} (one : Ends sha256 r middle.digest)
    (two : Ends sha256 middle digest) : Ends sha256 r digest := by
  induction two with
  | last => exact one
  | before later own _ ih => exact .before later own ih

theorem toDigits_injective {first second : Nat} (same : toString first = toString second) :
    first = second := by
  have digits : Nat.toDigits 10 first = Nat.toDigits 10 second := by
    have lists := congrArg String.toList same
    rwa [Nat.toString_eq_repr,Nat.toString_eq_repr,Nat.toList_repr,Nat.toList_repr] at lists
  have parsed := congrArg (fun chars => Nat.ofDigitChars 10 chars 0) digits
  rwa [Nat.ofDigitChars_ten_toDigits,Nat.ofDigitChars_ten_toDigits] at parsed

theorem eq_of_digest (injective : Function.Injective sha256) {one two : Record}
    (ownOne : one.digest = one.digestOf sha256) (ownTwo : two.digest = two.digestOf sha256)
    (same : one.digest = two.digest) : one = two := by
  have fields := frameText_injective (injective (hexadecimal_injective
    (ownOne.symm.trans (same.trans ownTwo))))
  simp only [cons.injEq,and_true] at fields
  obtain ⟨seq,moment,operation,subject,actor,callID,outcome,prev⟩ := fields
  cases one
  cases two
  simp only [Record.mk.injEq]
  exact ⟨toDigits_injective seq,moment,operation,subject,actor,callID,outcome,prev,same⟩

theorem Ends.cases_digest (ends : Ends sha256 r digest) :
    (r.digest = digest ∧ r.digest = r.digestOf sha256) ∨
      ∃ later : Record, later.digest = digest ∧ later.digest = later.digestOf sha256 ∧
        Ends sha256 r later.prev := by
  cases ends with
  | last own => exact .inl ⟨rfl,own⟩
  | before later own earlier => exact .inr ⟨later,rfl,own,earlier⟩

variable {records : List Record}

theorem ends_headFrom {head : String} (chain : ChainFrom sha256 head seq records)
    (inside : r ∈ records ∨ Ends sha256 r head) :
    Ends sha256 r (headFrom head records) := by
  induction records generalizing head seq with
  | nil =>
    rcases inside with impossible | before
    · exact absurd impossible not_mem_nil
    · exact before
  | cons first _ ih =>
    obtain ⟨-,prev,own,later⟩ := chain
    refine ih later ?_
    rcases inside with mem | before
    · rcases mem_cons.mp mem with rfl | mem
      · exact .inr (.last own)
      · exact .inl mem
    · rw [← prev] at before
      exact .inr (.before first own before)

theorem ends_headFrom_iff (injective : Function.Injective sha256) {head : String}
    (chain : ChainFrom sha256 head seq records) :
    Ends sha256 r (headFrom head records) ↔ r ∈ records ∨ Ends sha256 r head := by
  refine ⟨fun ends => ?_,ends_headFrom chain⟩
  induction records using reverseRecOn with
  | nil => exact .inr ends
  | append_singleton earlier last ih =>
    obtain ⟨front,-,prev,own,-⟩ := chainFrom_append.mp chain
    rw [headFrom_append] at ends
    have atLast : last ∈ earlier ++ [last] := mem_append_right _ mem_cons_self
    rcases ends.cases_digest with ⟨same,ownToo⟩ | ⟨_,same,ownToo,before⟩
    · rw [eq_of_digest injective ownToo own same]
      exact .inl atLast
    · rw [eq_of_digest injective ownToo own same,prev] at before
      exact (ih front before).imp (mem_append_left _) id

theorem chain_of_verify {head : String} {next : String × Nat} (numbered : 0 < seq)
    (verified : records.foldlM (verifyRecord sha256) (head, seq) = .ok next) :
    ChainFrom sha256 head seq records := by
  induction records generalizing head seq with
  | nil => trivial
  | cons _ _ ih =>
    rw [foldlM_cons] at verified
    unfold verifyRecord at verified
    rw [if_neg (Nat.ne_of_gt numbered)] at verified
    dsimp only at verified
    split at verified
    · cases verified
    rename_i isSeq
    split at verified
    · cases verified
    rename_i isPrev
    split at verified
    · cases verified
    rename_i isDigest
    exact ⟨not_not.mp isSeq,not_not.mp isPrev,not_not.mp isDigest, ih (Nat.succ_pos _) verified⟩

theorem Verified.chain (log : Verified sha256) {first : Record} {rest : List Record}
    (isLog : log.records = first :: rest) :
    ChainFrom sha256 first.prev first.seq (first :: rest) := by
  have passes := log.passes
  rw [isLog,foldlM_cons] at passes
  have adopted : verifyRecord sha256 ("", 0) first =
      if first.digest ≠ first.digestOf sha256 then .error (.altered first.seq)
      else .ok (first.digest, first.seq + 1) := by
    unfold verifyRecord
    rw [if_pos rfl]
    rw [if_neg (not_not_intro rfl),if_neg (not_not_intro rfl)]
  rw [adopted] at passes
  split at passes
  · cases passes
  rename_i own
  refine ⟨rfl,rfl,not_not.mp own,?_⟩
  cases later : rest.foldlM (verifyRecord sha256) (first.digest, first.seq + 1) with
  | error =>
    change (rest.foldlM (verifyRecord sha256) (first.digest, first.seq + 1)).toBool = true
      at passes
    rw [later] at passes
    cases passes
  | ok => exact chain_of_verify (Nat.succ_pos _) later

theorem digest_ne_empty (named : ∀ data, sha256 data ≠ [])
    (own : r.digest = r.digestOf sha256) :
    r.digest ≠ "" := by
  intro empty
  rw [empty] at own
  have nothing : hexadecimal [] = "" := rfl
  exact named _ (hexadecimal_injective (own.symm.trans nothing.symm))

theorem not_ends_empty (named : ∀ data, sha256 data ≠ []) : ¬ Ends sha256 r "" := by
  intro ends
  rcases ends.cases_digest with ⟨empty,own⟩ | ⟨_,empty,own,-⟩
  all_goals exact digest_ne_empty named own empty

theorem Verified.includes_iff (injective : Function.Injective sha256)
    (named : ∀ data, sha256 data ≠ []) (log : Verified sha256) (r : Record) :
    log.Includes r ↔ Ends sha256 r log.head := by
  unfold Verified.Includes Verified.head
  cases isLog : log.records with
  | nil =>
    refine ⟨fun inside => ?_,fun ends => absurd ends (not_ends_empty named)⟩
    rcases inside with impossible | ⟨first,impossible,-⟩
    · exact absurd impossible not_mem_nil
    · cases impossible
  | cons first =>
    have behind := ends_headFrom_iff (r := r) injective (log.chain isLog)
    refine Iff.trans ?_ behind.symm
    refine or_congr_right ⟨fun ⟨other,isFirst,ends⟩ => ?_,fun ends => ⟨first,rfl,ends⟩⟩
    cases isFirst
    exact ends

end Proofs

/-! ### Rounds of reports -/

inductive Round (sha256 : List UInt8 → List UInt8) where
  | report (target : String) (log : Verified sha256)
  | resolve (target actor note citedHead : String)

/-- The logs reported for a target since its last resolution, and whether none of them was
judged a violation. -/
structure Period (sha256 : List UInt8 → List UInt8) where
  reports : List (Verified sha256)
  clean : Bool

structure Watch (sha256 : List UInt8 → List UInt8) where
  anchors : Anchors
  period : String → Period sha256

def Watch.fresh (sha256 : List UInt8 → List UInt8) : Watch sha256 :=
  { anchors := fun _ => none, period := fun _ => ⟨[],true⟩ }

def Watch.step {sha256 : List UInt8 → List UInt8} (watch : Watch sha256) :
    Round sha256 → Option (Watch sha256)
  | .report target log =>
    match recordLogHead watch.anchors target log.head log.count with
    | .error _ => some watch
    | .ok (anchors, verdict) =>
      let period := watch.period target
      some
        { anchors := anchors
          period := Function.update watch.period target
            ⟨period.reports ++ [log],period.clean && !anchorViolation verdict⟩ }
  | .resolve target actor note citedHead =>
    match resolveLogViolation watch.anchors target actor note citedHead with
    | .error _ => some watch
    | .ok anchors =>
      some
        { anchors := anchors, period := Function.update watch.period target ⟨[],true⟩ }

/-- A log with more records than are anchored still has the anchored one: one that lost it
did not grow past the anchored number before it was reported. -/
def Round.Noticeable {sha256 : List UInt8 → List UInt8} (watch : Watch sha256) : Round sha256 → Prop
  | .report target log =>
    ∀ anchor, watch.anchors target = some anchor → anchor.violation = none →
      anchor.records < log.count → ∃ r, r.digest = anchor.head ∧ log.Includes r
  | .resolve _ _ _ _ => True

def Period.Unbroken {sha256 : List UInt8 → List UInt8} (period : Period sha256) : Prop :=
  period.reports.Pairwise fun earlier later =>
    ∀ r, earlier.records.getLast? = some r → later.Includes r

structure Anchored {sha256 : List UInt8 → List UInt8} (row : Option LogAnchor)
    (period : Period sha256) : Prop where
  healthy : ∀ anchor, row = some anchor → anchor.violation = none
  last : ∀ log, period.reports.getLast? = some log → ∃ anchor,
    row = some anchor ∧ anchor.head = log.head ∧ anchor.records = log.count
  unbroken : period.Unbroken

section Rounds

variable {sha256 : List UInt8 → List UInt8} {watch next : Watch sha256} {round : Round sha256}

variable {r : Record}

theorem Verified.ends_last (log : Verified sha256)
    (isLast : log.records.getLast? = some r) : Ends sha256 r log.head := by
  unfold Verified.head
  have mem := mem_of_getLast? isLast
  cases isLog : log.records with
  | nil =>
    rw [isLog] at isLast
    cases isLast
  | cons first =>
    rw [isLog] at mem
    exact (ends_headFrom (log.chain isLog) (.inl mem) : Ends sha256 r (headFrom first.prev _))

variable {anchor : LogAnchor} {clean : Bool} {period : Period sha256} {target : String}

variable {log : Verified sha256}

theorem ends_of_healthy (injective : Function.Injective sha256)
    (named : ∀ data, sha256 data ≠ [])
    (healthy : anchorViolation
      (classifyLogHead anchor.head anchor.records log.head log.count) = false)
    (noticeable : anchor.records < log.count → ∃ old, old.digest = anchor.head ∧ log.Includes old)
    (behind : Ends sha256 r anchor.head) : Ends sha256 r log.head := by
  rcases classifyLogHead_healthy healthy with ⟨-,same⟩ | more
  · rw [same]
    exact behind
  obtain ⟨old,isHead,inside⟩ := noticeable more
  rw [← isHead] at behind
  exact behind.trans ((log.includes_iff injective named old).mp inside)

theorem Anchored.report (injective : Function.Injective sha256)
    (named : ∀ data, sha256 data ≠ [])
    (anchored : Anchored (some anchor) period) (healthy : anchorViolation
      (classifyLogHead anchor.head anchor.records log.head log.count) = false)
    (noticeable : anchor.records < log.count → ∃ old, old.digest = anchor.head ∧ log.Includes old) :
    Anchored (some { anchor with head := log.head, records := log.count })
      ⟨period.reports ++ [log],clean⟩ := by
  constructor
  · intro _ isMoved
    cases isMoved
    exact anchored.healthy anchor rfl
  · intro _ isLast
    rw [getLast?_concat] at isLast
    cases isLast
    exact ⟨_,rfl,rfl,rfl⟩
  refine pairwise_append.mpr ⟨anchored.unbroken,pairwise_singleton _ _,?_⟩
  intro earlier mem _ isLog r isLast
  rw [mem_singleton.mp isLog,log.includes_iff injective named]
  refine ends_of_healthy injective named healthy noticeable ?_
  rcases eq_nil_or_concat period.reports with none | ⟨_,final,isReports⟩
  · rw [none] at mem
    exact absurd mem not_mem_nil
  rw [concat_eq_append] at isReports
  have atEnd : period.reports.getLast? = some final := by
    rw [isReports,getLast?_concat]
  obtain ⟨_,isAnchor,isHead,-⟩ := anchored.last final atEnd
  cases isAnchor
  rw [isHead]
  rw [isReports] at mem
  rcases mem_append.mp mem with before | atLast
  · have pairs := anchored.unbroken
    unfold Period.Unbroken at pairs
    rw [isReports,pairwise_append] at pairs
    exact (final.includes_iff injective named r).mp
      (pairs.2.2 earlier before final mem_cons_self r isLast)
  · rw [mem_singleton.mp atLast] at isLast
    exact final.ends_last isLast

theorem Anchored.firstReport (anchored : Anchored none period) :
    Anchored (some { head := log.head, records := log.count, violation := none })
      ⟨period.reports ++ [log],clean⟩ := by
  have nothing : period.reports = [] := by
    rw [← getLast?_eq_none_iff]
    by_contra some
    obtain ⟨last,isLast⟩ := Option.ne_none_iff_exists'.mp some
    obtain ⟨anchor,impossible,-⟩ := anchored.last last isLast
    cases impossible
  rw [nothing]
  constructor
  · intro _ isAnchor
    cases isAnchor
    rfl
  · intro _ isLast
    cases isLast
    exact ⟨_,rfl,rfl,rfl⟩
  · exact pairwise_singleton _ _

theorem anchored_resolved (healthy : anchor.violation = none) :
    Anchored (some anchor) (⟨[],clean⟩ : Period sha256) := by
  constructor
  · intro _ isAnchor
    cases isAnchor
    exact healthy
  · exact nofun
  · exact Pairwise.nil

def Holds (watch : Watch sha256) : Prop :=
  ∀ target, (watch.period target).clean = true →
    Anchored (watch.anchors target) (watch.period target)

theorem holds_fresh : Holds (Watch.fresh sha256) := fun _ _ =>
  { healthy := nofun
    last := nofun
    unbroken := Pairwise.nil }

theorem Holds.update (holds : Holds watch) {row : Option LogAnchor}
    (atTarget : period.clean = true → Anchored row period) :
    Holds { anchors := update watch.anchors target row
            period := update watch.period target period } := by
  intro other clean
  dsimp only at clean ⊢
  by_cases same : other = target
  · subst same
    rw [update_self] at clean ⊢
    rw [update_self]
    exact atTarget clean
  · rw [update_of_ne same] at clean ⊢
    rw [update_of_ne same]
    exact holds other clean

theorem holds_report (injective : Function.Injective sha256)
    (named : ∀ data, sha256 data ≠ [])
    {anchors : Anchors} {verdict : Verdict} (holds : Holds watch)
    (noticeable : (Round.report target log).Noticeable watch)
    (recorded : Recorded watch.anchors target log.head log.count anchors verdict) :
    Holds { anchors := anchors
            period := update watch.period target
              ⟨(watch.period target).reports ++ [log],
                (watch.period target).clean && !anchorViolation verdict⟩ } := by
  have before : ∀ {verdict}, ((watch.period target).clean && !anchorViolation verdict) = true →
      Anchored (watch.anchors target) (watch.period target) :=
    fun clean => holds target (Bool.and_eq_true_iff.mp clean).1
  cases recorded with
  | first missing =>
    refine holds.update fun clean => ?_
    have anchored := before clean
    rw [missing] at anchored
    exact anchored.firstReport
  | violation _ _ _ violates =>
    refine holds.update fun clean => ?_
    rw [violates] at clean
    cases (Bool.and_eq_true_iff.mp clean).2
  | moves anchor present none healthy =>
    refine holds.update fun clean => ?_
    have anchored := before clean
    rw [present] at anchored
    exact anchored.report injective named healthy (noticeable anchor present none)
  | stands anchor _ present some =>
    have unmoved : watch.anchors = update watch.anchors target (watch.anchors target) :=
      (update_eq_self target watch.anchors).symm
    rw [unmoved]
    refine holds.update fun clean => ?_
    exact absurd ((before clean).healthy anchor present) some

theorem holds_step (injective : Function.Injective sha256)
    (named : ∀ data, sha256 data ≠ [])
    (holds : Holds watch) (noticeable : round.Noticeable watch)
    (taken : watch.step round = some next) : Holds next := by
  unfold Watch.step at taken
  cases round with
  | report =>
    dsimp only at taken
    split at taken
    · cases taken
      exact holds
    rename_i called
    cases taken
    exact holds_report injective named holds noticeable (recorded_of_recordLogHead called)
  | resolve =>
    dsimp only at taken
    split at taken
    · cases taken
      exact holds
    rename_i called
    cases taken
    obtain ⟨finding,rfl⟩ := resolved_of_resolveLogViolation called
    exact holds.update fun _ => anchored_resolved rfl

/-! ### While a finding stands -/

def Round.Resolves (target : String) : Round sha256 → Prop
  | .report _ _ => False
  | .resolve other _ _ _ => other = target

theorem step_standing (present : watch.anchors target = some anchor)
    (standing : anchor.violation.isSome = true) (unresolved : ¬ round.Resolves target)
    (taken : watch.step round = some next) :
    ∃ kept, next.anchors target = some kept ∧ kept.head = anchor.head ∧
      kept.records = anchor.records ∧ kept.violation.isSome = true := by
  have unchanged : ∃ kept, watch.anchors target = some kept ∧ kept.head = anchor.head ∧
      kept.records = anchor.records ∧ kept.violation.isSome = true :=
    ⟨anchor,present,rfl,rfl,standing⟩
  unfold Watch.step at taken
  cases round with
  | report other =>
    dsimp only at taken
    split at taken
    · cases taken
      exact unchanged
    rename_i anchors verdict called
    cases taken
    dsimp only
    by_cases same : target = other
    · subst same
      cases recorded_of_recordLogHead called with
      | first missing =>
        rw [present] at missing
        cases missing
      | violation _ _ isFound =>
        rw [present] at isFound
        cases isFound
        rw [update_self]
        exact ⟨_,rfl,rfl,rfl,rfl⟩
      | moves _ isFound none =>
        rw [present] at isFound
        cases isFound
        rw [none] at standing
        cases standing
      | stands => exact unchanged
    · have kept : anchors target = watch.anchors target := by
        cases recorded_of_recordLogHead called with
        | first | violation | moves => exact update_of_ne same _ _
        | stands => rfl
      rw [kept]
      exact unchanged
  | resolve =>
    dsimp only at taken
    split at taken
    · cases taken
      exact unchanged
    rename_i called
    cases taken
    obtain ⟨finding,rfl⟩ := resolved_of_resolveLogViolation called
    dsimp only
    rw [update_of_ne (fun same => unresolved same.symm)]
    exact unchanged

end Rounds

/-- As long as what lost records is reported before it has more than are anchored: in a
period without a violation each log has the last record of every log before it. A
standing finding holds the anchor in any case. -/
theorem anchor_notices (sha256 : List UInt8 → List UInt8) (injective : Function.Injective sha256)
    (named : ∀ data, sha256 data ≠ []) (rounds : List (Round sha256)) (final : Watch sha256)
    (noticeable : Throughout Watch.step (fun watch round => round.Noticeable watch)
      (Watch.fresh sha256) rounds)
    (reached : run Watch.step (Watch.fresh sha256) rounds = some final) :
    (∀ target, (final.period target).clean = true → (final.period target).Unbroken) ∧
      ∀ target anchor round next, final.anchors target = some anchor →
        anchor.violation.isSome = true → ¬ round.Resolves target →
        final.step round = some next →
        ∃ kept, next.anchors target = some kept ∧ kept.head = anchor.head ∧
          kept.records = anchor.records ∧ kept.violation.isSome = true := by
  have holds := run_invariant Holds (holds_step injective named) holds_fresh noticeable reached
  refine ⟨fun target clean => (holds target clean).unbroken,?_⟩
  intro _ _ _ _ present standing unresolved taken
  exact step_standing present standing unresolved taken

/-! ### Two reports -/

def Verified.ofChain {sha256 : List UInt8 → List UInt8} (records : List Record)
    (chain : ChainFrom sha256 "" 1 records) : Verified sha256 where
  records := records
  passes := by
    obtain ⟨expected,verified⟩ := verify_chain_from Nat.one_pos chain
    rw [verified]
    rfl

namespace TwoReports

def plainHash (data : List UInt8) : List UInt8 := 0 :: data

theorem injective : Function.Injective plainHash := fun _ _ same => (cons.inj same).2

theorem named : ∀ data, plainHash data ≠ [] := fun _ => cons_ne_nil _ _

def after (seq : Nat) (prev operation : String) : Record :=
  let content : Content :=
    { operation := operation, subject := "ada", actor := "", callID := "", outcome := "" }
  Append.record plainHash { content := content, moment := "", stamp := 0, fate := .succeeds }
    { size := 0, seq := seq, head := prev }

theorem own (seq : Nat) (prev operation : String) :
    (after seq prev operation).digest = (after seq prev operation).digestOf plainHash := rfl

def purge : Record := after 0 "" "account.purge"

def applied : Record := after 0 "" "apply"

def anchored : Verified plainHash := .ofChain [purge] ⟨rfl,rfl,own _ _ _,trivial⟩

def grown : Verified plainHash :=
  .ofChain [purge,after 1 purge.digest "apply"] ⟨rfl,rfl,own _ _ _,rfl,rfl,own _ _ _,trivial⟩

def regrown : Verified plainHash :=
  .ofChain [applied,after 1 applied.digest "apply"] ⟨rfl,rfl,own _ _ _,rfl,rfl,own _ _ _,trivial⟩

def sighted : Watch plainHash :=
  { anchors := Function.update (fun _ => none) "truenas"
      (some { head := anchored.head, records := anchored.count, violation := none })
    period := Function.update (fun _ => ⟨[],true⟩) "truenas" ⟨[anchored],true⟩ }

def extended (log : Verified plainHash) : Watch plainHash :=
  { anchors := Function.update sighted.anchors "truenas"
      (some { head := log.head, records := log.count, violation := none })
    period := Function.update sighted.period "truenas" ⟨[anchored,log],true⟩ }

theorem step_sighted :
    (Watch.fresh plainHash).step (.report "truenas" anchored) = some sighted := by
  unfold Watch.step
  rfl

variable {log : Verified plainHash}

theorem step_extended (second : log.count = 2) (other : log.head ≠ anchored.head) :
    sighted.step (.report "truenas" log) = some (extended log) := by
  have verdict : classifyLogHead anchored.head anchored.count log.head log.count = .extended := by
    have one : anchored.count = 1 := rfl
    unfold classifyLogHead
    rw [if_neg (by omega),if_neg (by omega),if_neg (by omega),if_neg other]
  unfold Watch.step recordLogHead
  dsimp only [sighted]
  rw [update_self]
  dsimp only
  rw [verdict]
  rfl

theorem run_extended (second : log.count = 2) (other : log.head ≠ anchored.head) :
    run Watch.step (Watch.fresh plainHash)
      [.report "truenas" anchored,.report "truenas" log] = some (extended log) := by
  rw [run,step_sighted]
  dsimp only
  rw [run,step_extended second other]
  rfl

theorem head_ne {prev : String} (isHead : log.head = (after 1 prev "apply").digest) :
    log.head ≠ anchored.head := by
  intro same
  have records := eq_of_digest injective (own 1 prev "apply") (own 0 "" "account.purge")
    (isHead.symm.trans same)
  have numbers : 2 = 1 := congrArg Record.seq records
  cases numbers

theorem anchor_notices_grown :
    run Watch.step (Watch.fresh plainHash) [.report "truenas" anchored,.report "truenas" grown] =
        some (extended grown) ∧
      ((extended grown).period "truenas").reports = [anchored,grown] ∧
      ((extended grown).period "truenas").Unbroken := by
  have other : grown.head ≠ anchored.head := head_ne rfl
  have reached := run_extended rfl other
  have noticeable : Throughout Watch.step (fun watch round => round.Noticeable watch)
      (Watch.fresh plainHash) [.report "truenas" anchored,.report "truenas" grown] := by
    refine ⟨nofun,?_⟩
    rw [step_sighted]
    refine ⟨fun anchor isAnchor _ _ => ⟨purge,?_,.inl mem_cons_self⟩,?_⟩
    · cases isAnchor
      rfl
    · rw [step_extended rfl other]
      trivial
  exact ⟨reached,rfl,
    (anchor_notices plainHash injective named _ (extended grown) noticeable reached).1 "truenas" rfl⟩

/-- The only anchored record was replaced and another appended, and no violation was
found. -/
theorem anchor_misses_regrown : Function.Injective plainHash ∧
      ∃ final, run Watch.step (Watch.fresh plainHash)
          [.report "truenas" anchored,.report "truenas" regrown] = some final ∧
        (final.period "truenas").clean = true ∧
        (final.period "truenas").reports = [anchored,regrown] ∧
        anchored.records.getLast? = some purge ∧ ¬ regrown.Includes purge := by
  refine ⟨injective,extended regrown,run_extended rfl (head_ne rfl),rfl,rfl,rfl,?_⟩
  rintro (mem | ⟨_,isFirst,ends⟩)
  · rcases mem_cons.mp mem with same | later
    · have operations : "account.purge" = "apply" := congrArg Record.operation same
      exact absurd operations (by decide)
    have operations : "account.purge" = "apply" :=
      congrArg Record.operation (mem_singleton.mp later)
    exact absurd operations (by decide)
  · cases isFirst
    exact not_ends_empty named ends

end TwoReports

variable {sha256 : List UInt8 → List UInt8}

theorem suffix_of_headFrom (injective : Injective sha256) {one two : List Record}
    {headOne headTwo : String} {seqOne seqTwo : Nat}
    (chainOne : ChainFrom sha256 headOne seqOne one)
    (chainTwo : ChainFrom sha256 headTwo seqTwo two)
    (same : headFrom headOne one = headFrom headTwo two) : one <:+ two ∨ two <:+ one := by
  induction one using reverseRecOn generalizing two with
  | nil => exact .inl nil_suffix
  | append_singleton earlier last ih =>
    rcases eq_nil_or_concat two with rfl | ⟨before,final,rfl⟩
    · exact .inr nil_suffix
    rw [concat_eq_append] at chainTwo same ⊢
    obtain ⟨front,-,prev,own,-⟩ := chainFrom_append.mp chainOne
    obtain ⟨frontTwo,-,prevTwo,ownTwo,-⟩ := chainFrom_append.mp chainTwo
    rw [headFrom_append,headFrom_append] at same
    obtain rfl : last = final := eq_of_digest injective own ownTwo same
    rcases ih front frontTwo (prev.symm.trans prevTwo) with ⟨more,rfl⟩ | ⟨more,rfl⟩
    · exact .inl ⟨more,(append_assoc more earlier [last]).symm⟩
    · exact .inr ⟨more,(append_assoc more before [last]).symm⟩

/-- The head digest fixes the log, up to the oldest records that were pruned. -/
theorem sameHead_suffix (injective : Injective sha256) (one two : Verified sha256)
    (same : one.head = two.head) : one.records <:+ two.records ∨ two.records <:+ one.records := by
  unfold Verified.head at same
  cases isOne : one.records with
  | nil => exact .inl nil_suffix
  | cons =>
    cases isTwo : two.records with
    | nil => exact .inr nil_suffix
    | cons =>
      rw [isOne,isTwo] at same
      exact suffix_of_headFrom injective (one.chain isOne) (two.chain isTwo) same

def Verified.alone {r : Record} (own : r.digest = r.digestOf sha256) : Verified sha256 where
  records := [r]
  passes := by simp [verifyRecord,own]; rfl

namespace TwoReports

def pruned : Verified plainHash := .alone (own 1 purge.digest "apply")

theorem sameHead_suffix_pruned : pruned.head = grown.head ∧
      (pruned.records <:+ grown.records ∨ grown.records <:+ pruned.records) := by
  have same : pruned.head = grown.head := Eq.refl (after 1 purge.digest "apply").digest
  exact ⟨same,sameHead_suffix injective pruned grown same⟩

end TwoReports

end Syndra.MutationLog
