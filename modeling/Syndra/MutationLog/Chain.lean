/-
Chains of records, and files that hold one.

Each record of a chain has the next number, the digest of the record before it and its own
digest.
-/

import Syndra.MutationLog.Files

namespace Syndra.MutationLog

open Foundation Foundation.Objects List

section Chain

variable (sha256 : List UInt8 → List UInt8)

def ChainFrom : String → Nat → List Record → Prop
  | _, _, [] => True
  | head, seq, r :: rest =>
    r.seq = seq ∧ r.prev = head ∧ r.digest = r.digestOf sha256 ∧ ChainFrom r.digest (seq + 1) rest

end Chain

def headFrom : String → List Record → String
  | head, [] => head
  | _, r :: rest => headFrom r.digest rest

section Chains

variable {sha256 : List UInt8 → List UInt8} {head : String} {seq : Nat}

theorem headFrom_append (head : String) (first second : List Record) :
    headFrom head (first ++ second) = headFrom (headFrom head first) second := by
  induction first generalizing head with
  | nil => rfl
  | cons r _ ih => exact ih r.digest

theorem chainFrom_append {first second : List Record} :
    ChainFrom sha256 head seq (first ++ second) ↔ ChainFrom sha256 head seq first ∧
        ChainFrom sha256 (headFrom head first) (seq + first.length) second := by
  induction first generalizing head seq with
  | nil =>
    exact ⟨fun chain => ⟨trivial,chain⟩,And.right⟩
  | cons _ rest ih =>
    rw [cons_append,ChainFrom,ChainFrom,headFrom,ih,length_cons]
    rw [show seq + 1 + rest.length = seq + (rest.length + 1) by omega]
    simp only [and_assoc]

variable {records : List Record}

theorem seqs_of_chain (chain : ChainFrom sha256 head seq records) :
    records.map Record.seq = range' seq records.length := by
  induction records generalizing head seq with
  | nil => rfl
  | cons _ _ ih =>
    rw [map_cons,chain.1,ih chain.2.2.2]
    rfl

variable {r : Record}

theorem last_of_chain (chain : ChainFrom sha256 head seq records)
    (last : records.getLast? = some r) :
    r.seq + 1 = seq + records.length ∧ r.digest = headFrom head records := by
  induction records generalizing head seq with
  | nil => cases last
  | cons first rest ih =>
    cases rest with
    | nil =>
      have isFirst : first = r := Option.some.inj last
      rw [← isFirst]
      exact ⟨by rw [chain.1]; rfl,rfl⟩
    | cons =>
      obtain ⟨number,digest⟩ := ih chain.2.2.2 last
      refine ⟨?_,digest⟩
      rw [length_cons (a := first)]
      omega

theorem verifyRecord_next {expected : Nat} (numbered : 0 < expected)
    (isSeq : r.seq = expected) (isPrev : r.prev = head) (isDigest : r.digest = r.digestOf sha256) :
    verifyRecord sha256 (head, expected) r = .ok (r.digest, expected + 1) := by
  unfold verifyRecord
  rw [if_neg (Nat.ne_of_gt numbered)]
  rw [if_neg (not_not_intro isSeq),if_neg (not_not_intro isPrev),if_neg (not_not_intro isDigest)]

theorem verify_chain (numbered : 0 < seq) (chain : ChainFrom sha256 head seq records) :
    records.foldlM (verifyRecord sha256) (head, seq) =
      .ok (headFrom head records, seq + records.length) := by
  induction records generalizing head seq with
  | nil => rfl
  | cons r rest ih =>
    rw [foldlM_cons,verifyRecord_next numbered chain.1 chain.2.1 chain.2.2.1]
    change rest.foldlM (verifyRecord sha256) (r.digest, seq + 1) = _
    rw [ih (Nat.succ_pos _) chain.2.2.2,headFrom,length_cons]
    rw [show seq + 1 + rest.length = seq + (rest.length + 1) by omega]

theorem verify_chain_from (numbered : 0 < seq) (chain : ChainFrom sha256 head seq records) :
    ∃ expected, records.foldlM (verifyRecord sha256) ("", 0) = .ok expected := by
  cases records with
  | nil => exact ⟨_,rfl⟩
  | cons r =>
    have adopted : verifyRecord sha256 ("", 0) r = verifyRecord sha256 (r.prev, r.seq) r := by
      unfold verifyRecord
      rw [if_pos rfl,ite_self]
    have whole := verify_chain numbered chain
    rw [foldlM_cons] at whole ⊢
    rw [adopted,chain.1,chain.2.1]
    exact ⟨_,whole⟩

end Chains

def encode (records : List Record) : List UInt8 :=
  Lines.join newline (records.map Record.marshal)

def recordsIn (data : List UInt8) : List Record :=
  (Lines.split newline data).1.filterMap fun line => (readLine line).record?

def Record.Fits (r : Record) : Prop := r.marshal.length < maxLine

instance (r : Record) : Decidable r.Fits := inferInstanceAs (Decidable (_ < _))

section Files

variable {records : List Record} {r : Record}

theorem encode_nil : encode [] = [] := rfl

theorem encode_append {first second : List Record} :
    encode (first ++ second) = encode first ++ encode second := by
  unfold encode Lines.join
  rw [map_append,flatMap_append]

theorem encode_singleton : encode [r] = r.marshal ++ [newline] := append_nil _

variable {torn : List UInt8} {disk : Disk}

theorem split_encode (unmarked : newline ∉ torn) :
    Lines.split newline (encode records ++ torn) = (records.map Record.marshal, torn) := by
  refine Lines.split_join (fun line mem => ?_) unmarked
  obtain ⟨r,-,rfl⟩ := mem_map.mp mem
  exact newline_notMem_marshal

theorem split_whole : Lines.split newline (encode records) = (records.map Record.marshal, []) := by
  have whole : Lines.split newline (encode records ++ []) = (records.map Record.marshal, []) :=
    split_encode not_mem_nil
  rwa [append_nil] at whole

theorem recordsIn_encode : recordsIn (encode records) = records := by
  unfold recordsIn
  rw [split_whole]
  induction records with
  | nil => rfl
  | cons r rest ih =>
    have isRecord : (readLine r.marshal).record? = some r := by
      rw [readLine_marshal]
      rfl
    change (r.marshal :: rest.map Record.marshal).filterMap _ = r :: rest
    rw [filterMap_cons,isRecord]
    exact congrArg (r :: ·) ih

theorem scan_encode (fit : ∀ r ∈ records, r.Fits) :
    scan (encode records) = (records.map Record.marshal, true) := by
  have all : ∀ line ∈ records.map Record.marshal, decide (line.length < maxLine) = true := by
    intro _ mem
    obtain ⟨r,isRecord,rfl⟩ := mem_map.mp mem
    exact decide_eq_true (fit r isRecord)
  unfold scan
  rw [split_whole]
  dsimp only
  rw [if_pos rfl,takeWhile_eq_self_iff.mpr all,all_eq_true.mpr all]

theorem lastRecordIn_encode (fit : ∀ r ∈ records, r.Fits) :
    lastRecordIn (encode records) = .ok records.getLast? := by
  unfold lastRecordIn
  have read : recordsIn (encode records) = records := recordsIn_encode
  unfold recordsIn at read
  rw [split_whole] at read
  rw [scan_encode fit,if_pos rfl,read]

theorem truncateTornTail_encode (unmarked : newline ∉ torn) :
    truncateTornTail (encode records ++ torn) = encode records := by
  have ends : ∀ (records : List Record) (start : Nat),
      (records.map Record.marshal).foldl
        (fun (ends : Nat × Nat) line =>
          let off := ends.2 + line.length + 1
          (if readLine line = .unreadable then ends.1 else off, off)) (start, start) =
        (start + (encode records).length, start + (encode records).length) := by
    intro records
    induction records with
    | nil => exact fun start => rfl
    | cons r rest ih =>
      intro start
      rw [map_cons,foldl_cons]
      dsimp only
      rw [readLine_marshal,if_neg nofun,ih,
        ← singleton_append,encode_append,encode_singleton,length_append,
        length_append,length_singleton]
      rw [show start + r.marshal.length + 1 + (encode rest).length =
        start + (r.marshal.length + 1 + (encode rest).length) by omega]
  unfold truncateTornTail
  rw [split_encode unmarked]
  rw [ends records 0,Nat.zero_add]
  exact take_left

theorem truncateTornTail_whole : truncateTornTail (encode records) = encode records := by
  have cut : truncateTornTail (encode records ++ []) = encode records :=
    truncateTornTail_encode not_mem_nil
  rwa [append_nil] at cut

section Verify

variable {sha256 : List UInt8 → List UInt8}

theorem verifySegment_encode (fit : ∀ r ∈ records, r.Fits) (expected : String × Nat) :
    verifySegment sha256 expected (encode records) =
      records.foldlM (verifyRecord sha256) expected := by
  have lines : ∀ (records : List Record) (expected : String × Nat),
      (records.map Record.marshal).foldlM (verifyLine sha256) expected =
        records.foldlM (verifyRecord sha256) expected := by
    intro records
    induction records with
    | nil => exact fun expected => rfl
    | cons r _ ih =>
      intro expected
      rw [map_cons,foldlM_cons,foldlM_cons]
      unfold verifyLine
      rw [readLine_marshal]
      dsimp only
      cases verifyRecord sha256 expected r with
      | error => rfl
      | ok next => exact ih next
  unfold verifySegment
  rw [scan_encode fit,lines]
  cases records.foldlM (verifyRecord sha256) expected with
  | error | ok => rfl

theorem verifySegments_encode {segments : List (List Record)}
    (fit : ∀ r ∈ segments.flatten, r.Fits) (expected : String × Nat) :
    (segments.map encode).foldlM (verifySegment sha256) expected =
      segments.flatten.foldlM (verifyRecord sha256) expected := by
  induction segments generalizing expected with
  | nil => rfl
  | cons segment _ ih =>
    rw [map_cons,foldlM_cons,flatten_cons,foldlM_append,
      verifySegment_encode fun r mem => fit r (mem_append_left _ mem)]
    cases segment.foldlM (verifyRecord sha256) expected with
    | error => rfl
    | ok next => exact ih (fun r mem => fit r (mem_append_right _ mem)) next

end Verify

theorem recoverHead_encode {segments : List (List Record)}
    (fit : ∀ segment ∈ segments, ∀ r ∈ segment, r.Fits) :
    recoverHead (segments.map encode) = .ok (match segments.reverse.flatten.getLast? with
        | some r => (r.seq, r.digest)
        | none => (0, "")) := by
  induction segments with
  | nil => rfl
  | cons segment _ ih =>
    rw [map_cons,recoverHead,lastRecordIn_encode (fit segment mem_cons_self),
      reverse_cons,flatten_append,flatten_singleton,getLast?_append]
    cases segment.getLast? with
    | some => rfl
    | none => exact ih fun other mem => fit other (mem_cons_of_mem _ mem)

theorem lastRecordIn_unfit (mem : r ∈ records) (unfit : ¬ r.Fits) :
    lastRecordIn (encode records) = .error .tooLong := by
  have stops : (scan (encode records)).2 = false := by
    unfold scan
    rw [split_whole]
    dsimp only
    rw [all_eq_false]
    exact ⟨r.marshal,mem_map_of_mem mem,fun short => unfit (of_decide_eq_true short)⟩
  unfold lastRecordIn
  rw [stops]
  rfl

theorem openMutationLog_unfit (live : disk.live = some (encode records))
    (mem : r ∈ records) (unfit : ¬ r.Fits) : openMutationLog disk = .error .tooLong := by
  unfold openMutationLog Disk.files
  rw [live,Option.getD_some,truncateTornTail_whole]
  dsimp only
  rw [Option.toList_some,reverse_append,reverse_singleton,singleton_append,
    recoverHead,lastRecordIn_unfit mem unfit]

theorem openMutationLog_encode (live : disk.live = some (encode (records ++ [r])))
    (fit : ∀ other ∈ records ++ [r], other.Fits) :
    ∃ writer, openMutationLog disk = .ok (disk, writer) ∧ writer.head = r.digest := by
  have same : { disk with live := some (encode (records ++ [r])) } = disk := by
    rw [← live]
  unfold openMutationLog
  rw [live,Option.getD_some,truncateTornTail_whole]
  dsimp only
  rw [same]
  unfold Disk.files
  rw [live,Option.toList_some,reverse_append,reverse_singleton,singleton_append,
    recoverHead,lastRecordIn_encode fit,getLast?_concat]
  exact ⟨_,rfl,rfl⟩

end Files

end Syndra.MutationLog
