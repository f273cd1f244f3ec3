/-
The log survives failures and crashes.

Over every sequence of appends, failed writes and syncs, rotations, prunes, crashes and
opens in which each record's line fits the reader's buffer, the log can be opened and
verifies, its numbers have no gap, and what an append acknowledged is lost only with a whole
pruned file.
-/

import Syndra.Foundation.Runs
import Syndra.MutationLog.Chain

namespace Syndra.MutationLog

open Foundation Foundation.Objects Foundation.Runs List MutationLog.System

/-! ### What holds -/

/-- Of a directory a process can work on: it verifies, and its records with the pruned
ones are the log from its first record. -/
structure Intact (sha256 : List UInt8 → List UInt8) (system : System) (disk : Disk)
    (writer : Writer) : Prop where
  verified : verifyLog sha256 disk = .ok ()
  records : ∃ records,
    (system.pruned.map Segment.data ++ disk.files).flatMap recordsIn = records ∧
    records.map Record.seq = range' 1 records.length ∧
    writer.seq = records.length ∧
    writer.head = headFrom "" records ∧
    system.acknowledged.Sublist records ∧
    (∀ r ∈ records, r ∈ system.acknowledged ∨ r ∈ system.interrupted) ∧
    (records.getLast? = system.acknowledged.getLast? ∨
      ∃ r ∈ system.interrupted, records.getLast? = some r)

def Event.Timely (log : Settings) (system : System) : Event → Prop
  | .open_ => True
  | .append request =>
    ∀ writer ∈ system.writer, log.maxBytes ≤ writer.size →
      ∀ segment ∈ system.disk.rotated, segment.stamp < request.stamp

instance (log : Settings) (system : System) : (event : Event) → Decidable (event.Timely log system)
  | .open_ => inferInstanceAs (Decidable True)
  | .append request =>
    inferInstanceAs (Decidable (∀ writer ∈ system.writer, log.maxBytes ≤ writer.size →
      ∀ segment ∈ system.disk.rotated, segment.stamp < request.stamp))

def Event.Fits (sha256 : List UInt8 → List UInt8) (system : System) : Event → Prop
  | .open_ => True
  | .append request => ∀ writer ∈ system.writer, (request.record sha256 writer).Fits

instance (sha256 : List UInt8 → List UInt8) (system : System) :
    (event : Event) → Decidable (event.Fits sha256 system)
  | .open_ => inferInstanceAs (Decidable True)
  | .append request =>
    inferInstanceAs (Decidable (∀ writer ∈ system.writer, (request.record sha256 writer).Fits))

/-! ### The invariant -/

/-- The records of the pruned files, of the renamed ones, of the live one, and what a
crash left of a line. -/
structure Ghost where
  old : List (List Record)
  cur : List (List Record)
  live : List Record
  torn : List UInt8

def Ghost.all (ghost : Ghost) : List Record := ghost.old.flatten ++ (ghost.cur.flatten ++ ghost.live)

structure Kept (sha256 : List UInt8 → List UInt8) (system : System) (ghost : Ghost) : Prop where
  pruned : system.pruned.map Segment.data = ghost.old.map encode
  rotated : system.disk.rotated.map Segment.data = ghost.cur.map encode
  file : system.disk.live.getD [] = encode ghost.live ++ ghost.torn
  unmarked : newline ∉ ghost.torn
  stamps : system.disk.rotated.Pairwise fun first second => first.stamp < second.stamp
  nonempty : ∀ segment ∈ ghost.cur, segment ≠ []
  recent : ghost.old ≠ [] → ghost.cur ≠ []
  chain : ChainFrom sha256 "" 1 ghost.all
  fits : ∀ r ∈ ghost.cur.flatten ++ ghost.live, r.Fits
  acknowledged : system.acknowledged.Sublist ghost.all
  known : ∀ r ∈ ghost.all, r ∈ system.acknowledged ∨ r ∈ system.interrupted
  last : ghost.all.getLast? = system.acknowledged.getLast? ∨
    ∃ r ∈ system.interrupted, ghost.all.getLast? = some r

structure Ready (system : System) (ghost : Ghost) (writer : Writer) : Prop where
  whole : ghost.torn = []
  exists_ : system.disk.live.isSome = true
  size : writer.size = (encode ghost.live).length
  seq : writer.seq = ghost.all.length
  head : writer.head = headFrom "" ghost.all

def Held (sha256 : List UInt8 → List UInt8) (system : System) : Prop :=
  ∃ ghost, Kept sha256 system ghost ∧ ∀ writer ∈ system.writer, Ready system ghost writer

section Proofs

variable {sha256 : List UInt8 → List UInt8} {log : Settings} {system next : System} {ghost : Ghost}
variable {writer : Writer}

theorem Ready.live (ready : Ready system ghost writer) (kept : Kept sha256 system ghost) :
    system.disk.live = some (encode ghost.live) := by
  obtain ⟨_,isData⟩ := Option.isSome_iff_exists.mp ready.exists_
  have file := kept.file
  rw [ready.whole,append_nil,isData] at file
  rw [isData]
  exact congrArg some file

theorem Kept.files (kept : Kept sha256 system ghost)
    (live : system.disk.live = some (encode ghost.live)) :
    system.disk.files = (ghost.cur ++ [ghost.live]).map encode := by
  unfold Disk.files Disk.oldestFirst
  rw [Pairwise.insertionSort_eq (kept.stamps.imp Nat.le_of_lt),kept.rotated,live, map_append]
  rfl

private theorem flatten_cur : (ghost.cur ++ [ghost.live]).flatten =
    ghost.cur.flatten ++ ghost.live := by
  rw [flatten_append,flatten_singleton]

private theorem flatMap_encode {segments : List (List Record)} :
    (segments.map encode).flatMap recordsIn = segments.flatten := by
  induction segments with
  | nil => rfl
  | cons _ _ ih =>
    rw [map_cons,flatMap_cons,recordsIn_encode,ih,flatten_cons]

private theorem Kept.intact (kept : Kept sha256 system ghost) (ready : Ready system ghost writer) :
    Intact sha256 system system.disk writer := by
  have files := kept.files (ready.live kept)
  constructor
  · unfold verifyLog
    have later := (chainFrom_append.mp kept.chain).2
    rw [files,verifySegments_encode (by rw [flatten_cur]; exact kept.fits),flatten_cur]
    obtain ⟨_,verified⟩ := verify_chain_from (by omega) later
    rw [verified]
  · refine ⟨ghost.all,?_,seqs_of_chain kept.chain,ready.seq,ready.head,kept.acknowledged,
      kept.known,kept.last⟩
    rw [files,kept.pruned,flatMap_append,flatMap_encode,flatMap_encode,flatten_cur]
    rfl

/-! ### Opening -/

private theorem Kept.all_nil (kept : Kept sha256 system ghost)
    (nothing : ghost.cur.flatten ++ ghost.live = []) : ghost.all = [] := by
  obtain ⟨flat,_⟩ := append_eq_nil_iff.mp nothing
  have cur : ghost.cur = [] := by
    rw [eq_nil_iff_forall_not_mem]
    intro segment mem
    exact kept.nonempty segment mem (flatten_eq_nil_iff.mp flat segment mem)
  have old : ghost.old = [] := by
    by_contra some
    exact kept.recent some cur
  unfold Ghost.all
  rw [nothing,old]
  rfl

theorem Kept.opens (kept : Kept sha256 system ghost) :
    ∃ disk writer, openMutationLog system.disk = .ok (disk, writer) ∧
      Kept sha256 { system with disk := disk, writer := some writer } { ghost with torn := [] } ∧
      Ready { system with disk := disk, writer := some writer } { ghost with torn := [] } writer := by
  have opened : Kept sha256
      { system with disk := { system.disk with live := some (encode ghost.live) } }
      { ghost with torn := [] } :=
    { kept with
      file := (append_nil _).symm
      unmarked := not_mem_nil }
  have whole : truncateTornTail (system.disk.live.getD []) = encode ghost.live := by
    rw [kept.file]
    exact truncateTornTail_encode kept.unmarked
  have fit : ∀ segment ∈ (ghost.cur ++ [ghost.live]).reverse, ∀ r ∈ segment, r.Fits := by
    intro segment mem r inside
    refine kept.fits r ?_
    rw [← flatten_cur]
    exact mem_flatten.mpr ⟨segment,mem_reverse.mp mem,inside⟩
  unfold openMutationLog
  dsimp only
  rw [whole,opened.files rfl,← map_reverse,recoverHead_encode fit,reverse_reverse, flatten_cur]
  cases last : (ghost.cur.flatten ++ ghost.live).getLast? with
  | some r =>
    have isLast : ghost.all.getLast? = some r := by
      unfold Ghost.all
      rw [getLast?_append,last]
      rfl
    obtain ⟨_,digest⟩ := last_of_chain kept.chain isLast
    refine ⟨_,_,rfl,{ opened with },rfl,rfl,rfl,?_,digest⟩
    change r.seq = ghost.all.length
    omega
  | none =>
    have nothing := kept.all_nil (getLast?_eq_none_iff.mp last)
    refine ⟨_,_,rfl,{ opened with },rfl,rfl,rfl,?_,?_⟩
    · change 0 = ghost.all.length
      rw [nothing]
      rfl
    · change "" = headFrom "" ghost.all
      rw [nothing]
      rfl

/-! ### Writing -/

private theorem all_concat (ghost : Ghost) (r : Record) :
    Ghost.all { ghost with live := ghost.live ++ [r] } = ghost.all ++ [r] := by
  unfold Ghost.all
  rw [append_assoc,append_assoc]

theorem Kept.extended (kept : Kept sha256 system ghost) (ready : Ready system ghost writer)
    {r : Record} (isSeq : r.seq = writer.seq + 1) (isPrev : r.prev = writer.head)
    (isDigest : r.digest = r.digestOf sha256) (fits : r.Fits)
    {acknowledged interrupted : List Record}
    (told : acknowledged = system.acknowledged ++ [r] ∧ interrupted = system.interrupted ∨
      acknowledged = system.acknowledged ∧ interrupted = system.interrupted ++ [r])
    (disk : next.disk = { system.disk with live := some (encode (ghost.live ++ [r])) })
    (pruned : next.pruned = system.pruned) (isAcknowledged : next.acknowledged = acknowledged)
    (isInterrupted : next.interrupted = interrupted) :
    Kept sha256 next { ghost with live := ghost.live ++ [r] } := by
  have all := all_concat ghost r
  have extends_ : ChainFrom sha256 "" 1 (ghost.all ++ [r]) := by
    rw [chainFrom_append]
    refine ⟨kept.chain,?_,?_,isDigest,trivial⟩
    · rw [isSeq,ready.seq,Nat.add_comm]
    · rw [isPrev,ready.head]
  have isLast : (ghost.all ++ [r]).getLast? = some r := getLast?_concat
  constructor
  · rw [pruned]
    exact kept.pruned
  · rw [disk]
    exact kept.rotated
  · rw [disk,ready.whole]
    exact (append_nil _).symm
  · exact kept.unmarked
  · rw [disk]
    exact kept.stamps
  · exact kept.nonempty
  · exact kept.recent
  · rw [all]
    exact extends_
  · intro other mem
    rw [← append_assoc] at mem
    rcases mem_append.mp mem with old | new
    · exact kept.fits other old
    · rw [mem_singleton.mp new]
      exact fits
  · rw [all,isAcknowledged]
    rcases told with ⟨rfl,-⟩ | ⟨rfl,-⟩
    · exact kept.acknowledged.append (Sublist.refl _)
    · exact kept.acknowledged.trans (sublist_append_left _ _)
  · rw [all,isAcknowledged,isInterrupted]
    intro other mem
    rcases mem_append.mp mem with old | new
    · rcases told with ⟨rfl,rfl⟩ | ⟨rfl,rfl⟩
      · exact (kept.known other old).imp (mem_append_left _) id
      · exact (kept.known other old).imp id (mem_append_left _)
    rw [mem_singleton.mp new]
    rcases told with ⟨rfl,-⟩ | ⟨-,rfl⟩
    · exact .inl (mem_append_right _ mem_cons_self)
    · exact .inr (mem_append_right _ mem_cons_self)
  · rw [all,isAcknowledged,isInterrupted,isLast]
    rcases told with ⟨rfl,-⟩ | ⟨-,rfl⟩
    · exact .inl getLast?_concat.symm
    · exact .inr ⟨r,mem_append_right _ mem_cons_self,rfl⟩

private theorem Ready.rolledBack (ready : Ready system ghost writer) (written : List UInt8) :
    (encode ghost.live ++ written).take writer.size = encode ghost.live := by
  rw [ready.size]
  exact take_left

private theorem Kept.liveFile (kept : Kept sha256 system ghost) {torn : List UInt8}
    (unmarked : newline ∉ torn)
    (disk : next.disk = { system.disk with live := some (encode ghost.live ++ torn) })
    (pruned : next.pruned = system.pruned)
    (acknowledged : next.acknowledged = system.acknowledged)
    (more : ∀ other ∈ system.interrupted, other ∈ next.interrupted) :
    Kept sha256 next { ghost with torn := torn } := by
  constructor
  · rw [pruned]
    exact kept.pruned
  · rw [disk]
    exact kept.rotated
  · rw [disk]
    rfl
  · exact unmarked
  · rw [disk]
    exact kept.stamps
  · exact kept.nonempty
  · exact kept.recent
  · exact kept.chain
  · exact kept.fits
  · rw [acknowledged]
    exact kept.acknowledged
  · rw [acknowledged]
    exact fun other mem => (kept.known other mem).imp id (more other)
  · rw [acknowledged]
    exact kept.last.imp id fun ⟨other,mem,isLast⟩ => ⟨other,more other mem,isLast⟩

structure Continues (sha256 : List UInt8 → List UInt8) (writer : Writer) (r : Record) : Prop where
  seq : r.seq = writer.seq + 1
  prev : r.prev = writer.head
  digest : r.digest = r.digestOf sha256

private theorem continues_record (sha256 : List UInt8 → List UInt8) (request : Append)
    (writer : Writer) :
    Continues sha256 writer (request.record sha256 writer) := ⟨rfl,rfl,rfl⟩

attribute [local irreducible] Append.record Record.marshal encode

section Outcomes

variable {r : Record}

private theorem held_acknowledged (kept : Kept sha256 system ghost)
    (ready : Ready system ghost writer)
    (continues_ : Continues sha256 writer r) (fits : r.Fits) :
    Held sha256 { system with
      disk := { system.disk with live := some (encode ghost.live ++ (r.marshal ++ [newline])) }
      writer := some
        { size := writer.size + (r.marshal ++ [newline]).length, seq := r.seq, head := r.digest }
      acknowledged := system.acknowledged ++ [r] } := by
  have file : encode ghost.live ++ (r.marshal ++ [newline]) = encode (ghost.live ++ [r]) := by
    rw [encode_append,encode_singleton]
  rw [file]
  refine ⟨_,kept.extended ready continues_.seq continues_.prev continues_.digest fits
    (.inl ⟨rfl,rfl⟩) rfl rfl rfl rfl,fun after isAfter => ?_⟩
  cases isAfter
  refine ⟨ready.whole,rfl,?_,?_,?_⟩
  · change writer.size + (r.marshal ++ [newline]).length = (encode (ghost.live ++ [r])).length
    rw [← file,ready.size]
    exact length_append.symm
  · change r.seq = (Ghost.all _).length
    rw [all_concat,length_append,← ready.seq]
    exact continues_.seq
  · rw [all_concat,headFrom_append]
    rfl

private theorem held_rolledBack (kept : Kept sha256 system ghost)
    (ready : Ready system ghost writer)
    {written : List UInt8} :
    Held sha256 { system with
      disk := { system.disk with live := some ((encode ghost.live ++ written).take writer.size) }
      writer := some writer } := by
  rw [ready.rolledBack]
  refine ⟨_,kept.liveFile not_mem_nil ?_ rfl rfl (fun _ mem => mem),?_⟩
  · rw [append_nil]
  intro _ isAfter
  cases isAfter
  exact ⟨rfl,rfl,ready.size,ready.seq,ready.head⟩

private theorem held_interrupted (kept : Kept sha256 system ghost)
    (ready : Ready system ghost writer)
    (continues_ : Continues sha256 writer r) (fits : r.Fits) {written : Nat} :
    Held sha256 { system with
      disk := { system.disk with
        live := some (encode ghost.live ++ (r.marshal ++ [newline]).take written) }
      writer := none
      interrupted := system.interrupted ++ [r] } := by
  by_cases cut : written ≤ r.marshal.length
  · rw [take_append_of_le_length cut]
    refine ⟨_,kept.liveFile ?_ rfl rfl rfl fun _ => mem_append_left _,nofun⟩
    exact fun mem => newline_notMem_marshal (mem_of_mem_take mem)
  · have whole : (r.marshal ++ [newline]).take written = r.marshal ++ [newline] := by
      refine take_of_length_le ?_
      rw [length_append,length_singleton]
      omega
    rw [whole,← encode_singleton,← encode_append]
    exact ⟨_,kept.extended ready continues_.seq continues_.prev continues_.digest fits
      (.inr ⟨rfl,rfl⟩) rfl rfl rfl rfl,nofun⟩

end Outcomes

variable {request : Append} {stamp count : Nat}

private theorem held_write (kept : Kept sha256 system ghost)
    (ready : Ready system ghost writer) (fits : (request.record sha256 writer).Fits)
    (taken : system.write sha256 writer request = some next) : Held sha256 next := by
  have continues_ := continues_record sha256 request writer
  unfold write at taken
  rw [ready.live kept] at taken
  dsimp only [Option.getD_some] at taken
  split at taken
  · cases taken
    exact held_acknowledged kept ready continues_ fits
  · cases taken
    exact held_rolledBack kept ready
  · cases taken
    exact held_rolledBack kept ready
  · cases taken
    exact held_interrupted kept ready continues_ fits
  · cases taken

/-! ### Rotating -/

theorem Kept.renamed (kept : Kept sha256 system ghost) (ready : Ready system ghost writer)
    (full : ghost.live ≠ [])
    (timely : ∀ segment ∈ system.disk.rotated, segment.stamp < stamp)
    (rotated : next.disk.rotated = (system.disk.rename stamp).rotated)
    (live : next.disk.live.getD [] = []) (pruned : next.pruned = system.pruned)
    (acknowledged : next.acknowledged = system.acknowledged)
    (interrupted : next.interrupted = system.interrupted) :
    Kept sha256 next { ghost with cur := ghost.cur ++ [ghost.live], live := [], torn := [] } := by
  have all : Ghost.all { ghost with cur := ghost.cur ++ [ghost.live], live := [], torn := [] } =
      ghost.all := by
    unfold Ghost.all
    dsimp only
    rw [flatten_cur,append_nil]
  have appended : next.disk.rotated =
      system.disk.rotated ++ [{ stamp := stamp, data := encode ghost.live }] := by
    rw [rotated]
    unfold Disk.rename
    rw [ready.live kept,filter_eq_self.mpr fun segment mem =>
      decide_eq_true (Nat.ne_of_lt (timely segment mem))]
    rfl
  constructor
  · rw [pruned]
    exact kept.pruned
  · rw [appended,map_append,map_append,kept.rotated]
    rfl
  · rw [live,encode_nil]
    rfl
  · exact not_mem_nil
  · rw [appended,pairwise_append]
    refine ⟨kept.stamps,pairwise_singleton _ _,fun segment mem other isNew => ?_⟩
    rw [mem_singleton.mp isNew]
    exact timely segment mem
  · intro segment mem
    rcases mem_append.mp mem with old | new
    · exact kept.nonempty segment old
    · rw [mem_singleton.mp new]
      exact full
  · exact fun _ => append_ne_nil_of_right_ne_nil _ (cons_ne_nil _ _)
  · rw [all]
    exact kept.chain
  · dsimp only
    rw [flatten_cur,append_nil]
    exact kept.fits
  · rw [all,acknowledged]
    exact kept.acknowledged
  · rw [all,acknowledged,interrupted]
    exact kept.known
  · rw [all,acknowledged,interrupted]
    exact kept.last

theorem Kept.prune (kept : Kept sha256 system ghost) (some : count < ghost.cur.length) :
    Kept sha256 (system.prune count)
      { ghost with old := ghost.old ++ ghost.cur.take count, cur := ghost.cur.drop count } := by
  have all : Ghost.all { ghost with old := ghost.old ++ ghost.cur.take count,
                                    cur := ghost.cur.drop count } = ghost.all := by
    unfold Ghost.all
    dsimp only
    rw [flatten_append,append_assoc,← append_assoc (ghost.cur.take _).flatten,
      ← flatten_append,take_append_drop]
  have sorted : system.disk.oldestFirst = system.disk.rotated :=
    Pairwise.insertionSort_eq (kept.stamps.imp Nat.le_of_lt)
  unfold System.prune
  rw [sorted]
  constructor
  · rw [map_append,map_append,kept.pruned,map_take,kept.rotated,map_take]
  · rw [map_drop,kept.rotated,map_drop]
  · exact kept.file
  · exact kept.unmarked
  · exact kept.stamps.sublist (drop_sublist _ _)
  · exact fun segment mem => kept.nonempty segment (mem_of_mem_drop mem)
  · intro _ nothing
    rw [drop_eq_nil_iff] at nothing
    omega
  · rw [all]
    exact kept.chain
  · intro r mem
    refine kept.fits r ?_
    rcases mem_append.mp mem with inCur | inLive
    · refine mem_append_left _ ?_
      rw [← take_append_drop count ghost.cur,flatten_append]
      exact mem_append_right _ inCur
    · exact mem_append_right _ inLive
  · rw [all]
    exact kept.acknowledged
  · rw [all]
    exact kept.known
  · rw [all]
    exact kept.last

/-! ### Every run -/

private theorem live_ne_nil (ready : Ready system ghost writer)
    (full : log.maxBytes ≤ writer.size) :
    ghost.live ≠ [] := by
  intro nothing
  have size := ready.size
  rw [nothing,encode_nil] at size
  have positive := log.positive
  rw [size] at full
  exact absurd full (Nat.not_le.mpr positive)

private theorem Kept.reopened (kept : Kept sha256 system ghost) (ready : Ready system ghost writer)
    (full : log.maxBytes ≤ writer.size)
    (timely : ∀ segment ∈ system.disk.rotated, segment.stamp < stamp)
    (few : count ≤ log.excess (system.rotated stamp).disk) :
    ∃ after : Ghost, after.live = [] ∧ after.torn = [] ∧ after.all = ghost.all ∧
      Kept sha256 ((system.rotated stamp).prune count) after := by
  have renamed : Kept sha256 (system.rotated stamp)
      { ghost with cur := ghost.cur ++ [ghost.live], live := [], torn := [] } :=
    kept.renamed ready (live_ne_nil ready full) timely rfl rfl rfl rfl rfl
  have length : (system.rotated stamp).disk.rotated.length = (ghost.cur ++ [ghost.live]).length := by
    have same := congrArg length renamed.rotated
    rwa [length_map,length_map] at same
  have some : count < (ghost.cur ++ [ghost.live]).length := by
    unfold Settings.excess at few
    rw [length] at few
    rw [length_append,length_singleton] at few ⊢
    have kept := log.kept
    omega
  refine ⟨_,rfl,rfl,?_,renamed.prune some⟩
  unfold Ghost.all
  dsimp only
  rw [flatten_append,append_assoc,← append_assoc (take _ _).flatten,
    ← flatten_append,take_append_drop,flatten_cur,append_nil]

private theorem held_append (kept : Kept sha256 system ghost)
    (ready : Ready system ghost writer) (isWriter : system.writer = some writer)
    (timely : log.maxBytes ≤ writer.size →
      ∀ segment ∈ system.disk.rotated, segment.stamp < request.stamp)
    (fits : (request.record sha256 writer).Fits)
    (taken : system.append sha256 log writer request = some next) : Held sha256 next := by
  have crashed : Held sha256 { system with writer := none } :=
    ⟨ghost,{ kept with },nofun⟩
  unfold append at taken
  split at taken
  · cases taken
    exact crashed
  split at taken
  · exact held_write kept ready fits taken
  rename_i full
  have isFull : log.maxBytes ≤ writer.size := Nat.not_lt.mp full
  dsimp only at taken
  split at taken
  · cases taken
    refine ⟨ghost,kept,fun other isOther => ?_⟩
    rw [isWriter] at isOther
    cases isOther
    exact ready
  · cases taken
    exact ⟨_,kept.renamed ready (live_ne_nil ready isFull) (timely isFull) rfl rfl rfl rfl rfl,
      nofun⟩
  · split at taken
    · next few =>
      cases taken
      obtain ⟨after,-,-,-,pruned⟩ := kept.reopened ready isFull (timely isFull) few
      exact ⟨after,{ pruned with },nofun⟩
    · cases taken
  · obtain ⟨after,live,torn,all,pruned⟩ :=
      kept.reopened ready isFull (timely isFull) (Nat.le_refl _)
    have emptied : Ready ((system.rotated request.stamp).prune
        (log.excess (system.rotated request.stamp).disk)) after
        { writer with size := 0 } := by
      refine ⟨torn,rfl,?_,?_,?_⟩
      · rw [live,encode_nil]
        rfl
      · rw [all]
        exact ready.seq
      · rw [all]
        exact ready.head
    refine held_write pruned emptied ?_ taken
    unfold Append.record at fits ⊢
    exact fits

theorem held_step {event : Event} (held : Held sha256 system) (timely : event.Timely log system)
    (fits : event.Fits sha256 system) (taken : step sha256 log system event = some next) :
    Held sha256 next := by
  obtain ⟨_,kept,ready⟩ := held
  cases event with
  | open_ =>
    rw [step] at taken
    obtain ⟨_,writer,opened,keptAfter,readyAfter⟩ := kept.opens
    rw [opened] at taken
    split at taken
    · next same =>
      cases same
      cases taken
      refine ⟨_,keptAfter,fun other isOther => ?_⟩
      cases isOther
      exact readyAfter
    · cases taken
  | append =>
    rw [step] at taken
    split at taken
    · next writer isWriter =>
      exact held_append kept (ready writer isWriter) isWriter (timely writer isWriter)
        (fits writer isWriter) taken
    · cases taken

end Proofs

private theorem held_fresh (sha256 : List UInt8 → List UInt8) : Held sha256 fresh := by
  refine ⟨⟨[],[],[],[]⟩,?_,nofun⟩
  constructor
  · rfl
  · rfl
  · rfl
  · exact not_mem_nil
  · exact Pairwise.nil
  · exact nofun
  · exact absurd rfl
  · trivial
  · exact nofun
  · exact Sublist.refl _
  · exact nofun
  · exact .inl rfl

/-- From an empty directory, whatever fails and wherever the process crashes, as long as
rotations get later names and every line fits the reader's buffer: a running process has
an intact log, and opening gives one. -/
theorem log_intact (sha256 : List UInt8 → List UInt8) (maxBytes keep : Int) (events : List Event)
    (final : System)
    (timely : Throughout (step sha256 (settings maxBytes keep))
      (fun system event => event.Timely (settings maxBytes keep) system) System.fresh events)
    (fits : Throughout (step sha256 (settings maxBytes keep))
      (fun system event => event.Fits sha256 system) System.fresh events)
    (reached : run (step sha256 (settings maxBytes keep)) System.fresh events = some final) :
    (∀ writer, final.writer = some writer → Intact sha256 final final.disk writer) ∧
      ∃ disk writer, openMutationLog final.disk = .ok (disk, writer) ∧
        Intact sha256 final disk writer := by
  obtain ⟨_,kept,ready⟩ := run_invariant (Held sha256)
    (fun held meets => held_step held meets.1 meets.2)
    (held_fresh sha256) (timely.and fits) reached
  refine ⟨fun writer isWriter => kept.intact (ready writer isWriter),?_⟩
  obtain ⟨disk,writer,opened,keptAfter,readyAfter⟩ := kept.opens
  exact ⟨disk,writer,opened,{ keptAfter.intact readyAfter with }⟩

/-! ### Runs -/

namespace Runs

def lengthHash (data : List UInt8) : List UInt8 := [data.length.toUInt8]

def rotatePassword (callID actor : String) (stamp : Nat) (fate : Fate) : Append :=
  { content :=
      { operation := "password.rotate", subject := "ada", actor := actor, callID := callID
        outcome := "succeeded" }
    moment := "2026-11-17T09:00:00Z", stamp := stamp, fate := fate }

/-- With a file for each record and one renamed file kept, the third append prunes the
first file and a crash leaves a torn line in the new one. -/
def crashing : List Event :=
  [.open_,.append (rotatePassword "c1" "root" 1 .succeeds),
    .append (rotatePassword "c2" "root" 2 .succeeds),
    .append (rotatePassword "c3" "root" 3 (.crashesWriting 30))]

theorem log_intact_crashing :
    ∃ final, run (step lengthHash (settings 1 1)) System.fresh crashing = some final ∧
      final.acknowledged.length = 2 ∧ final.pruned.length = 1 ∧
      ∃ disk writer, openMutationLog final.disk = .ok (disk, writer) ∧
        Intact lengthHash final disk writer := by
  refine exists_reached_both (by decide +kernel) fun final reached _ _ => ?_
  exact (log_intact lengthHash 1 1 crashing final (by decide +kernel) (by decide +kernel) reached).2

def opened : System :=
  { disk := { live := some [], rotated := [] }, writer := some { size := 0, seq := 0, head := "" }
    acknowledged := [], interrupted := [], pruned := [] }

variable (sha256 : List UInt8 → List UInt8)

def first (actor : String) : Record :=
  (rotatePassword "c1" actor 1 .succeeds).record sha256 { size := 0, seq := 0, head := "" }

def begunWriter (actor : String) : Writer :=
  { size := (encode [first sha256 actor]).length, seq := (first sha256 actor).seq
    head := (first sha256 actor).digest }

def begun (actor : String) : System :=
  { disk := { live := some (encode [first sha256 actor]), rotated := [] }
    writer := some (begunWriter sha256 actor), acknowledged := [first sha256 actor]
    interrupted := [], pruned := [] }

def second : Record :=
  (rotatePassword "c2" "root" 2 (.crashesWriting 1000)).record lengthHash
    (begunWriter lengthHash "root")

def crashed : System :=
  { disk := { live := some (encode ([first lengthHash "root"] ++ [second])), rotated := [] }, writer := none
    acknowledged := [first lengthHash "root"], interrupted := [second], pruned := [] }

def operationRequest (callID operation subject actor : String) : List UInt8 :=
  bytes [("contract_version", .number 1),("call_id", .text callID),("operation", .text operation),
    ("subject", .text subject),("actor", .text actor)]

def maxRequestBytes : Nat := 1048576

def longName : String := String.ofList (replicate 1048480 'a')

private theorem width_longName {name : String} :
    width (printEntry (name, .text longName)) = width (printEntry (name, .text "")) + 1048480 := by
  have plain : ∀ count, width ((replicate count 'a').flatMap escape) = count := by
    intro count
    induction count with
    | zero => rfl
    | succ _ ih =>
      have one : width (escape 'a') = 1 := by decide
      rw [replicate_succ,flatMap_cons,width_append,ih,one]
      omega
  unfold longName
  rw [width_text,plain]

private theorem operationRequest_longName :
    (operationRequest "c1" "password.rotate" "ada" longName).length ≤ maxRequestBytes := by
  unfold operationRequest
  rw [length_bytes (cons_ne_nil _ _)]
  simp only [map_cons,map_nil,sum_cons,sum_nil,width_longName]
  decide +kernel

private theorem first_marshal (actor : String) :
    width (printEntry ("actor", .text actor)) + 97 ≤ (first sha256 actor).marshal.length := by
  unfold Record.marshal Record.entries
  rw [length_bytes (cons_ne_nil _ _)]
  have moment : width (printEntry ("at", .text "2026-11-17T09:00:00Z")) = 27 := by decide +kernel
  have operation : width (printEntry ("operation", .text "password.rotate")) = 29 := by
    decide +kernel
  have outcome : width (printEntry ("outcome", .text "succeeded")) = 21 := by decide +kernel
  have callID : width (printEntry ("call_id", .text "c1")) = 14 := by decide +kernel
  unfold first rotatePassword Append.record
  simp only [map_cons,map_nil,sum_cons,sum_nil,moment,operation,outcome, callID]
  omega

private theorem first_unfit : ¬ (first sha256 longName).Fits := by
  have long := first_marshal sha256 longName
  rw [width_longName] at long
  unfold Record.Fits maxLine
  omega

private theorem fits_root : (first lengthHash "root").Fits := by decide +kernel

private theorem short_second : (second.marshal ++ [newline]).length ≤ 1000 := by decide +kernel

private theorem fits_second : second.Fits := by
  have short := short_second
  rw [length_append,length_singleton] at short
  unfold Record.Fits maxLine
  omega

variable {sha256}

private theorem step_write {system : System} {writer : Writer} {request : Append}
    (isWriter : system.writer = some writer) (small : writer.size < (settings 0 0).maxBytes)
    (going : request.fate ≠ .crashes) :
    step sha256 (settings 0 0) system (.append request) =
      system.write sha256 writer request := by
  unfold step append
  rw [isWriter]
  dsimp only
  rw [if_neg going,if_pos small]

section Symbolic

attribute [local irreducible] Append.record Record.marshal encode lengthHash

private theorem run_first {actor : String} {rest : List Event} :
    run (step sha256 (settings 0 0)) fresh
        (.open_ :: .append (rotatePassword "c1" actor 1 .succeeds) :: rest) =
      run (step sha256 (settings 0 0)) (begun sha256 actor) rest := by
  have isOpened : step sha256 (settings 0 0) fresh .open_ = some opened := rfl
  have written : step sha256 (settings 0 0) opened
      (.append (rotatePassword "c1" actor 1 .succeeds)) = some (begun sha256 actor) := by
    have going : (rotatePassword "c1" actor 1 .succeeds).fate ≠ .crashes := by
      unfold rotatePassword
      exact nofun
    rw [step_write rfl (by decide) going]
    unfold write begun begunWriter
    rw [← Nat.zero_add (encode [first sha256 actor]).length,encode_singleton]
    rfl
  rw [run,isOpened]
  dsimp only
  rw [run,written]

private theorem run_crashed : run (step lengthHash (settings 0 0)) (begun lengthHash "root")
      [.append (rotatePassword "c2" "root" 2 (.crashesWriting 1000))] = some crashed := by
  have length : (encode [first lengthHash "root"]).length ≤ maxLine := by
    rw [encode_singleton,length_append]
    exact fits_root
  have small : (encode [first lengthHash "root"]).length < (settings 0 0).maxBytes :=
    Nat.lt_of_le_of_lt length (by decide)
  have written : step lengthHash (settings 0 0) (begun lengthHash "root")
      (.append (rotatePassword "c2" "root" 2 (.crashesWriting 1000))) = some crashed := by
    have going : (rotatePassword "c2" "root" 2 (.crashesWriting 1000)).fate ≠ .crashes := by
      unfold rotatePassword
      exact nofun
    have whole : (second.marshal ++ [newline]).take 1000 = encode [second] := by
      rw [encode_singleton]
      exact take_of_length_le short_second
    rw [step_write rfl small going]
    unfold crashed
    rw [encode_append,← whole]
    rfl
  rw [run,written]
  rfl

end Symbolic

/-- The head after a crash may be that of a record nobody was told of; and whatever the
hash, a record that came with a request may keep the log from being opened. -/
theorem headUnacknowledged_andNotOpened : (∃ final disk writer last,
      run (step lengthHash (settings 0 0)) System.fresh
        [.open_,.append (rotatePassword "c1" "root" 1 .succeeds),
          .append (rotatePassword "c2" "root" 2 (.crashesWriting 1000))] = some final ∧
      openMutationLog final.disk = .ok (disk, writer) ∧
      final.acknowledged.getLast? = some last ∧ writer.head ≠ last.digest) ∧
    (operationRequest "c1" "password.rotate" "ada" longName).length ≤ maxRequestBytes ∧
    ∀ sha256, ∃ final, run (step sha256 (settings 0 0)) System.fresh
        [.open_,.append (rotatePassword "c1" longName 1 .succeeds)] = some final ∧
      final.acknowledged.length = 1 ∧ openMutationLog final.disk = .error .tooLong := by
  refine ⟨?_,operationRequest_longName,fun sha256 => ?_⟩
  · have fit : ∀ r ∈ [first lengthHash "root"] ++ [second], r.Fits := by
      intro _ mem
      rcases mem_append.mp mem with isFirst | isSecond
      · rw [mem_singleton.mp isFirst]
        exact fits_root
      · rw [mem_singleton.mp isSecond]
        exact fits_second
    have isLive : crashed.disk.live = some (encode ([first lengthHash "root"] ++ [second])) := rfl
    obtain ⟨writer,isOpen,head⟩ := openMutationLog_encode isLive fit
    refine ⟨crashed,crashed.disk,writer,first lengthHash "root",?_,isOpen,rfl,?_⟩
    · rw [run_first,run_crashed]
    · rw [head]
      decide +kernel
  · refine ⟨begun sha256 longName,?_,rfl,
      openMutationLog_unfit rfl mem_cons_self (first_unfit sha256)⟩
    rw [run_first]
    rfl

end Runs

end Syndra.MutationLog
