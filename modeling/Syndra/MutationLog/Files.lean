/-
The mutation log's files.

The live file takes the appends. Past a size it is renamed after the moment, and the oldest
renamed files go when there are more than are kept.
-/

import Mathlib.Data.List.Sort
import Syndra.MutationLog.Records

namespace Syndra.MutationLog

open Foundation Foundation.Objects

inductive LogError where
  | tooLong
  | notReadable (expected : Nat)
  | missing (expected found : Nat)
  | notFollowing (seq : Nat)
  | altered (seq : Nat)
deriving DecidableEq

def maxLine : Nat := 1048576

/-- The lines the scanner gives, and whether it reached the end: it stops at a line that
does not fit its buffer with the line's end. The tail is a line too. -/
def scan (data : List UInt8) : List (List UInt8) × Bool :=
  let lines := (Lines.split newline data).1
  let tail := (Lines.split newline data).2
  let all := if tail = [] then lines else lines ++ [tail]
  (all.takeWhile fun line => line.length < maxLine, all.all fun line => line.length < maxLine)

def Line.record? : Line → Option Record
  | .record r => some r
  | _ => none

def lastRecordIn (data : List UInt8) : Except LogError (Option Record) :=
  if (scan data).2 then
    .ok ((scan data).1.filterMap fun line => (readLine line).record?).getLast?
  else .error .tooLong

/-- The file up to the end of its last line that is blank or a record. -/
def truncateTornTail (data : List UInt8) : List UInt8 :=
  let ends := (Lines.split newline data).1.foldl
    (fun (ends : Nat × Nat) line =>
      let off := ends.2 + line.length + 1
      (if readLine line = .unreadable then ends.1 else off, off)) (0, 0)
  data.take ends.1

section Verify

variable (sha256 : List UInt8 → List UInt8)

/-- The digest and the number expected of the next record. Number 0 takes what the first
record says. -/
def verifyRecord (expected : String × Nat) (r : Record) : Except LogError (String × Nat) :=
  let expected := if expected.2 = 0 then (r.prev, r.seq) else expected
  if r.seq ≠ expected.2 then .error (.missing expected.2 r.seq)
  else if r.prev ≠ expected.1 then .error (.notFollowing r.seq)
  else if r.digest ≠ r.digestOf sha256 then .error (.altered r.seq)
  else .ok (r.digest, expected.2 + 1)

def verifyLine (expected : String × Nat) (line : List UInt8) : Except LogError (String × Nat) :=
  match readLine line with
  | .blank => .ok expected
  | .unreadable => .error (.notReadable expected.2)
  | .record r => verifyRecord sha256 expected r

def verifySegment (expected : String × Nat) (data : List UInt8) : Except LogError (String × Nat) :=
  match (scan data).1.foldlM (verifyLine sha256) expected with
  | .error broken => .error broken
  | .ok next => if (scan data).2 then .ok next else .error .tooLong

end Verify

structure Segment where
  stamp : Nat
  data : List UInt8
deriving DecidableEq

/-- There is no live file before the first open and between a rename and the next. -/
structure Disk where
  live : Option (List UInt8)
  rotated : List Segment
deriving DecidableEq

namespace Disk

def oldestFirst (disk : Disk) : List Segment :=
  disk.rotated.insertionSort fun first second => first.stamp ≤ second.stamp

def files (disk : Disk) : List (List UInt8) :=
  disk.oldestFirst.map Segment.data ++ disk.live.toList

end Disk

def verifyLog (sha256 : List UInt8 → List UInt8) (disk : Disk) : Except LogError Unit :=
  match disk.files.foldlM (verifySegment sha256) ("", 0) with
  | .error broken => .error broken
  | .ok _ => .ok ()

structure Writer where
  size : Nat
  seq : Nat
  head : String
deriving DecidableEq

def recoverHead : List (List UInt8) → Except LogError (Nat × String)
  | [] => .ok (0, "")
  | data :: older =>
    match lastRecordIn data with
    | .error broken => .error broken
    | .ok (some r) => .ok (r.seq, r.digest)
    | .ok none => recoverHead older

def openMutationLog (disk : Disk) : Except LogError (Disk × Writer) :=
  let live := truncateTornTail (disk.live.getD [])
  let opened := { disk with live := some live }
  match recoverHead opened.files.reverse with
  | .error broken => .error broken
  | .ok (seq, head) => .ok (opened, { size := live.length, seq := seq, head := head })

structure Settings where
  maxBytes : Nat
  keep : Nat
  positive : 0 < maxBytes
  kept : 0 < keep

def settings (maxBytes keep : Int) : Settings where
  maxBytes := if maxBytes ≤ 0 then 8388608 else maxBytes.toNat
  keep := if keep ≤ 0 then 24 else keep.toNat
  positive := by
    split
    · decide
    · omega
  kept := by
    split
    · decide
    · omega

inductive Fate where
  | succeeds
  | rotateSyncFails
  | writeFails (written : Nat)
  | syncFails
  /-- Before anything was written or renamed. -/
  | crashes
  | crashesRenamed
  | crashesReopened (pruned : Nat)
  | crashesWriting (written : Nat)
deriving DecidableEq

structure Append where
  content : Content
  moment : String
  stamp : Nat
  fate : Fate
deriving DecidableEq

/-- The directory, the process if one runs, and what happened so far: the records whose
append returned, those whose append a crash cut short, and the files pruned. -/
structure System where
  disk : Disk
  writer : Option Writer
  acknowledged : List Record
  interrupted : List Record
  pruned : List Segment

def System.fresh : System :=
  { disk := { live := none, rotated := [] }, writer := none, acknowledged := [], interrupted := [],
    pruned := [] }

def Append.record (sha256 : List UInt8 → List UInt8) (append : Append) (writer : Writer) : Record :=
  let r : Record :=
    { seq := writer.seq + 1, moment := append.moment, operation := append.content.operation
      subject := append.content.subject, actor := append.content.actor
      callID := append.content.callID, outcome := append.content.outcome, prev := writer.head
      digest := "" }
  { r with digest := r.digestOf sha256 }

/-- A rename onto a taken name replaces that file. -/
def Disk.rename (disk : Disk) (stamp : Nat) : Disk :=
  { live := none
    rotated := (disk.rotated.filter fun segment => segment.stamp ≠ stamp) ++
      disk.live.toList.map fun data => { stamp := stamp, data := data } }

def System.prune (system : System) (count : Nat) : System :=
  { system with
    disk := { system.disk with rotated := system.disk.oldestFirst.drop count }
    pruned := system.pruned ++ system.disk.oldestFirst.take count }

section Steps

variable (sha256 : List UInt8 → List UInt8) (log : Settings)

def Settings.excess (disk : Disk) : Nat := disk.rotated.length - log.keep

def System.rotated (system : System) (stamp : Nat) : System :=
  { system with disk := { system.disk.rename stamp with live := some [] } }

def System.write (system : System) (writer : Writer) (append : Append) : Option System :=
  let r := append.record sha256 writer
  let line := r.marshal ++ [newline]
  let live := system.disk.live.getD []
  match append.fate with
  | .succeeds =>
    some { system with
      disk := { system.disk with live := some (live ++ line) }
      writer := some { size := writer.size + line.length, seq := r.seq, head := r.digest }
      acknowledged := system.acknowledged ++ [r] }
  | .writeFails written =>
    some { system with
      disk := { system.disk with
        live := some ((live ++ line.take written).take writer.size) }
      writer := some writer }
  | .syncFails =>
    some { system with
      disk := { system.disk with live := some ((live ++ line).take writer.size) }
      writer := some writer }
  | .crashesWriting written =>
    some { system with
      disk := { system.disk with live := some (live ++ line.take written) }
      writer := none
      interrupted := system.interrupted ++ [r] }
  | _ => none

def System.append (system : System) (writer : Writer) (append : Append) : Option System :=
  if append.fate = .crashes then some { system with writer := none }
  else if writer.size < log.maxBytes then system.write sha256 writer append
  else
    let renamed := system.rotated append.stamp
    match append.fate with
    | .rotateSyncFails => some system
    | .crashesRenamed =>
      some { system with disk := system.disk.rename append.stamp, writer := none }
    | .crashesReopened count =>
      if count ≤ log.excess renamed.disk then some { renamed.prune count with writer := none }
      else none
    | _ =>
      (renamed.prune (log.excess renamed.disk)).write sha256 { writer with size := 0 } append

inductive Event where
  | open_
  | append (request : Append)
deriving DecidableEq

def step (system : System) : Event → Option System
  | .open_ =>
    match system.writer, openMutationLog system.disk with
    | none, .ok (disk, writer) => some { system with disk := disk, writer := some writer }
    | _, _ => none
  | .append request =>
    match system.writer with
    | some writer => system.append sha256 log writer request
    | none => none

end Steps

end Syndra.MutationLog
