/-
Records of the add-on's mutation log.

A record is one line of JSON. It carries the digest of the record before it and its own,
which covers every other field. The hash is a parameter.
-/

import Syndra.Foundation.Lines
import Syndra.Foundation.Objects
import Syndra.Foundation.Text

namespace Syndra.MutationLog

open Foundation.Framing Foundation.Objects Foundation.Text List

structure Content where
  operation : String
  subject : String
  actor : String
  callID : String
  outcome : String
deriving DecidableEq

structure Record where
  seq : Nat
  moment : String
  operation : String
  subject : String
  actor : String
  callID : String
  outcome : String
  prev : String
  digest : String
deriving DecidableEq

def Record.entries (r : Record) : List Entry :=
  [("seq", .number r.seq),("at", .text r.moment),("operation", .text r.operation),
    ("subject", .text r.subject),("actor", .text r.actor),("call_id", .text r.callID),
    ("outcome", .text r.outcome),("prev", .text r.prev),("digest", .text r.digest)]

def textField (entries : List Entry) (name : String) : Option String :=
  match entries.reverse.lookup name with
  | none => some ""
  | some (.text content) => some content
  | some (.number _) => none

def numberField (entries : List Entry) (name : String) : Option Nat :=
  match entries.reverse.lookup name with
  | none => some 0
  | some (.number value) => some value
  | some (.text _) => none

def Record.ofEntries (entries : List Entry) : Option Record := do
  let seq ← numberField entries "seq"
  let moment ← textField entries "at"
  let operation ← textField entries "operation"
  let subject ← textField entries "subject"
  let actor ← textField entries "actor"
  let callID ← textField entries "call_id"
  let outcome ← textField entries "outcome"
  let prev ← textField entries "prev"
  let digest ← textField entries "digest"
  return { seq, moment, operation, subject, actor, callID, outcome, prev, digest }

def Record.marshal (r : Record) : List UInt8 := bytes r.entries

/-- The digest covers every field but itself, each tagged with its length. -/
def Record.digestOf (sha256 : List UInt8 → List UInt8) (r : Record) : String :=
  hexadecimal (sha256 (frameText
    [toString r.seq,r.moment,r.operation,r.subject,r.actor,r.callID,r.outcome,r.prev]))

inductive Line where
  | blank
  | record (r : Record)
  | unreadable
deriving DecidableEq

/-- A line, its spaces trimmed. It is read as the compact objects that are written; no
other line of the log is. -/
def readLine (line : List UInt8) : Line :=
  match textOf line with
  | none => .unreadable
  | some text =>
    if trimSpace text = "" then .blank
    else
      match (read (trimSpace text).toList).bind Record.ofEntries with
      | some r => .record r
      | none => .unreadable

variable {r : Record}

theorem ofEntries_entries : Record.ofEntries r.entries = some r := rfl

theorem trimSpace_print {entries : List Entry} :
    trimSpace (String.ofList (print entries)) = String.ofList (print entries) := by
  unfold trimSpace
  rw [String.toList_ofList]
  congr 1
  have opened : (print entries).dropWhile isSpace = print entries :=
    dropWhile_cons_of_neg (by decide)
  have closed : (print entries).reverse = '}' :: ('{' :: printEntries entries).reverse := by
    unfold print
    rw [← cons_append,reverse_append]
    rfl
  rw [opened,closed,dropWhile_cons_of_neg (by decide),← closed,reverse_reverse]

theorem readLine_marshal : readLine r.marshal = .record r := by
  unfold readLine Record.marshal bytes
  rw [textOf_utf8]
  dsimp only
  rw [trimSpace_print,if_neg,String.toList_ofList,read_print,Option.bind_some, ofEntries_entries]
  intro empty
  have none := congrArg String.toList empty
  rw [String.toList_ofList] at none
  cases none

theorem newline_notMem_marshal : newline ∉ r.marshal := newline_notMem_bytes r.entries

end Syndra.MutationLog
