import ChatArchive.Json.Layout
import ChatArchive.Number.Shortest
import ChatArchive.Text.Labels
import ChatArchive.Time.Format
import ChatArchive.Time.Parse
import ChatArchive.Time.Span

/-!
# Encodings

An `Encoding` pairs how a value is written as JSON with how it is read back. Encodings of simple
values are combined into those of lists, of values that may be missing and, through layouts, of
records.
-/

namespace ChatArchive.Json

open ChatArchive.Number ChatArchive.Text ChatArchive.Time

/-- How values of a type are written and read. -/
structure Encoding (α : Type) where
  write : α → Json
  read : Reader α

namespace Encoding

/-- Strings. -/
def string : Encoding String := ⟨.string, Reader.string⟩

/-- Truth values. -/
def bool : Encoding Bool := ⟨.bool, Reader.bool⟩

/-- Unsigned 64-bit integers. -/
def uint64 : Encoding UInt64 := ⟨fun n => .ofNat n.toNat, Reader.uint64⟩

/-- Unsigned 32-bit integers. -/
def uint32 : Encoding UInt32 := ⟨fun n => .ofNat n.toNat, Reader.uint32⟩

/-- Signed 64-bit integers. -/
def int64 : Encoding Int64 := ⟨fun n => .ofInt n.toInt, Reader.int64⟩

/-- A binary64 number by its shortest text; null if it has none. -/
def writeFloat (f : Binary64) : Json :=
  match f.text? with
  | some text => .number (String.ofList text)
  | none => .null

/-- Binary64 numbers. -/
def float : Encoding Binary64 := ⟨writeFloat, Reader.float⟩

/-- An instant: a string that the relaxed reader takes. -/
def readTimestamp : Reader Timestamp := do
  let text ← Reader.string
  match Timestamp.parseRelaxed text.toList with
  | .ok t => pure t
  | .error fault => Reader.fail (.unreadable fault.message)

/-- Instants, written with as few fraction digits as they need. -/
def timestamp : Encoding Timestamp := ⟨fun t => .string (String.ofList t.shortText), readTimestamp⟩

/-- Values that may be missing, null standing for none. -/
def option {α : Type} (e : Encoding α) : Encoding (Option α) where
  write
    | none => .null
    | some a => e.write a
  read := Reader.option e.read

/-- Lists. -/
def list {α : Type} (e : Encoding α) : Encoding (List α) where
  write as := .array (as.map e.write)
  read := Reader.array e.read

/-- Labels: an object of strings, the last of two equal names counting. -/
def labels : Encoding Labels where
  write ls := .object (ls.entries.map fun e => (e.1, .string e.2))
  read := do
    let entries ← Reader.object Reader.string
    pure (Labels.ofList entries)

/-- A fixed set of names. -/
def variant {α : Type} (name : α → String) (ofName? : String → Option α) : Encoding α :=
  ⟨fun a => .string (name a), Reader.variant ofName?⟩

/-- A record. -/
def ofLayout {α : Type} (layout : Layout α) : Encoding α := ⟨layout.toJson, layout.read⟩

/-- The text of a value. -/
def encode {α : Type} (e : Encoding α) (a : α) : String := (e.write a).compact

/-- Reads a text that holds one value. -/
def decode {α : Type} (e : Encoding α) (text : String) : Except Fault α :=
  Reader.run e.read text.toList

end Encoding

/-- A field that is always written. -/
def Field.of {α β : Type} (name : String) (presence : Presence) (e : Encoding β)
    (get : α → β) (set : α → β → α) : Field α where
  name := name
  presence := presence
  write a := some (e.write (get a))
  read a := do
    let b ← e.read
    pure (set a b)

/-- A field that is left out when it has no value. -/
def Field.omitted {α β : Type} (name : String) (e : Encoding β)
    (get : α → Option β) (set : α → Option β → α) : Field α where
  name := name
  presence := .defaulted
  write a := (get a).map e.write
  read a := do
    let b ← e.option.read
    pure (set a b)

/-- Seconds and nanoseconds of a span; nanoseconds may be more than a second's worth. -/
def spanLayout : Layout (Nat × Nat) where
  blank := (0, 0)
  fields := [
    .of "secs" .required .uint64 (fun p => UInt64.ofNat p.1) (fun p n => (n.toNat, p.2)),
    .of "nanos" .required .uint32 (fun p => UInt32.ofNat p.2) (fun p n => (p.1, n.toNat))]
  closed := true

/-- Spans of time. -/
def Encoding.span : Encoding Span where
  write s := spanLayout.toJson (s.secs, s.subsecNanos)
  read := do
    let (secs, nanos) ← spanLayout.read
    match Span.ofNanos? (secs * 1000000000 + nanos) with
    | some s => pure s
    | none => Reader.fail (.unreadable "overflow deserializing Duration")

end ChatArchive.Json
