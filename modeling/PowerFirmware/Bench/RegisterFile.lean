import PowerFirmware.Bench.Journal
import PowerFirmware.Text
import Std.Data.HashMap

/-! A sparse file of registers that plays a device: reads can be scripted, and writes can set off
changes of other registers. -/

namespace PowerFirmware.Bench

/-- One access of a word or a byte. -/
inductive Access
  | read (address : Nat) (value : UInt32)
  | write (address : Nat) (value : UInt32)
  deriving DecidableEq, Repr

namespace Access

def isWrite : Access → Bool
  | read .. => false
  | write .. => true

def text : Access → String
  | read a v => s!"R {Text.hex a} {Text.hex v.toNat}"
  | write a v => s!"W {Text.hex a} {Text.hex v.toNat}"

/-- The address and value of a write. -/
def written? : Access → Option (Nat × UInt32)
  | read .. => none
  | write a v => some (a, v)

end Access

/-- Where a rule takes a value from. -/
inductive Source
  | zero
  | written
  | register (address : Nat)
  deriving DecidableEq, Repr

/-- One change of a register: the value from `source`, cut by `keep`, with `set` added. -/
structure Change where
  target : Nat
  source : Source
  keep : UInt32
  set : UInt32
  deriving DecidableEq, Repr

/-- What happens on writes to an address, except on the first `skip` of them, and no more than
    `times` times. -/
structure WriteRule where
  on : Nat
  changes : List Change
  skip : Nat := 0
  times : Option Nat := none
  deriving DecidableEq, Repr

/-- Words by address, reads that are scripted, rules, and all accesses so far. A register that was
    never set reads as zero. -/
structure RegisterFile where
  words : Std.HashMap Nat UInt32 := {}
  scripts : Std.HashMap Nat (List UInt32) := {}
  rules : List WriteRule := []
  accesses : Journal Access := {}

namespace RegisterFile

def get (f : RegisterFile) (a : Nat) : UInt32 := f.words.getD a 0
def set (f : RegisterFile) (a : Nat) (w : UInt32) : RegisterFile :=
  { f with words := f.words.insert a w }

/-- Queues values for the next reads of a word, before its stored value. -/
def script (f : RegisterFile) (a : Nat) (values : List UInt32) : RegisterFile :=
  { f with scripts := f.scripts.insert a (f.scripts.getD a [] ++ values) }

def addRule (f : RegisterFile) (r : WriteRule) : RegisterFile :=
  { f with rules := f.rules ++ [r] }

/-- The word that a byte is part of, and how far up in it. -/
def wordOf (a : Nat) : Nat := a - a % 4
def shiftOf (a : Nat) : UInt32 := UInt32.ofNat (8 * (a % 4))

def getByte (f : RegisterFile) (a : Nat) : UInt8 := (f.get (wordOf a) >>> shiftOf a).toUInt8

def setByte (f : RegisterFile) (a : Nat) (b : UInt8) : RegisterFile :=
  f.set (wordOf a)
    ((f.get (wordOf a) &&& ~~~((0xff : UInt32) <<< shiftOf a)) ||| (b.toUInt32 <<< shiftOf a))

def note (f : RegisterFile) (x : Access) : RegisterFile :=
  { f with accesses := f.accesses.push x }

/-- Makes the change that follows on a write of `value`. -/
def change (value : UInt32) (f : RegisterFile) (c : Change) : RegisterFile :=
  let w := match c.source with
    | .zero => 0
    | .written => value
    | .register a => f.get a
  f.set c.target ((w &&& c.keep) ||| c.set)

/-- Lets a rule act on a write of `value`, and counts the write against it. -/
def fire (value : UInt32) (f : RegisterFile) (r : WriteRule) : RegisterFile × WriteRule :=
  match r.skip, r.times with
  | skip + 1, _ => (f, { r with skip })
  | 0, some 0 => (f, r)
  | 0, some (times + 1) => (r.changes.foldl (change value) f, { r with times := some times })
  | 0, none => (r.changes.foldl (change value) f, r)

/-- Lets the rules for an address act in order. -/
def fireAll (a : Nat) (value : UInt32) : RegisterFile → List WriteRule →
    RegisterFile × List WriteRule
  | f, [] => (f, [])
  | f, r :: rest =>
    let (f, r) := if r.on == a then fire value f r else (f, r)
    let (f, rest) := fireAll a value f rest
    (f, r :: rest)

def follow (f : RegisterFile) (a : Nat) (value : UInt32) : RegisterFile :=
  let (f, rules) := fireAll a value f f.rules
  { f with rules }

def load (a : Nat) (f : RegisterFile) : UInt32 × RegisterFile :=
  match f.scripts.getD a [] with
  | w :: rest => (w, { f with scripts := f.scripts.insert a rest }.note (.read a w))
  | [] => (f.get a, f.note (.read a (f.get a)))

def store (a : Nat) (w : UInt32) (f : RegisterFile) : RegisterFile :=
  ((f.set a w).note (.write a w)).follow a w

/-- Byte reads are never scripted. -/
def loadByte (a : Nat) (f : RegisterFile) : UInt8 × RegisterFile :=
  (f.getByte a, f.note (.read a (f.getByte a).toUInt32))

def storeByte (a : Nat) (b : UInt8) (f : RegisterFile) : RegisterFile :=
  ((f.setByte a b).note (.write a b.toUInt32)).follow a b.toUInt32

/-- How many scripted values are still to be read. -/
def scripted (f : RegisterFile) : Nat := f.scripts.fold (fun n _ values => n + values.length) 0

/-- The writes so far, the oldest first. -/
def writes (f : RegisterFile) : List (Nat × UInt32) := f.accesses.toList.filterMap Access.written?

/-- The values written to an address, the oldest first. -/
def writesTo (f : RegisterFile) (a : Nat) : List UInt32 :=
  (f.writes.filter (·.1 == a)).map (·.2)

/-- How often an address has been read. -/
def readsOf (f : RegisterFile) (a : Nat) : Nat :=
  f.accesses.all.countP fun x => match x with
    | .read b _ => b == a
    | .write .. => false

end RegisterFile
end PowerFirmware.Bench
