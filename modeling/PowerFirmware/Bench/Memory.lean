import PowerFirmware.Interrupt.Frames
import PowerFirmware.Text

/-! Plain memory of bytes, which keeps what is written to it and does nothing else. -/

namespace PowerFirmware.Bench

/-- Bytes from address zero on. What is outside reads as zero and is not changed by a write. -/
structure Memory where
  bytes : ByteArray

namespace Memory

/-- Memory of bytes that are all zero. -/
def ofSize (size : Nat) : Memory := ⟨⟨Array.replicate size 0⟩⟩

def size (m : Memory) : Nat := m.bytes.size

def loadByte (a : Nat) (m : Memory) : UInt8 := if h : a < m.bytes.size then m.bytes[a] else 0

def storeByte (a : Nat) (b : UInt8) (m : Memory) : Memory :=
  if h : a < m.bytes.size then ⟨m.bytes.set a b⟩ else m

/-- The word at any address, the least significant byte first. -/
def load (a : Nat) (m : Memory) : UInt32 :=
  (m.loadByte a).toUInt32 ||| ((m.loadByte (a + 1)).toUInt32 <<< 8) |||
    ((m.loadByte (a + 2)).toUInt32 <<< 16) ||| ((m.loadByte (a + 3)).toUInt32 <<< 24)

def store (a : Nat) (w : UInt32) (m : Memory) : Memory :=
  storeByte (a + 3) (w >>> 24).toUInt8 (storeByte (a + 2) (w >>> 16).toUInt8
    (storeByte (a + 1) (w >>> 8).toUInt8 (storeByte a w.toUInt8 m)))

/-- `count` words from `a` on, the first `value` and each the sum of the one before and `increment`. -/
def fill (a : Nat) (value increment : UInt32) : Nat → Memory → Memory
  | 0, m => m
  | count + 1, m => fill (a + 4) (value + increment) increment count (store a value m)

/-- Makes all bytes zero. -/
def clear (m : Memory) : Memory := ofSize m.size

/-- The words from `first` up to `limit` that differ, by address. -/
def changedWords (before after : Memory) (first limit : Nat) : List (Nat × UInt32) :=
  (List.range ((limit - first) / 4)).filterMap fun i =>
    let a := first + 4 * i
    if before.load a == after.load a then none else some (a, after.load a)

/-! ### Frames of an interrupt controller -/

/-- Where the redistributors lie: after the distributor, which is at address zero. -/
def redistributors : Nat := 0x8000

/-- The frames of an interrupt controller in memory. -/
def frames (cores : Nat) (budget : PollBudget) : InterruptFrames :=
  { distributor := 0, redistributors, cores, budget }

/-- Which of the frames of an interrupt controller a word is in. -/
inductive Frame
  | distributor
  | redistributors
  deriving DecidableEq, Repr

def Frame.first : Frame → Nat
  | distributor => 0
  | redistributors => Memory.redistributors

/-- Where a frame ends. -/
def limit (m : Memory) : Frame → Nat
  | .distributor => redistributors
  | .redistributors => m.size

/-- The address of `count` words of a frame, of which the first holds the byte at `offset`, if the frame
    has them all. -/
def place? (m : Memory) (frame : Frame) (offset count : Nat) : Option Nat :=
  let a := frame.first + 4 * (offset / 4)
  if a + 4 * count ≤ m.limit frame then some a else none

/-- The size of the memory that the frames take. -/
def framesSize (cores : Nat) : Nat := redistributors + 0x20000 * cores

/-- The words of the frames that differ, each by its place in its frame and its later value. -/
def changes (before after : Memory) : List String :=
  (changedWords before after 0 redistributors).map (fun (a, w) =>
    s!"d+{Text.hex a} {Text.hex w.toNat}") ++
  (changedWords before after redistributors after.size).map fun (a, w) =>
    s!"r+{Text.hex (a - redistributors)} {Text.hex w.toNat}"

end Memory
end PowerFirmware.Bench
