import PowerFirmware.LittleEndian
import PowerFirmware.Logging.Level

/-! The machine that firmware runs on, and runs of firmware on it.

A machine is any state that answers register accesses and clock reads, one at a time. Firmware is
written over `Machine` alone, so a statement about all machines is one about every behaviour of the
registers and of the clock. -/

namespace PowerFirmware

/-- Why a run stopped without an answer: an index outside its table, or a wait that never ended. -/
inductive Fault
  | outOfRange
  | hung
  deriving DecidableEq, Repr

/-- A run of firmware on machine states `σ`. A fault keeps the state it happened in. -/
abbrev Run (σ : Type) := ExceptT Fault (StateM σ)

/-- Single accesses of a machine with state `σ`. `patience` is the number of rounds after which a
    wait without end counts as hung. -/
class Machine (σ : Type) where
  load : Nat → σ → UInt32 × σ
  store : Nat → UInt32 → σ → σ
  loadByte : Nat → σ → UInt8 × σ
  storeByte : Nat → UInt8 → σ → σ
  tick : σ → UInt64 × σ
  note : Level → String → σ → σ
  patience : σ → Nat

namespace Run
variable {σ : Type}

/-- A run that looks at the state and changes nothing. -/
def view {α : Type} (f : σ → α) : Run σ α := fun s => (.ok (f s), s)

/-- A run that changes the state and cannot fail. -/
def update (f : σ → σ) : Run σ Unit := fun s => (.ok (), f s)

/-- A run that answers from the state it leaves changed. -/
def access {α : Type} (f : σ → α × σ) : Run σ α := fun s => (.ok (f s).1, (f s).2)

/-- A run that yields what has to be there, and is out of range without it. -/
def require {α : Type} (x : Option α) : Run σ α := fun s =>
  match x with
  | some a => (.ok a, s)
  | none => (.error .outOfRange, s)

section Sequences
variable {α β : Type} {x : Run σ α} {f : α → Run σ β} {s t : σ}

/-- What follows starts from the answer and the state that are left, and a fault ends the run. -/
theorem bind_apply : (x >>= f) s = match x s with
    | (.ok a, t) => f a t
    | (.error e, t) => (.error e, t) := by
  show ExceptT.bind x f s = _
  simp only [ExceptT.bind, ExceptT.mk, ExceptT.bindCont, Bind.bind, StateT.bind]
  rcases x s with ⟨_ | _, _⟩ <;> rfl

theorem bind_of_ok {a : α} (h : x s = (.ok a, t)) : (x >>= f) s = f a t := by
  rw [bind_apply, h]

end Sequences
end Run

section Accesses
variable {σ : Type} [Machine σ]

def read32 (a : Nat) : Run σ UInt32 := Run.access (Machine.load a)
def write32 (a : Nat) (w : UInt32) : Run σ Unit := Run.update (Machine.store a w)
def read8 (a : Nat) : Run σ UInt8 := Run.access (Machine.loadByte a)
def write8 (a : Nat) (b : UInt8) : Run σ Unit := Run.update (Machine.storeByte a b)

/-- The time in nanoseconds. -/
def now : Run σ UInt64 := Run.access Machine.tick
def log (level : Level) (message : String) : Run σ Unit := Run.update (Machine.note level message)
def patience : Run σ Nat := Run.view Machine.patience

/-- A double word is read as two words, the low half first. -/
def read64 (a : Nat) : Run σ UInt64 := do
  let low ← read32 a
  let high ← read32 (a + 4)
  return LittleEndian.ofHalves low high

/-- A double word is written as two words, the low half first. -/
def write64 (a : Nat) (w : UInt64) : Run σ Unit := do
  write32 a w.toUInt32
  write32 (a + 4) (w >>> 32).toUInt32

/-- Clears `clear` and then sets `set`, by one read and one write. -/
def modify32 (a : Nat) (clear set : UInt32) : Run σ Unit := do
  let w ← read32 a
  write32 a ((w &&& ~~~clear) ||| set)

def setBits32 (a : Nat) (bits : UInt32) : Run σ Unit := modify32 a 0 bits
def clearBits32 (a : Nat) (bits : UInt32) : Run σ Unit := modify32 a bits 0

/-- Reads `count` adjacent words, the lowest address first. -/
def readWords (a : Nat) : Nat → Run σ (List UInt32)
  | 0 => return []
  | count + 1 => do
    let w ← read32 a
    let rest ← readWords (a + 4) count
    return w :: rest

/-- Writes adjacent words, the lowest address first. -/
def writeWords (a : Nat) : List UInt32 → Run σ Unit
  | [] => return ()
  | w :: rest => do
    write32 a w
    writeWords (a + 4) rest

end Accesses
end PowerFirmware
