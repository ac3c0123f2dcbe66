import PowerFirmware.Bench.Clock
import PowerFirmware.Bench.Lines
import PowerFirmware.Bench.Memory
import PowerFirmware.Bench.Region
import PowerFirmware.Bench.RegisterFile
import PowerFirmware.Bench.Responder
import PowerFirmware.Bench.Signal
import PowerFirmware.Channel.MessagingUnit
import PowerFirmware.Channel.SharedMemory
import PowerFirmware.Interrupt.ManagerLock
import PowerFirmware.Power.Platform

/-! A test bench for the whole firmware: every part of the platform is played by a script, and what
the firmware does to it is written down. -/

namespace PowerFirmware.Bench

/-- A core whose index is chosen, and what it was told. -/
structure Core where
  index : Nat := 0
  powerDowns : Journal UInt64 := {}
  waits : Nat := 0

/-- The parts of the bench, and the messages that its filter lets through. Plain memory, if it is
    fitted, takes the accesses in the place of the registers. The bench has strayed once an access has
    gone to where there is nothing. -/
structure State where
  registers : RegisterFile := {}
  clock : Clock := {}
  lines : Lines := {}
  core : Core := {}
  manager : Responder := {}
  enclave : Responder := {}
  region : Region := {}
  signal : Signal := {}
  filter : LevelFilter := .off
  messages : Journal (Level × String) := {}
  memory : Option Memory := none
  strayed : Bool := false

namespace State

/-- Whether there is something to access in the `width` bytes from an address on: a register at each
    address of sixty-four bits, or plain memory up to its size. -/
def reaches (s : State) (a width : Nat) : Bool :=
  match s.memory with
  | some m => a + width ≤ m.size
  | none => a < UInt64.size

/-- The bench after the address of an access has been looked at. -/
def reach (a width : Nat) (s : State) : State :=
  if s.reaches a width then s else { s with strayed := true }

/-- Whether an access or the time has left its range. -/
def hasOverrun (s : State) : Bool := s.strayed || s.clock.isOver

end State

/-- A wait that goes on after the scripted answers are used up and the clock has come to stand still
    would go on for ever, and none is worth its while on a bench that has left its range. -/
instance : Machine State where
  load a s :=
    let s := s.reach a 4
    match s.memory with
    | some m => (m.load a, s)
    | none =>
      let r := s.registers.load a
      (r.1, { s with registers := r.2 })
  store a w s :=
    let s := s.reach a 4
    if s.memory.isSome then { s with memory := s.memory.map (Memory.store a w) }
    else { s with registers := s.registers.store a w }
  loadByte a s :=
    let s := s.reach a 1
    match s.memory with
    | some m => (m.loadByte a, s)
    | none =>
      let r := s.registers.loadByte a
      (r.1, { s with registers := r.2 })
  storeByte a b s :=
    let s := s.reach a 1
    if s.memory.isSome then { s with memory := s.memory.map (Memory.storeByte a b) }
    else { s with registers := s.registers.storeByte a b }
  tick s :=
    let r := s.clock.tick
    (r.1, { s with clock := r.2 })
  note level message s :=
    if s.filter.admits level then { s with messages := s.messages.push (level, message) } else s
  patience s :=
    if s.hasOverrun then 0
    else s.registers.scripted + s.signal.course.length + s.clock.readsLeft + 2

/-- The lines as an interrupt controller, which saves their enables. -/
def gic : InterruptController State (Vector UInt32 16) where
  save _ := Run.access fun s => (s.lines.enables, { s with lines := s.lines.note .save })
  restore enables :=
    Run.update fun s => { s with lines := { s.lines with enables }.note .restore }
  initCore core := Run.update fun s => { s with lines := s.lines.note (.initCore core) }
  enableInterface core := Run.update fun s =>
    { s with lines := (s.lines.setInterface core true).note (.enableInterface core) }
  disableInterface core := Run.update fun s =>
    { s with lines := (s.lines.setInterface core false).note (.disableInterface core) }
  enableMask bank := Run.view fun s => s.lines.mask bank
  disableGroups := Run.update fun s => { s with lines := s.lines.note .disableGroups }

def cpu : Cpu State where
  index s := s.core.index
  powerDownCluster w s :=
    { s with core := { s.core with powerDowns := s.core.powerDowns.push w } }
  waitForInterrupt s := { s with core := { s.core with waits := s.core.waits + 1 } }

/-- The region with a bus address and a size. -/
def region (busAddress : UInt64) (size : Nat) : DmaRegion State where
  busAddress := busAddress
  size := size
  prepare s := { s with region := s.region.prepare }
  complete s := { s with region := s.region.complete }
  bytes s := s.region.window size

/-- The two remote sides. -/
inductive Remote
  | manager
  | enclave
  deriving DecidableEq, Repr

def Remote.get : Remote → State → Responder
  | manager, s => s.manager
  | enclave, s => s.enclave

def Remote.update (f : Responder → Responder) : Remote → State → State
  | manager, s => { s with manager := f s.manager }
  | enclave, s => { s with enclave := f s.enclave }

/-- A remote side behind a transport for `maxArgs` argument words. -/
def scripted (remote : Remote) (maxArgs : Nat) : Channel State where
  maxArgs := maxArgs
  transact q buffer := Run.access fun s =>
    let r := (remote.get s).transact maxArgs q buffer
    (r.1, remote.update (fun _ => r.2) s)

/-! ### Handling the bench -/

/-- The answer of a run from a bench. A run that lets an access or the time leave its range is out of
    range, whatever it goes on to do. -/
def answer {α : Type} (s : State) (run : Run State α) : Except Fault α :=
  let (result, s) := run.run s
  if s.hasOverrun then .error .outOfRange else result

def onRegisters (f : RegisterFile → RegisterFile) : Run State Unit :=
  Run.update fun s => { s with registers := f s.registers }

/-- Changes the plain memory, if it is fitted. -/
def onMemory (f : Memory → Memory) : Run State Unit :=
  Run.update fun s => { s with memory := s.memory.map f }

/-- Whether the signal holds. -/
def signalHolds : Run State Bool := Run.access fun s =>
  let r := s.signal.look
  (r.1, { s with signal := r.2 })

/-- The address of words of a frame; words that the frame does not have are out of range. -/
def place (frame : Memory.Frame) (offset count : Nat) : Run State Nat := do
  Run.require (← Run.view fun s => s.memory.bind (·.place? frame offset count))

def onRemote (remote : Remote) (f : Responder → Responder) : Run State Unit :=
  Run.update (remote.update f)

/-- Chooses the calling core. -/
def setCore (index : Nat) : Run State Unit :=
  Run.update fun s => { s with core := { s.core with index } }

/-- Changes the lines, if the change is to a bank that there is. -/
def onLines (f : Lines → Option Lines) : Run State Unit := fun s =>
  match f s.lines with
  | some lines => (.ok (), { s with lines })
  | none => (.error .outOfRange, s)

def setMask (bank : Nat) (w : UInt32) : Run State Unit := onLines (·.setMask? bank w)
def enableLine (line : Nat) : Run State Unit := onLines (·.enable? line)

/-- Nothing on the bench is new any more. -/
def drain (s : State) : State :=
  { s with
    registers := { s.registers with accesses := s.registers.accesses.drain }
    clock := { s.clock with reads := s.clock.reads.drain }
    lines := { s.lines with events := s.lines.events.drain }
    core := { s.core with powerDowns := s.core.powerDowns.drain }
    manager := { s.manager with requests := s.manager.requests.drain }
    enclave := { s.enclave with requests := s.enclave.requests.drain }
    region := { s.region with prepared := s.region.prepared.drain,
                              completed := s.region.completed.drain }
    messages := s.messages.drain }

end PowerFirmware.Bench
