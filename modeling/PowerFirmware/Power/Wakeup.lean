import PowerFirmware.Interrupt.Controller
import PowerFirmware.Scmi.Types

/-! Which paths can wake the system while the network that connects the chip's parts is down.

Interrupts of the wakeup domain can wake the system only while that domain stays on, and its
peripherals keep their clocks only if the System Manager holds them on in run, wait and stop. -/

namespace PowerFirmware

/-- Banks of shared lines that the System Manager keeps wake masks for. -/
def wakeBanks : Nat := 15

/-- A peripheral whose clock must be held while the network is down: its low-power interface, its
    interrupt line unless it only needs its clock, and whether it is held as a wakeup source. -/
structure WakeupPeripheral where
  interface : UInt32
  line : Option Nat
  active : Bool := false
  deriving DecidableEq, Repr

/-- What is remembered of the wakeup sources from the last suspend. -/
structure WakeupPolicy where
  peripherals : List WakeupPeripheral
  hasWakeupIrq : Bool
  deriving DecidableEq, Repr

namespace WakeupPolicy

/-- The peripherals in the order of their requests: four bus interfaces, the console and six banks
    of pins. -/
def table : List WakeupPeripheral :=
  [{ interface := 8, line := some 40 }, { interface := 9, line := some 42 },
    { interface := 10, line := some 44 }, { interface := 11, line := some 46 },
    { interface := 12, line := some 21 },
    { interface := 1, line := none }, { interface := 2, line := none },
    { interface := 3, line := none }, { interface := 4, line := none },
    { interface := 5, line := none }, { interface := 6, line := none }]

/-- For each bank of shared lines, those that belong to the wakeup domain. -/
def domainLines : List UInt32 := [0x2000, 0x5500, 0x0, 0x100003, 0, 0, 0, 0, 0, 0, 0, 0, 0, 0, 0]

def initial : WakeupPolicy := ⟨table, false⟩

/-- A mask in which no line can wake the system, for every bank. -/
def allMasked : List UInt32 := List.replicate wakeBanks 0xffffffff

/-- The wake masks that fit the enables of the controller. Bank `i` of shared lines is bank `i + 1`
    of the controller, and a line that is not enabled is masked. -/
def readMasks {σ κ : Type} (gic : InterruptController σ κ) : Run σ (List UInt32) :=
  (List.range wakeBanks).mapM fun bank => do return ~~~(← gic.enableMask (bank + 1))

/-- Whether a line is left unmasked. -/
def isUnmasked (masks : List UInt32) (line : Nat) : Bool :=
  (masks.getD (line / 32) 0xffffffff) &&& (1 <<< UInt32.ofNat (line % 32)) == 0

/-- Marks each peripheral with a line active exactly if its line is unmasked. -/
def mark (p : WakeupPolicy) (masks : List UInt32) : WakeupPolicy :=
  { p with
    peripherals := p.peripherals.map fun e =>
      match e.line with
      | some line => { e with active := isUnmasked masks line }
      | none => e }

/-- Takes the wake masks from the controller and marks the peripherals by them. -/
def capture {σ κ : Type} (p : WakeupPolicy) (gic : InterruptController σ κ) :
    Run σ (List UInt32 × WakeupPolicy) := do
  let masks ← readMasks gic
  return (masks, p.mark masks)

/-- Whether the masks leave a line of the wakeup domain unmasked. -/
def leavesWakeup (masks : List UInt32) : Bool :=
  (masks.zip domainLines).any fun (mask, lines) => mask &&& lines != lines

/-- Remembers whether the masks leave a line of the wakeup domain unmasked. -/
def evaluate (p : WakeupPolicy) (masks : List UInt32) : WakeupPolicy :=
  { p with hasWakeupIrq := leavesWakeup masks }

/-- Holds every active peripheral, and every one that only needs its clock, in run, wait and stop. -/
def enter (p : WakeupPolicy) : List Scmi.PeripheralPolicy × WakeupPolicy :=
  let held := p.peripherals.map fun e => { e with active := e.active || e.line.isNone }
  ((held.filter (·.active)).map fun e => ⟨e.interface, .onRunWaitStop⟩,
    { p with peripherals := held })

/-- Puts every active peripheral back to always on, and leaves none active. -/
def leave (p : WakeupPolicy) : List Scmi.PeripheralPolicy × WakeupPolicy :=
  ((p.peripherals.filter (·.active)).map fun e => ⟨e.interface, .onAlways⟩,
    { p with peripherals := p.peripherals.map fun e => { e with active := false } })

/-- The request for holding peripherals before the network goes down, or for putting them back. -/
def handshake (p : WakeupPolicy) (entering : Bool) : List Scmi.PeripheralPolicy × WakeupPolicy :=
  if entering then p.enter else p.leave

/-- The interfaces of the active peripherals. -/
def activeInterfaces (p : WakeupPolicy) : List UInt32 :=
  (p.peripherals.filter (·.active)).map (·.interface)

end WakeupPolicy
end PowerFirmware
