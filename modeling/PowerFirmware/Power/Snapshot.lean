import PowerFirmware.Interrupt.Controller
import PowerFirmware.Layout
import PowerFirmware.Poll
import PowerFirmware.Text

/-! The state of peripherals that is lost when the network that connects the chip's parts goes down. -/

namespace PowerFirmware

/-! ### Groups of state -/

/-- A set of the groups that are saved and restored together, one bit for each. -/
structure ContextSet where
  bits : UInt8
  deriving DecidableEq, Repr

namespace ContextSet

def interrupts : ContextSet := ⟨0x1⟩
def flash : ContextSet := ⟨0x2⟩
def pins : ContextSet := ⟨0x4⟩
def watchdogs : ContextSet := ⟨0x8⟩

/-- Everything outside the interrupt controller. -/
def peripherals : ContextSet := ⟨0xe⟩

def contains (s t : ContextSet) : Bool := s.bits &&& t.bits == t.bits

/-- The groups in order, as messages name them. -/
def named : List (ContextSet × String) :=
  [(interrupts, "GIC"), (flash, "XSPI"), (pins, "GPIO"), (watchdogs, "WDOG")]

/-- The bits that belong to no group. -/
def unnamed (s : ContextSet) : UInt8 := s.bits &&& 0xf0

/-- The names of the groups in the set, and after them the bits that have no name. -/
def text (s : ContextSet) : String :=
  let names := (named.filter fun g => s.contains g.1).map (·.2)
  let rest := if s.unnamed == 0 then [] else [Text.hex s.unnamed.toNat]
  let parts := names ++ rest
  "ContextSet(" ++ (if parts.isEmpty then "0x0" else " | ".intercalate parts) ++ ")"

end ContextSet

/-! ### Pins -/

/-- Saved state of a bank of pins: its eight control registers, of which the first four hold
    permissions, and the interrupt control of its pins. What is missing counts as zero. -/
structure GpioImage where
  control : List UInt32 := []
  pins : List UInt32 := []
  deriving DecidableEq, Repr

namespace GpioImage

def controlCount : Nat := 8
def permissionCount : Nat := 4

/-- Where the control registers of a bank of pins are. -/
def controlOffset (i : Nat) : Nat := [0xc, 0x10, 0x14, 0x18, 0x1c, 0x40, 0x54, 0x58].getD i 0

def controlAddress (bank : Layout.GpioBank) (i : Nat) : Nat := bank.base + controlOffset i
def pinAddress (bank : Layout.GpioBank) (pin : Nat) : Nat := bank.base + 0x80 + 4 * pin

/-- Whether some pin has its interrupt enabled. -/
def canWake (image : GpioImage) : Bool := image.pins.any (· != 0)

section Operations
variable {σ : Type} [Machine σ]

/-- Reads a bank of pins. The permissions are cleared while its pins are read, so that those of the
    normal world are visible, and then put back. -/
def save (bank : Layout.GpioBank) : Run σ GpioImage := do
  let control ← (List.range controlCount).mapM fun i => do
    let w ← read32 (controlAddress bank i)
    if i < permissionCount then write32 (controlAddress bank i) 0
    return w
  let pins ← readWords (pinAddress bank 0) bank.pins
  (List.range permissionCount).forM fun i => write32 (controlAddress bank i) (control.getD i 0)
  return { control, pins }

/-- Writes a bank of pins back. Its pins can be written only with the permissions cleared, and these
    come back last. -/
def restore (bank : Layout.GpioBank) (image : GpioImage) : Run σ Unit := do
  (List.range permissionCount).forM fun i => write32 (controlAddress bank i) 0
  (List.range bank.pins).forM fun pin => write32 (pinAddress bank pin) (image.pins.getD pin 0)
  (List.range (controlCount - permissionCount)).forM fun i =>
    write32 (controlAddress bank (permissionCount + i)) (image.control.getD (permissionCount + i) 0)
  (List.range permissionCount).forM fun i =>
    write32 (controlAddress bank i) (image.control.getD i 0)

end Operations
end GpioImage

/-! ### Watchdogs -/

/-- Saved control and timeout of a watchdog. -/
structure WatchdogImage where
  control : UInt32 := 0
  timeout : UInt32 := 0
  deriving DecidableEq, Repr

namespace WatchdogImage

def controlAddress (base : Nat) : Nat := base
def timeoutAddress (base : Nat) : Nat := base + 0x8

/-- The watchdog can be reconfigured. -/
def unlocked : UInt32 := 0x800

/-- A reconfiguration has been carried out. -/
def reconfigured : UInt32 := 0x400

section Operations
variable {σ : Type} [Machine σ]

def save (base : Nat) : Run σ WatchdogImage := do
  let control ← read32 (controlAddress base)
  let timeout ← read32 (timeoutAddress base)
  return { control, timeout }

/-- Leaves a watchdog alone if it already is as saved. Any other is written, and must then be seen
    locked again and after that reconfigured. -/
def restore (base : Nat) (image : WatchdogImage) (budget : PollBudget) :
    Run σ (Except PollTimeout Unit) := do
  let control ← read32 (controlAddress base)
  let timeout ← read32 (timeoutAddress base)
  if control == image.control && timeout == image.timeout then
    return .ok ()
  else
    write32 (controlAddress base) image.control
    write32 (timeoutAddress base) image.timeout
    match ← pollUntil budget (do return (← read32 (controlAddress base)) &&& unlocked == 0) with
    | .error t => return .error t
    | .ok () =>
      pollUntil budget (do return (← read32 (controlAddress base)) &&& reconfigured != 0)

end Operations
end WatchdogImage

/-! ### Everything -/

/-- The register of a flash controller that holds its timing. -/
def flashTiming (base : Nat) : Nat := base + 0x928

/-- Saved state of the peripherals and, as a `κ`, of the interrupt controller, in the order of the
    platform's tables; and whether a pin had its interrupt enabled when the pins were saved. -/
structure Snapshot (κ : Type) where
  interrupts : κ
  flash : List UInt32 := []
  pins : List GpioImage := []
  watchdogs : List WatchdogImage := []
  pinWakeup : Bool := false
  deriving Repr

namespace Snapshot
variable {σ κ : Type} [Machine σ]

/-- Saves the groups in `set`, in the order interrupts, flash, pins, watchdogs, and keeps the others. -/
def save (gic : InterruptController σ κ) (set : ContextSet) (s : Snapshot κ) :
    Run σ (Snapshot κ) := do
  let interrupts ← if set.contains .interrupts then gic.save s.interrupts else pure s.interrupts
  let flash ← if set.contains .flash
    then Layout.flashControllers.mapM fun base => read32 (flashTiming base)
    else pure s.flash
  let pins ← if set.contains .pins
    then Layout.gpioBanks.mapM GpioImage.save
    else pure s.pins
  let pinWakeup := s.pinWakeup || (set.contains .pins && pins.any GpioImage.canWake)
  let watchdogs ← if set.contains .watchdogs
    then Layout.watchdogs.mapM WatchdogImage.save
    else pure s.watchdogs
  log .trace s!"saved {set.text}, gpio wakeup {pinWakeup}"
  return { interrupts, flash, pins, watchdogs, pinWakeup }

/-- Restores the watchdogs one after the other, whichever of them time out, and yields the first
    timeout. `i` is the place of the first of `bases` in the table. -/
def restoreWatchdogs (s : Snapshot κ) (budget : PollBudget) (i : Nat) :
    List Nat → Run σ (Except PollTimeout Unit)
  | [] => return .ok ()
  | base :: bases => do
    match ← WatchdogImage.restore base (s.watchdogs.getD i {}) budget with
    | .ok () => restoreWatchdogs s budget (i + 1) bases
    | .error t =>
      log .warn s!"WDOG@{Text.hex base} restore timed out"
      let _ ← restoreWatchdogs s budget (i + 1) bases
      return .error t

def restoreFlash (s : Snapshot κ) : Run σ Unit :=
  Layout.flashControllers.zipIdx.forM fun (base, i) =>
    write32 (flashTiming base) (s.flash.getD i 0)

def restorePins (s : Snapshot κ) : Run σ Unit :=
  Layout.gpioBanks.zipIdx.forM fun (bank, i) => (GpioImage.restore bank (s.pins.getD i {}))

/-- Writes the groups in `set` back, in the order interrupts, flash, pins, watchdogs. Restored pins
    are wakeup sources no longer. -/
def restore (gic : InterruptController σ κ) (budget : PollBudget) (set : ContextSet)
    (s : Snapshot κ) : Run σ (Except PollTimeout Unit × Snapshot κ) := do
  if set.contains .interrupts then gic.restore s.interrupts
  if set.contains .flash then s.restoreFlash
  if set.contains .pins then s.restorePins
  let outcome ← if set.contains .watchdogs
    then s.restoreWatchdogs budget 0 Layout.watchdogs
    else pure (.ok ())
  log .trace s!"restored {set.text}"
  return (outcome, { s with pinWakeup := s.pinWakeup && !set.contains .pins })

end Snapshot
end PowerFirmware
