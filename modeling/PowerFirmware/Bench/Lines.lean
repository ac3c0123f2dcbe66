import PowerFirmware.Bench.Journal

/-! An interrupt controller reduced to the enables of its lines and a record of what it was told. -/

namespace PowerFirmware.Bench

/-- What the controller was told. -/
inductive LineEvent
  | save
  | restore
  | initCore (core : Nat)
  | enableInterface (core : Nat)
  | disableInterface (core : Nat)
  | disableGroups
  deriving DecidableEq, Repr

def LineEvent.text : LineEvent → String
  | save => "Save"
  | restore => "Restore"
  | initCore core => s!"PcpuInit {core}"
  | enableInterface core => s!"CpuifEnable {core}"
  | disableInterface core => s!"CpuifDisable {core}"
  | disableGroups => "DisableGroups"

/-- The enables of sixteen banks of thirty-two lines, the CPU interfaces as they were last set, and
    the events so far. -/
structure Lines where
  enables : Vector UInt32 16 := Vector.replicate 16 0
  interfaces : List (Nat × Bool) := []
  events : Journal LineEvent := {}

namespace Lines

def note (l : Lines) (e : LineEvent) : Lines := { l with events := l.events.push e }

/-- A bank that there is none of reads as zero. -/
def mask (l : Lines) (bank : Nat) : UInt32 := l.enables.toList.getD bank 0

/-- Only banks that there are can be set. -/
def setMask? (l : Lines) (bank : Nat) (w : UInt32) : Option Lines :=
  if h : bank < 16 then some { l with enables := l.enables.set bank w } else none

def enable? (l : Lines) (line : Nat) : Option Lines :=
  l.setMask? (line / 32) (l.mask (line / 32) ||| (1 <<< UInt32.ofNat (line % 32)))

def setInterface (l : Lines) (core : Nat) (on : Bool) : Lines :=
  { l with interfaces := (core, on) :: l.interfaces }

/-- Whether the interface of a core is enabled. -/
def isEnabled (l : Lines) (core : Nat) : Bool := (l.interfaces.lookup core).getD false

end Lines
end PowerFirmware.Bench
