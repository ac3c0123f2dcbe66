import PowerFirmware.LittleEndian

/-! Operands and results of requests to the System Manager. -/

namespace PowerFirmware.Scmi

/-! ### Flags -/

/-- A word of flags, of which the bits in `known` have a meaning. Other bits are carried as they
    are. -/
structure Flags (known : UInt32) where
  bits : UInt32
  deriving DecidableEq, Repr

namespace Flags
variable {known : UInt32}

def union (a b : Flags known) : Flags known := ⟨a.bits ||| b.bits⟩

/-- Whether only known bits are set. -/
def isKnown (f : Flags known) : Bool := f.bits &&& ~~~known == 0

/-- The flags without unknown bits. -/
def truncate (f : Flags known) : Flags known := ⟨f.bits &&& known⟩

end Flags

/-- Where wakeups of a sleeping CPU come from, and whether it resumes with its cluster. -/
abbrev WakeupFlags := Flags 0x3

namespace WakeupFlags

/-- Wakeups come through the power controller's own interrupt masks. -/
def gpc : WakeupFlags := ⟨0x0⟩

/-- Wakeups come through the interrupt controller. -/
def gic : WakeupFlags := ⟨0x1⟩

/-- The CPU resumes when its cluster wakes. -/
def resumeCpu : WakeupFlags := ⟨0x2⟩

end WakeupFlags

/-- What a reset vector is for. -/
abbrev VectorFlags := Flags 0x80000007

namespace VectorFlags

def boot : VectorFlags := ⟨0x1⟩
def start : VectorFlags := ⟨0x2⟩
def resume : VectorFlags := ⟨0x4⟩
def table : VectorFlags := ⟨0x80000000⟩

end VectorFlags

/-- Whether a system power transition may take its time. -/
abbrev SystemPowerFlags := Flags 0x1

namespace SystemPowerFlags

def forceful : SystemPowerFlags := ⟨0x0⟩
def graceful : SystemPowerFlags := ⟨0x1⟩

end SystemPowerFlags

/-- Whether a logical machine may take its time to shut down. -/
abbrev ShutdownFlags := Flags 0x1

namespace ShutdownFlags

def forceful : ShutdownFlags := ⟨0x0⟩
def graceful : ShutdownFlags := ⟨0x1⟩

end ShutdownFlags

/-! ### Modes -/

/-- In which sleep modes of the CPU a domain or a peripheral clock stays on. -/
inductive LpmSetting
  | onNever | onRun | onRunWait | onRunWaitStop | onAlways
  deriving DecidableEq, Repr

namespace LpmSetting

def all : List LpmSetting := [onNever, onRun, onRunWait, onRunWaitStop, onAlways]

def code : LpmSetting → UInt32
  | onNever => 0 | onRun => 1 | onRunWait => 2 | onRunWaitStop => 3 | onAlways => 4

def name : LpmSetting → String
  | onNever => "OnNever" | onRun => "OnRun" | onRunWait => "OnRunWait"
  | onRunWaitStop => "OnRunWaitStop" | onAlways => "OnAlways"

def ofCode? (w : UInt32) : Option LpmSetting := all.find? (·.code == w)

end LpmSetting

/-- The mode that a CPU sleeps in. -/
inductive SleepMode
  | run | wait | stop | suspend
  deriving DecidableEq, Repr

namespace SleepMode

def all : List SleepMode := [run, wait, stop, suspend]

def code : SleepMode → UInt32
  | run => 0 | wait => 1 | stop => 2 | suspend => 3

def name : SleepMode → String
  | run => "Run" | wait => "Wait" | stop => "Stop" | suspend => "Suspend"

def ofCode? (w : UInt32) : Option SleepMode := all.find? (·.code == w)

end SleepMode

/-- The mode that a CPU is reported to run in. -/
inductive RunMode
  | start | hold | stop | sleep
  deriving DecidableEq, Repr

namespace RunMode

def all : List RunMode := [start, hold, stop, sleep]

def code : RunMode → UInt32
  | start => 0 | hold => 1 | stop => 2 | sleep => 3

def name : RunMode → String
  | start => "Start" | hold => "Hold" | stop => "Stop" | sleep => "Sleep"

def ofCode? (w : UInt32) : Option RunMode := all.find? (·.code == w)

end RunMode

/-- Power states of the whole system. -/
inductive SystemPower
  | shutdown | coldReset | warmReset | powerUp | suspend
  deriving DecidableEq, Repr

namespace SystemPower

def all : List SystemPower := [shutdown, coldReset, warmReset, powerUp, suspend]

def code : SystemPower → UInt32
  | shutdown => 0 | coldReset => 1 | warmReset => 2 | powerUp => 3 | suspend => 4

def name : SystemPower → String
  | shutdown => "Shutdown" | coldReset => "ColdReset" | warmReset => "WarmReset"
  | powerUp => "PowerUp" | suspend => "Suspend"

def ofCode? (w : UInt32) : Option SystemPower := all.find? (·.code == w)

end SystemPower

/-! ### Table entries -/

/-- How one power domain follows a CPU into its sleep modes, and which of the domain's memories are
    kept when it goes off. -/
structure DomainPolicy where
  domain : UInt32
  setting : LpmSetting
  retention : UInt32
  deriving DecidableEq, Repr

/-- How one peripheral clock follows a CPU into its sleep modes. -/
structure PeripheralPolicy where
  peripheral : UInt32
  setting : LpmSetting
  deriving DecidableEq, Repr

/-! ### Results -/

/-- How many protocols and agents the System Manager serves. -/
structure BaseAttributes where
  protocols : UInt8
  agents : UInt8
  deriving DecidableEq, Repr

/-- The counts are packed into the low bytes of one word. -/
def BaseAttributes.ofWord (w : UInt32) : BaseAttributes := ⟨w.toUInt8, (w >>> 8).toUInt8⟩

/-- An agent as the System Manager describes it. -/
structure AgentInfo where
  id : UInt32
  rawName : List UInt8
  deriving DecidableEq, Repr

/-- An agent with a name of at most sixteen bytes. -/
def AgentInfo.ofName? (id : UInt32) (name : List UInt8) : Option AgentInfo :=
  if name.length ≤ 16 then some ⟨id, name⟩ else none

/-- The bytes of the name before its first zero byte; a name that is no text reads as empty. -/
def AgentInfo.name (a : AgentInfo) : String :=
  (String.fromUTF8? ⟨(a.rawName.takeWhile (· != 0)).toArray⟩).getD ""

/-- The state of a CPU as the System Manager reports it. -/
structure CpuInfo where
  runCode : UInt32
  sleepCode : UInt32
  resetVector : UInt64
  deriving DecidableEq, Repr

def CpuInfo.runMode? (i : CpuInfo) : Option RunMode := RunMode.ofCode? i.runCode

end PowerFirmware.Scmi
