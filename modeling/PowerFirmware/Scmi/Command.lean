import PowerFirmware.Scmi.Header
import PowerFirmware.Scmi.Types

/-! Commands to the System Manager and the words they travel as: a protocol, a message of that
protocol and a list of argument words. -/

namespace PowerFirmware.Scmi

/-- One request that the System Manager understands, with its operands. -/
inductive Command
  | baseAttributes
  | discoverAgent (agent : UInt32)
  | resetAgent (agent flags : UInt32)
  | powerStateSet (domain flags state : UInt32)
  | powerStateGet (domain : UInt32)
  | systemPowerSet (flags : SystemPowerFlags) (state : SystemPower)
  | cpuStart (cpu : UInt32)
  | cpuStop (cpu : UInt32)
  | resetVectorSet (cpu : UInt32) (flags : VectorFlags) (vector : UInt64)
  | sleepModeSet (cpu : UInt32) (flags : WakeupFlags) (mode : SleepMode)
  | irqWakeSet (cpu index : UInt32) (masks : List UInt32)
  | nonIrqWakeSet (cpu index mask : UInt32)
  | domainPolicySet (cpu : UInt32) (table : List DomainPolicy)
  | peripheralPolicySet (cpu : UInt32) (table : List PeripheralPolicy)
  | cpuInfo (cpu : UInt32)
  | machineAttributes
  | machineBoot (machine : UInt32)
  | machineShutdown (machine : UInt32) (flags : ShutdownFlags)
  | machinePowerOn (machine : UInt32)
  | machineResetVectorSet (machine cpu flags : UInt32) (vector : UInt64)
  deriving DecidableEq, Repr

namespace Protocol

def base : UInt8 := 0x10
def power : UInt8 := 0x11
def system : UInt8 := 0x12
def machine : UInt8 := 0x80
def cpu : UInt8 := 0x82

end Protocol

namespace Command

def protocol : Command → UInt8
  | baseAttributes | discoverAgent .. | resetAgent .. => Protocol.base
  | powerStateSet .. | powerStateGet .. => Protocol.power
  | systemPowerSet .. => Protocol.system
  | cpuStart .. | cpuStop .. | resetVectorSet .. | sleepModeSet .. | irqWakeSet ..
  | nonIrqWakeSet .. | domainPolicySet .. | peripheralPolicySet .. | cpuInfo .. => Protocol.cpu
  | machineAttributes | machineBoot .. | machineShutdown .. | machinePowerOn ..
  | machineResetVectorSet .. => Protocol.machine

def message : Command → UInt8
  | baseAttributes => 0x1 | discoverAgent .. => 0x7 | resetAgent .. => 0xb
  | powerStateSet .. => 0x4 | powerStateGet .. => 0x5
  | systemPowerSet .. => 0x3
  | cpuStart .. => 0x4 | cpuStop .. => 0x5 | resetVectorSet .. => 0x6 | sleepModeSet .. => 0x7
  | irqWakeSet .. => 0x8 | nonIrqWakeSet .. => 0x9 | domainPolicySet .. => 0xa
  | peripheralPolicySet .. => 0xb | cpuInfo .. => 0xc
  | machineAttributes => 0x1 | machineBoot .. => 0x4 | machineShutdown .. => 0x6
  | machinePowerOn .. => 0xb | machineResetVectorSet .. => 0xc

def DomainPolicy.words (p : DomainPolicy) : List UInt32 := [p.domain, p.setting.code, p.retention]
def PeripheralPolicy.words (p : PeripheralPolicy) : List UInt32 := [p.peripheral, p.setting.code]

/-- The argument words. A table is preceded by its length. -/
def args : Command → List UInt32
  | baseAttributes => []
  | discoverAgent agent => [agent]
  | resetAgent agent flags => [agent, flags]
  | powerStateSet domain flags state => [flags, domain, state]
  | powerStateGet domain => [domain]
  | systemPowerSet flags state => [flags.bits, state.code]
  | cpuStart cpu => [cpu]
  | cpuStop cpu => [cpu]
  | resetVectorSet cpu flags vector => cpu :: flags.bits :: LittleEndian.halves vector
  | sleepModeSet cpu flags mode => [cpu, flags.bits, mode.code]
  | irqWakeSet cpu index masks => cpu :: index :: UInt32.ofNat masks.length :: masks
  | nonIrqWakeSet cpu index mask => [cpu, index, 1, mask]
  | domainPolicySet cpu table =>
    cpu :: UInt32.ofNat table.length :: table.flatMap DomainPolicy.words
  | peripheralPolicySet cpu table =>
    cpu :: UInt32.ofNat table.length :: table.flatMap PeripheralPolicy.words
  | cpuInfo cpu => [cpu]
  | machineAttributes => []
  | machineBoot machine => [machine]
  | machineShutdown machine flags => [machine, flags.bits]
  | machinePowerOn machine => [machine]
  | machineResetVectorSet machine cpu flags vector => machine :: cpu :: flags :: LittleEndian.halves vector

/-- Whether a table is no longer than one request may carry: sixteen masks, eight domains, fifteen
    peripherals. -/
def fits : Command → Bool
  | irqWakeSet _ _ masks => masks.length ≤ 16
  | domainPolicySet _ table => table.length ≤ 8
  | peripheralPolicySet _ table => table.length ≤ 15
  | _ => true

/-- The number of words that a reply to the command carries after its status. -/
def replyWords : Command → Nat
  | baseAttributes | powerStateGet .. | machineAttributes => 1
  | discoverAgent .. => 5
  | cpuInfo .. => 4
  | _ => 0

def header (c : Command) (token : BitVec 10) : Header := ⟨c.protocol, c.message, token⟩

/-- The command as a channel carries it. -/
def opcode (c : Command) (token : BitVec 10) : UInt32 := (c.header token).encode

end Command
end PowerFirmware.Scmi
