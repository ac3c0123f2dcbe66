import PowerFirmware.Scmi.Command

/-! Reading commands to the System Manager back from the words they travel as. -/

namespace PowerFirmware.Scmi.Command

def domainPolicies? : List UInt32 → Option (List DomainPolicy)
  | [] => some []
  | domain :: setting :: retention :: rest => do
    let setting ← LpmSetting.ofCode? setting
    let table ← domainPolicies? rest
    return ⟨domain, setting, retention⟩ :: table
  | _ => none

def peripheralPolicies? : List UInt32 → Option (List PeripheralPolicy)
  | [] => some []
  | peripheral :: setting :: rest => do
    let setting ← LpmSetting.ofCode? setting
    let table ← peripheralPolicies? rest
    return ⟨peripheral, setting⟩ :: table
  | _ => none

/-- The command that a message of a protocol and its argument words stand for. -/
def ofMessage? (protocol message : Nat) (args : List UInt32) : Option Command :=
  match protocol, message, args with
  | 0x10, 0x1, [] => some baseAttributes
  | 0x10, 0x7, [agent] => some (discoverAgent agent)
  | 0x10, 0xb, [agent, flags] => some (resetAgent agent flags)
  | 0x11, 0x4, [flags, domain, state] => some (powerStateSet domain flags state)
  | 0x11, 0x5, [domain] => some (powerStateGet domain)
  | 0x12, 0x3, [flags, state] => (SystemPower.ofCode? state).map (systemPowerSet ⟨flags⟩)
  | 0x82, 0x4, [cpu] => some (cpuStart cpu)
  | 0x82, 0x5, [cpu] => some (cpuStop cpu)
  | 0x82, 0x6, [cpu, flags, low, high] => some (resetVectorSet cpu ⟨flags⟩ (LittleEndian.ofHalves low high))
  | 0x82, 0x7, [cpu, flags, mode] => (SleepMode.ofCode? mode).map (sleepModeSet cpu ⟨flags⟩)
  | 0x82, 0x8, cpu :: index :: count :: masks =>
    if count == UInt32.ofNat masks.length then some (irqWakeSet cpu index masks) else none
  | 0x82, 0x9, [cpu, index, 1, mask] => some (nonIrqWakeSet cpu index mask)
  | 0x82, 0xa, cpu :: count :: entries => do
    let table ← domainPolicies? entries
    if count == UInt32.ofNat table.length then some (domainPolicySet cpu table) else none
  | 0x82, 0xb, cpu :: count :: entries => do
    let table ← peripheralPolicies? entries
    if count == UInt32.ofNat table.length then some (peripheralPolicySet cpu table) else none
  | 0x82, 0xc, [cpu] => some (cpuInfo cpu)
  | 0x80, 0x1, [] => some machineAttributes
  | 0x80, 0x4, [machine] => some (machineBoot machine)
  | 0x80, 0x6, [machine, flags] => some (machineShutdown machine ⟨flags⟩)
  | 0x80, 0xb, [machine] => some (machinePowerOn machine)
  | 0x80, 0xc, [machine, cpu, flags, low, high] =>
    some (machineResetVectorSet machine cpu flags (LittleEndian.ofHalves low high))
  | _, _, _ => none

/-- The command and the token that a request stands for. -/
def read? (opcode : UInt32) (args : List UInt32) : Option (Command × BitVec 10) :=
  let header := Header.decode opcode
  (ofMessage? header.protocol.toNat header.message.toNat args).map (·, header.token)

end PowerFirmware.Scmi.Command
