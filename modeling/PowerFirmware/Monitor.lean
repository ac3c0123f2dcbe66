import PowerFirmware.Power.Platform

/-! Calls that other software makes to the secure monitor: control of auxiliary cores, logical
machines, and the identity of the chip. -/

namespace PowerFirmware

/-! ### Calls and returns -/

/-- The arguments of a call after the number of the function. -/
structure CallArgs where
  x1 : UInt64 := 0
  x2 : UInt64 := 0
  x3 : UInt64 := 0
  x4 : UInt64 := 0
  deriving DecidableEq, Repr

/-- What a call returns: its status register, and the registers after it that it sets. -/
structure CallReturn where
  x0 : UInt64
  more : List UInt64 := []
  deriving DecidableEq, Repr

namespace CallReturn

def ofError (e : PlatformError) : CallReturn := ⟨UInt64.ofInt e.callCode, []⟩

/-- How many registers are set. -/
def count (r : CallReturn) : Nat := 1 + r.more.length

/-- The first register as a signed status. -/
def status (r : CallReturn) : Int := r.x0.toInt64.toInt

/-- Register `i`; those that are not set read as zero. -/
def register (r : CallReturn) (i : Nat) : UInt64 := (r.x0 :: r.more).getD i 0

end CallReturn

/-- What can be done to an auxiliary core. -/
inductive CoreCommand
  | start | started | stop | resetAddrSet
  deriving DecidableEq, Repr

namespace CoreCommand

def all : List CoreCommand := [start, started, stop, resetAddrSet]

def code : CoreCommand → UInt64
  | start => 0 | started => 1 | stop => 2 | resetAddrSet => 3

def name : CoreCommand → String
  | start => "Start" | started => "Started" | stop => "Stop" | resetAddrSet => "ResetAddrSet"

def ofCode? (x : UInt64) : Option CoreCommand := all.find? (·.code == x)

end CoreCommand

/-- What can be done to a logical machine. -/
inductive MachineCommand
  | boot | shutdown
  deriving DecidableEq, Repr

namespace MachineCommand

def all : List MachineCommand := [boot, shutdown]

def code : MachineCommand → UInt64
  | boot => 0 | shutdown => 1

def name : MachineCommand → String
  | boot => "Boot" | shutdown => "Shutdown"

def ofCode? (x : UInt64) : Option MachineCommand := all.find? (·.code == x)

end MachineCommand

/-! ### Agents of the auxiliary cores -/

/-- What is known of the agent of an auxiliary core: nothing yet, that there is none, or its number. -/
inductive AgentSlot
  | unresolved
  | absent
  | resolved (agent : UInt32)
  deriving DecidableEq, Repr

def AgentSlot.text : AgentSlot → String
  | unresolved => "Unresolved"
  | absent => "Absent"
  | resolved agent => s!"Resolved({agent})"

/-- The names that the agents of the auxiliary cores go by. -/
def agentNames : List String := ["M7", "M71", "M33S-S"]

/-- The place of an auxiliary core in the table of agents, by its number at the System Manager. -/
def auxiliaryIndex? (cpu : UInt64) : Option Nat :=
  if cpu == 1 then some 0 else if cpu == 7 then some 1 else if cpu == 8 then some 2 else none

/-- The agents of the auxiliary cores, in the order of their names. -/
structure AgentTable where
  slots : Vector AgentSlot 3 := Vector.replicate 3 .unresolved
  deriving DecidableEq, Repr

namespace AgentTable

/-- There is no agent outside the table. -/
def slot (t : AgentTable) (i : Nat) : AgentSlot := t.slots.toList.getD i .absent

def agent? (t : AgentTable) (i : Nat) : Option UInt32 :=
  match t.slot i with
  | .resolved agent => some agent
  | _ => none

/-- Notes an agent, if it goes by the name of an auxiliary core and is the first to do so. -/
def record (t : AgentTable) (a : Scmi.AgentInfo) : AgentTable :=
  match agentNames.idxOf? a.name with
  | some i => ⟨t.slots.mapIdx fun k s => if k == i && s == .unresolved then .resolved a.id else s⟩
  | none => t

/-- What has not been found is absent. -/
def settle (t : AgentTable) : AgentTable :=
  ⟨t.slots.map fun s => if s == .unresolved then .absent else s⟩

section Discovery
variable {σ : Type} [Machine σ]

/-- Asks for each of the agents in turn. Agents that do not describe themselves are passed over. -/
def survey (channel : Channel σ) : List Nat → AgentTable → StateT Scmi.Client (Run σ) AgentTable
  | [], t => return t
  | id :: rest, t => do
    match ← (Scmi.Client.discoverAgent channel (UInt32.ofNat id)).run with
    | .ok agent => survey channel rest (t.record agent)
    | .error e =>
      (log .debug s!"agent {id}: {e.message}" : Run σ Unit)
      survey channel rest t

/-- Asks for every agent that the System Manager has, and settles the table. If it does not say how
    many there are, the table stays as it is. -/
def resolve (channel : Channel σ) (t : AgentTable) :
    StateT Scmi.Client (Run σ) (Except Scmi.Error Unit × AgentTable) := do
  match ← (Scmi.Client.baseAttributes channel).run with
  | .error e => return (.error e, t)
  | .ok attributes =>
    let t ← survey channel (List.range attributes.agents.toNat) t
    let t := t.settle
    (agentNames.zip t.slots.toList).forM fun (name, slot) =>
      (log .debug s!"agent {name}: {slot.text}" : Run σ Unit)
    return (.ok (), t)

end Discovery
end AgentTable

/-! ### Service -/

/-- What the monitor remembers from its initialisation: the agents of the auxiliary cores, and the
    descriptor of the chip. -/
structure Monitor where
  agents : AgentTable := {}
  socInfo : Option SocInfo := none
  deriving DecidableEq, Repr

namespace Monitor

/-- Numbers of the functions. -/
def coreFunction : UInt32 := 0xc2000005
def socInfoFunction : UInt32 := 0xc2000006
def machineFunction : UInt32 := 0xc200000f

section Service
variable {σ κ : Type} [Machine σ]

/-- A register that must hold a word. -/
def word (x : UInt64) : Hook σ κ UInt32 :=
  if x.toNat < UInt32.size then return x.toUInt32 else throw .invalidArgument

/-- Sets the vector in `x2` of the core in `x4`, with the flags in `x3`. -/
def setVector (p : Platform σ κ) (a : CallArgs) : Hook σ κ CallReturn := do
  let flags ← word a.x3
  let cpu ← word a.x4
  p.send (.resetVectorSet cpu ⟨flags⟩ a.x2)
  return ⟨0, []⟩

/-- Starts the core in `x3` from the vector in `x2`. -/
def startCore (p : Platform σ κ) (a : CallArgs) : Hook σ κ CallReturn := do
  let cpu ← word a.x3
  p.send (.resetVectorSet cpu .boot a.x2)
  p.send (.cpuStart cpu)
  return ⟨0, []⟩

/-- Whether a core that reports this mode counts as running: it has started, or it sleeps. -/
def isRunning : Option Scmi.RunMode → Bool
  | some .start | some .sleep => true
  | _ => false

/-- Tells whether the core in `x3` is running. -/
def coreStarted (p : Platform σ κ) (a : CallArgs) : Hook σ κ CallReturn := do
  let cpu ← word a.x3
  let info ← Platform.request (Scmi.Client.cpuInfo p.manager cpu)
  return ⟨if isRunning info.runMode? then 1 else 0, []⟩

/-- Stops the auxiliary core in `x3` and resets what its agent has configured. -/
def stopCore (p : Platform σ κ) (m : Monitor) (a : CallArgs) : Hook σ κ CallReturn := do
  match auxiliaryIndex? a.x3 with
  | none => throw .invalidArgument
  | some i =>
    match m.agents.agent? i with
    | none => throw .notFound
    | some agent =>
      p.send (.cpuStop (← word a.x3))
      p.send (.resetAgent agent 0)
      return ⟨0, [0]⟩

/-- Carries out the command in `x1` on an auxiliary core. -/
def controlCore (p : Platform σ κ) (m : Monitor) (a : CallArgs) : Hook σ κ CallReturn :=
  match CoreCommand.ofCode? a.x1 with
  | none => throw .unknownCall
  | some .resetAddrSet => setVector p a
  | some .start => startCore p a
  | some .started => coreStarted p a
  | some .stop => m.stopCore p a

/-- Carries out the command in `x1` on the logical machine in `x2`. -/
def controlMachine (p : Platform σ κ) (a : CallArgs) : Hook σ κ CallReturn := do
  match MachineCommand.ofCode? a.x1 with
  | none => throw .unknownCall
  | some command =>
    let machine ← word a.x2
    match command with
    | .boot => p.send (.machineBoot machine)
    | .shutdown => p.send (.machineShutdown machine .graceful)
    return ⟨0, []⟩

/-- The number of the chip and its unique identifier, if they are known. -/
def describeSoc (m : Monitor) : Hook σ κ CallReturn :=
  match m.socInfo with
  | none => throw .notFound
  | some info => return ⟨0, [info.soc.toUInt64, info.uidPair.1, info.uidPair.2]⟩

/-- Carries out a function, or tells why not. -/
def dispatch (p : Platform σ κ) (m : Monitor) (function : UInt32) (a : CallArgs) :
    Hook σ κ CallReturn :=
  if function == coreFunction then m.controlCore p a
  else if function == machineFunction then controlMachine p a
  else if function == socInfoFunction then m.describeSoc
  else throw .unknownCall

/-- Answers a call. A failure becomes its status. -/
def handle (p : Platform σ κ) (m : Monitor) (function : UInt32) (a : CallArgs) :
    StateT (Controller κ) (Run σ) CallReturn := do
  match ← (m.dispatch p function a).run with
  | .ok r => return r
  | .error e =>
    (log .debug s!"SiP {Text.hex function.toNat}/{Text.hex a.x1.toNat}: {e.message}" : Run σ Unit)
    return .ofError e

/-- Finds the agents of the auxiliary cores and reads the descriptor of the chip. What fails is
    complained of, and the calls that need it fail later. -/
def init (p : Platform σ κ) (m : Monitor) : StateT (Controller κ) (Run σ) Monitor := do
  let c ← get
  let ((outcome, agents), client) ← ((m.agents.resolve p.manager).run c.client :
    Run σ ((Except Scmi.Error Unit × AgentTable) × Scmi.Client))
  set { c with client }
  if let .error e := outcome then
    (log .warn s!"SM agent discovery failed: {e.message}" : Run σ Unit)
  match ← (p.socInfo : Run σ (Except PlatformError SocInfo)) with
  | .ok info => return { agents, socInfo := some info }
  | .error e =>
    (log .warn s!"SoC info unavailable: {e.message}" : Run σ Unit)
    return { m with agents }

end Service
end Monitor
end PowerFirmware
