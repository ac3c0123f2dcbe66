import PowerFirmware.Power.Error
import PowerFirmware.Power.Snapshot
import PowerFirmware.Power.Wakeup
import PowerFirmware.Scmi.Client

/-! The platform that power management works on, and the operations it is told to carry out.

The System Manager makes every transition of a core, the cluster or a power domain. A controller
keeps what the System Manager cannot: which cores still boot rather than resume, the wakeup sources,
and the state of peripherals while their power is off. -/

namespace PowerFirmware

/-- The core that runs the firmware. -/
structure Cpu (σ : Type) where
  index : σ → Nat
  powerDownCluster : UInt64 → σ → σ
  waitForInterrupt : σ → σ

/-- The core that a value of the affinity register names, at affinity level one. -/
def coreOfAffinity (affinity : UInt64) : Nat := ((affinity >>> 8) &&& 0xff).toNat

/-- The parts of a platform with machine states `σ`, whose interrupt controller is saved as a `κ`,
    and the budget of every wait for its hardware. -/
structure Platform (σ κ : Type) where
  manager : Channel σ
  enclave : Enclave σ
  gic : InterruptController σ κ
  cpu : Cpu σ
  budget : PollBudget := Layout.defaultBudget

/-- Which cores are powered on later than the system boots: all but the one that boots it. -/
def secondaryCores : Vector Bool 4 := #v[false, true, true, true]

/-- All state of power management: the agent at the System Manager, the warm entry of every core, the
    cores that have not been powered on yet, and what outlasts a suspend. -/
structure Controller (κ : Type) where
  client : Scmi.Client := {}
  entry : UInt64 := 0
  bootPending : Vector Bool 4 := secondaryCores
  snapshot : Snapshot κ
  wakeup : WakeupPolicy := .initial

/-- Whether a core is given its boot vector when it is powered on next. -/
def Controller.isBootPending {κ : Type} (c : Controller κ) (core : Nat) : Bool :=
  c.bootPending.toList.getD core false

/-- An operation on the controller that the platform carries out and that may fail. -/
abbrev Hook (σ κ : Type) := ExceptT PlatformError (StateT (Controller κ) (Run σ))

namespace Platform
variable {σ κ : Type}

/-- The calling core, if there is such a core. -/
def thisCore (p : Platform σ κ) : Hook σ κ (Fin 4) := do
  let core ← (Run.view p.cpu.index : Run σ Nat)
  if h : core < 4 then return ⟨core, h⟩ else throw .invalidArgument

/-- Makes a call on behalf of the controller's agent. -/
def request {α : Type} (call : Scmi.Call σ α) : Hook σ κ α := do
  let c ← get
  let (outcome, client) ← (call.run.run c.client : Run σ (Except Scmi.Error α × Scmi.Client))
  set { c with client }
  match outcome with
  | .ok a => return a
  | .error e => throw (.scmi e)

/-- The power-down word that lets the whole cluster go off, and the one that keeps its cache. -/
def clusterOff : UInt64 := 0
def clusterRetention : UInt64 := 2

section Requests
variable [Machine σ]

/-- Sends one command to the System Manager. -/
def send (p : Platform σ κ) (c : Scmi.Command) : Hook σ κ Unit :=
  request (Scmi.Client.perform p.manager c)

/-- Has a core start at the warm entry. -/
def setEntry (p : Platform σ κ) (core : Fin 4) (flags : Scmi.VectorFlags) : Hook σ κ Unit := do
  p.send (.resetVectorSet (Layout.cpuOf core) flags (← get).entry)

/-- Lets events and the debugger wake a CPU. -/
def allowEvents (p : Platform σ κ) (cpu : UInt32) : Hook σ κ Unit :=
  p.send (.nonIrqWakeSet cpu 0 (Layout.debugWakeup ||| Layout.eventWakeup))

/-- Sets when a core's own domain stays on. -/
def setCorePolicy (p : Platform σ κ) (core : Fin 4) (setting : Scmi.LpmSetting) : Hook σ κ Unit :=
  p.send (.domainPolicySet (Layout.cpuOf core) [⟨Layout.domainOf core, setting, 0⟩])

/-- The policy of the cluster, the network and the wakeup domain while the system runs. -/
def runModePolicy : List Scmi.DomainPolicy :=
  [⟨Layout.cluster.domain, .onRun, Layout.retentionBit Layout.clusterCache⟩,
    ⟨Layout.nocDomain, .onAlways, 0⟩, ⟨Layout.wakeupDomain, .onAlways, 0⟩]

/-- Sets up the policy that holds after boot, and remembers the warm entry of every core. -/
def setup (p : Platform σ κ) (entry : UInt64) : Hook σ κ Unit := do
  modify ({ · with entry })
  p.setEntry Layout.bootCore .boot
  p.allowEvents (Layout.cpuOf Layout.bootCore)
  p.allowEvents Layout.cluster.cpu
  p.send (.domainPolicySet Layout.cluster.cpu runModePolicy)
  p.setCorePolicy Layout.bootCore .onRun
  p.send (.sleepModeSet (Layout.cpuOf Layout.bootCore) .gic .wait)
  p.send (.sleepModeSet Layout.cluster.cpu .gic .wait)
  p.send (.peripheralPolicySet Layout.cluster.cpu [⟨Layout.watchdogInterface, .onRunWaitStop⟩])
  (log .info s!"PSCI ready, warm entry {Text.hex entry.toNat}" : Run σ Unit)

/-- Powers a core on. Its boot vector is set only the first time; later it resumes by the vector that
    was set when it was suspended. -/
def domainOn (p : Platform σ κ) (affinity : UInt64) : Hook σ κ Unit := do
  if h : coreOfAffinity affinity < 4 then
    let core : Fin 4 := ⟨coreOfAffinity affinity, h⟩
    if (← get).bootPending[core] then
      p.setEntry core .boot
      modify fun c => { c with bootPending := c.bootPending.set core false }
    p.send (.cpuStart (Layout.cpuOf core))
    p.allowEvents (Layout.cpuOf core)
    p.setCorePolicy core .onRun
    (log .debug s!"core {core.val} on" : Run σ Unit)
  else
    throw .invalidArgument

/-- Runs on a core that has just been powered on: it sleeps by waiting, wakes through the interrupt
    controller, and gets its interface. -/
def domainOnFinish (p : Platform σ κ) : Hook σ κ Unit := do
  let core ← p.thisCore
  p.send (.sleepModeSet (Layout.cpuOf core) .gic .wait)
  p.gic.initCore core
  p.gic.enableInterface core

/-- Prepares the calling core for being powered off. No interrupt wakes it any more. -/
def domainOff (p : Platform σ κ) : Hook σ κ Unit := do
  let core ← p.thisCore
  p.gic.disableInterface core
  (Run.update (p.cpu.powerDownCluster clusterOff) : Run σ Unit)
  p.setCorePolicy core .onRunWaitStop
  p.send (.irqWakeSet (Layout.cpuOf core) 0 WakeupPolicy.allMasked)
  p.send (.sleepModeSet (Layout.cpuOf core) .gpc .suspend)
  (log .debug s!"core {core.val} off" : Run σ Unit)

/-- Silences the interrupt controller and asks for a transition of the whole system. -/
def systemTransition (p : Platform σ κ) (state : Scmi.SystemPower) : Hook σ κ Unit := do
  p.gic.disableGroups
  p.send (.systemPowerSet .forceful state)

def systemReset (p : Platform σ κ) : Hook σ κ Unit := p.systemTransition .coldReset
def systemOff (p : Platform σ κ) : Hook σ κ Unit := p.systemTransition .shutdown

/-- Fills `out` with random bytes from the enclave. -/
def random (p : Platform σ κ) (out : List UInt8) :
    Run σ (Except PlatformError Unit × List UInt8) := do
  let (outcome, out) ← p.enclave.random out
  return (outcome.mapError .enclave, out)

def socInfo (p : Platform σ κ) : Run σ (Except PlatformError SocInfo) := do
  return (← p.enclave.socInfo).mapError .enclave

end Requests
end Platform
end PowerFirmware
