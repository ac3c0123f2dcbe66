import PowerFirmware.Power.Platform
import PowerFirmware.Power.State

/-! Suspending a core, its cluster and the system, and resuming them. -/

namespace PowerFirmware.Platform
variable {σ κ : Type} [Machine σ]

/-- Saves groups of state into the controller's snapshot. -/
def saveContext (p : Platform σ κ) (set : ContextSet) : Hook σ κ Unit := do
  let snapshot ← (Snapshot.save p.gic set (← get).snapshot : Run σ (Snapshot κ))
  modify ({ · with snapshot })

/-- Restores groups of state from the controller's snapshot. -/
def restoreContext (p : Platform σ κ) (set : ContextSet) : Hook σ κ Unit := do
  let (outcome, snapshot) ← (Snapshot.restore p.gic p.budget set (← get).snapshot :
    Run σ (Except PollTimeout Unit × Snapshot κ))
  modify ({ · with snapshot })
  match outcome with
  | .ok () => return ()
  | .error t => throw (.timeout t)

/-- Sets by which masks, by what route and from which mode the core and the cluster wake, and has the
    peripherals held or put back. -/
def setWakeup (p : Platform σ κ) (core : Fin 4) (masks : List UInt32) (flags : Scmi.WakeupFlags)
    (mode : Scmi.SleepMode) (entering : Bool) : Hook σ κ Unit := do
  modify fun c => { c with wakeup := c.wakeup.evaluate masks }
  p.send (.irqWakeSet Layout.cluster.cpu 0 masks)
  p.send (.sleepModeSet (Layout.cpuOf core) (flags.union Scmi.WakeupFlags.resumeCpu) mode)
  p.send (.sleepModeSet Layout.cluster.cpu flags mode)
  let (table, wakeup) := (← get).wakeup.handshake entering
  modify ({ · with wakeup })
  p.send (.peripheralPolicySet Layout.cluster.cpu table)
  (log .trace s!"sys wakeup pdn={entering} irq wakeup {wakeup.hasWakeupIrq}" : Run σ Unit)

/-- Hands wakeup to the power controller, by the masks that fit the interrupts now enabled. -/
def handWakeupOver (p : Platform σ κ) (core : Fin 4) : Hook σ κ Unit := do
  p.send (.irqWakeSet (Layout.cpuOf core) 0 WakeupPolicy.allMasked)
  let (masks, wakeup) ← ((← get).wakeup.capture p.gic : Run σ (List UInt32 × WakeupPolicy))
  modify ({ · with wakeup })
  p.setWakeup core masks .gpc .suspend true

/-- Hands wakeup back to the interrupt controller. -/
def handWakeupBack (p : Platform σ κ) (core : Fin 4) : Hook σ κ Unit :=
  p.setWakeup core WakeupPolicy.allMasked .gic .wait false

/-- Saves the interrupt controller, and then hands wakeup over. -/
def powerDownNetwork (p : Platform σ κ) (core : Fin 4) : Hook σ κ Unit := do
  p.saveContext .interrupts
  p.handWakeupOver core

/-- Restores the interrupt controller, and then hands wakeup back to it. -/
def powerUpNetwork (p : Platform σ κ) (core : Fin 4) : Hook σ κ Unit := do
  p.restoreContext .interrupts
  p.handWakeupBack core

/-- The policy of the cluster, the network and the wakeup domain while the system is suspended. The
    wakeup domain stays on if something in it can wake the system. -/
def suspendPolicy (keepWakeup : Bool) : List Scmi.DomainPolicy :=
  [⟨Layout.cluster.domain, .onRunWaitStop, 0⟩,
    ⟨Layout.nocDomain, .onRunWaitStop, Layout.retentionBit Layout.nocMemory⟩,
    ⟨Layout.wakeupDomain, if keepWakeup then .onAlways else .onRunWaitStop, 0⟩]

/-- The steps that prepare the system for being suspended by its last core. -/
def suspendSystem (p : Platform σ κ) (core : Fin 4) : Hook σ κ Unit := do
  p.powerDownNetwork core
  p.saveContext .peripherals
  let c ← get
  let keepWakeup := c.snapshot.pinWakeup || c.wakeup.hasWakeupIrq
  p.send (.domainPolicySet Layout.cluster.cpu (suspendPolicy keepWakeup))
  (log .debug s!"system suspend from core {core.val}, wakeupmix kept {keepWakeup}" : Run σ Unit)

/-- Prepares each level of `target` that stops running. -/
def domainSuspend (p : Platform σ κ) (target : PowerState) : Hook σ κ Unit := do
  let core ← p.thisCore
  if target.core.isOff then
    p.setEntry core .resume
    p.gic.disableInterface core
  if !target.cluster.isRun then
    let word := if target.cluster.isRetention then clusterRetention else clusterOff
    (Run.update (p.cpu.powerDownCluster word) : Run σ Unit)
  if target.system.isOff then
    p.suspendSystem core

/-- Runs all of the named steps, whichever of them fail, and yields the first failure. -/
def runAll : List (String × Hook σ κ Unit) → StateT (Controller κ) (Run σ) (Option PlatformError)
  | [] => return none
  | (name, step) :: rest => do
    match ← step.run with
    | .ok () => runAll rest
    | .error e =>
      (log .warn s!"{name}: {e.message}" : Run σ Unit)
      let _ ← runAll rest
      return some e

/-- The flash controllers are free again for the peripherals' state. -/
def releaseFlash (p : Platform σ κ) : Hook σ κ Unit := do
  match ← (p.enclave.releaseFlash : Run σ (Except Enclave.Error Unit)) with
  | .ok () => return ()
  | .error e => throw (.enclave e)

/-- The steps that bring the system back, in order. -/
def resumeSteps (p : Platform σ κ) (core : Fin 4) : List (String × Hook σ κ Unit) :=
  [("NOC mix power-up", p.powerUpNetwork core),
    ("GMID release", p.releaseFlash),
    ("peripheral restore", p.restoreContext .peripherals),
    ("run-mode LPM", p.send (.domainPolicySet Layout.cluster.cpu runModePolicy))]

/-- Undoes a suspend after wakeup. Every step is taken even if an earlier one fails, so that the
    peripherals and the policy of running are back in any case. -/
def domainSuspendFinish (p : Platform σ κ) (target : PowerState) : Hook σ κ Unit := do
  let core ← p.thisCore
  let failure ← if target.system.isOff
    then (runAll (p.resumeSteps core) : StateT (Controller κ) (Run σ) (Option PlatformError))
    else pure none
  if target.core.isOff then
    p.gic.enableInterface core
  match failure with
  | some e => throw e
  | none => return ()

end PowerFirmware.Platform
