import PowerFirmware.Monitor
import PowerFirmware.Power.Suspend
import PowerFirmware.Power.Validation

/-! The firmware as one: power management and the monitor's service, which share the agent at the
System Manager. -/

namespace PowerFirmware

/-- All state of the firmware. -/
structure Firmware (κ : Type) where
  controller : Controller κ
  monitor : Monitor := {}

namespace Firmware
variable {σ κ : Type}

/-- An operation on the firmware's state. -/
abbrev Operation (σ κ : Type) := StateT (Firmware κ) (Run σ)

def onController {α : Type} (x : StateT (Controller κ) (Run σ) α) : Operation σ κ α := do
  let firmware ← get
  let (a, controller) ← (x.run firmware.controller : Run σ (α × Controller κ))
  set { firmware with controller }
  return a

/-- Carries out a hook of power management. -/
def hook {α : Type} (h : Hook σ κ α) : Operation σ κ (Except PlatformError α) := onController h.run

/-- Makes a call on behalf of the agent. -/
def manager {α : Type} (call : Scmi.Call σ α) : Operation σ κ (Except Scmi.Error α) := onController do
  let c ← get
  let (outcome, client) ← (call.run.run c.client : Run σ (Except Scmi.Error α × Scmi.Client))
  set { c with client }
  return outcome

/-- Puts a fresh service in the place of the monitor's. -/
def renewMonitor : Operation σ κ Unit := modify ({ · with monitor := {} })

section Service
variable [Machine σ]

def initMonitor (p : Platform σ κ) : Operation σ κ AgentTable := do
  let monitor ← onController ((← get).monitor.init p)
  modify ({ · with monitor })
  return monitor.agents

/-- Answers a call to the monitor. -/
def handle (p : Platform σ κ) (function : UInt32) (a : CallArgs) : Operation σ κ CallReturn := do
  onController ((← get).monitor.handle p function a)

end Service
end Firmware
end PowerFirmware
