import PowerFirmware.Interrupt.Controller
import PowerFirmware.Poll

/-! The lock between the application processor and the System Manager, and interrupt controllers
that change CPU interfaces under it.

Both sides reprogram the wake state of the redistributors and take turns by a lock in shared memory.
Each side has a byte by which it asks for the lock, and both write the word that says whose turn it
is: the manager's if it is zero. -/

namespace PowerFirmware

/-- The processor's side of the lock, which stands at `address`. -/
structure ManagerLock where
  address : Nat

namespace ManagerLock

def managerFlag (l : ManagerLock) : Nat := l.address
def ownFlag (l : ManagerLock) : Nat := l.address + 1
def turn (l : ManagerLock) : Nat := l.address + 4

section Operations
variable {σ : Type} [Machine σ]

/-- Whether the processor may enter: the manager does not ask, or has given its turn away. The turn
    is read only if the manager asks. -/
def mayEnter (l : ManagerLock) : Run σ Bool := do
  if (← read8 l.managerFlag) == 0 then
    return true
  else
    return (← read32 l.turn) != 0

def release (l : ManagerLock) : Run σ Unit := write8 l.ownFlag 0

/-- Asks for the lock, gives the turn to the manager and waits. A request that waits in vain is
    withdrawn. -/
def acquire (l : ManagerLock) (budget : PollBudget) : Run σ (Except PollTimeout Unit) := do
  write8 l.ownFlag 1
  write32 l.turn 0
  match ← pollUntil budget l.mayEnter with
  | .ok () => return .ok ()
  | .error t =>
    l.release
    return .error t

/-- Runs `change` for a core under the lock. If the lock cannot be had, `change` runs all the same,
    after the request for the lock has been withdrawn. -/
def guarded (l : ManagerLock) (budget : PollBudget) (change : Nat → Run σ Unit) (core : Nat) :
    Run σ Unit := do
  match ← l.acquire budget with
  | .ok () =>
    change core
    l.release
  | .error t =>
    log .error s!"SM/AP semaphore: {t.message}, core {core} proceeds unlocked"
    change core

end Operations
end ManagerLock

/-- The controller with its changes of CPU interfaces under the lock. -/
def InterruptController.synced {σ κ : Type} [Machine σ] (gic : InterruptController σ κ)
    (l : ManagerLock) (budget : PollBudget) : InterruptController σ κ :=
  { gic with
    enableInterface := l.guarded budget gic.enableInterface
    disableInterface := l.guarded budget gic.disableInterface }

end PowerFirmware
