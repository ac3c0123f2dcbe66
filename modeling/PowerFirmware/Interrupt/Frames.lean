import PowerFirmware.Poll

/-! The register frames of an interrupt controller with one distributor and a redistributor for each
core, and their state across a loss of power.

Private lines belong to the redistributors, so the distributor is saved from its second bank of
lines on. State is written back with all interrupt groups disabled. -/

namespace PowerFirmware

/-- Where the distributor and the redistributors are, how many cores there are, and how long the
    controller may take to settle. -/
structure InterruptFrames where
  distributor : Nat
  redistributors : Nat
  cores : Nat
  budget : PollBudget := .millis 10

namespace InterruptFrames

/-- The groups, group modifiers and enables of one bank of thirty-two lines. -/
structure BankImage where
  group : UInt32
  modifier : UInt32
  enable : UInt32
  deriving DecidableEq, Repr

/-- Saved state of a distributor: banks from the second on, and trigger, priority and route registers
    from the first shared line on. What is missing counts as zero. -/
structure DistributorImage where
  control : UInt32 := 0
  banks : List BankImage := []
  triggers : List UInt32 := []
  priorities : List UInt32 := []
  routes : List UInt64 := []
  deriving DecidableEq, Repr

/-- Saved state of a redistributor. -/
structure RedistributorImage where
  control : UInt32 := 0
  bank : BankImage := ⟨0, 0, 0⟩
  triggers : List UInt32 := []
  priorities : List UInt32 := []
  deriving DecidableEq, Repr

/-- Saved state of all frames. -/
structure Image where
  distributor : DistributorImage := {}
  redistributors : List RedistributorImage := []
  deriving DecidableEq, Repr

/-! ### Registers -/

/-- Lines come in banks of thirty-two. Sixteen banks are covered, and the first of them is private
    to each core. -/
def sharedBanks : Nat := 15

/-- Trigger registers hold sixteen lines each, priority registers four, route registers one. -/
def sharedTriggers : Nat := 30
def sharedPriorities : Nat := 120
def sharedRoutes : Nat := 480

def control (f : InterruptFrames) : Nat := f.distributor
def group (f : InterruptFrames) (bank : Nat) : Nat := f.distributor + 0x80 + 4 * bank
def enable (f : InterruptFrames) (bank : Nat) : Nat := f.distributor + 0x100 + 4 * bank
def priority (f : InterruptFrames) (i : Nat) : Nat := f.distributor + 0x400 + 4 * i
def trigger (f : InterruptFrames) (i : Nat) : Nat := f.distributor + 0xc00 + 4 * i
def modifier (f : InterruptFrames) (bank : Nat) : Nat := f.distributor + 0xd00 + 4 * bank
def route (f : InterruptFrames) (line : Nat) : Nat := f.distributor + 0x6000 + 8 * line

def core (f : InterruptFrames) (i : Nat) : Nat := f.redistributors + 0x20000 * i
def coreControl (f : InterruptFrames) (i : Nat) : Nat := f.core i
def coreWaker (f : InterruptFrames) (i : Nat) : Nat := f.core i + 0x14
def coreGroup (f : InterruptFrames) (i : Nat) : Nat := f.core i + 0x10080
def coreEnable (f : InterruptFrames) (i : Nat) : Nat := f.core i + 0x10100
def coreDisable (f : InterruptFrames) (i : Nat) : Nat := f.core i + 0x10180
def corePriority (f : InterruptFrames) (i k : Nat) : Nat := f.core i + 0x10400 + 4 * k
def coreTrigger (f : InterruptFrames) (i k : Nat) : Nat := f.core i + 0x10c00 + 4 * k
def coreModifier (f : InterruptFrames) (i : Nat) : Nat := f.core i + 0x10d00

/-- The group enables in the distributor's control register. -/
def groupEnables : UInt32 := 0x7

/-- A write to the distributor is still being carried out. -/
def writePending : UInt32 := 0x80000000

/-- A write to the redistributor is still being carried out. -/
def coreWritePending : UInt32 := 0x8

/-- The core asks its redistributor to sleep. -/
def processorSleep : UInt32 := 0x2

/-- The redistributor is asleep. -/
def childrenAsleep : UInt32 := 0x4

/-! ### Operations -/

section Operations
variable {σ : Type} [Machine σ]

/-- Whether none of the bits of `mask` are set in the register at `a`. -/
def bitsClear (a : Nat) (mask : UInt32) : Run σ Bool := do
  return (← read32 a) &&& mask == 0

/-- Whether some bit of `mask` is set in the register at `a`. -/
def bitsSet (a : Nat) (mask : UInt32) : Run σ Bool := do
  return (← read32 a) &&& mask != 0

/-- Waits for `done`; a wait in vain is only complained of. -/
def settle (f : InterruptFrames) (done : Run σ Bool) (complaint : String) : Run σ Unit := do
  match ← pollUntil f.budget done with
  | .ok () => return ()
  | .error _ => log .warn complaint

def awaitWrite (f : InterruptFrames) : Run σ Unit :=
  f.settle (bitsClear f.control writePending) "GICD RWP stuck"

def awaitCoreWrite (f : InterruptFrames) (i : Nat) : Run σ Unit :=
  f.settle (bitsClear (f.coreControl i) coreWritePending) s!"GICR{i} RWP stuck"

/-- A core that has no redistributor is out of range. -/
def requireCore (f : InterruptFrames) (i : Nat) : Run σ Unit := do
  if i < f.cores then return () else throw .outOfRange

/-- Wakes the redistributor of a core. -/
def wake (f : InterruptFrames) (i : Nat) : Run σ Unit := do
  f.requireCore i
  clearBits32 (f.coreWaker i) processorSleep
  f.settle (bitsClear (f.coreWaker i) childrenAsleep) s!"GICR{i} did not wake"

/-- Sends the redistributor of a core to sleep. -/
def sleep (f : InterruptFrames) (i : Nat) : Run σ Unit := do
  f.requireCore i
  setBits32 (f.coreWaker i) processorSleep
  f.settle (bitsSet (f.coreWaker i) childrenAsleep) s!"GICR{i} did not quiesce"

def saveBank (f : InterruptFrames) (bank : Nat) : Run σ BankImage := do
  let group ← read32 (f.group bank)
  let modifier ← read32 (f.modifier bank)
  let enable ← read32 (f.enable bank)
  return ⟨group, modifier, enable⟩

def saveDistributor (f : InterruptFrames) : Run σ DistributorImage := do
  let control ← read32 f.control
  let banks ← (List.range sharedBanks).mapM fun i => f.saveBank (i + 1)
  let triggers ← readWords (f.trigger 2) sharedTriggers
  let priorities ← readWords (f.priority 8) sharedPriorities
  let routes ← (List.range sharedRoutes).mapM fun i => read64 (f.route (i + 32))
  return { control, banks, triggers, priorities, routes }

def saveCore (f : InterruptFrames) (i : Nat) : Run σ RedistributorImage := do
  let control ← read32 (f.coreControl i)
  let group ← read32 (f.coreGroup i)
  let modifier ← read32 (f.coreModifier i)
  let enable ← read32 (f.coreEnable i)
  let triggers ← readWords (f.coreTrigger i 0) 2
  let priorities ← readWords (f.corePriority i 0) 8
  return { control, bank := ⟨group, modifier, enable⟩, triggers, priorities }

/-- Reads the state of all frames and changes none of it. -/
def save (f : InterruptFrames) : Run σ Image := do
  let distributor ← f.saveDistributor
  let redistributors ← (List.range f.cores).mapM f.saveCore
  log .debug "GIC context saved"
  return { distributor, redistributors }

/-- Writes the distributor's state back with the groups disabled, and enables them last. -/
def restoreDistributor (f : InterruptFrames) (d : DistributorImage) : Run σ Unit := do
  write32 f.control (d.control &&& ~~~groupEnables)
  f.awaitWrite
  (List.range sharedBanks).forM fun i => do
    write32 (f.group (i + 1)) (d.banks.getD i ⟨0, 0, 0⟩).group
    write32 (f.modifier (i + 1)) (d.banks.getD i ⟨0, 0, 0⟩).modifier
  (List.range sharedTriggers).forM fun i => write32 (f.trigger (i + 2)) (d.triggers.getD i 0)
  (List.range sharedPriorities).forM fun i => write32 (f.priority (i + 8)) (d.priorities.getD i 0)
  (List.range sharedRoutes).forM fun i => write64 (f.route (i + 32)) (d.routes.getD i 0)
  (List.range sharedBanks).forM fun i =>
    write32 (f.enable (i + 1)) (d.banks.getD i ⟨0, 0, 0⟩).enable
  write32 f.control d.control
  f.awaitWrite

/-- Disables every private line of a core, and then writes its redistributor's state back. -/
def restoreCore (f : InterruptFrames) (i : Nat) (r : RedistributorImage) : Run σ Unit := do
  write32 (f.coreDisable i) 0xffffffff
  f.awaitCoreWrite i
  write32 (f.coreGroup i) r.bank.group
  write32 (f.coreModifier i) r.bank.modifier
  (List.range 2).forM fun k => write32 (f.coreTrigger i k) (r.triggers.getD k 0)
  (List.range 8).forM fun k => write32 (f.corePriority i k) (r.priorities.getD k 0)
  write32 (f.coreEnable i) r.bank.enable
  write32 (f.coreControl i) r.control
  f.awaitCoreWrite i

/-- Writes saved state back to all frames. -/
def restore (f : InterruptFrames) (image : Image) : Run σ Unit := do
  f.restoreDistributor image.distributor
  (List.range f.cores).forM fun i => f.restoreCore i (image.redistributors.getD i {})
  log .debug "GIC context restored"

/-- The enables of a bank of lines, of which the distributor has thirty-two. -/
def enableMask (f : InterruptFrames) (bank : Nat) : Run σ UInt32 := do
  if bank < 32 then read32 (f.enable bank) else throw .outOfRange

/-- Disables every interrupt group. -/
def disableGroups (f : InterruptFrames) : Run σ Unit := do
  clearBits32 f.control groupEnables
  f.awaitWrite

end Operations
end InterruptFrames
end PowerFirmware
