import PowerFirmware.Poll

/-! Fixed facts of the platform: where its devices are and which numbers the System Manager knows its
parts by. -/

namespace PowerFirmware.Layout

/-! ### Memory and time -/

/-- The lowest address that may be entered outside the secure world. -/
def normalWorldBase : UInt64 := 0x90200000

/-- Where the firmware itself is loaded. -/
def imageBase : UInt64 := 0x8a200000

/-- The frequency of the system counter in hertz. -/
def counterFrequency : Nat := 24000000

/-- The budget of every wait, unless another one is chosen. -/
def defaultBudget : PollBudget := .millis 100

/-! ### Devices -/

def distributor : Nat := 0x48000000
def redistributors : Nat := 0x48060000

/-- The messaging unit whose doorbell reaches the System Manager. -/
def managerUnit : Nat := 0x44220000

/-- The shared area of the channel to the System Manager. -/
def managerArea : Nat := 0x44221000

/-- The lock shared with the System Manager, at the end of the same page. -/
def managerLock : Nat := 0x442213f8

def enclaveUnit : Nat := 0x47540000
def consoleUart : Nat := 0x44380000

/-- A bank of input and output pins: its registers and how many pins it has. -/
structure GpioBank where
  base : Nat
  pins : Nat
  deriving DecidableEq, Repr

def gpioBanks : List GpioBank :=
  [⟨0x43810000, 32⟩, ⟨0x43820000, 26⟩, ⟨0x43840000, 32⟩, ⟨0x43850000, 32⟩, ⟨0x43860000, 32⟩,
    ⟨0x43870000, 22⟩]

def watchdogs : List Nat := [0x49220000, 0x49230000]
def flashControllers : List Nat := [0x42b90000, 0x42be0000]

/-! ### Numbers of the System Manager -/

/-- What the System Manager knows of a core or of the cluster: its number, its power domain and its
    memories. -/
structure CpuDomain where
  cpu : UInt32
  domain : UInt32
  memories : List UInt32
  deriving DecidableEq, Repr

/-- The application cores, all in one cluster. -/
def cores : Vector CpuDomain 4 := #v[⟨2, 5, [2]⟩, ⟨3, 6, [3]⟩, ⟨4, 7, [4]⟩, ⟨5, 8, [5]⟩]

def coreCount : Nat := cores.size
def cluster : CpuDomain := ⟨6, 9, [7]⟩

/-- The core that boots the system and starts the others. -/
def bootCore : Fin 4 := 0

/-- The System Manager's number of a core. -/
def cpuOf (core : Fin 4) : UInt32 := cores[core].cpu

/-- The power domain of a core. -/
def domainOf (core : Fin 4) : UInt32 := cores[core].domain

/-- The cluster stands after the cores in tables that hold both. -/
def clusterIndex : Nat := coreCount

def cpuDomains : List CpuDomain := cores.toList ++ [cluster]

/-- The power domain of the network that connects the chip's parts. -/
def nocDomain : UInt32 := 16

/-- The power domain of the peripherals that can wake the chip. -/
def wakeupDomain : UInt32 := 18

/-- The bit that keeps the memory of the given number alive. -/
def retentionBit (memory : UInt32) : UInt32 := 1 <<< memory

/-- The cluster's third-level cache. -/
def clusterCache : UInt32 := 7

/-- The memory in the network's domain. -/
def nocMemory : UInt32 := 13

/-- Wake reasons that are no interrupts. -/
def eventWakeup : UInt32 := 0x1
def debugWakeup : UInt32 := 0x2

/-- The low-power interface of the first watchdog. -/
def watchdogInterface : UInt32 := 30

end PowerFirmware.Layout
