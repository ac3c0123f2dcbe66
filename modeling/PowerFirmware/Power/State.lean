/-! Power states of a core, its cluster and the system, and how requests name them.

A state is a small code. Codes are told apart only by thresholds, since there are retention codes
between running and off. -/

namespace PowerFirmware

/-- The state of one level: running at zero, retention up to two, and off above. -/
structure LocalState where
  code : UInt8
  deriving DecidableEq, Repr

namespace LocalState

def deepestRetention : UInt8 := 2

def run : LocalState := ⟨0⟩
def retention : LocalState := ⟨deepestRetention⟩
def off : LocalState := ⟨4⟩

def isRun (s : LocalState) : Bool := s.code == 0
def isRetention (s : LocalState) : Bool := 0 < s.code && s.code ≤ deepestRetention
def isOff (s : LocalState) : Bool := deepestRetention < s.code

end LocalState

/-- The states of a core, of the cluster around it and of the system around that. -/
structure PowerState where
  core : LocalState
  cluster : LocalState
  system : LocalState
  deriving DecidableEq, Repr

namespace PowerState

/-- The number of the highest level. -/
def highestLevel : Nat := 2

/-- Every level off. -/
def allOff : PowerState := ⟨.off, .off, .off⟩

def level? (s : PowerState) : Nat → Option LocalState
  | 0 => some s.core
  | 1 => some s.cluster
  | 2 => some s.system
  | _ => none

def setLevel? (s : PowerState) (l : LocalState) : Nat → Option PowerState
  | 0 => some { s with core := l }
  | 1 => some { s with cluster := l }
  | 2 => some { s with system := l }
  | _ => none

/-- No level is in a deeper state than a level it contains. -/
def isConsistent (s : PowerState) : Bool :=
  s.cluster.code ≤ s.core.code && s.system.code ≤ s.cluster.code

end PowerState

/-- Whether a core asks to stand by or to be powered down. -/
inductive StateType
  | standby | powerDown
  deriving DecidableEq, Repr

def StateType.name : StateType → String
  | standby => "Standby" | powerDown => "PowerDown"

def StateType.bit : StateType → UInt32
  | standby => 0 | powerDown => 1

/-- The word by which a core asks to be suspended. -/
structure SuspendRequest where
  word : UInt32
  deriving DecidableEq, Repr

namespace SuspendRequest

/-- The identifier of the platform's deep power-down state. -/
def deepPowerDown : UInt32 := 0x33

/-- Level and identifier are cut to their fields. -/
def ofParts (level : UInt32) (type : StateType) (id : UInt32) : SuspendRequest :=
  ⟨((level &&& 0x3) <<< 24) ||| (type.bit <<< 16) ||| (id &&& 0xffff)⟩

def id (r : SuspendRequest) : UInt32 := r.word &&& 0xffff

def type (r : SuspendRequest) : StateType :=
  if (r.word >>> 16) &&& 1 == 0 then .standby else .powerDown

def level (r : SuspendRequest) : UInt32 := (r.word >>> 24) &&& 0x3

/-- Whether the request is for the core off and the cluster in retention. -/
def isDeepStandby (r : SuspendRequest) : Bool := r.type == .standby || r.id == deepPowerDown

end SuspendRequest
end PowerFirmware
