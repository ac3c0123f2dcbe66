import PowerFirmware.Enclave.Basic
import PowerFirmware.Scmi.Status

/-! How platform operations fail, and which codes callers are told. -/

namespace PowerFirmware

/-- Return codes of power state coordination. -/
inductive PsciStatus
  | success | notSupported | invalidParams | denied | alreadyOn | onPending | internalFailure
  | notPresent | disabled | invalidAddress
  deriving DecidableEq, Repr

namespace PsciStatus

def all : List PsciStatus :=
  [success, notSupported, invalidParams, denied, alreadyOn, onPending, internalFailure,
    notPresent, disabled, invalidAddress]

def code : PsciStatus → Int
  | success => 0 | notSupported => -1 | invalidParams => -2 | denied => -3 | alreadyOn => -4
  | onPending => -5 | internalFailure => -6 | notPresent => -7 | disabled => -8
  | invalidAddress => -9

def name : PsciStatus → String
  | success => "Success" | notSupported => "NotSupported" | invalidParams => "InvalidParams"
  | denied => "Denied" | alreadyOn => "AlreadyOn" | onPending => "OnPending"
  | internalFailure => "InternalFailure" | notPresent => "NotPresent" | disabled => "Disabled"
  | invalidAddress => "InvalidAddress"

def ofWord? (w : UInt32) : Option PsciStatus := all.find? fun s => UInt32.ofInt s.code == w

end PsciStatus

/-- Why a platform operation failed: the System Manager or the enclave did not serve it, hardware
    did not settle, an argument is outside what there is, an auxiliary core has no agent, a monitor
    call does not exist, or the platform has not been set up. -/
inductive PlatformError
  | scmi (e : Scmi.Error)
  | enclave (e : Enclave.Error)
  | timeout (t : PollTimeout)
  | invalidArgument
  | notFound
  | unknownCall
  | uninitialized
  deriving DecidableEq, Repr

namespace PlatformError

def message : PlatformError → String
  | scmi e => e.message
  | enclave e => s!"ELE: {e.message}"
  | timeout t => t.message
  | invalidArgument => "invalid argument"
  | notFound => "agent not found"
  | unknownCall => "unknown call"
  | uninitialized => "platform not set up"

/-- What a caller of power state coordination is told. -/
def psciStatus : PlatformError → PsciStatus
  | invalidArgument => .invalidParams
  | unknownCall | notFound => .notSupported
  | scmi (.status .denied) => .denied
  | _ => .internalFailure

/-- What a caller of the monitor is told. -/
def callCode : PlatformError → Int
  | scmi e => e.code
  | invalidArgument => Scmi.Status.invalidParameters.code
  | notFound => Scmi.Status.notFound.code
  | enclave _ | timeout _ | unknownCall | uninitialized => -1

end PlatformError
end PowerFirmware
