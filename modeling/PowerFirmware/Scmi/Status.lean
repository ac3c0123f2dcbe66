import PowerFirmware.Channel.Basic

/-! Status codes of the System Manager, and how a request to it fails. -/

namespace PowerFirmware.Scmi

inductive Status
  | success | notSupported | invalidParameters | denied | notFound | outOfRange | busy
  | commsError | genericError | hardwareError | protocolError
  deriving DecidableEq, Repr

namespace Status

def all : List Status :=
  [success, notSupported, invalidParameters, denied, notFound, outOfRange, busy,
    commsError, genericError, hardwareError, protocolError]

def code : Status → Int
  | success => 0 | notSupported => -1 | invalidParameters => -2 | denied => -3 | notFound => -4
  | outOfRange => -5 | busy => -6 | commsError => -7 | genericError => -8 | hardwareError => -9
  | protocolError => -10

def name : Status → String
  | success => "Success" | notSupported => "NotSupported" | invalidParameters => "InvalidParameters"
  | denied => "Denied" | notFound => "NotFound" | outOfRange => "OutOfRange" | busy => "Busy"
  | commsError => "CommsError" | genericError => "GenericError" | hardwareError => "HardwareError"
  | protocolError => "ProtocolError"

/-- The code as a status word carries it, in two's complement. -/
def word (s : Status) : UInt32 := UInt32.ofInt s.code

def ofWord? (w : UInt32) : Option Status := all.find? (·.word == w)

/-- A word outside the standard set reads as a generic error. -/
def ofWord (w : UInt32) : Status := (ofWord? w).getD genericError

end Status

/-- Why a request to the System Manager has no result: it was refused, it never completed, or the
    reply does not belong to it or is too short. -/
inductive Error
  | status (s : Status)
  | channel (e : ChannelError)
  | badResponse
  deriving DecidableEq, Repr

namespace Error

def message : Error → String
  | status s => s!"SCMI status {s.name}"
  | channel e => s!"SCMI channel: {e.message}"
  | badResponse => "malformed SCMI response"

/-- The status code that stands for the error outside this protocol. -/
def code : Error → Int
  | status s => s.code
  | channel _ => Status.commsError.code
  | badResponse => Status.protocolError.code

end Error
end PowerFirmware.Scmi
