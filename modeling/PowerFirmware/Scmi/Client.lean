import PowerFirmware.Scmi.Command
import PowerFirmware.Scmi.Status
import PowerFirmware.Text

/-! The agent's side of a channel to the System Manager.

Every call is one request. Its reply counts only if it names the same protocol and message, reports
success and brings all the words that the command promises. -/

namespace PowerFirmware.Scmi

/-- What the agent remembers between calls: the token of its next request. -/
structure Client where
  token : BitVec 10 := 0
  deriving DecidableEq, Repr

/-- A call on behalf of a client, which may fail and moves the client on. -/
abbrev Call (σ : Type) := ExceptT Error (StateT Client (Run σ))

namespace Client
variable {σ : Type} [Machine σ]

omit [Machine σ] in
/-- The next token; tokens start again at zero after the last one. -/
def takeToken : Call σ (BitVec 10) := do
  let client ← get
  set { client with token := client.token + 1 }
  return client.token

/-- Accepts a response to `c`, or tells why not. A failed status is reported even if the payload is
    short. -/
def accept (c : Command) (r : Response) : Run σ (Except Error Unit) := do
  let name := s!"{Text.hex c.protocol.toNat}/{Text.hex c.message.toNat}"
  let reply := Header.decode r.header
  if reply.message != c.message || reply.protocol != c.protocol then
    log .warn s!"SCMI {name}: reply header {Text.hexWord r.header}"
    return .error .badResponse
  else
    let status := Status.ofWord r.status
    if status != .success then
      log .debug s!"SCMI {name} failed: {status.name}"
      return .error (.status status)
    else if r.length < c.replyWords then
      return .error .badResponse
    else
      return .ok ()

/-- Sends one command and yields the words of its reply. A table that is too long is refused here,
    and then nothing is sent and no token is used up. -/
def call (channel : Channel σ) (c : Command) : Call σ (Vector UInt32 c.replyWords) := do
  if !c.fits then
    throw (.status .invalidParameters)
  else
    let token ← takeToken
    let (outcome, words) ← channel.transact ⟨c.opcode token, c.args⟩ (Vector.replicate c.replyWords 0)
    match outcome with
    | .error e => throw (.channel e)
    | .ok r =>
      match ← (accept c r : Run σ (Except Error Unit)) with
      | .error e => throw e
      | .ok () => return words

/-- Sends a command whose reply has no words that matter. -/
def perform (channel : Channel σ) (c : Command) : Call σ Unit := do
  let _ ← call channel c

def baseAttributes (channel : Channel σ) : Call σ BaseAttributes := do
  let words : Vector UInt32 1 ← call channel .baseAttributes
  return .ofWord words[0]

def discoverAgent (channel : Channel σ) (agent : UInt32) : Call σ AgentInfo := do
  let words : Vector UInt32 5 ← call channel (.discoverAgent agent)
  return ⟨words[0], words.toList.tail.flatMap LittleEndian.bytes⟩

def powerState (channel : Channel σ) (domain : UInt32) : Call σ UInt32 := do
  let words : Vector UInt32 1 ← call channel (.powerStateGet domain)
  return words[0]

def cpuInfo (channel : Channel σ) (cpu : UInt32) : Call σ CpuInfo := do
  let words : Vector UInt32 4 ← call channel (.cpuInfo cpu)
  return ⟨words[0], words[1], LittleEndian.ofHalves words[2] words[3]⟩

/-- The number of logical machines. -/
def machineCount (channel : Channel σ) : Call σ UInt32 := do
  let words : Vector UInt32 1 ← call channel .machineAttributes
  return words[0] &&& 0x1f

end Client
end PowerFirmware.Scmi
