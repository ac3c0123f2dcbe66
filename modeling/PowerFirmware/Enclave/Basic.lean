import PowerFirmware.Channel.Basic
import PowerFirmware.Enclave.Region
import PowerFirmware.Enclave.SocInfo
import PowerFirmware.Text

/-! Requests to the secure enclave.

A command succeeds only with the enclave's own success status. Bulk results arrive in a region of
memory whose address goes with the command. -/

namespace PowerFirmware

/-- The seeding state of the random source and of the generator behind it. -/
structure TrngState where
  trng : UInt8
  csal : UInt8
  deriving DecidableEq, Repr

namespace TrngState

def ofWord (w : UInt32) : TrngState := ⟨w.toUInt8, (w >>> 8).toUInt8⟩

/-- Both are seeded. -/
def isReady (s : TrngState) : Bool := s.trng == 3 && s.csal == 2

end TrngState

/-- A channel to the enclave and the region for its bulk results. -/
structure Enclave (σ : Type) where
  channel : Channel σ
  region : DmaRegion σ

namespace Enclave

/-- Why a request to the enclave has no result. -/
inductive Error
  | channel (e : ChannelError)
  | failed (status : UInt32)
  | notReady (s : TrngState)
  | invalidArgument
  deriving DecidableEq, Repr

def Error.message : Error → String
  | channel e => s!"ELE channel: {e.message}"
  | failed status => s!"ELE command failed: {Text.hex status.toNat}"
  | notReady s => s!"TRNG not ready (trng {s.trng}, csal {s.csal})"
  | invalidArgument => "invalid ELE request"

/-- The status of a command that succeeded. -/
def successStatus : UInt32 := 0xd6

def getInfo : UInt32 := 0x17da0406
def getRandom : UInt32 := 0x17cd0407
def getTrngState : UInt32 := 0x17a40106
def releaseMasterId : UInt32 := 0x17e40106

/-- The number of random bytes that one transfer brings. -/
def transferSize : Nat := 16

section Commands
variable {σ : Type} [Machine σ]

/-- Sends one command and yields the payload of its response. -/
def command (e : Enclave σ) (opcode : UInt32) (args : List UInt32) (payload : Nat) :
    Run σ (Except Error (Vector UInt32 payload)) := do
  let (outcome, words) ← e.channel.transact ⟨opcode, args⟩ (Vector.replicate payload 0)
  match outcome with
  | .error failure => return .error (.channel failure)
  | .ok r =>
    log .trace s!"ELE {Text.hexWord opcode}: msg {Text.hex r.header.toNat} resp {Text.hex r.status.toNat}"
    if r.status != successStatus then
      return .error (.failed r.status)
    else
      return .ok words

/-- Has the enclave write its descriptor of the chip, and reads it. -/
def socInfo (e : Enclave σ) : Run σ (Except Error SocInfo) := do
  if e.region.size < SocInfo.size then
    return .error .invalidArgument
  else
    let address := e.region.busAddress
    Run.update e.region.prepare
    match ← e.command getInfo
        [(address >>> 32).toUInt32, address.toUInt32, UInt32.ofNat SocInfo.size] 0 with
    | .error failure => return .error failure
    | .ok _ =>
      Run.update e.region.complete
      let info := SocInfo.ofBytes (← e.region.front SocInfo.size)
      log .debug s!"ELE soc {Text.hex info.soc.toNat} lc {Text.hex info.lifecycle.toNat} state {Text.hex info.state.toNat}"
      return .ok info

def trngState (e : Enclave σ) : Run σ (Except Error TrngState) := do
  match ← e.command getTrngState [] 1 with
  | .error failure => return .error failure
  | .ok words => return .ok (.ofWord (words.toList.headD 0))

/-- One transfer of random bytes into the region, and its bytes. -/
def transfer (e : Enclave σ) : Run σ (Except Error (List UInt8)) := do
  Run.update e.region.prepare
  match ← e.command getRandom [0x2, e.region.busAddress.toUInt32, UInt32.ofNat transferSize] 0 with
  | .error failure =>
    log .warn s!"TRNG generation failed: {failure.message}"
    return .error failure
  | .ok _ =>
    Run.update e.region.complete
    return .ok (← e.region.front transferSize)

/-- Fills `out` by at most `count` transfers; the last one is cut to what is left. A failed transfer
    ends the filling and leaves the rest of `out` as it is. -/
def fill (e : Enclave σ) : Nat → List UInt8 → Run σ (Except Error Unit × List UInt8)
  | 0, out => return (.ok (), out)
  | count + 1, out => do
    match ← e.transfer with
    | .error failure => return (.error failure, out)
    | .ok bytes =>
      let (outcome, rest) ← e.fill count (out.drop transferSize)
      return (outcome, bytes.take (out.take transferSize).length ++ rest)

/-- The number of transfers that `length` bytes take. -/
def transfers (length : Nat) : Nat := (length + transferSize - 1) / transferSize

/-- Fills `out` with random bytes, once the random source has been found ready. -/
def random (e : Enclave σ) (out : List UInt8) : Run σ (Except Error Unit × List UInt8) := do
  if out.isEmpty || e.region.size < transferSize then
    return (.error .invalidArgument, out)
  else
    match ← e.trngState with
    | .error failure => return (.error failure, out)
    | .ok state =>
      if state.isReady then
        e.fill (transfers out.length) out
      else
        log .info "TRNG is not ready"
        return (.error (.notReady state), out)

/-- Gives up the enclave's hold on the flash controllers. -/
def releaseFlash (e : Enclave σ) : Run σ (Except Error Unit) := do
  match ← e.command releaseMasterId [] 0 with
  | .error failure => return .error failure
  | .ok _ => return .ok ()

end Commands
end Enclave
end PowerFirmware
