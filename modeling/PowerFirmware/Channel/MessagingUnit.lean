import PowerFirmware.Channel.Basic
import PowerFirmware.Text

/-! Requests through the transmit and receive registers of a messaging unit.

The command goes to the first transmit register and the arguments to the next ones. The response
header, its status and its payload stand in the receive registers in this order. Reading a receive
register consumes its word, so no more are read than the caller has room for. -/

namespace PowerFirmware

/-- A messaging unit at a base address, and how long a response may take. -/
structure MessagingUnit where
  base : Nat
  budget : PollBudget := .millis 100

namespace MessagingUnit
variable {σ : Type} [Machine σ]

/-- Arguments that fit the transmit registers after the command. -/
def maxArgs : Nat := 4

/-- Payload that fits the receive registers after header and status. -/
def maxPayload : Nat := 6

/-- The status bits that say that both header and status have arrived. -/
def readyMask : UInt32 := 0x3

def receiveStatus (u : MessagingUnit) : Nat := u.base + 0x12c
def transmit (u : MessagingUnit) (i : Nat) : Nat := u.base + 0x200 + 4 * i
def receive (u : MessagingUnit) (i : Nat) : Nat := u.base + 0x280 + 4 * i

def responseReady (u : MessagingUnit) : Run σ Bool := do
  return (← read32 u.receiveStatus) &&& readyMask == readyMask

def transact (u : MessagingUnit) {n : Nat} (request : Request) (buffer : Vector UInt32 n) :
    Run σ (Delivery n) := do
  if maxArgs < request.args.length then
    return (.error (.tooManyArgs request.args.length maxArgs), buffer)
  else
    write32 (u.transmit 0) request.opcode
    writeWords (u.transmit 1) request.args
    match ← pollUntil u.budget u.responseReady with
    | .error t =>
      log .warn s!"MU {Text.hex u.base}: no response to {Text.hexWord request.opcode}"
      return (.error (.timeout t), buffer)
    | .ok () =>
      let header ← read32 (u.receive 0)
      let status ← read32 (u.receive 1)
      let length := min n maxPayload
      let words ← readWords (u.receive 2) length
      log .trace s!"MU {Text.hex u.base}: {Text.hexWord request.opcode} -> hdr {Text.hexWord header} status {Text.hex status.toNat}"
      return (.ok ⟨header, status, length⟩, overlay words buffer)

def channel (u : MessagingUnit) : Channel σ where
  maxArgs := maxArgs
  transact := u.transact

end MessagingUnit
end PowerFirmware
