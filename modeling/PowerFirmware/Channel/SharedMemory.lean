import PowerFirmware.Channel.Basic
import PowerFirmware.Text

/-! Requests through an area of shared memory, announced by a doorbell.

The free bit of the status word says who owns the area: the agent while it is set, the platform
after the agent has cleared it and rung. The request header and its arguments stand in the area in
the place where the response header, its status and its payload are found afterwards. -/

namespace PowerFirmware

/-- A shared area at an address, the doorbell register that announces a request in it, and how long
    each wait for the area may last. -/
structure SharedMemory where
  area : Nat
  doorbell : Nat
  budget : PollBudget := .millis 100

namespace SharedMemory
variable {σ : Type} [Machine σ]

/-- Words of payload that the area holds, the status word of a response included. -/
def maxWords : Nat := 32

def freeBit : UInt32 := 0x1
def errorBit : UInt32 := 0x2

/-- The request bit of the doorbell register. -/
def ringBit : UInt32 := 0x1

/-- A shared area with the doorbell of the messaging unit at `unit`, if that has an address of
    sixty-four bits. -/
def ofUnit? (area unit : Nat) (budget : PollBudget) : Option SharedMemory :=
  let doorbell := unit + 0x114
  if doorbell < UInt64.size then some { area, doorbell, budget } else none

def status (c : SharedMemory) : Nat := c.area + 0x04
def flags (c : SharedMemory) : Nat := c.area + 0x10
def length (c : SharedMemory) : Nat := c.area + 0x14
def header (c : SharedMemory) : Nat := c.area + 0x18
def payload (c : SharedMemory) (i : Nat) : Nat := c.area + 0x1c + 4 * i

def isFree (c : SharedMemory) : Run σ Bool := do
  return (← read32 c.status) &&& freeBit != 0

/-- Puts the request into the area, hands the area over and rings. -/
def send (c : SharedMemory) (request : Request) : Run σ Unit := do
  write32 c.flags 0
  write32 c.length (UInt32.ofNat (4 * (1 + request.args.length)))
  write32 c.header request.opcode
  writeWords (c.payload 0) request.args
  write32 c.status 0
  setBits32 c.doorbell ringBit

/-- Takes the response out of the area. Its length word counts the bytes of header, status and
    payload; what exceeds the area is not believed, and a response without status is malformed. -/
def collect (c : SharedMemory) {n : Nat} (buffer : Vector UInt32 n) : Run σ (Delivery n) := do
  if (← read32 c.status) &&& errorBit != 0 then
    return (.error .transport, buffer)
  else
    let words := min ((← read32 c.length).toNat / 4) (1 + maxWords)
    if words < 2 then
      return (.error .transport, buffer)
    else
      let header ← read32 c.header
      let status ← read32 (c.payload 0)
      let length := min n (words - 2)
      let words ← readWords (c.payload 1) length
      return (.ok ⟨header, status, length⟩, overlay words buffer)

def transact (c : SharedMemory) {n : Nat} (request : Request) (buffer : Vector UInt32 n) :
    Run σ (Delivery n) := do
  if maxWords < request.args.length then
    return (.error (.tooManyArgs request.args.length maxWords), buffer)
  else
    match ← pollUntil c.budget c.isFree with
    | .error t =>
      log .warn s!"SMT {Text.hex c.area}: channel never released"
      return (.error (.timeout t), buffer)
    | .ok () =>
      c.send request
      match ← pollUntil c.budget c.isFree with
      | .error t =>
        log .warn s!"SMT {Text.hex c.area}: no response to {Text.hexWord request.opcode}"
        return (.error (.timeout t), buffer)
      | .ok () => c.collect buffer

def channel (c : SharedMemory) : Channel σ where
  maxArgs := maxWords
  transact := c.transact

end SharedMemory
end PowerFirmware
