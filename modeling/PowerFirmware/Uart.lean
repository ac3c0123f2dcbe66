import PowerFirmware.Poll

/-! Sending bytes through a serial line that an earlier stage has configured. -/

namespace PowerFirmware

/-- A serial line at a base address. -/
structure Uart where
  base : Nat

namespace Uart
variable {σ : Type} [Machine σ]

def status (u : Uart) : Nat := u.base + 0x14
def data (u : Uart) : Nat := u.base + 0x1c

/-- The data register can take a byte. -/
def transmitReady : UInt32 := 0x800000

/-- Waits, however long it takes, until the line can take a byte, and sends it. -/
def send (u : Uart) (b : UInt8) : Run σ Unit := do
  spinUntil (do return (← read32 u.status) &&& transmitReady != 0)
  write32 u.data b.toUInt32

/-- Sends bytes as text: a line feed is preceded by a carriage return. -/
def sendText (u : Uart) (bytes : List UInt8) : Run σ Unit :=
  bytes.forM fun b => do
    if b == 0x0a then u.send 0x0d
    u.send b

/-- Writes to the console, if there is one yet. -/
def write (console : Option Uart) (bytes : List UInt8) : Run σ Unit :=
  match console with
  | some u => u.sendText bytes
  | none => return ()

end Uart
end PowerFirmware
