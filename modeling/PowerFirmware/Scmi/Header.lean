/-! The header word of a system-management message. -/

namespace PowerFirmware.Scmi

/-- What a header names: the protocol, the message of that protocol, and the token that tells one
    request from the next. -/
structure Header where
  protocol : UInt8
  message : UInt8
  token : BitVec 10
  deriving DecidableEq, Repr

namespace Header

/-- The header of a command: its message type, in the two bits above the message, is zero. -/
def encode (h : Header) : UInt32 :=
  h.message.toUInt32 ||| (h.protocol.toUInt32 <<< 10) |||
    (UInt32.ofBitVec (h.token.setWidth 32) <<< 18)

/-- The message type is not looked at. -/
def decode (w : UInt32) : Header where
  protocol := (w >>> 10).toUInt8
  message := w.toUInt8
  token := (w >>> 18).toBitVec.setWidth 10

end Header
end PowerFirmware.Scmi
