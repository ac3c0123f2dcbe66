import PowerFirmware.Bench.Journal
import PowerFirmware.Channel.Basic
import PowerFirmware.Scmi.Header

/-! A remote side that answers requests by a script. -/

namespace PowerFirmware.Bench

/-- A scripted reply. Without a header it repeats the request's opcode. -/
structure Reply where
  header : Option UInt32 := none
  status : UInt32 := 0
  payload : List UInt32 := []
  deriving DecidableEq, Repr

/-- A reply to all requests that agree with each condition that is given. A condition is a number of
    any size, so one that is too large for its field is met by no request. -/
structure ReplyRule where
  opcode : Option Nat := none
  protocol : Option Nat := none
  message : Option Nat := none
  firstArg : Option Nat := none
  reply : Reply := {}
  deriving DecidableEq, Repr

/-- Whether a condition is not given or holds of what is found. -/
def agrees (condition found : Option Nat) : Bool :=
  condition.isNone || condition == found

def ReplyRule.applies (r : ReplyRule) (q : Request) : Bool :=
  let header := Scmi.Header.decode q.opcode
  agrees r.opcode (some q.opcode.toNat) && agrees r.protocol (some header.protocol.toNat) &&
    agrees r.message (some header.message.toNat) &&
    agrees r.firstArg (q.args.head?.map UInt32.toNat)

/-- Replies and failures for the next requests, rules for the requests after these, and the requests
    so far. -/
structure Responder where
  queue : List (Except ChannelError Reply) := []
  rules : List ReplyRule := []
  requests : Journal Request := {}

namespace Responder

/-- What is answered to a request whose caller has room for `room` words: the next entry of the queue,
    or the first rule that applies, or success with zeros. -/
def answer (r : Responder) (q : Request) (room : Nat) : Except ChannelError Reply × Responder :=
  let r := { r with requests := r.requests.push q }
  match r.queue with
  | entry :: rest => (entry, { r with queue := rest })
  | [] =>
    match r.rules.find? (·.applies q) with
    | some rule => (.ok rule.reply, r)
    | none => (.ok { payload := List.replicate room 0 }, r)

/-- A transaction with the remote side over a transport for `maxArgs` argument words. A request that
    does not fit is not seen by the remote side. -/
def transact (r : Responder) (maxArgs : Nat) {n : Nat} (q : Request) (buffer : Vector UInt32 n) :
    Delivery n × Responder :=
  if maxArgs < q.args.length then
    ((.error (.tooManyArgs q.args.length maxArgs), buffer), r)
  else
    match r.answer q n with
    | (.error e, r) => ((.error e, buffer), r)
    | (.ok reply, r) =>
      ((.ok ⟨reply.header.getD q.opcode, reply.status, min n reply.payload.length⟩,
        overlay reply.payload buffer), r)

end Responder
end PowerFirmware.Bench
