import PowerFirmware.Proofs.Suspend.Resuming

/-! An enclave and the memory that it shares.

The enclave answers a request as it likes, or the channel to it fails, and it writes to its memory whenever
it likes: both go by all that has been done before. What has been done is a `Machine`, so the enclave's
commands themselves run in it. -/

namespace PowerFirmware
namespace Enclave

/-- What is done to the enclave: its memory is handed to it or taken back, or a request is made. -/
inductive Dealing
  | prepare
  | request (x : Exchange)
  | complete

/-- The memory that the enclave shares, what it holds and what a request comes to, by what was done before. -/
structure Peer where
  busAddress : UInt64
  size : Nat
  maxArgs : Nat
  bytes : List Dealing → Vector UInt8 size
  answer : List Dealing → Request → Except ChannelError Response × List UInt32

/-- What has been done so far. -/
structure Dealings (p : Peer) where
  past : List Dealing

variable {p : Peer}

def Dealings.add (s : Dealings p) (L : List Dealing) : Dealings p := ⟨s.past ++ L⟩

@[simp] theorem Dealings.add_nil (s : Dealings p) : s.add [] = s := by simp [add]

@[simp] theorem Dealings.add_add (s : Dealings p) (L M : List Dealing) : (s.add L).add M = s.add (L ++ M) := by
  simp [add]

/-- The enclave's commands access no registers and read no clock but through their channel. -/
instance (p : Peer) : Machine (Dealings p) where
  load _ s := (0, s)
  store _ _ s := s
  loadByte _ s := (0, s)
  storeByte _ _ s := s
  tick s := (0, s)
  note _ _ s := s
  patience _ := 0

namespace Peer

/-- A request with what it comes to. -/
def exchange (p : Peer) (past : List Dealing) (q : Request) : Exchange := ⟨q, (p.answer past q).1, (p.answer past q).2⟩

def enclave (p : Peer) : Enclave (Dealings p) where
  channel :=
    { maxArgs := p.maxArgs
      transact := fun q buffer => Run.access fun s =>
        (((p.answer s.past q).1, overlay (p.answer s.past q).2 buffer), s.add [.request (p.exchange s.past q)]) }
  region :=
    { busAddress := p.busAddress
      size := p.size
      prepare := (·.add [.prepare])
      complete := (·.add [.complete])
      bytes := fun s => p.bytes s.past }

/-- A request comes to what it has to after what was done before. -/
def Yields (p : Peer) (past : List Dealing) : Dealing → Prop
  | .request x => x = p.exchange past x.request
  | _ => True

/-- These may be done one after the other. -/
def Allows (p : Peer) : List Dealing → List Dealing → Prop
  | _, [] => True
  | past, d :: L => p.Yields past d ∧ p.Allows (past ++ [d]) L

theorem allows_append {past L M : List Dealing} :
    p.Allows past (L ++ M) ↔ p.Allows past L ∧ p.Allows (past ++ L) M := by
  induction L generalizing past with
  | nil => simp [Allows]
  | cons d L ih => simp only [List.cons_append, Allows, ih, and_assoc, List.append_assoc, List.nil_append]

/-- A command is one request. -/
theorem command_eq {opcode : UInt32} {args : List UInt32} {n : Nat} (s : Dealings p) :
    p.enclave.command opcode args n s =
      (.ok ((verdict (p.exchange s.past ⟨opcode, args⟩).outcome).map fun _ =>
          overlay (p.exchange s.past ⟨opcode, args⟩).payload (Vector.replicate n 0)),
        s.add [.request (p.exchange s.past ⟨opcode, args⟩)]) := by
  have htransact : p.enclave.channel.transact ⟨opcode, args⟩ (Vector.replicate n 0) s =
      (.ok ((p.exchange s.past ⟨opcode, args⟩).outcome,
        overlay (p.exchange s.past ⟨opcode, args⟩).payload (Vector.replicate n 0)),
      s.add [.request (p.exchange s.past ⟨opcode, args⟩)]) := rfl
  refine (Run.bind_of_ok htransact).trans ?_
  generalize p.exchange s.past ⟨opcode, args⟩ = x
  obtain ⟨q, outcome, payload⟩ := x
  cases outcome with
  | error e => rfl
  | ok r =>
    show (if r.status != successStatus then _ else _ : Run (Dealings p) _) _ = _
    dsimp only [verdict]
    split <;> rfl

end Peer
end Enclave
end PowerFirmware
