import Mathlib.Algebra.Order.Floor.Div
import PowerFirmware.Proofs.Enclave.World

/-! How random bytes are delivered. Main statement: once the random source has been found ready the bytes
are those that the transfers bring, one after the other; if a transfer fails, all before it are in place
and the rest of the output is as it was (`random_delivers`). -/

namespace PowerFirmware
namespace Enclave
open Run

variable {p : Peer} {past L : List Dealing} {out rest : List UInt8} {o : Except Error Unit} {x : Exchange}

/-! ### Transfers -/

/-- What is done in a transfer that succeeds. -/
def transferred (x : Exchange) : List Dealing := [.prepare, .request x, .complete]

/-- The seeding state that is found with a request for it. -/
def stateFound (x : Exchange) : TrngState := .ofWord (x.payload.headD 0)

theorem isReady_iff {state : TrngState} : state.isReady = true ↔ state.trng = 3 ∧ state.csal = 2 := by
  rw [TrngState.isReady, Bool.and_eq_true, beq_iff_eq, beq_iff_eq]

namespace Peer

def randomRequest (p : Peer) : Request := ⟨getRandom, [0x2, p.busAddress.toUInt32, UInt32.ofNat transferSize]⟩

/-- Random bytes are asked for, and the enclave says that they are there. -/
structure Brings (p : Peer) (x : Exchange) : Prop where
  request : x.request = p.randomRequest
  outcome : verdict x.outcome = .ok ()

/-- What a transfer brings: the first bytes of the memory when it has been taken back. -/
def front (p : Peer) (past : List Dealing) : List UInt8 := (p.bytes past).toList.take transferSize

/-- What transfers bring one after the other. -/
def received (p : Peer) : List Dealing → List Exchange → List UInt8
  | _, [] => []
  | past, x :: xs => p.front (past ++ transferred x) ++ p.received (past ++ transferred x) xs

/-- How transfers fill `out` with what they bring: as many as it takes, or up to one that fails. -/
inductive Fills (p : Peer) (past : List Dealing) (out : List UInt8) :
    List Dealing → Except Error Unit → List UInt8 → Prop
  | whole {xs : List Exchange} : xs.length = out.length ⌈/⌉ transferSize → (∀ x ∈ xs, p.Brings x) →
      Fills p past out (xs.flatMap transferred) (.ok ()) ((p.received past xs).take out.length)
  | part {xs : List Exchange} {y : Exchange} {e : Error} : xs.length < out.length ⌈/⌉ transferSize →
      (∀ x ∈ xs, p.Brings x) → y.request = p.randomRequest → verdict y.outcome = .error e →
      Fills p past out (xs.flatMap transferred ++ [.prepare, .request y]) (.error e)
        (p.received past xs ++ out.drop (transferSize * xs.length))

theorem length_front (hsize : transferSize ≤ p.size) : (p.front past).length = transferSize := by
  rw [front, List.length_take, Vector.length_toList, Nat.min_eq_left hsize]

theorem length_received (hsize : transferSize ≤ p.size) : ∀ {xs : List Exchange} {past : List Dealing},
    (p.received past xs).length = transferSize * xs.length
  | [], _ => rfl
  | x :: xs, _ => by
    rw [received, List.length_append, length_front hsize, length_received hsize, List.length_cons, Nat.mul_succ,
      Nat.add_comm]

theorem ceilDiv_drop (hout : out ≠ []) :
    out.length ⌈/⌉ transferSize = (out.drop transferSize).length ⌈/⌉ transferSize + 1 := by
  have := List.length_pos_iff.mpr hout
  rw [Nat.ceilDiv_eq_add_pred_div, Nat.ceilDiv_eq_add_pred_div, List.length_drop, transferSize]
  omega

theorem Fills.none (h : out.length ⌈/⌉ transferSize = 0) :
    p.Fills past out [] (.ok ()) ((p.received past []).take out.length) :=
  @Fills.whole p past out [] h.symm fun _ hx => absurd hx List.not_mem_nil

theorem Fills.first (h : 0 < out.length ⌈/⌉ transferSize) (hrequest : x.request = p.randomRequest) {e : Error}
    (hfailed : verdict x.outcome = .error e) : p.Fills past out [.prepare, .request x] (.error e) out :=
  @Fills.part p past out [] x e h (fun _ hx => absurd hx List.not_mem_nil) hrequest hfailed

/-- What one transfer brings, and what the transfers after it make of the rest. -/
theorem Fills.cons (hsize : transferSize ≤ p.size) (hout : out ≠ []) (hx : p.Brings x)
    (h : p.Fills (past ++ transferred x) (out.drop transferSize) L o rest) :
    p.Fills past out (transferred x ++ L) o
      ((p.front (past ++ transferred x)).take (out.take transferSize).length ++ rest) := by
  have hceil := ceilDiv_drop hout
  have hfront : (p.front (past ++ transferred x)).length = transferSize := length_front hsize
  cases h with
  | @whole xs hcount hxs =>
    have hfilled : (p.front (past ++ transferred x)).take (out.take transferSize).length ++
        (p.received (past ++ transferred x) xs).take (out.drop transferSize).length =
        (p.received past (x :: xs)).take out.length := by
      rw [received, List.take_append, List.length_take, List.length_drop, ← hfront, Nat.min_comm,
        ← List.take_eq_take_min]
    rw [hfilled]
    refine Fills.whole ?_ (List.forall_mem_cons.mpr ⟨hx, hxs⟩)
    rw [List.length_cons, hcount, hceil]
  | @part xs y e hcount hxs hrequest hfailed =>
    -- Another transfer was due, so this one had its full length to fill.
    have hlong : (out.take transferSize).length = transferSize := by
      rw [Nat.ceilDiv_eq_add_pred_div, List.length_drop, transferSize] at hcount
      rw [List.length_take, transferSize]
      omega
    have hfilled : (p.front (past ++ transferred x)).take (out.take transferSize).length ++
        (p.received (past ++ transferred x) xs ++ (out.drop transferSize).drop (transferSize * xs.length)) =
        p.received past (x :: xs) ++ out.drop (transferSize * (x :: xs).length) := by
      rw [received, hlong, List.take_of_length_le (Nat.le_of_eq hfront), List.drop_drop, List.append_assoc,
        List.length_cons, Nat.mul_succ, Nat.add_comm transferSize]
    rw [hfilled, ← List.append_assoc]
    refine Fills.part ?_ (List.forall_mem_cons.mpr ⟨hx, hxs⟩) hrequest hfailed
    rw [List.length_cons, hceil]
    exact Nat.succ_lt_succ hcount

/-- What is not filled stays, so that the length does. -/
theorem Fills.length_eq (hsize : transferSize ≤ p.size) (h : p.Fills past out L o rest) : rest.length = out.length := by
  cases h with
  | whole hcount _ =>
    rw [Nat.ceilDiv_eq_add_pred_div, transferSize] at hcount
    rw [List.length_take, length_received hsize, transferSize]
    omega
  | part hcount _ _ _ =>
    rw [Nat.ceilDiv_eq_add_pred_div, transferSize] at hcount
    rw [List.length_append, length_received hsize, List.length_drop, transferSize]
    omega

/-! ### Runs -/

theorem trngState_eq (s : Dealings p) : p.enclave.trngState s =
    (.ok ((verdict (p.exchange s.past ⟨getTrngState, []⟩).outcome).map fun _ =>
        stateFound (p.exchange s.past ⟨getTrngState, []⟩)),
      s.add [.request (p.exchange s.past ⟨getTrngState, []⟩)]) := by
  refine (bind_of_ok (command_eq s)).trans ?_
  generalize p.exchange s.past ⟨getTrngState, []⟩ = x
  have hword : (overlay x.payload (Vector.replicate 1 0)).toList.headD 0 = x.payload.headD 0 := by
    cases x.payload <;> rfl
  rcases verdict x.outcome with _ | _
  · rfl
  · show (Except.ok (Except.ok (TrngState.ofWord ((overlay x.payload (Vector.replicate 1 0)).toList.headD 0))), _) = _
    rw [hword]
    rfl

theorem transfer_eq (s : Dealings p) (hx : x = p.exchange (s.past ++ [.prepare]) p.randomRequest) :
    p.enclave.transfer s = match verdict x.outcome with
      | .error e => (.ok (.error e), s.add [.prepare, .request x])
      | .ok _ => (.ok (.ok (p.front (s.past ++ transferred x))), s.add (transferred x)) := by
  have hprepare : Run.update p.enclave.region.prepare s = (.ok (), s.add [.prepare]) := rfl
  have hcommand : p.enclave.command getRandom [0x2, p.enclave.region.busAddress.toUInt32, UInt32.ofNat transferSize] 0
      (s.add [.prepare]) = (.ok ((verdict x.outcome).map fun _ => overlay x.payload (Vector.replicate 0 0)),
        s.add [.prepare, .request x]) := by
    rw [command_eq, s.add_add, hx]
    rfl
  refine (bind_of_ok hprepare).trans ((bind_of_ok hcommand).trans ?_)
  rcases verdict x.outcome with e | _
  · rfl
  · have hcomplete : Run.update p.enclave.region.complete (s.add [.prepare, .request x]) =
        (.ok (), s.add (transferred x)) := congrArg (Prod.mk _) (s.add_add _ _)
    have hfront : p.enclave.region.front transferSize (s.add (transferred x)) =
        (.ok (p.front (s.past ++ transferred x)), s.add (transferred x)) := by
      show (Except.ok ((p.bytes (s.past ++ transferred x)).take transferSize).toList, _) = _
      rw [Vector.toList_take, front]
    exact (bind_of_ok hcomplete).trans (bind_of_ok hfront)

theorem fill_fills (hsize : transferSize ≤ p.size) : ∀ {count : Nat} {out : List UInt8} (s : Dealings p),
    count = out.length ⌈/⌉ transferSize → ∃ L o out', p.enclave.fill count out s = (.ok (o, out'), s.add L) ∧
      p.Allows s.past L ∧ p.Fills s.past out L o out'
  | 0, out, s, hcount => by
    obtain rfl : out = [] := by
      by_contra hout
      rw [ceilDiv_drop hout] at hcount
      cases hcount
    exact ⟨[], .ok (), [], by rw [s.add_nil]; rfl, trivial, .none hcount.symm⟩
  | count + 1, out, s, hcount => by
    have hout : out ≠ [] := by
      rintro rfl
      rw [List.length_nil, zero_ceilDiv] at hcount
      cases hcount
    generalize hx : p.exchange (s.past ++ [.prepare]) p.randomRequest = x
    have htransfer := transfer_eq s hx.symm
    have hrequest : x.request = p.randomRequest := hx ▸ rfl
    have hyields : p.Yields (s.past ++ [.prepare]) (.request x) := hx ▸ rfl
    rcases hv : verdict x.outcome with e | _
    · rw [hv] at htransfer
      exact ⟨_, _, _, bind_of_ok htransfer, ⟨trivial, hyields, trivial⟩,
        .first (hcount ▸ Nat.succ_pos count) hrequest hv⟩
    · rw [hv] at htransfer
      rw [ceilDiv_drop hout] at hcount
      obtain ⟨L, o, rest, hfill, allowed, hfills⟩ := fill_fills hsize (s.add (transferred x)) (Nat.succ.inj hcount)
      refine ⟨transferred x ++ L, o, _, (bind_of_ok htransfer).trans ((bind_of_ok hfill).trans ?_), ?_,
        .cons hsize hout ⟨hrequest, hv⟩ hfills⟩
      · rw [s.add_add]
        rfl
      · exact allows_append.mpr ⟨⟨trivial, hyields, trivial, trivial⟩, allowed⟩

/-- There is something to fill, and the memory has room for a transfer. -/
structure Fits (p : Peer) (out : List UInt8) : Prop where
  nonempty : out ≠ []
  size : transferSize ≤ p.size

/-- How random bytes are delivered, and how that ends: not at all, up to the question for the seeding
    state, or by transfers. -/
inductive Delivers (p : Peer) (past : List Dealing) (out : List UInt8) :
    List Dealing → Except Error Unit → List UInt8 → Prop
  | refused : ¬p.Fits out → Delivers p past out [] (.error .invalidArgument) out
  | unanswered {x : Exchange} {e : Error} : p.Fits out → x.request = ⟨getTrngState, []⟩ →
      verdict x.outcome = .error e → Delivers p past out [.request x] (.error e) out
  | unready {x : Exchange} : p.Fits out → x.request = ⟨getTrngState, []⟩ → verdict x.outcome = .ok () →
      ¬((stateFound x).trng = 3 ∧ (stateFound x).csal = 2) →
      Delivers p past out [.request x] (.error (.notReady (stateFound x))) out
  | ready {x : Exchange} {L : List Dealing} {o : Except Error Unit} {filled : List UInt8} : p.Fits out →
      x.request = ⟨getTrngState, []⟩ → verdict x.outcome = .ok () → (stateFound x).trng = 3 → (stateFound x).csal = 2 →
      p.Fills (past ++ [.request x]) out L o filled → Delivers p past out (.request x :: L) o filled

/-- Random bytes for an output of any length, whatever the enclave answers and writes to its memory. An
    empty output, or a memory without room for a transfer, is refused with nothing done. Otherwise the
    seeding state is asked for once, and the output is left alone unless both generators are ready. As many
    transfers as the output takes then fill it with what they bring, the last of them cut to what is left;
    the first one that fails is the last, all before it are in place, and the rest of the output is as it
    was. -/
theorem random_delivers (p : Peer) (out : List UInt8) (s : Dealings p) :
    ∃ L o filled, p.enclave.random out s = (.ok (o, filled), s.add L) ∧ p.Allows s.past L ∧
      p.Delivers s.past out L o filled ∧ filled.length = out.length := by
  by_cases hfits : p.Fits out
  · have hgo : ¬(out.isEmpty || p.enclave.region.size < transferSize) = true := by
      simpa using ⟨hfits.nonempty, hfits.size⟩
    have hstate := trngState_eq s
    have hrequest : (p.exchange s.past ⟨getTrngState, []⟩).request = ⟨getTrngState, []⟩ := rfl
    have hyields : p.Yields s.past (.request (p.exchange s.past ⟨getTrngState, []⟩)) := rfl
    generalize p.exchange s.past ⟨getTrngState, []⟩ = x at hstate hrequest hyields
    rw [random, if_neg hgo]
    rcases hv : verdict x.outcome with e | _
    · rw [hv] at hstate
      exact ⟨_, _, _, bind_of_ok hstate, ⟨hyields, trivial⟩, .unanswered hfits hrequest hv, rfl⟩
    · rw [hv] at hstate
      by_cases hseeded : (stateFound x).isReady = true
      · have hcount : transfers out.length = out.length ⌈/⌉ transferSize := (Nat.ceilDiv_eq_add_pred_div ..).symm
        obtain ⟨L, o, filled, hfill, allowed, hfills⟩ := fill_fills hfits.size (s.add [.request x]) hcount
        refine ⟨.request x :: L, o, filled, ?_, ⟨hyields, allowed⟩, ?_, hfills.length_eq hfits.size⟩
        · refine (bind_of_ok hstate).trans ?_
          dsimp only [Except.map]
          rw [if_pos hseeded, hfill, s.add_add]
          rfl
        · obtain ⟨htrng, hcsal⟩ := isReady_iff.mp hseeded
          exact .ready hfits hrequest hv htrng hcsal hfills
      · refine ⟨[.request x], _, out, (bind_of_ok hstate).trans ?_, ⟨hyields, trivial⟩,
          .unready hfits hrequest hv (mt isReady_iff.mpr hseeded), rfl⟩
        dsimp only [Except.map]
        rw [if_neg hseeded]
        rfl
  · have hstop : (out.isEmpty || p.enclave.region.size < transferSize) = true := by
      rw [Bool.or_eq_true, List.isEmpty_iff, decide_eq_true_eq]
      by_contra hneither
      rw [not_or, Nat.not_lt] at hneither
      exact hfits ⟨hneither.1, hneither.2⟩
    refine ⟨[], _, out, ?_, trivial, .refused hfits, rfl⟩
    rw [random, if_pos hstop, s.add_nil]
    rfl

/-- A channel that fails at the second transfer, and a memory that counts what was done to it. -/
def failing : Peer where
  busAddress := 0x90000000
  size := 64
  maxArgs := 4
  bytes past := Vector.replicate 64 past.length.toUInt8
  answer past q :=
    if q.opcode = getTrngState then (.ok ⟨0, successStatus, 1⟩, [0x203])
    else if past.length < 4 then (.ok ⟨0, successStatus, 0⟩, [])
    else (.error .transport, [])

example : (failing.enclave.random (List.replicate 20 0xff) ⟨[]⟩).1 =
    .ok (.error (.channel .transport), List.replicate 16 4 ++ List.replicate 4 0xff) := rfl

end Peer
end Enclave
end PowerFirmware
