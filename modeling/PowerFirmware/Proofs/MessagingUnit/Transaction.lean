import PowerFirmware.Channel.MessagingUnit
import PowerFirmware.Proofs.Accesses

/-! A transaction through a messaging unit, register by register, whatever the registers yield. Main
statements: the ways a transaction goes (`doesOr_transact`), and that one that succeeds writes each word of
the request once, waits until header and status have arrived, and then reads each word of the response once
(`transact_registers`).

A read of a receive register takes its word away, so the accesses are told in full and not by what they
leave in the registers. -/

namespace PowerFirmware
namespace MessagingUnit
open Cells Run

variable {κ : Type} {env : Environment κ} {u : MessagingUnit} {q : Request} {n rounds : Nat} {buffer : Vector UInt32 n}
variable {F : List (Event κ) → Prop} {L : List (Event κ)} {d : Delivery n} {header status : UInt32} {payload : List UInt32}

/-! ### The ways a transaction goes -/

/-- A look at the status of the receive registers that finds both header and status. -/
def ready (w : UInt32) : Bool := w &&& readyMask == readyMask

/-- The command and its arguments, one to each transmit register. -/
def sentCells (u : MessagingUnit) (q : Request) : List Cell := (q.opcode :: q.args).mapIdx fun i w => (u.transmit i, w)

/-- The header, the status and the payload of a response, one from each receive register. -/
def receivedCells (u : MessagingUnit) (header status : UInt32) (payload : List UInt32) : List Cell :=
  (header :: status :: payload).mapIdx fun i w => (u.receive i, w)

/-- A whole transaction: what it accesses, and what it delivers. -/
inductive Transacts (u : MessagingUnit) (q : Request) (buffer : Vector UInt32 n) : List (Event κ) → Delivery n → Prop
  | tooMany : maxArgs < q.args.length → Transacts u q buffer [] (.error (.tooManyArgs q.args.length maxArgs), buffer)
  | silent {L : List (Event κ)} {t : PollTimeout} : q.args.length ≤ maxArgs →
      Waited u.budget u.receiveStatus ready L (.error t) →
      Transacts u q buffer (writes (u.sentCells q) ++ L) (.error (.timeout t), buffer)
  | answered {L : List (Event κ)} {header status : UInt32} {payload : List UInt32} : q.args.length ≤ maxArgs →
      Waited u.budget u.receiveStatus ready L (.ok ()) → payload.length = min n maxPayload →
      Transacts u q buffer (writes (u.sentCells q) ++ (L ++ reads (u.receivedCells header status payload)))
        (.ok ⟨header, status, payload.length⟩, overlay payload buffer)

/-- A transaction that waits for its response without end. -/
inductive Stalls (u : MessagingUnit) (q : Request) (rounds : Nat) : List (Event κ) → Prop
  | silent {L : List (Event κ)} : q.args.length ≤ maxArgs → Waiting u.budget u.receiveStatus ready (rounds + 1) L →
      Stalls u q rounds (writes (u.sentCells q) ++ L)

theorem sentCells_eq : u.sentCells q = (u.transmit 0, q.opcode) :: adjacent (u.transmit 1) q.args := by
  rw [sentCells, List.mapIdx_cons, adjacent_eq_mapIdx]
  refine congrArg _ (List.mapIdx_eq_mapIdx_iff.mpr fun i hi => ?_)
  simp only [transmit, Prod.mk.injEq, and_true]
  omega

theorem receivedCells_eq : u.receivedCells header status payload =
    (u.receive 0, header) :: (u.receive 1, status) :: adjacent (u.receive 2) payload := by
  rw [receivedCells, List.mapIdx_cons, List.mapIdx_cons, adjacent_eq_mapIdx]
  refine congrArg (_ :: _ :: ·) (List.mapIdx_eq_mapIdx_iff.mpr fun i hi => ?_)
  simp only [receive, Prod.mk.injEq, and_true]
  omega

theorem doesOr_transact : DoesOr (E := env) (Stalls u q env.patience) (u.transact q buffer)
    fun d L => Transacts u q buffer L d := by
  unfold transact
  split
  · rename_i hq
    exact .pure (.tooMany hq)
  · rename_i hq
    replace hq := Nat.le_of_not_lt hq
    refine .bind (.write (.bind (DoesOr.writeWords.imp ?_ fun _ h => h)))
    rintro _ _ rfl
    refine .bind (doesOr_wait ready (fun o L hL => ?_) fun L hL => ?_)
    · cases o with
      | error t => exact .bind (.log (.pure (by simpa [sentCells_eq, writes] using Transacts.silent hq hL)))
      | ok _ =>
        refine .bind (.read fun header => .bind (.read fun status => .bind (DoesOr.readWords.imp ?_ fun _ h => h)))
        rintro payload _ ⟨hpayload, rfl⟩
        rw [← hpayload]
        refine .bind (.log (.pure ?_))
        simpa [sentCells_eq, receivedCells_eq, writes, reads] using Transacts.answered hq hL hpayload
    · simpa [sentCells_eq, writes] using Stalls.silent hq hL

/-! ### What is read, and when -/

theorem receive_ne_receiveStatus {i : Nat} : u.receive i ≠ u.receiveStatus := by
  simp only [receive, receiveStatus]
  omega

/-- Until the response has arrived, nothing is read but the status of the receive registers. -/
theorem read_waiting {M : List (Event κ)} (hM : Watches u.receiveStatus M) {a : Nat} {w : UInt32}
    (h : .read a w ∈ writes (u.sentCells q) ++ M) : a = u.receiveStatus ∧ .read a w ∈ M := by
  rcases List.mem_append.mp h with h | h
  · simp [writes] at h
  · rcases hM _ h with ⟨_, heq⟩ | ⟨_, heq⟩ <;> cases heq
    exact ⟨rfl, h⟩

theorem read_received {a : Nat} {w : UInt32}
    (h : .read a w ∈ (reads (u.receivedCells header status payload) : List (Event κ))) :
    ∃ i < 2 + payload.length, a = u.receive i := by
  obtain ⟨⟨b, v⟩, hcell, heq⟩ := List.mem_map.mp h
  cases heq
  obtain ⟨i, hi, heq⟩ := List.mem_mapIdx.mp hcell
  simp only [List.length_cons] at hi
  exact ⟨i, by omega, (congrArg Prod.fst heq).symm⟩

/-- Header and status have been seen to have arrived. -/
def Arrived (u : MessagingUnit) (L : List (Event κ)) : Prop :=
  ∃ w, .read u.receiveStatus w ∈ L ∧ w &&& readyMask = readyMask

/-- Receive registers are read only once the response has arrived, and only as many as the caller has asked
    for with header and status. -/
def Sparing (u : MessagingUnit) (n : Nat) (L : List (Event κ)) : Prop :=
  ∀ before w after i, L = before ++ .read (u.receive i) w :: after → u.Arrived before ∧ i < 2 + min n maxPayload

theorem arrived_of_waited (h : Waited u.budget u.receiveStatus ready L (.ok ())) : u.Arrived L := by
  obtain ⟨w, hw, hready⟩ := h.polled.exists_seen
  exact ⟨w, hw, by simpa [ready] using hready⟩

theorem not_arrived {M : List (Event κ)} (hM : Watches u.receiveStatus M)
    (h : ∀ w, .read u.receiveStatus w ∈ M → ready w = false) : ¬u.Arrived (writes (u.sentCells q) ++ M) := by
  rintro ⟨w, hw, hready⟩
  have := h w (read_waiting hM hw).2
  simp [ready, hready] at this

theorem sparing_waiting {M : List (Event κ)} (hM : Watches u.receiveStatus M) :
    u.Sparing n (writes (u.sentCells q) ++ M) := by
  intro before w after i heq
  have hread : .read (u.receive i) w ∈ writes (u.sentCells q) ++ M := by
    rw [heq]
    exact List.mem_append_right before List.mem_cons_self
  exact absurd (read_waiting hM hread).1 receive_ne_receiveStatus

theorem Transacts.sparing (h : Transacts u q buffer L d) : u.Sparing n L := by
  cases h with
  | tooMany => exact fun before w after i heq => by simp at heq
  | silent _ hL => exact sparing_waiting hL.watches
  | @answered L header status payload _ hL hpayload =>
    intro before w after i heq
    -- Up to the look that ends the wait no receive register is read, so all of that comes before this read.
    have hfirst : ∀ e ∈ writes (u.sentCells q) ++ L, ¬∃ i w, e = .read (u.receive i) w := by
      rintro e he ⟨i, w, rfl⟩
      exact receive_ne_receiveStatus (read_waiting hL.watches he).1
    rw [← List.append_assoc] at heq
    obtain ⟨rest, rfl⟩ := prefix_of_split hfirst heq ⟨i, w, rfl⟩
    rw [List.append_assoc _ rest, List.append_cancel_left_eq] at heq
    obtain ⟨w', hw', hready⟩ := arrived_of_waited hL
    refine ⟨⟨w', by simp [hw'], hready⟩, ?_⟩
    have hread : .read (u.receive i) w ∈ (reads (u.receivedCells header status payload) : List (Event κ)) := by
      rw [heq]
      exact List.mem_append_right rest List.mem_cons_self
    obtain ⟨j, hj, hi⟩ := read_received hread
    simp only [receive] at hi
    omega

/-- Whatever the registers yield, a transaction succeeds exactly if it sees header and status arrive. It has
    then written the command and its arguments to the transmit registers in order, has looked at the status
    of the receive registers until both were there in one look, and has read header, status and payload from
    the receive registers in order, the payload as far as there are registers and room in the caller's
    buffer. They are what it delivers, and the rest of the buffer is left alone. However it ends, no receive
    register is read before the response has arrived, and none beyond that payload. It goes on without end only
    in a wait for the response that never gives up. -/
theorem transact_registers (u : MessagingUnit) (q : Request) {n : Nat} (buffer : Vector UInt32 n)
    (past : History env) :
    ∃ L outcome, u.transact q buffer past = (outcome, past.add L) ∧ env.Allows past.events L ∧
      ((∃ r words, outcome = .ok (.ok r, words)) ↔ u.Arrived L) ∧ u.Sparing n L ∧
      (∀ fault, outcome = .error fault → fault = .hung ∧ Stalls u q env.patience L) ∧
      ∀ r words, outcome = .ok (.ok r, words) → ∃ looks times m payload, q.args.length ≤ maxArgs ∧
        L = writes (u.sentCells q) ++ (failedLooks u.budget u.receiveStatus looks times m ++
          .read u.receiveStatus (looks m) :: reads (u.receivedCells r.header r.status payload)) ∧
        (∀ i < m, looks i &&& readyMask ≠ readyMask) ∧ looks m &&& readyMask = readyMask ∧
        payload.length = min n maxPayload ∧ r.length = payload.length ∧
        ∀ i (hi : i < n), words[i] = payload.getD i buffer[i] := by
  obtain ⟨L, outcome, heq, allowed, hend⟩ := DoesOr.outcome (x := u.transact q buffer) doesOr_transact past
  refine ⟨L, outcome, heq, allowed, ?_, ?_, ?_, ?_⟩
  · rcases hend with ⟨rfl, hL⟩ | ⟨d, rfl, hL⟩
    · cases hL with
      | silent _ hL => exact iff_of_false nofun (not_arrived hL.watches fun w hw => hL.unseen hw)
    · cases hL with
      | tooMany => exact iff_of_false nofun fun ⟨_, hw, _⟩ => List.not_mem_nil hw
      | silent _ hL => exact iff_of_false nofun (not_arrived hL.watches fun w hw => hL.polled.unseen hw)
      | answered _ hL _ =>
        obtain ⟨w, hw, hready⟩ := arrived_of_waited hL
        exact iff_of_true ⟨_, _, rfl⟩ ⟨w, by simp [hw], hready⟩
  · rcases hend with ⟨-, hL⟩ | ⟨d, -, hL⟩
    · cases hL with
      | silent _ hL => exact sparing_waiting hL.watches
    · exact hL.sparing
  · rintro fault rfl
    rcases hend with ⟨hhung, hL⟩ | ⟨d, hd, -⟩
    · exact ⟨Except.error.inj hhung, hL⟩
    · cases hd
  · rintro r words rfl
    rcases hend with ⟨hhung, -⟩ | ⟨d, hd, hL⟩
    · cases hhung
    · cases hd
      cases hL with
      | @answered L header status payload hq hL hpayload =>
        cases hL with
        | @intro looks times m _ hends =>
          cases hends with
          | found hfound hmissed _ =>
            refine ⟨looks, times, m, payload, hq, by simp, fun i hi => ?_, ?_, hpayload, rfl, fun i hi => ?_⟩
            · simpa [ready] using hmissed i hi
            · simpa [ready] using hfound
            · exact getElem_overlay payload buffer hi

/-- The unit of the channel to the enclave. -/
def enclaveUnit : MessagingUnit := { base := Layout.enclaveUnit, budget := .within 1000 }

/-- The header arrives first and then the status, and every receive register yields its own address. -/
def arriving : Environment Unit where
  load L a := if a = enclaveUnit.receiveStatus then if L.any Event.isRead then 0x3 else 0x1 else UInt32.ofNat a
  tick _ := 0
  manager _ _ := (.error .transport, [])
  enclave _ _ := (.error .transport, [])
  saveGic _ k := k
  enableMask _ _ := 0
  core := 0
  patience := 2
  budget := .within 0

/-- There is room for one word more than there are receive registers. -/
theorem transact_registers_arriving : ∃ L looks times m payload,
    enclaveUnit.transact ⟨0x17, [1, 2]⟩ (Vector.replicate 7 0) ⟨[]⟩ = (.ok (.ok ⟨0x47540280, 0x47540284, 6⟩,
      #v[0x47540288, 0x4754028c, 0x47540290, 0x47540294, 0x47540298, 0x4754029c, 0]), (⟨[]⟩ : History arriving).add L) ∧
    L = writes [(0x47540200, 0x17), (0x47540204, 1), (0x47540208, 2)] ++
      (failedLooks enclaveUnit.budget 0x4754012c looks times m ++
        .read 0x4754012c (looks m) :: reads (enclaveUnit.receivedCells 0x47540280 0x47540284 payload)) ∧
    looks m &&& readyMask = readyMask ∧ payload.length = 6 := by
  obtain ⟨L, outcome, heq, -, -, -, -, hdelivered⟩ :=
    transact_registers enclaveUnit ⟨0x17, [1, 2]⟩ (Vector.replicate 7 0) (⟨[]⟩ : History arriving)
  have hrun : (enclaveUnit.transact ⟨0x17, [1, 2]⟩ (Vector.replicate 7 0) (⟨[]⟩ : History arriving)).1 =
      .ok (.ok ⟨0x47540280, 0x47540284, 6⟩,
        #v[0x47540288, 0x4754028c, 0x47540290, 0x47540294, 0x47540298, 0x4754029c, 0]) := by decide +kernel
  rw [heq] at hrun
  obtain rfl : outcome = _ := hrun
  obtain ⟨looks, times, m, payload, -, hL, -, hready, hpayload, -⟩ := hdelivered _ _ rfl
  exact ⟨L, looks, times, m, payload, heq, hL, hready, hpayload⟩

end MessagingUnit
end PowerFirmware
