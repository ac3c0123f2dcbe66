import PowerFirmware.Proofs.Limits.Devices
import PowerFirmware.Proofs.Operations

/-! How long requests get. Main statements: a request of the agent whose table is not too long has at most
thirty-two argument words (`length_args_le`, `room_le`), and so an operation of the agent comes upon no limit
of its channel (`Operation.meets_run`); a command to the enclave has at most three (`Enclave.ends_command`). -/

namespace PowerFirmware
open Run

variable {σ : Type} [Machine σ]

namespace Scmi

/-! ### The agent -/

namespace Command

/-- The argument words that a request of the command's kind has room for. -/
def room : Command → Nat
  | irqWakeSet .. => 3 + 16
  | domainPolicySet .. => 2 + 3 * 8
  | peripheralPolicySet .. => 2 + 2 * 15
  | _ => 5

theorem length_flatMap_words {α : Type} {words : α → List UInt32} {width : Nat} {table : List α}
    (h : ∀ e, (words e).length = width) : (table.flatMap words).length = table.length * width := by
  simp [List.length_flatMap, h]

theorem length_args_le {c : Command} (h : c.fits = true) : c.args.length ≤ c.room := by
  cases c with
  | irqWakeSet cpu index masks =>
    have hmasks : masks.length ≤ 16 := of_decide_eq_true h
    simp only [args, room, List.length_cons]
    omega
  | domainPolicySet cpu table =>
    have htable : table.length ≤ 8 := of_decide_eq_true h
    have hwords : (table.flatMap DomainPolicy.words).length = table.length * 3 := length_flatMap_words fun _ => rfl
    simp only [args, room, List.length_cons, hwords]
    omega
  | peripheralPolicySet cpu table =>
    have htable : table.length ≤ 15 := of_decide_eq_true h
    have hwords : (table.flatMap PeripheralPolicy.words).length = table.length * 2 := length_flatMap_words fun _ => rfl
    simp only [args, room, List.length_cons, hwords]
    omega
  | _ => simp [args, room, LittleEndian.halves]

theorem room_le (c : Command) : c.room ≤ SharedMemory.maxWords := by
  cases c <;> simp [room, SharedMemory.maxWords]

end Command

/-- The failure is not the channel's own limit. -/
def Error.FromOutside : Error → Prop
  | .channel e => e.FromOutside
  | _ => True

variable {channel : Channel σ} {c : Command} {r : Response}

theorem ends_accept :
    InRange (Client.accept c r : Run σ (Except Error Unit)) (Ends Error.FromOutside fun _ => True) := by
  refine .ite (.bind .update fun _ _ => .pure trivial) ?_
  refine .ite (.bind .update fun _ _ => .pure trivial) ?_
  exact .ite (.pure trivial) (.pure trivial)

/-- A table that is not too long is sent, and what is sent is not too long. -/
theorem meets_call (hchannel : channel.Admits SharedMemory.maxWords) (hfits : c.fits = true) :
    Meets (fun _ => True) Error.FromOutside (Client.call channel c) fun _ => True := by
  have hlength : c.args.length ≤ SharedMemory.maxWords := Nat.le_trans (Command.length_args_le hfits) c.room_le
  have htoken : Meets (fun _ => True) Error.FromOutside (Client.takeToken : Call σ (BitVec 10)) fun _ => True :=
    .bind .get fun _ _ => .bind (.set trivial) fun _ _ => .pure trivial
  rw [Client.call, hfits]
  refine .bind htoken fun token _ => .bind (.run (hchannel _ _ hlength)) ?_
  rintro ⟨e | r, words⟩ h
  · exact .throw h
  · refine .bind (.run ends_accept) fun o ho => ?_
    cases o with
    | error e => exact .throw ho
    | ok _ => exact .pure trivial

/-- A query makes something of the words that come back. -/
theorem meets_query {α : Type} {g : Vector UInt32 c.replyWords → α} (hchannel : channel.Admits SharedMemory.maxWords)
    (hfits : c.fits = true) : Meets (fun _ => True) Error.FromOutside
      (Client.call channel c >>= fun words => pure (g words)) fun _ => True :=
  .bind (meets_call hchannel hfits) fun _ _ => .pure trivial

theorem Operation.meets_run {op : Operation} (hchannel : channel.Admits SharedMemory.maxWords)
    (hfits : op.command.fits = true) : Meets (fun _ => True) Error.FromOutside (op.run channel) fun _ => True := by
  cases op with
  | perform c => exact .bind (meets_call hchannel hfits) fun _ _ => .pure trivial
  | baseAttributes | discoverAgent | powerState | cpuInfo | machineCount =>
    exact .bind (meets_query hchannel hfits) fun _ _ => .pure trivial

/-- A table that is too long is refused, and nothing else is done. -/
theorem Operation.run_of_tooLong {op : Operation} (h : op.command.fits = false) (a : Client) (s : σ) :
    (op.run channel).run.run a s = (.ok (.error (.status .invalidParameters), a), s) := by
  cases op with
  | perform c =>
    have hcall : Client.call channel c a s = (.ok (.error (.status .invalidParameters), a), s) := by
      have hfits : c.fits = false := h
      rw [Client.call, hfits]
      rfl
    exact bind_of_failure hcall
  | baseAttributes | discoverAgent | powerState | cpuInfo | machineCount => cases h

end Scmi

/-! ### The enclave -/

namespace Enclave
variable {e : Enclave σ}

/-- The failure is not the channel's own limit. -/
def Error.FromOutside : Error → Prop
  | .channel e => e.FromOutside
  | _ => True

theorem ends_command {opcode : UInt32} {args : List UInt32} {payload : Nat}
    (hchannel : e.channel.Admits MessagingUnit.maxArgs) (hargs : args.length ≤ MessagingUnit.maxArgs) :
    InRange (e.command opcode args payload) (Ends Error.FromOutside fun _ => True) := by
  refine .bind (hchannel _ _ hargs) ?_
  rintro ⟨failure | r, words⟩ h
  · exact .pure h
  · exact .bind .update fun _ _ => .ite (.pure trivial) (.pure trivial)

omit [Machine σ] in
/-- A region has the bytes that its size says. -/
theorem inRange_front {region : DmaRegion σ} {count : Nat} (h : count ≤ region.size) :
    InRange (region.front count) fun bytes => bytes.length = count :=
  .view fun s => by simp [Nat.min_eq_left h]

theorem ends_socInfo (hchannel : e.channel.Admits MessagingUnit.maxArgs) : InRange e.socInfo
    (Ends Error.FromOutside fun info => ∃ bytes, bytes.length = SocInfo.size ∧ info = .ofBytes bytes) := by
  unfold socInfo
  split
  · exact .pure trivial
  · rename_i hsize
    refine .bind .update fun _ _ => .bind (ends_command hchannel (Nat.le_succ 3)) fun o ho => ?_
    cases o with
    | error failure => exact .pure ho
    | ok _ =>
      refine .bind .update fun _ _ => .bind (inRange_front (Nat.le_of_not_lt hsize)) fun bytes hbytes => ?_
      exact .bind .update fun _ _ => .pure ⟨bytes, hbytes, rfl⟩

theorem ends_trngState (hchannel : e.channel.Admits MessagingUnit.maxArgs) :
    InRange e.trngState (Ends Error.FromOutside fun _ => True) := by
  refine .bind (ends_command hchannel (Nat.zero_le _)) fun o ho => ?_
  cases o with
  | error failure => exact .pure ho
  | ok _ => exact .pure trivial

theorem ends_transfer (hchannel : e.channel.Admits MessagingUnit.maxArgs) (hsize : transferSize ≤ e.region.size) :
    InRange e.transfer (Ends Error.FromOutside fun bytes => bytes.length = transferSize) := by
  refine .bind .update fun _ _ => .bind (ends_command hchannel (Nat.le_succ 3)) fun o ho => ?_
  cases o with
  | error failure => exact .bind .update fun _ _ => .pure ho
  | ok _ => exact .bind .update fun _ _ => .bind (inRange_front hsize) fun _ hbytes => .pure hbytes

/-- Filling keeps the length: a transfer always has the bytes that its part of the output takes. -/
theorem ends_fill (hchannel : e.channel.Admits MessagingUnit.maxArgs) (hsize : transferSize ≤ e.region.size) :
    ∀ (count : Nat) (out : List UInt8), InRange (e.fill count out) fun r =>
      Ends Error.FromOutside (fun _ => True) r.1 ∧ r.2.length = out.length
  | 0, _ => .pure ⟨trivial, rfl⟩
  | count + 1, out => by
    refine .bind (ends_transfer hchannel hsize) fun o ho => ?_
    cases o with
    | error failure => exact .pure ⟨ho, rfl⟩
    | ok bytes =>
      refine .bind (ends_fill hchannel hsize count (out.drop transferSize)) ?_
      rintro ⟨outcome, rest⟩ ⟨houtcome, hrest⟩
      refine .pure ⟨houtcome, ?_⟩
      have hbytes : bytes.length = transferSize := ho
      simp only [List.length_append, List.length_take, List.length_drop, hbytes, hrest]
      omega

theorem ends_random (hchannel : e.channel.Admits MessagingUnit.maxArgs) (out : List UInt8) :
    InRange (e.random out) fun r => Ends Error.FromOutside (fun _ => True) r.1 ∧ r.2.length = out.length := by
  unfold random
  split
  · exact .pure ⟨trivial, rfl⟩
  · rename_i hout
    have hsize : transferSize ≤ e.region.size := by
      rw [Bool.or_eq_true, not_or, decide_eq_true_eq] at hout
      exact Nat.le_of_not_lt hout.2
    refine .bind (ends_trngState hchannel) fun o ho => ?_
    cases o with
    | error failure => exact .pure ⟨ho, rfl⟩
    | ok state =>
      exact .ite (ends_fill hchannel hsize _ out) (.bind .update fun _ _ => .pure ⟨trivial, rfl⟩)

theorem ends_releaseFlash (hchannel : e.channel.Admits MessagingUnit.maxArgs) :
    InRange e.releaseFlash (Ends Error.FromOutside fun _ => True) := by
  refine .bind (ends_command hchannel (Nat.zero_le _)) fun o ho => ?_
  cases o with
  | error failure => exact .pure ho
  | ok _ => exact .pure trivial

end Enclave
end PowerFirmware
