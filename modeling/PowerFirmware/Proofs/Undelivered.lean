import PowerFirmware.Proofs.MessagingUnit.Transaction
import PowerFirmware.Proofs.SharedArea.Transaction

/-! Transactions that deliver no response. Main statement: whichever transport carries it and wherever it
fails, a transaction leaves the caller's buffer as it was, and it has accessed nothing if its arguments do
not fit, no receive register if the other side stays silent, and nothing but the status word of a shared
area that it never came to own (`transact_failsCleanly`). -/

namespace PowerFirmware
open Run

variable {κ σ : Type} {env : Environment κ} {ch : Channel σ} {q : Request} {n : Nat} {buffer : Vector UInt32 n}
variable {L : List (Event κ)} {outcome : Except Fault (Delivery n)} {d : Delivery n}

/-- What is kept when a transaction fails, and when it is refused for its arguments. -/
structure FailsCleanly (ch : Channel σ) (q : Request) (buffer : Vector UInt32 n) (L : List (Event κ))
    (outcome : Except Fault (Delivery n)) : Prop where
  kept : ∀ e words, outcome = .ok (.error e, words) → words = buffer
  refused_iff : (∃ given most words, outcome = .ok (.error (.tooManyArgs given most), words)) ↔
    ch.maxArgs < q.args.length
  refused : ch.maxArgs < q.args.length →
    outcome = .ok (.error (.tooManyArgs q.args.length ch.maxArgs), buffer) ∧ L = []

namespace FailsCleanly

theorem of_tooMany (hq : ch.maxArgs < q.args.length) :
    FailsCleanly ch q buffer ([] : List (Event κ)) (.ok (.error (.tooManyArgs q.args.length ch.maxArgs), buffer)) where
  kept := by
    rintro _ _ ⟨⟩
    rfl
  refused_iff := iff_of_true ⟨_, _, _, rfl⟩ hq
  refused _ := ⟨rfl, rfl⟩

/-- Arguments that fit are not what a transaction fails for. -/
theorem of_fits (hq : q.args.length ≤ ch.maxArgs)
    (h : ∀ e words, outcome = .ok (.error e, words) → words = buffer ∧ ∀ given most, e ≠ .tooManyArgs given most) :
    FailsCleanly ch q buffer L outcome where
  kept e words he := (h e words he).1
  refused_iff := by
    refine iff_of_false ?_ (Nat.not_lt.mpr hq)
    rintro ⟨given, most, words, he⟩
    exact (h _ words he).2 given most rfl
  refused hmany := absurd hmany (Nat.not_lt.mpr hq)

theorem of_hung (hq : q.args.length ≤ ch.maxArgs) : FailsCleanly ch q buffer L (.error .hung) := of_fits hq nofun

theorem of_error {e : ChannelError} (hq : q.args.length ≤ ch.maxArgs) (he : ∀ given most, e ≠ .tooManyArgs given most) :
    FailsCleanly ch q buffer L (.ok (.error e, buffer)) := by
  refine of_fits hq ?_
  rintro _ _ ⟨⟩
  exact ⟨rfl, he⟩

theorem of_delivered {r : Response} {words : Vector UInt32 n} (hq : q.args.length ≤ ch.maxArgs) :
    FailsCleanly ch q buffer L (.ok (.ok r, words)) := of_fits hq nofun

end FailsCleanly

/-! ### Through the registers of a messaging unit -/

namespace MessagingUnit
variable {u : MessagingUnit}

theorem Stalls.failsCleanly {rounds : Nat} (h : Stalls u q rounds L) :
    FailsCleanly (u.channel : Channel (History env)) q buffer L (.error .hung) := by
  cases h with
  | silent hq _ => exact .of_hung hq

theorem Transacts.failsCleanly (h : Transacts u q buffer L d) :
    FailsCleanly (u.channel : Channel (History env)) q buffer L (.ok d) := by
  cases h with
  | tooMany hq => exact .of_tooMany hq
  | silent hq _ => exact .of_error hq nofun
  | answered hq _ _ => exact .of_delivered hq

/-- While the other side is silent, its registers are not read. -/
theorem Transacts.receive_unread {t : PollTimeout} {words : Vector UInt32 n}
    (h : Transacts u q buffer L (.error (.timeout t), words)) (i : Nat) (w : UInt32) : .read (u.receive i) w ∉ L := by
  cases h with
  | silent _ hL => exact fun hread => receive_ne_receiveStatus (read_waiting hL.watches hread).1

end MessagingUnit

/-! ### Through shared memory -/

namespace SharedMemory
variable {c : SharedMemory}

/-- How a transaction times out: either no look has found the area free, and then nothing has been done but to
    look at its status and at the clock; or one has, and then the request has been sent. -/
inductive TimesOut (c : SharedMemory) (q : Request) : List (Event κ) → Prop
  | unowned {L : List (Event κ)} : (∀ w, .read c.status w ∈ L → w &&& freeBit = 0) → Watches c.status L →
      TimesOut c q L
  | unanswered {L M : List (Event κ)} {v w : UInt32} : .read c.status w ∈ L → w &&& freeBit ≠ 0 →
      TimesOut c q (L ++ (c.sendEvents q v ++ M))

theorem Collects.kept (h : Collects c buffer L d) : ∀ e words, d = (.error e, words) →
    words = buffer ∧ ∀ given most, e ≠ .tooManyArgs given most := by
  cases h with
  | flagged | malformed =>
    rintro _ _ ⟨⟩
    exact ⟨rfl, nofun⟩
  | delivered => exact nofun

theorem Stalls.failsCleanly {rounds : Nat} (h : Stalls c q rounds L) :
    FailsCleanly (c.channel : Channel (History env)) q buffer L (.error .hung) := by
  cases h with
  | busy hq _ => exact .of_hung hq
  | silent hq _ _ => exact .of_hung hq

theorem Transacts.failsCleanly (h : Transacts c q buffer L d) :
    FailsCleanly (c.channel : Channel (History env)) q buffer L (.ok d) := by
  cases h with
  | tooMany hq => exact .of_tooMany hq
  | busy hq _ => exact .of_error hq nofun
  | silent hq _ _ => exact .of_error hq nofun
  | answered hq _ _ hN => exact .of_fits hq fun e words he => hN.kept e words (Except.ok.inj he)

theorem Collects.not_timeout {t : PollTimeout} {words : Vector UInt32 n} :
    ¬Collects c buffer L (.error (.timeout t), words) := nofun

theorem Transacts.timesOut {t : PollTimeout} {words : Vector UInt32 n}
    (h : Transacts c q buffer L (.error (.timeout t), words)) : TimesOut c q L := by
  cases h with
  | busy _ hL => exact .unowned (fun w hw => by simpa [free] using hL.unseen hw) hL.watches
  | silent _ hL _ =>
    obtain ⟨w, hw, hfree⟩ := hL.exists_seen
    exact .unanswered hw (by simpa [free] using hfree)
  | answered _ _ _ hN => exact absurd hN Collects.not_timeout

end SharedMemory

/-- Through a messaging unit and through shared memory alike, whatever the registers and the clock yield and
    whatever the budget is, a transaction that fails leaves the caller's buffer as it was. It is refused for
    its arguments exactly if there are more than the channel carries, and has then accessed no register and
    read no clock. When it times out, no receive register of the messaging unit has been read; and unless it
    has found the shared area free, it has only looked at its status. It goes on without end only in one of its
    waits. -/
theorem transact_failsCleanly (u : MessagingUnit) (c : SharedMemory) (q : Request) {n : Nat} (buffer : Vector UInt32 n)
    (past : History env) :
    (∃ L outcome, u.channel.transact q buffer past = (outcome, past.add L) ∧
      FailsCleanly (u.channel : Channel (History env)) q buffer L outcome ∧
      (∀ fault, outcome = .error fault → fault = .hung ∧ u.Stalls q env.patience L) ∧
      ∀ t words, outcome = .ok (.error (.timeout t), words) → ∀ i w, .read (u.receive i) w ∉ L) ∧
    ∃ L outcome, c.channel.transact q buffer past = (outcome, past.add L) ∧
      FailsCleanly (c.channel : Channel (History env)) q buffer L outcome ∧
      (∀ fault, outcome = .error fault → fault = .hung ∧ c.Stalls q env.patience L) ∧
      ∀ t words, outcome = .ok (.error (.timeout t), words) → c.TimesOut q L := by
  constructor
  · obtain ⟨L, outcome, heq, -, ⟨rfl, hL⟩ | ⟨d, rfl, hL⟩⟩ :=
      DoesOr.outcome (x := u.transact q buffer) MessagingUnit.doesOr_transact past
    · refine ⟨L, _, heq, hL.failsCleanly, ?_, nofun⟩
      rintro fault ⟨⟩
      exact ⟨rfl, hL⟩
    · refine ⟨L, _, heq, hL.failsCleanly, nofun, ?_⟩
      rintro t words ⟨⟩
      exact hL.receive_unread
  · obtain ⟨L, outcome, heq, -, ⟨rfl, hL⟩ | ⟨d, rfl, hL⟩⟩ :=
      DoesOr.outcome (x := c.transact q buffer) SharedMemory.doesOr_transact past
    · refine ⟨L, _, heq, hL.failsCleanly, ?_, nofun⟩
      rintro fault ⟨⟩
      exact ⟨rfl, hL⟩
    · refine ⟨L, _, heq, hL.failsCleanly, nofun, ?_⟩
      rintro t words ⟨⟩
      exact hL.timesOut

end PowerFirmware
