import PowerFirmware.Proofs.Accesses
import PowerFirmware.Proofs.SharedArea.World

/-! A transaction, access by access, whatever the other side writes and whenever. Main statements: the
ways a transaction goes (`doesOr_transact`), and that it accesses nothing but the doorbell and the words
of the area, and believes a length only as far as the area and the caller's buffer reach
(`transact_stays_in_area`). -/

namespace PowerFirmware
namespace SharedMemory
open Cells Run

variable {κ : Type} {env : Environment κ} {c : SharedMemory} {q : Request} {n : Nat} {buffer : Vector UInt32 n}
variable {F : List (Event κ) → Prop} {L M : List (Event κ)} {d : Delivery n}

/-! ### The ways a transaction goes -/

/-- A look at the status word of the area. -/
def free (w : UInt32) : Bool := w &&& freeBit != 0

/-- The words that a length word announces, its header included, as far as the area reaches. -/
def announced (l : UInt32) : Nat := min (l.toNat / 4) (1 + maxWords)

/-- What is written to send a request. Clearing the status word hands the area over. -/
def sentCells (c : SharedMemory) (q : Request) : List Cell := (c.flags, 0) :: c.requestCells q ++ [(c.status, 0)]

/-- Sending: the request is written, the area handed over, and the doorbell rung where it held `v`. -/
def sendEvents (c : SharedMemory) (q : Request) (v : UInt32) : List (Event κ) :=
  writes (c.sentCells q) ++ [.read c.doorbell v, .write c.doorbell (v ||| ringBit)]

/-- Taking the response. -/
inductive Collects (c : SharedMemory) (buffer : Vector UInt32 n) : List (Event κ) → Delivery n → Prop
  | flagged {s : UInt32} : s &&& errorBit ≠ 0 → Collects c buffer [.read c.status s] (.error .transport, buffer)
  | malformed {s l : UInt32} : announced l < 2 →
      Collects c buffer [.read c.status s, .read c.length l] (.error .transport, buffer)
  | delivered {s l header status : UInt32} {ws : List UInt32} : s &&& errorBit = 0 → 2 ≤ announced l →
      ws.length = min n (announced l - 2) →
      Collects c buffer (.read c.status s :: .read c.length l :: .read c.header header ::
        .read (c.payload 0) status :: reads (adjacent (c.payload 1) ws))
        (.ok ⟨header, status, ws.length⟩, overlay ws buffer)

/-- A whole transaction: what it accesses, and what it delivers. -/
inductive Transacts (c : SharedMemory) (q : Request) (buffer : Vector UInt32 n) : List (Event κ) → Delivery n → Prop
  | tooMany : maxWords < q.args.length → Transacts c q buffer [] (.error (.tooManyArgs q.args.length maxWords), buffer)
  | busy {L : List (Event κ)} {t : PollTimeout} : q.args.length ≤ maxWords → Polled c.status free L (.error t) →
      Transacts c q buffer L (.error (.timeout t), buffer)
  | silent {L M : List (Event κ)} {v : UInt32} {t : PollTimeout} : q.args.length ≤ maxWords →
      Polled c.status free L (.ok ()) → Polled c.status free M (.error t) →
      Transacts c q buffer (L ++ (c.sendEvents q v ++ M)) (.error (.timeout t), buffer)
  | answered {L M N : List (Event κ)} {v : UInt32} {d : Delivery n} : q.args.length ≤ maxWords →
      Polled c.status free L (.ok ()) → Polled c.status free M (.ok ()) → Collects c buffer N d →
      Transacts c q buffer (L ++ (c.sendEvents q v ++ (M ++ N))) d

/-- A transaction that ends in a wait without end, for the area or for the response in it. -/
inductive Stalls (c : SharedMemory) (q : Request) (rounds : Nat) : List (Event κ) → Prop
  | busy {L : List (Event κ)} : q.args.length ≤ maxWords → Missed c.status free c.budget.limit? rounds L →
      Stalls c q rounds L
  | silent {L M : List (Event κ)} {v : UInt32} : q.args.length ≤ maxWords → Polled c.status free L (.ok ()) →
      Missed c.status free c.budget.limit? rounds M → Stalls c q rounds (L ++ (c.sendEvents q v ++ M))

theorem doesOr_send : DoesOr (E := env) F (c.send q) fun _ L => ∃ v, L = c.sendEvents q v := by
  refine .bind (.write (.bind (.write (.bind (.write (.bind (DoesOr.writeWords.imp ?_ fun _ h => h)))))))
  rintro _ _ rfl
  refine .bind (.write (.bind (.read fun v => .write ⟨v, ?_⟩)))
  simp [sendEvents, sentCells, requestCells, writes]

theorem doesOr_collect : DoesOr (E := env) F (c.collect buffer) fun d L => Collects c buffer L d := by
  refine .bind (.read fun s => ?_)
  split
  · rename_i hs
    exact .pure (.flagged (by simpa using hs))
  · rename_i hs
    refine .bind (.read fun l => ?_)
    dsimp only
    split
    · rename_i hl
      exact .pure (.malformed hl)
    · rename_i hl
      refine .bind (.read fun h => .bind (.read fun v => .bind (DoesOr.readWords.imp ?_ fun _ h => h)))
      rintro ws _ ⟨hws, rfl⟩
      rw [← hws]
      exact .pure (by simpa using Collects.delivered (by simpa using hs) (Nat.le_of_not_lt hl) hws)

theorem doesOr_transact : DoesOr (E := env) (Stalls c q env.patience) (c.transact q buffer)
    fun d L => Transacts c q buffer L d := by
  unfold transact
  split
  · rename_i hq
    exact .pure (.tooMany hq)
  · rename_i hq
    replace hq := Nat.le_of_not_lt hq
    refine .bind (.pollUntil (fun o L hL => ?_) fun _ hL => .busy hq hL)
    cases o with
    | error t => exact .bind (.log (.pure (by simpa using Transacts.busy hq hL)))
    | ok _ =>
      refine .bind (doesOr_send.imp ?_ fun _ h => h)
      rintro _ _ ⟨v, rfl⟩
      refine .bind (.pollUntil (fun o M hM => ?_) fun _ hM => .silent hq hL hM)
      cases o with
      | error t => exact .bind (.log (.pure (by simpa using Transacts.silent hq hL hM)))
      | ok _ => exact doesOr_collect.imp (fun d N hN => .answered hq hL hM hN) fun _ h => h

/-! ### Where it goes -/

/-- The words of the area that carry anything: all after its first word, up to the end of the payload. -/
def IsWord (c : SharedMemory) (a : Nat) : Prop := ∃ k, 1 ≤ k ∧ k ≤ 38 ∧ a = c.area + 4 * k

/-- What a transaction may access. -/
def Reaches (c : SharedMemory) (a : Nat) : Prop := a = c.doorbell ∨ c.IsWord a

theorem isWord_status : c.IsWord c.status := ⟨1, by decide, by decide, rfl⟩
theorem isWord_flags : c.IsWord c.flags := ⟨4, by decide, by decide, rfl⟩
theorem isWord_length : c.IsWord c.length := ⟨5, by decide, by decide, rfl⟩
theorem isWord_header : c.IsWord c.header := ⟨6, by decide, by decide, rfl⟩

theorem isWord_payload {i : Nat} (h : i < maxWords) : c.IsWord (c.payload i) := by
  simp only [maxWords] at h
  exact ⟨7 + i, by omega, by omega, by simp only [payload]; omega⟩

theorem isWord_adjacent {ws : List UInt32} {i : Nat} (h : i + ws.length ≤ maxWords) :
    ∀ a ∈ addresses (adjacent (c.payload i) ws), c.IsWord a := by
  intro a ha
  obtain ⟨j, hj, rfl⟩ := mem_addresses_adjacent.mp ha
  have heq : c.payload i + 4 * j = c.payload (i + j) := by simp only [payload]; omega
  exact heq ▸ isWord_payload (by omega)

theorem announced_le (l : UInt32) : announced l ≤ 1 + maxWords := Nat.min_le_right _ _

/-- Two words are eight bytes. -/
theorem announced_lt_two {l : UInt32} : announced l < 2 ↔ l.toNat < 8 := by
  simp only [announced, maxWords]
  omega

theorem touches_sendEvents (hq : q.args.length ≤ maxWords) (v : UInt32) :
    Touches c.Reaches (c.sendEvents q v : List (Event κ)) := by
  have hpayload : ∀ a ∈ addresses (adjacent (c.payload 0) q.args), c.Reaches a := fun a ha =>
    .inr (isWord_adjacent (by omega) a ha)
  have hdoor : c.Reaches c.doorbell := .inl rfl
  simp only [sendEvents, touches_append, touches_writes, touches_cons, Event.address?, Option.some.injEq,
    forall_eq', touches_nil, and_true, hdoor]
  simp only [sentCells, requestCells, List.cons_append, addresses_cons, addresses_append, addresses_nil,
    List.forall_mem_cons, List.forall_mem_append]
  exact ⟨.inr isWord_flags, .inr isWord_length, .inr isWord_header, hpayload, .inr isWord_status, by simp⟩

theorem Collects.touches (h : Collects c buffer L d) : Touches c.Reaches L := by
  cases h with
  | flagged => simp [Event.address?, Reaches, isWord_status]
  | malformed => simp [Event.address?, Reaches, isWord_status, isWord_length]
  | @delivered s l _ _ ws _ _ hws =>
    have hfirst : c.Reaches (c.payload 0) := .inr (isWord_payload (by decide))
    have hrest : ∀ a ∈ addresses (adjacent (c.payload 1) ws), c.Reaches a := fun a ha =>
      .inr (isWord_adjacent (by have := announced_le l; omega) a ha)
    simp only [touches_cons, touches_reads, Event.address?, Option.some.injEq, forall_eq']
    exact ⟨.inr isWord_status, .inr isWord_length, .inr isWord_header, hfirst, hrest⟩

theorem Transacts.touches (h : Transacts c q buffer L d) : Touches c.Reaches L := by
  have hlooks : ∀ {L : List (Event κ)}, Watches c.status L → Touches c.Reaches L := fun h =>
    h.touches (.inr isWord_status)
  cases h with
  | tooMany => exact touches_nil
  | busy _ hL => exact hlooks hL.watches
  | silent hq hL hM =>
    exact touches_append.mpr ⟨hlooks hL.watches, touches_append.mpr ⟨touches_sendEvents hq _, hlooks hM.watches⟩⟩
  | answered hq hL hM hN =>
    refine touches_append.mpr ⟨hlooks hL.watches, touches_append.mpr ⟨touches_sendEvents hq _, ?_⟩⟩
    exact touches_append.mpr ⟨hlooks hM.watches, hN.touches⟩

theorem Stalls.touches {rounds : Nat} (h : Stalls c q rounds L) : Touches c.Reaches L := by
  have hlooks : ∀ {L : List (Event κ)}, Watches c.status L → Touches c.Reaches L := fun h =>
    h.touches (.inr isWord_status)
  cases h with
  | busy _ hL => exact hlooks hL.watches
  | silent hq hL hM =>
    exact touches_append.mpr ⟨hlooks hL.watches, touches_append.mpr ⟨touches_sendEvents hq _, hlooks hM.watches⟩⟩

/-! ### Which lengths it believes -/

/-- What became of the length that the other side wrote: one that does not even cover header and status
    is refused, and of another no more is taken than the area and the caller's buffer hold. -/
structure Guarded (c : SharedMemory) (L : List (Event κ)) (d : Delivery n) : Prop where
  malformed : c.doorbell ≠ c.length → ∀ l, .read c.length l ∈ L → l.toNat < 8 → d.1 = .error .transport
  counted : ∀ response, d.1 = .ok response →
    ∃ l, .read c.length l ∈ L ∧ 2 ≤ announced l ∧ response.length = min n (announced l - 2)
  bounded : ∀ response, d.1 = .ok response → response.length ≤ n ∧ response.length ≤ 31

theorem watches_length (h : Watches c.status L) (l : UInt32) : .read c.length l ∉ L := by
  intro hl
  rcases h _ hl with ⟨w, heq⟩ | ⟨t, heq⟩
  · simp [status, length] at heq
  · cases heq

theorem sendEvents_length {v l : UInt32} (h : .read c.length l ∈ (c.sendEvents q v : List (Event κ))) :
    c.doorbell = c.length := by
  simp [sendEvents, writes] at h
  exact h.1.symm

/-- While it waits and while it sends, a transaction does not look at the length. -/
theorem sent_length {v l : UInt32} (hdoor : c.doorbell ≠ c.length) (hL : Watches c.status L) (hM : Watches c.status M) :
    .read c.length l ∉ L ++ (c.sendEvents q v ++ M) := by
  intro hl
  simp only [List.mem_append, watches_length hL, watches_length hM, false_or, or_false] at hl
  exact hdoor (sendEvents_length hl)

theorem Stalls.length_unread {rounds : Nat} {l : UInt32} (h : Stalls c q rounds L) (hdoor : c.doorbell ≠ c.length) :
    .read c.length l ∉ L := by
  cases h with
  | busy _ hL => exact watches_length hL.watches l
  | silent _ hL hM => exact sent_length hdoor hL.watches hM.watches

theorem guarded_error {e : ChannelError} (h : c.doorbell ≠ c.length → ∀ l, .read c.length l ∉ L) :
    Guarded c L ((.error e, buffer) : Delivery n) :=
  ⟨fun hdoor l hl => absurd hl (h hdoor l), nofun, nofun⟩

theorem Collects.guarded (h : Collects c buffer L d) : Guarded c L d := by
  cases h with
  | flagged => exact ⟨fun _ _ _ _ => rfl, nofun, nofun⟩
  | malformed => exact ⟨fun _ _ _ _ => rfl, nofun, nofun⟩
  | @delivered s l header status ws _ hl hws =>
    have hrest : Touches (· ≠ c.length) (.read c.header header :: .read (c.payload 0) status ::
        reads (adjacent (c.payload 1) ws) : List (Event κ)) := by
      refine touches_cons.mpr ⟨?_, touches_cons.mpr ⟨?_, touches_reads.mpr fun a ha => ?_⟩⟩
      · simp [Event.address?, SharedMemory.header, length]
      · simp [Event.address?, payload, length]
      · obtain ⟨i, -, rfl⟩ := mem_addresses_adjacent.mp ha
        simp only [payload, length]
        omega
    refine ⟨fun _ l' hl' hshort => ?_, ?_, ?_⟩
    · -- The length word is read once, so it is the one that was found long enough.
      rcases List.mem_cons.mp hl' with heq | hl'
      · simp [SharedMemory.status, length] at heq
      · rcases List.mem_cons.mp hl' with heq | hl'
        · cases heq
          exact absurd (announced_lt_two.mpr hshort) (Nat.not_lt.mpr hl)
        · exact absurd rfl (hrest _ hl' _ rfl)
    · rintro _ ⟨⟩
      exact ⟨l, by simp, hl, hws⟩
    · rintro _ ⟨⟩
      have := announced_le l
      simp only [maxWords] at this
      exact ⟨by show ws.length ≤ n; omega, by show ws.length ≤ 31; omega⟩

theorem Transacts.guarded (h : Transacts c q buffer L d) : Guarded c L d := by
  cases h with
  | tooMany => exact guarded_error fun _ _ => List.not_mem_nil
  | busy _ hL => exact guarded_error fun _ => watches_length hL.watches
  | silent _ hL hM => exact guarded_error fun hdoor _ => sent_length hdoor hL.watches hM.watches
  | answered _ hL hM hN =>
    obtain ⟨malformed, counted, bounded⟩ := hN.guarded
    refine ⟨fun hdoor l hl => malformed hdoor l ?_, fun response hr => ?_, bounded⟩
    · simp only [List.mem_append, watches_length hL.watches, watches_length hM.watches, false_or] at hl
      exact hl.resolve_left fun hsend => hdoor (sendEvents_length hsend)
    · obtain ⟨l, hl, h⟩ := counted response hr
      exact ⟨l, by simp [hl], h⟩

/-- Whatever stands in the registers and however it changes, a transaction accesses nothing but its
    doorbell and the words of the area up to the end of the payload, so not the lock that stands behind
    them in the same page. It goes one of its ways, and believes a length only so far as it may; or one of its
    waits for the area goes on without end. Whenever it reads a length below eight it fails for it. -/
theorem transact_stays_in_area (c : SharedMemory) (q : Request) {n : Nat} (buffer : Vector UInt32 n)
    (past : History env) :
    ∃ L outcome, c.transact q buffer past = (outcome, past.add L) ∧ env.Allows past.events L ∧
      (∀ e ∈ L, ∀ a, e.address? = some a → a = c.doorbell ∨ c.IsWord a) ∧
      (c.doorbell ≠ c.area + 0x3f8 → ∀ e ∈ L, e.address? ≠ some (c.area + 0x3f8)) ∧
      (outcome = .error .hung ∧ Stalls c q env.patience L ∨
        ∃ d, outcome = .ok d ∧ Transacts c q buffer L d ∧ Guarded c L d) ∧
      (c.doorbell ≠ c.length → ∀ l, .read c.length l ∈ L → l.toNat < 8 →
        ∃ words, outcome = .ok (.error .transport, words)) := by
  obtain ⟨L, outcome, heq, allowed, hend⟩ := DoesOr.outcome (x := c.transact q buffer) doesOr_transact past
  have htouches : Touches c.Reaches L := by
    rcases hend with ⟨-, hL⟩ | ⟨d, -, hL⟩
    · exact hL.touches
    · exact hL.touches
  refine ⟨L, outcome, heq, allowed, htouches, fun hdoor e he hlock => ?_, ?_, fun hdoor l hl hshort => ?_⟩
  · rcases htouches e he _ hlock with hbell | ⟨k, -, hk, hword⟩
    · exact hdoor hbell.symm
    · omega
  · exact hend.imp_right fun ⟨d, hok, hL⟩ => ⟨d, hok, hL, hL.guarded⟩
  · rcases hend with ⟨-, hL⟩ | ⟨⟨r, words⟩, rfl, hL⟩
    · exact absurd hl (hL.length_unread hdoor)
    · obtain rfl : r = .error .transport := hL.guarded.malformed hdoor l hl hshort
      exact ⟨words, rfl⟩

/-- The area of the channel to the System Manager. -/
def managerArea : SharedMemory :=
  { area := Layout.managerArea, doorbell := Layout.managerUnit + 0x114, budget := .within 0 }

/-- The area is free whenever it is looked at, and has this length word in it. -/
def announcing (l : UInt32) : Environment Unit where
  load _ a := if a = managerArea.status then freeBit else if a = managerArea.length then l else 0
  tick _ := 0
  manager _ _ := (.error .transport, [])
  enclave _ _ := (.error .transport, [])
  saveGic _ k := k
  enableMask _ _ := 0
  core := 0
  patience := 1
  budget := .within 0

/-- A request in this area, by a caller who has room for more words than it holds. -/
def announcedRun (l : UInt32) : Except Fault (Delivery 40) × History (announcing l) :=
  managerArea.transact ⟨0xa, [5]⟩ (Vector.replicate 40 0) ⟨[]⟩

/-- A length that does not cover header and status is refused, and of the greatest length no more is believed
    than the area holds. -/
theorem transact_stays_in_area_lengths :
    (∃ L words, announcedRun 7 = (.ok (.error .transport, words), (⟨[]⟩ : History (announcing 7)).add L) ∧
      .read managerArea.length 7 ∈ L) ∧
    ∃ L, announcedRun 0xffffffff =
        (.ok (.ok ⟨0, 0, 31⟩, Vector.replicate 40 0), (⟨[]⟩ : History (announcing 0xffffffff)).add L) ∧
      ∀ e ∈ L, ∀ a, e.address? = some a → a = 0x44220114 ∨ 0x44221004 ≤ a ∧ a < 0x4422109c := by
  constructor
  · have hread : .read managerArea.length 7 ∈ (announcedRun 7).2.events := List.mem_of_getElem? (i := 10) rfl
    obtain ⟨L, outcome, heq, -, -, -, -, hshort⟩ :=
      transact_stays_in_area managerArea ⟨0xa, [5]⟩ (Vector.replicate 40 0) (⟨[]⟩ : History (announcing 7))
    rw [announcedRun, heq] at hread
    obtain ⟨words, rfl⟩ := hshort (by decide) 7 hread (by decide)
    exact ⟨L, words, heq, hread⟩
  · have hrun : (announcedRun 0xffffffff).1 = .ok (.ok ⟨0, 0, 31⟩, Vector.replicate 40 0) := by decide +kernel
    obtain ⟨L, outcome, heq, -, hwithin, -⟩ := transact_stays_in_area managerArea ⟨0xa, [5]⟩
      (Vector.replicate 40 0) (⟨[]⟩ : History (announcing 0xffffffff))
    rw [announcedRun, heq] at hrun
    obtain rfl : outcome = _ := hrun
    refine ⟨L, heq, fun e he a ha => (hwithin e he a ha).imp id ?_⟩
    rintro ⟨k, hfirst, hlast, rfl⟩
    simp only [managerArea, Layout.managerArea]
    omega

end SharedMemory
end PowerFirmware
