import PowerFirmware.Proofs.SharedArea.Delivery
import PowerFirmware.Proofs.SharedArea.Transaction

/-! A request and its reply, with a platform that answers when the doorbell rings. Main statement: the
platform finds in the area what the caller asked for, and the caller is delivered what the platform
answers, each word in its place (`transact_roundTrip`). -/

namespace PowerFirmware
namespace SharedMemory
open Cells Run

variable {κ : Type} {env : Environment κ} {c : SharedMemory} {q : Request} {n : Nat} {buffer : Vector UInt32 n}
variable {answer : (Nat → UInt32) → List Cell} {m : Nat → UInt32} {L M : List (Event κ)} {cells : List Cell}
variable {header status : UInt32} {payload : List UInt32}

/-! ### A memory that answers -/

/-- The memory after an event. What is written is there, and when the doorbell rings the platform writes
    its answer to what it then finds. -/
def after (c : SharedMemory) (answer : (Nat → UInt32) → List Cell) (m : Nat → UInt32) : Event κ → Nat → UInt32
  | .write a w =>
    if a = c.doorbell ∧ w &&& ringBit ≠ 0 then
      overwrite (Function.update m a w) (answer (Function.update m a w))
    else Function.update m a w
  | _ => m

def replay (c : SharedMemory) (answer : (Nat → UInt32) → List Cell) (m : Nat → UInt32) (L : List (Event κ)) :
    Nat → UInt32 := L.foldl (c.after answer) m

/-- Every read yields what the memory holds. -/
def Faithful (c : SharedMemory) (answer : (Nat → UInt32) → List Cell) (m : Nat → UInt32) : List (Event κ) → Prop
  | [] => True
  | e :: L => (∀ a w, e = .read a w → m a = w) ∧ c.Faithful answer (c.after answer m e) L

theorem replay_append : c.replay answer m (L ++ M) = c.replay answer (c.replay answer m L) M := List.foldl_append

theorem faithful_append : ∀ {L : List (Event κ)} {m : Nat → UInt32},
    c.Faithful answer m (L ++ M) ↔ c.Faithful answer m L ∧ c.Faithful answer (c.replay answer m L) M
  | [], _ => by simp [Faithful, replay]
  | e :: L, m => by
    rw [List.cons_append, Faithful, Faithful, faithful_append, and_assoc]
    rfl

theorem faithful_of_allows (hload : ∀ L a, env.load L a = c.replay answer m L a) :
    ∀ {L past : List (Event κ)}, env.Allows past L → c.Faithful answer (c.replay answer m past) L
  | [], _, _ => trivial
  | e :: L, past, h => by
    have hrest := faithful_of_allows hload h.2
    rw [replay_append] at hrest
    refine ⟨fun a w he => ?_, hrest⟩
    subst he
    exact (hload past a).symm.trans h.1.symm

@[simp] theorem faithful_read {a : Nat} {w : UInt32} :
    c.Faithful answer m (.read a w :: L) ↔ m a = w ∧ c.Faithful answer m L := by
  refine and_congr_left fun _ => ⟨fun h => h _ _ rfl, ?_⟩
  rintro h _ _ ⟨⟩
  exact h

theorem faithful_reads : ∀ {cells : List Cell}, c.Faithful answer m (reads cells : List (Event κ)) ↔ Stand cells m
  | [] => by simp [reads, Faithful]
  | x :: xs => by
    show c.Faithful answer m (.read x.1 x.2 :: reads xs : List (Event κ)) ↔ _
    rw [faithful_read, faithful_reads, stand_cons]

/-- As long as the doorbell does not ring there is only what is written. -/
theorem replay_writes : ∀ {cells : List Cell} {m : Nat → UInt32}, c.doorbell ∉ addresses cells →
    c.replay answer m (writes cells : List (Event κ)) = overwrite m cells
  | [], _, _ => rfl
  | x :: xs, m, h => by
    rw [addresses_cons, List.mem_cons, not_or] at h
    have hx : c.after answer m (.write x.1 x.2 : Event κ) = Function.update m x.1 x.2 :=
      if_neg fun hring => h.1 hring.1.symm
    show c.replay answer (c.after answer m (.write x.1 x.2)) (writes xs : List (Event κ)) = _
    rw [hx, replay_writes h.2]
    rfl

theorem replay_watches {a : Nat} : ∀ {L : List (Event κ)}, Watches a L → c.replay answer m L = m
  | [], _ => rfl
  | e :: L, h => by
    obtain ⟨he, hL⟩ := List.forall_mem_cons.mp h
    have hsame : c.after answer m e = m := by
      rcases he with ⟨w, rfl⟩ | ⟨t, rfl⟩ <;> rfl
    show c.replay answer (c.after answer m e) L = m
    rw [hsame, replay_watches hL]

/-- A wait for an area that is free succeeds. -/
theorem polled_free {o : Except PollTimeout Unit} (h : Polled c.status free L o) (hL : c.Faithful answer m L)
    (hfree : c.Free m) : o = .ok () := by
  have hlook : ∀ w, m c.status = w → free w = true := by
    rintro _ rfl
    simpa [free, Free] using hfree
  induction h with
  | seen => rfl
  | gaveUp hw => exact absurd (hlook _ (faithful_read.mp hL).1) (by simp [hw])
  | look hw => exact absurd (hlook _ (faithful_read.mp hL).1) (by simp [hw])
  | tick _ ih => exact ih hL.2

theorem not_missed {limit : Option UInt64} {rounds : Nat} (hL : c.Faithful answer m L) (hfree : c.Free m) :
    ¬Missed c.status free limit rounds L := by
  rintro ⟨w, start, M, rfl, hw, -, -⟩
  obtain ⟨rfl, -⟩ := faithful_read.mp hL
  exact hfree (by simpa [free] using hw)

/-! ### The request in the area -/

/-- What the area asks for: its header, and of its payload as many words as its length says. -/
def requested (c : SharedMemory) (m : Nat → UInt32) : Request :=
  ⟨m c.header, (List.range ((m c.length).toNat / 4 - 1)).map fun i => m (c.payload i)⟩

theorem requested_of_stand (hq : q.args.length ≤ maxWords) (h : Stand (c.requestCells q) m) : c.requested m = q := by
  simp only [requestCells, stand_cons, stand_adjacent] at h
  obtain ⟨hlength, hheader, hargs⟩ := h
  have hcount : (UInt32.ofNat (4 * (1 + q.args.length))).toNat / 4 - 1 = q.args.length := by
    simp only [maxWords] at hq
    rw [UInt32.toNat_ofNat_of_lt' (by simp only [UInt32.size]; omega)]
    omega
  rw [requested, hlength, hheader, hcount]
  exact congrArg (Request.mk q.opcode) hargs

theorem inArea_sentCells (hq : q.args.length ≤ maxWords) : ∀ a ∈ addresses (c.sentCells q), c.InArea a := by
  have hflags : c.InArea c.flags := by simp only [InArea, flags, payload, maxWords]; omega
  have hrequest : ∀ a ∈ addresses (c.requestCells q), c.InArea a := message_inArea hq
  simp only [sentCells, List.cons_append, addresses_cons, addresses_append, addresses_nil]
  exact List.forall_mem_cons.mpr ⟨hflags, List.forall_mem_append.mpr
    ⟨hrequest, List.forall_mem_singleton.mpr status_inArea⟩⟩

theorem flags_notMem_request : c.flags ∉ addresses (c.requestCells q) := by
  simp only [requestCells, addresses_cons, List.mem_cons, not_or, mem_addresses_adjacent]
  refine ⟨by simp only [flags, length]; omega, by simp only [flags, SharedMemory.header]; omega, ?_⟩
  rintro ⟨i, -, hi⟩
  simp only [flags, SharedMemory.payload] at hi
  omega

theorem nodup_message {l h : UInt32} {ws : List UInt32} :
    (addresses ((c.length, l) :: (c.header, h) :: adjacent (c.payload 0) ws)).Nodup := by
  simp only [addresses_cons, List.nodup_cons, List.mem_cons, not_or, mem_addresses_adjacent, not_exists, not_and]
  refine ⟨⟨by simp only [length, SharedMemory.header]; omega, fun i _ => ?_⟩, fun i _ => ?_, nodup_adjacent⟩
  · simp only [length, SharedMemory.payload]
    omega
  · simp only [SharedMemory.header, SharedMemory.payload]
    omega

theorem stand_sentCells (q : Request) : Stand (c.sentCells q) (overwrite m (c.sentCells q)) := by
  refine stand_overwrite ?_
  have hstatus : c.status ∉ addresses (c.requestCells q) := status_notMem_message
  have hne : c.flags ≠ c.status := by simp only [flags, SharedMemory.status]; omega
  simp only [sentCells, List.cons_append, addresses_cons, addresses_append, addresses_nil, List.nodup_cons,
    List.mem_append, List.mem_singleton, not_or]
  exact ⟨⟨flags_notMem_request, hne⟩, List.nodup_append.mpr ⟨nodup_message, List.nodup_singleton _,
    fun a ha b hb heq => hstatus (List.mem_singleton.mp hb ▸ heq ▸ ha)⟩⟩

/-! ### The reply in the area -/

/-- A reply as the caller is to find it: the area is free and not flagged, and header, status and payload
    stand in it with a length that counts them. -/
structure Carries (c : SharedMemory) (header status : UInt32) (payload : List UInt32) (m : Nat → UInt32) : Prop where
  free : c.Free m
  sound : m c.status &&& errorBit = 0
  length : m c.length = UInt32.ofNat (4 * (2 + payload.length))
  words : Stand ((c.header, header) :: adjacent (c.payload 0) (status :: payload)) m

theorem Carries.announced (h : Carries c header status payload m) (hp : payload.length ≤ 31) :
    announced (m c.length) = 2 + payload.length := by
  rw [h.length, SharedMemory.announced, UInt32.toNat_ofNat_of_lt' (by simp only [UInt32.size]; omega)]
  simp only [maxWords]
  omega

/-- Such a reply is taken as it is. -/
theorem Collects.of_carries {d : Delivery n} (hL : Collects c buffer L d) (hfaithful : c.Faithful answer m L)
    (h : Carries c header status payload m) (hp : payload.length ≤ 31) :
    ∃ words, d = (.ok ⟨header, status, min n payload.length⟩, words) ∧
      words.toList = payload.take (min n payload.length) ++ buffer.toList.drop (min n payload.length) := by
  have hannounced := h.announced hp
  have hwords := h.words
  simp only [adjacent, stand_cons] at hwords
  obtain ⟨hheader, hstatus, hpayload⟩ := hwords
  cases hL with
  | flagged hs =>
    obtain ⟨rfl, -⟩ := faithful_read.mp hfaithful
    exact absurd h.sound hs
  | malformed hl =>
    simp only [faithful_read] at hfaithful
    obtain ⟨-, rfl, -⟩ := hfaithful
    omega
  | @delivered s l header' status' ws hs hl hws =>
    simp only [faithful_read, faithful_reads, hheader, hstatus] at hfaithful
    obtain ⟨-, rfl, rfl, rfl, hstand⟩ := hfaithful
    have hcount : ws.length = min n payload.length := by rw [hws, hannounced, Nat.add_sub_cancel_left]
    have htake : ws = payload.take ws.length :=
      eq_take_of_stand hstand hpayload (by omega)
    refine ⟨_, by rw [hcount], ?_⟩
    rw [toList_overlay, List.take_of_length_le (by omega), hcount, ← hcount, ← htake]

/-- Sending leaves the request in the area, rings with the other bits of the doorbell as they were, and
    after that the memory is what the platform makes of it. -/
theorem faithful_sendEvents {v : UInt32} (hdoor : ¬c.InArea c.doorbell) (hq : q.args.length ≤ maxWords)
    (h : c.Faithful answer m (c.sendEvents q v : List (Event κ))) :
    overwrite m (c.sentCells q) c.doorbell = v ∧ c.replay answer m (c.sendEvents q v : List (Event κ)) =
      overwrite (Function.update (overwrite m (c.sentCells q)) c.doorbell (v ||| ringBit))
        (answer (Function.update (overwrite m (c.sentCells q)) c.doorbell (v ||| ringBit))) := by
  have hnot : c.doorbell ∉ addresses (c.sentCells q) := fun hmem => hdoor (inArea_sentCells hq _ hmem)
  rw [sendEvents, faithful_append, replay_writes hnot, faithful_read] at h
  rw [sendEvents, replay_append, replay_writes hnot]
  exact ⟨h.2.1, if_pos ⟨rfl, ringBit_set v⟩⟩

theorem watches_ne_write {a : Nat} (h : Watches a L) : ∀ e ∈ L, ∀ b w, e ≠ .write b w := by
  rintro e he b w rfl
  rcases h _ he with ⟨v, heq⟩ | ⟨t, heq⟩
  · cases heq
  · cases heq

theorem Collects.ne_write {d : Delivery n} (h : Collects c buffer L d) : ∀ e ∈ L, ∀ b w, e ≠ .write b w := by
  cases h with
  | flagged => simp
  | malformed => simp
  | delivered =>
    simp only [reads, List.mem_cons, List.mem_map]
    rintro e (rfl | rfl | rfl | rfl | ⟨x, -, rfl⟩) b w <;> simp

/-! ### Whole calls -/

/-- Whenever the area has been handed over and asks for `q`, the platform answers with the given reply. -/
def Replies (c : SharedMemory) (answer : (Nat → UInt32) → List Cell) (q : Request) (header status : UInt32)
    (payload : List UInt32) : Prop :=
  ∀ m, m c.status = 0 → c.requested m = q → Carries c header status payload (overwrite m (answer m))

theorem asks_of_stand (hq : q.args.length ≤ maxWords) (h : Stand (c.sentCells q) m) :
    m c.status = 0 ∧ c.requested m = q := by
  rw [sentCells, stand_append, stand_cons, stand_cons] at h
  exact ⟨h.2.1, requested_of_stand hq h.1.2⟩

/-- The doorbell is no part of what the platform is asked. -/
theorem stand_ring {w : UInt32} (hdoor : ¬c.InArea c.doorbell) (hq : q.args.length ≤ maxWords) :
    Stand (c.sentCells q) (Function.update (overwrite m (c.sentCells q)) c.doorbell w) := by
  refine (stand_sentCells q).congr fun a ha => Function.update_of_ne ?_ _ _
  rintro rfl
  exact hdoor (inArea_sentCells hq _ ha)

/-- Sending turns the memory into one that carries the reply. -/
theorem carries_of_sendEvents {v : UInt32} (hdoor : ¬c.InArea c.doorbell) (hq : q.args.length ≤ maxWords)
    (hreplies : Replies c answer q header status payload)
    (h : c.Faithful answer m (c.sendEvents q v : List (Event κ))) :
    Carries c header status payload (c.replay answer m (c.sendEvents q v : List (Event κ))) := by
  obtain ⟨hstatus, hrequested⟩ := asks_of_stand hq (stand_ring (m := m) (w := v ||| ringBit) hdoor hq)
  rw [(faithful_sendEvents hdoor hq h).2]
  exact hreplies _ hstatus hrequested

/-- What is done before the doorbell rings leaves the request in the area, and nothing else. -/
theorem replay_unrung {v : UInt32} (hdoor : ¬c.InArea c.doorbell) (hq : q.args.length ≤ maxWords)
    (hM : Watches c.status M) :
    c.replay answer m (M ++ (writes (c.sentCells q) ++ [.read c.doorbell v])) = overwrite m (c.sentCells q) := by
  rw [replay_append, replay_watches hM, replay_append, replay_writes fun hmem => hdoor (inArea_sentCells hq _ hmem)]
  rfl

theorem ne_ring_of_unrung {v : UInt32} (hdoor : ¬c.InArea c.doorbell) (hq : q.args.length ≤ maxWords)
    (hM : Watches c.status M) :
    ∀ e ∈ M ++ (writes (c.sentCells q) ++ [.read c.doorbell v]), ∀ w, e ≠ .write c.doorbell w := by
  rintro e he w rfl
  simp only [List.mem_append, List.mem_singleton, reduceCtorEq, or_false] at he
  rcases he with he | he
  · exact watches_ne_write hM _ he _ _ rfl
  · obtain ⟨x, hx, hwrite⟩ := List.mem_map.mp he
    injection hwrite with haddress _
    exact hdoor (haddress ▸ inArea_sentCells hq _ (List.mem_map_of_mem hx))

section Answered
variable (hdoor : ¬c.InArea c.doorbell) (hq : q.args.length ≤ maxWords) (hfree : c.Free m)
  (hreplies : Replies c answer q header status payload) (hL : c.Faithful answer m L)
include hdoor hq hfree hreplies hL

theorem not_stalls {rounds : Nat} : ¬Stalls c q rounds L := by
  intro hstalls
  cases hstalls with
  | busy _ hM => exact not_missed hL hfree hM
  | silent _ hM hN =>
    rw [faithful_append, faithful_append, replay_watches hM.watches] at hL
    exact not_missed hL.2.2 (carries_of_sendEvents hdoor hq hreplies hL.2.1).free hN

/-- A request that is answered is sent in a free area, and its reply is found there. -/
theorem Transacts.of_replies {d : Delivery n} (h : Transacts c q buffer L d) (hp : payload.length ≤ 31) :
    ∃ M N K v words, L = M ++ (c.sendEvents q v ++ (N ++ K)) ∧ overwrite m (c.sentCells q) c.doorbell = v ∧
      Watches c.status M ∧ Watches c.status N ∧ Collects c buffer K d ∧
      d = (.ok ⟨header, status, min n payload.length⟩, words) ∧
      words.toList = payload.take (min n payload.length) ++ buffer.toList.drop (min n payload.length) := by
  cases h with
  | tooMany hmany => exact absurd hq (Nat.not_le.mpr hmany)
  | busy _ hM => cases polled_free hM hL hfree
  | silent _ hM hN =>
    rw [faithful_append, faithful_append, replay_watches hM.watches] at hL
    cases polled_free hN hL.2.2 (carries_of_sendEvents hdoor hq hreplies hL.2.1).free
  | @answered M N K v d _ hM hN hK =>
    rw [faithful_append, faithful_append, faithful_append, replay_watches hM.watches, replay_watches hN.watches] at hL
    obtain ⟨-, hsend, -, hfound⟩ := hL
    obtain ⟨hv, -⟩ := faithful_sendEvents hdoor hq hsend
    obtain ⟨words, hd, hwords⟩ := hK.of_carries hfound (carries_of_sendEvents hdoor hq hreplies hsend) hp
    exact ⟨M, N, K, v, words, rfl, hv, hM.watches, hN.watches, hK, hd, hwords⟩

end Answered

/-- A platform that answers when the doorbell rings finds in the area exactly what was asked, with the
    request bit of the doorbell set and its other bits as they were, and the caller of a free area is
    delivered exactly what is answered, as far as the buffer reaches. -/
theorem transact_roundTrip (hdoor : ¬c.InArea c.doorbell) (hload : ∀ L a, env.load L a = c.replay answer m L a)
    (past : History env) (hfree : c.Free (c.replay answer m past.events)) (hq : q.args.length ≤ 32)
    (hreplies : Replies c answer q header status payload) (hp : payload.length ≤ 31) (buffer : Vector UInt32 n) :
    ∃ before after words, c.transact q buffer past =
        (.ok (.ok ⟨header, status, min n payload.length⟩, words), past.add (before ++
          .write c.doorbell (c.replay answer m (past.events ++ before) c.doorbell ||| ringBit) :: after)) ∧
      (∀ e ∈ before, ∀ w, e ≠ .write c.doorbell w) ∧ (∀ e ∈ after, ∀ a w, e ≠ .write a w) ∧
      c.replay answer m (past.events ++ before) c.status = 0 ∧
      c.requested (c.replay answer m (past.events ++ before)) = q ∧
      words.toList = payload.take (min n payload.length) ++ buffer.toList.drop (min n payload.length) := by
  obtain ⟨L, outcome, heq, allowed, hend⟩ := DoesOr.outcome (x := c.transact q buffer) doesOr_transact past
  have hL := faithful_of_allows hload allowed
  rcases hend with ⟨-, hstalls⟩ | ⟨d, rfl, htransacts⟩
  · exact absurd hstalls (not_stalls hdoor hq hfree hreplies hL)
  obtain ⟨M, N, K, v, words, rfl, hv, hM, hN, hK, rfl, hwords⟩ := htransacts.of_replies hdoor hq hfree hreplies hL hp
  have hring : c.replay answer m (past.events ++ (M ++ (writes (c.sentCells q) ++ [.read c.doorbell v]))) =
      overwrite (c.replay answer m past.events) (c.sentCells q) := by
    rw [replay_append, replay_unrung hdoor hq hM]
  obtain ⟨hstatus, hrequested⟩ := asks_of_stand (c := c) hq (stand_sentCells (m := c.replay answer m past.events) q)
  refine ⟨M ++ (writes (c.sentCells q) ++ [.read c.doorbell v]), N ++ K, words, ?_, ne_ring_of_unrung hdoor hq hM, ?_,
    ?_, ?_, hwords⟩
  · rw [heq, hring, hv, sendEvents]
    simp only [List.append_assoc, List.cons_append, List.nil_append]
  · exact fun e he => (List.mem_append.mp he).elim (watches_ne_write hN e) (hK.ne_write e)
  · rw [hring, hstatus]
  · rw [hring, hrequested]

/-- The answer of a platform that sends the arguments back. -/
def echo (c : SharedMemory) (m : Nat → UInt32) : List Cell :=
  (c.status, freeBit) :: (c.length, UInt32.ofNat (4 * (2 + (c.requested m).args.length))) ::
    (c.header, (c.requested m).opcode) :: adjacent (c.payload 0) (0 :: (c.requested m).args)

theorem replies_echo : Replies c c.echo q q.opcode 0 q.args := by
  rintro m - rfl
  have hstand : Stand (c.echo m) (overwrite m (c.echo m)) :=
    stand_overwrite (List.nodup_cons.mpr ⟨status_notMem_message, nodup_message⟩)
  obtain ⟨hstatus, hrest⟩ := stand_cons.mp hstand
  obtain ⟨hlength, hmessage⟩ := stand_cons.mp hrest
  have hfree : overwrite m (c.echo m) c.status = freeBit := hstatus
  refine ⟨?_, ?_, hlength, hmessage⟩
  · rw [Free, hfree]
    decide
  · rw [hfree]
    decide

/-- Registers of which the status word of an area says that it is free, and the doorbell holds other bits. -/
def freeArea (a : Nat) : UInt32 := if a = lateArea.status then 1 else if a = lateArea.doorbell then 0x30 else 0

def echoing : Environment Unit where
  load L a := lateArea.replay lateArea.echo freeArea L a
  tick _ := 0
  manager _ _ := (.error .transport, [])
  enclave _ _ := (.error .transport, [])
  saveGic _ k := k
  enableMask _ _ := 0
  core := 0
  patience := 1
  budget := .within 0

/-- Two arguments are sent back to a caller with room for one. -/
theorem transact_roundTrip_echo : ∃ before after words,
    lateArea.transact ⟨0xa, [5, 6]⟩ #v[0] ⟨[]⟩ = (.ok (.ok ⟨0xa, 0, 1⟩, words), (⟨[]⟩ : History echoing).add (before ++
      .write lateArea.doorbell (lateArea.replay lateArea.echo freeArea before lateArea.doorbell ||| ringBit) :: after)) ∧
    lateArea.requested (lateArea.replay lateArea.echo freeArea before) = ⟨0xa, [5, 6]⟩ ∧ words.toList = [5] := by
  have hfree : freeArea lateArea.status &&& freeBit ≠ 0 := by decide
  have hload : ∀ L a, echoing.load L a = lateArea.replay lateArea.echo freeArea L a := fun _ _ => rfl
  obtain ⟨before, after, words, heq, -, -, -, hrequested, hwords⟩ := transact_roundTrip (by decide) hload
    ⟨[]⟩ hfree (by decide) (replies_echo (q := ⟨0xa, [5, 6]⟩)) (by decide) #v[0]
  exact ⟨before, after, words, heq, hrequested, hwords⟩

end SharedMemory
end PowerFirmware
