import PowerFirmware.Proofs.SharedArea.Ownership

/-! The agent's accesses in a world with a platform, and how it sends. Main statement: sending a request
into an area of the agent's writes the message while the area is free, and leaves it rung with the
request in it (`triple_send`). -/

namespace PowerFirmware
namespace SharedMemory
open Cells Run

variable {c : SharedMemory} {s : Scene} {cells : List Cell} {k : Nat} {q : Request} {ring : Ring}
variable {S T : Scene → Prop} {w : World c} {F : World c → Prop} {a : Nat}

/-- The agent is in the call of `ring`, all past scenes are sound, and the present one is in `S`. -/
structure World.Held (ring : Ring) (S : Scene → Prop) (w : World c) : Prop where
  ring : w.ring = ring
  past : ∀ x ∈ w.past, Sound c x
  scene : S w.scene

namespace World

theorem Held.imp (h : w.Held ring S) (hS : ∀ s, S s → T s) : w.Held ring T := ⟨h.ring, h.past, hS _ h.scene⟩

theorem Held.act {x : Action} (h : w.Held ring S) (hx : Sound c (w.scene, x))
    (hT : T (w.scene.after c ring x)) : (w.act x).Held ring T := by
  refine ⟨h.ring, fun y hy => ?_, by rw [← h.ring] at hT; exact hT⟩
  rcases List.mem_append.mp hy with hy | hy
  · exact h.past y hy
  · rw [List.mem_singleton.mp hy]
    exact hx

theorem Held.turn (hS : Stable c S) (h : w.Held ring S) : w.turn.Held ring S := by
  have run : ∀ (moves : List Move) (w : World c), w.Held ring S →
      (moves.foldl (fun w m => w.act (.move m)) w).Held ring S := by
    intro moves
    induction moves with
    | nil => exact fun _ h => h
    | cons m moves ih =>
      intro w h
      exact ih _ (h.act ⟨hS.orderly _ h.scene, fun _ _ hx => by cases hx⟩ (hS.move _ m h.scene))
  exact ⟨(run _ w h).ring, (run _ w h).past, (run _ w h).scene⟩

end World
open World

/-! ### Accesses -/

theorem triple_read (hS : Stable c S) :
    Triple (Held (c := c) ring S) (read32 a) (fun v => Held ring fun s => S s ∧ s.memory a = v) F :=
  Triple.access fun _ h =>
    (h.turn hS).act ⟨hS.orderly _ (h.turn hS).scene, fun _ _ hx => by cases hx⟩ ⟨(h.turn hS).scene, rfl⟩

theorem triple_read_cell {v : UInt32} (hS : Stable c S) (hv : ∀ s, S s → s.memory a = v) :
    Triple (Held (c := c) ring S) (read32 a) (fun u w => u = v ∧ w.Held ring S) F :=
  (triple_read hS).post fun _ _ h =>
    ⟨h.scene.2.symm.trans (hv _ h.scene.1), h.imp fun _ hs => hs.1⟩

theorem triple_write {v : UInt32} (hS : Stable c S) (hfree : c.InMessage a → ∀ s, S s → c.Free s.memory)
    (hT : ∀ s, S s → T (s.store c ring a v)) :
    Triple (Held (c := c) ring S) (write32 a v) (fun _ => Held ring T) F :=
  Triple.update fun _ h => by
    refine (h.turn hS).act ⟨hS.orderly _ (h.turn hS).scene, fun b _ hx hb => ?_⟩ (hT _ (h.turn hS).scene)
    cases hx
    exact hfree hb _ (h.turn hS).scene

theorem triple_log {level : Level} {message : String} :
    Triple (Held (c := c) ring S) (log level message) (fun _ => Held ring S) F :=
  Triple.update fun _ h => h

/-- What is left of a call that waits without end. -/
def Stuck (w : World c) : Prop := (∀ x ∈ w.past, Sound c x) ∧ w.scene.Orderly c

/-- Waiting for the area keeps what the platform cannot end, and finds the area free. -/
theorem waits_isFree (hS : Stable c S) :
    Triple.Waits (Held (c := c) ring S) (Held ring fun s => S s ∧ c.Free s.memory) Stuck c.isFree where
  look := by
    refine Triple.bind (triple_read hS) fun v => Triple.pure fun w h => ?_
    rcases hv : (v &&& freeBit != 0) with _ | _
    · exact h.imp fun _ hs => hs.1
    · refine h.imp fun s hs => ⟨hs.1, ?_⟩
      rw [Free, hs.2]
      simpa using hv
  tick w h := (h.turn hS).act ⟨hS.orderly _ (h.turn hS).scene, fun _ _ hx => by cases hx⟩ (h.turn hS).scene
  note _ _ _ h := h
  hung w h := ⟨h.past, hS.orderly _ h.scene⟩

/-! ### Sending -/

theorem Agents.store (h : Agents c k cells s) (ha : c.InMessage a) (hnew : a ∉ addresses cells)
    (hdoor : a ≠ c.doorbell) {v : UInt32} : Agents c k (cells ++ [(a, v)]) (s.store c ring a v) := by
  refine ⟨⟨?_, h.quiet.idle, ?_, ?_⟩, ?_, h.older⟩
  · simp [Scene.store, hdoor, h.quiet.silent]
  · refine stand_append.mpr ⟨h.quiet.stand.congr fun b hb => Function.update_of_ne ?_ _ _, ?_⟩
    · rintro rfl
      exact hnew hb
    · simp [Stand, Scene.store]
  · intro b hb
    simp only [addresses_append, addresses_cons, addresses_nil, List.mem_append, List.mem_singleton] at hb
    rcases hb with hb | rfl
    · exact h.quiet.within b hb
    · exact ⟨by simp only [InMessage, flags] at ha; omega, ha.2⟩
  · refine h.free.congr (Function.update_of_ne ?_ _ _)
    rintro rfl
    simp only [InMessage, status, flags] at ha
    omega

theorem Agents.forget (h : Agents c k cells s) : Agents c k [] s :=
  ⟨⟨h.quiet.silent, h.quiet.idle, stand_nil, fun _ ha => absurd ha List.not_mem_nil⟩, h.free, h.older⟩

theorem triple_write_message {v : UInt32} (ha : c.InMessage a) (hnew : a ∉ addresses cells)
    (hdoor : ¬c.InArea c.doorbell) :
    Triple (Held (c := c) ring (Agents c k cells)) (write32 a v)
      (fun _ => Held ring (Agents c k (cells ++ [(a, v)]))) F := by
  refine triple_write stable_agents (fun _ _ h => h.free) fun s h => h.store ha hnew ?_
  rintro rfl
  exact hdoor ⟨by simp only [InMessage, flags] at ha; omega, ha.2⟩

theorem triple_writeWords (hdoor : ¬c.InArea c.doorbell) : ∀ {ws : List UInt32} {a : Nat} {cells : List Cell},
    (∀ b ∈ addresses (adjacent a ws), c.InMessage b ∧ b ∉ addresses cells) →
    Triple (Held (c := c) ring (Agents c k cells)) (writeWords a ws)
      (fun _ => Held ring (Agents c k (cells ++ adjacent a ws))) F
  | [], a, cells, _ => Triple.pure fun _ h => by simpa [adjacent] using h
  | v :: ws, a, cells, hws => by
    have hv := hws a (by simp [adjacent])
    refine Triple.bind (triple_write_message hv.1 hv.2 hdoor) fun _ => ?_
    refine (triple_writeWords hdoor fun b hb => ?_).post fun _ _ h => by simpa [adjacent] using h
    refine ⟨(hws b (by simp [adjacent, hb])).1, ?_⟩
    simp only [addresses_append, addresses_cons, addresses_nil, List.mem_append, List.mem_singleton, not_or]
    refine ⟨(hws b (by simp [adjacent, hb])).2, ?_⟩
    rintro rfl
    obtain ⟨i, -, hi⟩ := mem_addresses_adjacent.mp hb
    omega

/-- Clearing the status word gives the area away with the request in it. -/
theorem Agents.hand (h : Agents c k (c.requestCells q) s) (hdoor : ¬c.InArea c.doorbell) :
    Handed c k q (s.store c ring c.status 0) := by
  have hne : c.status ≠ c.doorbell := fun heq => hdoor (heq ▸ status_inArea)
  refine ⟨⟨?_, h.quiet.idle, ?_, h.quiet.within⟩, ?_, h.older⟩
  · simp [Scene.store, h.quiet.silent]
  · refine h.quiet.stand.congr fun b hb => Function.update_of_ne ?_ _ _
    rintro rfl
    exact status_notMem_message hb
  · simp [Free, Scene.store]

/-- Ringing makes the doorbell the only one that is unanswered. -/
theorem Handed.rings (h : Handed c k q s) (hdoor : ¬c.InArea c.doorbell) (hq : q.args.length ≤ maxWords)
    {v : UInt32} (hv : v &&& ringBit ≠ 0) : Platforms c ⟨k, q⟩ (s.store c ⟨k, q⟩ c.doorbell v) := by
  have keep : ∀ b, c.InArea b → Function.update s.memory c.doorbell v b = s.memory b := fun b hb => by
    rw [Function.update_of_ne]
    rintro rfl
    exact hdoor hb
  refine ⟨by simp [Scene.store, h.quiet.silent, hv], fun hf => h.taken (hf.congr (keep _ status_inArea).symm),
    fun _ => h.quiet.stand.congr fun b hb => keep b (h.quiet.within b hb), hq, h.older⟩

theorem ringBit_set (v : UInt32) : (v ||| ringBit) &&& ringBit ≠ 0 := by
  have absorb : ∀ x y : Bool, ((x || y) && y) = y := by decide
  have h : (v ||| ringBit) &&& ringBit = ringBit := by
    apply UInt32.eq_of_toBitVec_eq
    ext i hi
    simp only [UInt32.toBitVec_and, UInt32.toBitVec_or, BitVec.getElem_and, BitVec.getElem_or, absorb]
  rw [h]
  decide

theorem inMessage_requestCells (hq : q.args.length ≤ maxWords) : ∀ a ∈ addresses (c.requestCells q), c.InMessage a := by
  intro a ha
  simp only [requestCells, addresses_cons, List.mem_cons] at ha
  rcases ha with rfl | rfl | ha
  · simp only [InMessage, flags, length, payload, maxWords]; omega
  · simp only [InMessage, flags, header, payload, maxWords]; omega
  · have := addresses_adjacent_payload hq a ha
    simp only [InMessage, flags, payload] at this ⊢
    omega

theorem triple_send (hdoor : ¬c.InArea c.doorbell) (hq : q.args.length ≤ maxWords) :
    Triple (Held (c := c) ⟨k, q⟩ (Agents c k [])) (c.send q) (fun _ => Held ⟨k, q⟩ (Rung c ⟨k, q⟩)) F := by
  have hmessage := inMessage_requestCells (c := c) hq
  simp only [requestCells, addresses_cons, List.mem_cons, forall_eq_or_imp] at hmessage
  obtain ⟨hlength, hheader, hpayload⟩ := hmessage
  have hflags : c.InMessage c.flags := by simp only [InMessage, flags, payload]; omega
  refine Triple.bind (Q := fun _ => Held ⟨k, q⟩ (Agents c k []))
    ((triple_write_message hflags List.not_mem_nil hdoor).post fun _ _ h => h.imp fun _ hs => hs.forget) fun _ => ?_
  refine Triple.bind (triple_write_message hlength List.not_mem_nil hdoor) fun _ => ?_
  refine Triple.bind (triple_write_message hheader (by simp [header, length]) hdoor) fun _ => ?_
  refine Triple.bind (triple_writeWords hdoor fun b hb => ⟨hpayload b hb, ?_⟩) fun _ => ?_
  · obtain ⟨i, -, rfl⟩ := mem_addresses_adjacent.mp hb
    simp [payload, header, length]
    omega
  refine Triple.bind (Q := fun _ => Held ⟨k, q⟩ (Handed c k q))
    (triple_write stable_agents (fun hs => ?_) fun s h => Agents.hand (by simpa [requestCells] using h) hdoor) fun _ => ?_
  · simp only [InMessage, status, flags] at hs
    omega
  refine Triple.bind (Q := fun _ => Held ⟨k, q⟩ (Handed c k q))
    ((triple_read stable_handed).post fun _ _ h => h.imp fun _ hs => hs.1) fun v => ?_
  refine triple_write stable_handed (fun hs => absurd ?_ hdoor) fun s h =>
    .waiting (h.rings hdoor hq (ringBit_set _))
  exact ⟨by simp only [InMessage, flags] at hs; omega, hs.2⟩

end SharedMemory
end PowerFirmware
