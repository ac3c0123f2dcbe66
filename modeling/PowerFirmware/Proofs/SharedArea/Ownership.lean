import PowerFirmware.Proofs.SharedArea.World
import PowerFirmware.Proofs.Triple

/-! Who owns the shared area. Main statement: whether the area is the agent's, handed over, the
platform's or answered, no step of the platform breaks it, and an area that is the platform's is freed
only with the reply to its doorbell in it (`Agents.move`, `Handed.move`, `Platforms.move`,
`Answered.move`). -/

namespace PowerFirmware
namespace SharedMemory
open Cells

variable {c : SharedMemory} {s t : Scene} {cells : List Cell} {k : Nat} {q : Request} {ring : Ring}

/-! ### Addresses -/

theorem addresses_adjacent_payload {ws : List UInt32} (h : ws.length ≤ maxWords) :
    ∀ a ∈ addresses (adjacent (c.payload 0) ws), c.payload 0 ≤ a ∧ a < c.payload maxWords := by
  intro a ha
  obtain ⟨i, hi, rfl⟩ := mem_addresses_adjacent.mp ha
  simp only [payload]
  omega

theorem length_inArea : c.InArea c.length := by simp only [InArea, length, payload, maxWords]; omega
theorem header_inArea : c.InArea c.header := by simp only [InArea, header, payload, maxWords]; omega
theorem status_inArea : c.InArea c.status := by simp only [InArea, status, payload, maxWords]; omega

theorem inArea_of_payload {a : Nat} (h : c.payload 0 ≤ a ∧ a < c.payload maxWords) : c.InArea a := by
  simp only [InArea, payload] at h ⊢
  omega

/-- The cells of a message: the words of its payload follow its length and its header. -/
theorem message_inArea {l h : UInt32} {ws : List UInt32} (hws : ws.length ≤ maxWords) :
    ∀ a ∈ addresses ((c.length, l) :: (c.header, h) :: adjacent (c.payload 0) ws), c.InArea a := by
  intro a ha
  simp only [addresses_cons, List.mem_cons] at ha
  rcases ha with rfl | rfl | ha
  · exact length_inArea
  · exact header_inArea
  · exact inArea_of_payload (addresses_adjacent_payload hws a ha)

theorem status_notMem_message {l h : UInt32} {ws : List UInt32} :
    c.status ∉ addresses ((c.length, l) :: (c.header, h) :: adjacent (c.payload 0) ws) := by
  simp only [addresses_cons, List.mem_cons, not_or]
  refine ⟨by simp only [status, length]; omega, by simp only [status, header]; omega, fun ha => ?_⟩
  obtain ⟨i, -, hi⟩ := mem_addresses_adjacent.mp ha
  simp only [status, payload] at hi
  omega

theorem Free.congr {m m' : Nat → UInt32} (h : c.Free m) (heq : m' c.status = m c.status) : c.Free m' := by
  unfold Free at h ⊢
  rwa [heq]

/-! ### Scenes in which nothing is asked of the platform -/

/-- No doorbell is unanswered, and the cells, all in the area, are as the agent or the platform left
    them. -/
structure Quiet (c : SharedMemory) (cells : List Cell) (s : Scene) : Prop where
  silent : s.unanswered = []
  idle : s.answering = false
  stand : Stand cells s.memory
  within : ∀ a ∈ addresses cells, c.InArea a

theorem Quiet.move (h : Quiet c cells s) (m : Move) :
    Quiet c cells (s.move c m) ∧ (s.move c m).answers = s.answers ∧
      ∀ a, c.InArea a → (s.move c m).memory a = s.memory a := by
  cases m with
  | begin => exact ⟨⟨h.silent, by simp [Scene.move, h.silent], h.stand, h.within⟩, rfl, fun _ _ => rfl⟩
  | put a w =>
    by_cases ha : c.InArea a
    · have heq : s.move c (.put a w) = s := by simp [Scene.move, Scene.mayPut, h.idle, ha]
      rw [heq]
      exact ⟨h, rfl, fun _ _ => rfl⟩
    · have heq : s.move c (.put a w) = { s with memory := Function.update s.memory a w } := by
        simp [Scene.move, Scene.mayPut, h.idle, ha]
      have keep : ∀ b, c.InArea b → Function.update s.memory a w b = s.memory b := fun b hb => by
        rw [Function.update_of_ne]
        rintro rfl
        exact ha hb
      rw [heq]
      exact ⟨⟨h.silent, h.idle, h.stand.congr fun b hb => keep b (h.within b hb), h.within⟩, rfl, keep⟩
  | release r =>
    have heq : s.move c (.release r) = s := by simp [Scene.move, h.silent]
    rw [heq]
    exact ⟨h, rfl, fun _ _ => rfl⟩

/-! ### Who owns the area -/

/-- The area is the agent's: it is free, and the given cells stand in it. -/
structure Agents (c : SharedMemory) (k : Nat) (cells : List Cell) (s : Scene) : Prop where
  quiet : Quiet c cells s
  free : c.Free s.memory
  older : ∀ x ∈ s.answers, x.1.call < k

/-- The agent has given the area away with its request, but has not rung yet. -/
structure Handed (c : SharedMemory) (k : Nat) (q : Request) (s : Scene) : Prop where
  quiet : Quiet c (c.requestCells q) s
  taken : ¬c.Free s.memory
  older : ∀ x ∈ s.answers, x.1.call < k

/-- The area is the platform's: one doorbell is unanswered, and its request stands until the platform
    begins to answer. -/
structure Platforms (c : SharedMemory) (ring : Ring) (s : Scene) : Prop where
  one : s.unanswered = [ring]
  taken : ¬c.Free s.memory
  stand : s.answering = false → Stand (c.requestCells ring.request) s.memory
  fits : ring.request.args.length ≤ maxWords
  older : ∀ x ∈ s.answers, x.1.call < ring.call

/-- The agent's area after the doorbell of `ring` has been answered: the reply stands in it. -/
structure Answered (c : SharedMemory) (ring : Ring) (r : Reply) (s : Scene) : Prop where
  quiet : Quiet c ((c.status, r.channelStatus) :: c.replyCells r) s
  answered : ∃ earlier, s.answers = earlier ++ [(ring, r)] ∧ ∀ x ∈ earlier, x.1.call < ring.call

/-- Between two calls, before call `k`: the area is the agent's, or still belongs to the platform on
    account of an earlier call. -/
inductive Settled (c : SharedMemory) (k : Nat) (s : Scene) : Prop
  | agents (h : Agents c k [] s)
  | platforms (ring : Ring) (h : Platforms c ring s) (hk : ring.call < k)

/-- After the doorbell of `ring`: the platform owns the area until it has answered. -/
inductive Rung (c : SharedMemory) (ring : Ring) (s : Scene) : Prop
  | waiting (h : Platforms c ring s)
  | answered (r : Reply) (h : Answered c ring r s)

theorem Agents.move (h : Agents c k cells s) (m : Move) : Agents c k cells (s.move c m) := by
  obtain ⟨hq, ha, hm⟩ := h.quiet.move m
  exact ⟨hq, h.free.congr (hm _ status_inArea), ha ▸ h.older⟩

theorem Handed.move (h : Handed c k q s) (m : Move) : Handed c k q (s.move c m) := by
  obtain ⟨hq, ha, hm⟩ := h.quiet.move m
  exact ⟨hq, fun hf => h.taken (hf.congr (hm _ status_inArea).symm), ha ▸ h.older⟩

theorem Answered.move {r : Reply} (h : Answered c ring r s) (m : Move) : Answered c ring r (s.move c m) := by
  obtain ⟨hq, ha, -⟩ := h.quiet.move m
  exact ⟨hq, ha ▸ h.answered⟩

/-- The platform keeps the area until it releases it with its reply in it. -/
theorem Platforms.move (h : Platforms c ring s) (m : Move) : Rung c ring (s.move c m) := by
  cases m with
  | begin =>
    refine .waiting ⟨h.one, h.taken, fun ha => ?_, h.fits, h.older⟩
    simp [Scene.move, h.one] at ha
  | put a w =>
    simp only [Scene.move]
    split
    · rename_i hput
      refine .waiting ⟨h.one, fun hf => ?_, fun ha => ?_, h.fits, h.older⟩
      · -- Only a release frees the area: other words leave its status, or clear the bit in it.
        by_cases hst : a = c.status
        · subst hst
          simp only [Free, Function.update_self] at hf
          cases hans : s.answering <;> simp [Scene.mayPut, hans, hf, status_inArea] at hput
        · exact h.taken (hf.congr (Function.update_of_ne (Ne.symm hst) _ _).symm)
      · simp only [Scene.mayPut, show s.answering = false from ha, Bool.false_eq_true, if_false,
          Bool.not_eq_true', decide_eq_false_iff_not] at hput
        refine (h.stand ha).congr fun b hb => Function.update_of_ne ?_ _ _
        rintro rfl
        exact hput (message_inArea h.fits b hb)
    · exact .waiting h
  | release r =>
    simp only [Scene.move, h.one]
    split
    · rename_i hrel
      simp only [Bool.and_eq_true, decide_eq_true_eq] at hrel
      refine .answered r ⟨⟨rfl, rfl, ?_, ?_⟩, s.answers, rfl, h.older⟩
      · refine stand_cons.mpr ⟨Function.update_self _ _ _, hrel.2.congr fun a ha => Function.update_of_ne ?_ _ _⟩
        rintro rfl
        exact status_notMem_message ha
      · intro a ha
        rcases List.mem_cons.mp ha with rfl | ha
        · exact status_inArea
        · exact message_inArea r.fits a ha
    · exact .waiting h

theorem Rung.move (h : Rung c ring s) (m : Move) : Rung c ring (s.move c m) := by
  cases h with
  | waiting h => exact h.move m
  | answered r h => exact .answered r (h.move m)

theorem Answered.settled {r : Reply} (h : Answered c ring r s) (hk : ring.call < k) : Settled c k s := by
  refine .agents ⟨⟨h.quiet.silent, h.quiet.idle, stand_nil, fun _ ha => absurd ha List.not_mem_nil⟩, ?_, ?_⟩
  · have hst := (stand_cons.mp h.quiet.stand).1
    simp only at hst
    simp only [Free, hst]
    exact r.frees
  · obtain ⟨earlier, heq, hlt⟩ := h.answered
    intro x hx
    rw [heq, List.mem_append, List.mem_singleton] at hx
    rcases hx with hx | rfl
    · exact Nat.lt_trans (hlt x hx) hk
    · exact hk

theorem Rung.settled (h : Rung c ring s) (hk : ring.call < k) : Settled c k s := by
  cases h with
  | waiting h => exact .platforms ring h hk
  | answered r h => exact h.settled hk

theorem Settled.mono (h : Settled c k s) : Settled c (k + 1) s := by
  cases h with
  | agents h => exact .agents ⟨h.quiet, h.free, fun x hx => Nat.lt_succ_of_lt (h.older x hx)⟩
  | platforms ring h hk => exact .platforms ring h (Nat.lt_succ_of_lt hk)

theorem Settled.move (h : Settled c k s) (m : Move) : Settled c k (s.move c m) := by
  cases h with
  | agents h => exact .agents (h.move m)
  | platforms ring h hk => exact (h.move m).settled hk

theorem Settled.agents_of_free (h : Settled c k s) (hf : c.Free s.memory) : Agents c k [] s := by
  cases h with
  | agents h => exact h
  | platforms ring h => exact absurd hf h.taken

theorem Rung.answered_of_free (h : Rung c ring s) (hf : c.Free s.memory) : ∃ r, Answered c ring r s := by
  cases h with
  | waiting h => exact absurd hf h.taken
  | answered r h => exact ⟨r, h⟩

/-! ### Orderly scenes -/

/-- At most one doorbell is unanswered, and until the platform begins to answer it the area holds
    exactly what the call that rang it asks for. -/
structure Scene.Orderly (c : SharedMemory) (s : Scene) : Prop where
  one : s.unanswered.length ≤ 1
  stand : s.answering = false → ∀ ring ∈ s.unanswered, Stand (c.requestCells ring.request) s.memory

/-- The scene is orderly, and if the agent writes a word of a message next, the area is free. -/
structure Sound (c : SharedMemory) (x : Scene × Action) : Prop where
  orderly : x.1.Orderly c
  owned : ∀ a w, x.2 = .store a w → c.InMessage a → c.Free x.1.memory

/-- What the platform cannot end, and what keeps scenes orderly. -/
structure Stable (c : SharedMemory) (S : Scene → Prop) : Prop where
  move : ∀ s m, S s → S (s.move c m)
  orderly : ∀ s, S s → s.Orderly c

theorem Quiet.orderly (h : Quiet c cells s) : s.Orderly c :=
  ⟨by simp [h.silent], fun _ ring hring => by simp [h.silent] at hring⟩

theorem Platforms.orderly (h : Platforms c ring s) : s.Orderly c := by
  refine ⟨by simp [h.one], fun hidle ring' hring => ?_⟩
  rw [h.one, List.mem_singleton] at hring
  exact hring ▸ h.stand hidle

theorem stable_agents : Stable c (Agents c k cells) := ⟨fun _ m h => h.move m, fun _ h => h.quiet.orderly⟩

theorem stable_handed : Stable c (Handed c k q) := ⟨fun _ m h => h.move m, fun _ h => h.quiet.orderly⟩

theorem stable_answered {r : Reply} : Stable c (Answered c ring r) :=
  ⟨fun _ m h => h.move m, fun _ h => h.quiet.orderly⟩

theorem stable_settled : Stable c (Settled c k) := by
  refine ⟨fun _ m h => h.move m, fun _ h => ?_⟩
  cases h with
  | agents h => exact h.quiet.orderly
  | platforms ring h => exact h.orderly

theorem stable_rung : Stable c (Rung c ring) := by
  refine ⟨fun _ m h => h.move m, fun _ h => ?_⟩
  cases h with
  | waiting h => exact h.orderly
  | answered r h => exact h.quiet.orderly

end SharedMemory
end PowerFirmware
