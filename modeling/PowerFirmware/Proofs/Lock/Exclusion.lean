import PowerFirmware.Proofs.Lock.World
import PowerFirmware.Proofs.Triple

/-! The lock excludes the System Manager. Main statement: while the processor holds the lock, the manager is
not in its critical section (`held_excludes_manager`).

The processor waits between its writing of the turn and the look that lets it in. Meanwhile a manager that
is in its critical section has the turn (`Orderly.waiting`), so neither look can succeed, and once one has
succeeded a manager that waits does not have the turn (`Orderly.holding`). -/

namespace PowerFirmware.ManagerLock
open Run

variable {l : ManagerLock} {w t : World l} {budget : PollBudget} {F : World l → Prop}

/-- Where the processor is with the lock. -/
inductive Position
  | outside
  | asking
  | waiting
  | holding
  deriving DecidableEq

variable {p : Position}

/-- What the flags, the turn and the manager are while the processor is at the given position. -/
structure Orderly (p : Position) (w : World l) : Prop where
  managerFlag : w.memory l.managerFlag = 0 ↔ w.stage = .idle
  ownFlag : w.memory l.ownFlag = 0 ↔ p = .outside
  waiting : p = .waiting → (w.memory.word l.turn = 0 ∨ w.memory.word l.turn = 1) ∧
    (w.stage = .critical → w.memory.word l.turn = 0)
  holding : p = .holding → w.stage ≠ .critical ∧ (w.stage = .waiting → w.memory.word l.turn = 1)

/-! ### Single writes -/

section Writes
variable {b : UInt8} {v : UInt32}

@[simp] theorem put_managerFlag_managerFlag : (w.put l.managerFlag b).memory l.managerFlag = b := Bytes.put_self

@[simp] theorem put_managerFlag_ownFlag : (w.put l.managerFlag b).memory l.ownFlag = w.memory l.ownFlag :=
  Bytes.put_of_ne (by simp [managerFlag, ownFlag])

@[simp] theorem put_managerFlag_turn : (w.put l.managerFlag b).memory.word l.turn = w.memory.word l.turn :=
  Bytes.word_put_of_outside (by simp only [managerFlag, turn]; omega)

@[simp] theorem put_ownFlag_managerFlag : (w.put l.ownFlag b).memory l.managerFlag = w.memory l.managerFlag :=
  Bytes.put_of_ne (by simp [managerFlag, ownFlag])

@[simp] theorem put_ownFlag_ownFlag : (w.put l.ownFlag b).memory l.ownFlag = b := Bytes.put_self

@[simp] theorem putWord_turn_managerFlag : (w.putWord l.turn v).memory l.managerFlag = w.memory l.managerFlag :=
  Bytes.putWord_of_outside (by simp only [managerFlag, turn]; omega)

@[simp] theorem putWord_turn_ownFlag : (w.putWord l.turn v).memory l.ownFlag = w.memory l.ownFlag :=
  Bytes.putWord_of_outside (by simp only [ownFlag, turn]; omega)

@[simp] theorem putWord_turn_turn : (w.putWord l.turn v).memory.word l.turn = v := Bytes.word_putWord_self

end Writes

/-! ### The manager's steps -/

theorem Orderly.move (h : Orderly p w) (m : Move) : Orderly p (w.move m) := by
  cases m with
  | ask =>
    rw [World.move]
    split
    · refine ⟨by simp, by simpa using h.ownFlag, fun hp => ?_, fun _ => by simp⟩
      simpa using (h.waiting hp).1
    · exact h
  | yield =>
    rw [World.move]
    split
    · rename_i hstage
      refine ⟨?_, by simpa using h.ownFlag, fun _ => by simp, fun _ => by simp⟩
      simpa [hstage] using h.managerFlag
    · exact h
  | lookFlag =>
    rw [World.move]
    split
    · -- The processor has not asked, so nothing is to be shown of a wait or of the lock being held.
      rename_i hlook
      obtain rfl := h.ownFlag.mp hlook.2
      refine ⟨?_, h.ownFlag, nofun, nofun⟩
      simpa [hlook.1] using h.managerFlag
    · exact h
  | lookTurn =>
    rw [World.move]
    split
    · rename_i hlook
      refine ⟨?_, h.ownFlag, fun hp => ?_, fun hp => absurd ((h.holding hp).2 hlook.1) hlook.2⟩
      · simpa [hlook.1] using h.managerFlag
      · obtain ⟨hturn, -⟩ := h.waiting hp
        exact ⟨hturn, fun _ => hturn.resolve_right hlook.2⟩
    · exact h
  | leave =>
    rw [World.move]
    split
    · refine ⟨by simp, by simpa using h.ownFlag, fun hp => ?_, fun _ => by simp⟩
      simpa using (h.waiting hp).1
    · exact h

theorem Orderly.moves (h : Orderly p w) (ms : List Move) : Orderly p (ms.foldl World.move w) := by
  induction ms generalizing w with
  | nil => exact h
  | cons m ms ih => exact ih (h.move m)

theorem Orderly.interlude (h : Orderly p w) : Orderly p w.interlude := by
  obtain ⟨hmanager, hown, hwaiting, hholding⟩ := h.moves (w.script w.accesses)
  exact ⟨hmanager, hown, hwaiting, hholding⟩

/-! ### The processor's steps -/

theorem Orderly.ask (h : Orderly p w) : Orderly .asking (w.put l.ownFlag 1) :=
  ⟨by simpa using h.managerFlag, by simp, nofun, nofun⟩

theorem Orderly.yield (h : Orderly .asking w) : Orderly .waiting (w.putWord l.turn 0) :=
  ⟨by simpa using h.managerFlag, by simpa using h.ownFlag, fun _ => by simp, nofun⟩

theorem Orderly.release (h : Orderly p w) : Orderly .outside (w.put l.ownFlag 0) :=
  ⟨by simpa using h.managerFlag, by simp, nofun, nofun⟩

/-- A look at a manager that does not ask lets the processor in. -/
theorem Orderly.hold_of_flag (h : Orderly .waiting w) (hflag : w.memory l.managerFlag = 0) : Orderly .holding w := by
  have hidle := h.managerFlag.mp hflag
  refine ⟨h.managerFlag, by simpa using h.ownFlag, nofun, fun _ => ?_⟩
  rw [hidle]
  exact ⟨nofun, nofun⟩

/-- A look at a turn that the manager has given away lets the processor in. -/
theorem Orderly.hold_of_turn (h : Orderly .waiting w) (hturn : w.memory.word l.turn ≠ 0) : Orderly .holding w := by
  obtain ⟨hone, hcritical⟩ := h.waiting rfl
  exact ⟨h.managerFlag, by simpa using h.ownFlag, nofun, fun _ =>
    ⟨fun hstage => hturn (hcritical hstage), fun _ => hone.resolve_left hturn⟩⟩

/-! ### The processor's operations -/

theorem triple_mayEnter : Triple (Orderly .waiting) l.mayEnter
    (fun b t => match b with | true => Orderly .holding t | false => Orderly .waiting t) F := by
  refine .bind (Q := fun b t => Orderly .waiting t ∧ t.memory l.managerFlag = b)
    (.access fun w h => ⟨h.interlude, rfl⟩) fun flag => ?_
  split
  · rename_i hzero
    refine .pure fun t ht => ht.1.hold_of_flag ?_
    rw [ht.2]
    exact eq_of_beq hzero
  · refine .bind (Q := fun v t => Orderly .waiting t ∧ t.memory.word l.turn = v)
      (.access fun w h => ⟨h.1.interlude, rfl⟩) fun turn => .pure fun t ht => ?_
    rcases hturn : turn != 0 with _ | _
    · exact ht.1
    · refine ht.1.hold_of_turn ?_
      rw [ht.2]
      exact bne_iff_ne.mp hturn

theorem triple_release : Triple (Orderly p) l.release (fun _ => Orderly .outside) F :=
  .update fun _ h => h.interlude.release

theorem triple_acquire : Triple (Orderly (l := l) .outside) (l.acquire budget)
    (fun r t => match r with | .ok () => Orderly .holding t | .error _ => Orderly .outside t) fun _ => True := by
  refine .bind (Q := fun _ => Orderly .asking) (.update fun _ h => h.interlude.ask) fun _ => ?_
  refine .bind (Q := fun _ => Orderly .waiting) (.update fun _ h => h.interlude.yield) fun _ => ?_
  refine .bind (Triple.pollUntil ⟨triple_mayEnter, fun _ h => h.interlude, fun _ _ _ h => h, fun _ _ => trivial⟩)
    fun r => ?_
  cases r with
  | ok _ => exact .pure fun _ h => h
  | error e => exact .bind triple_release fun _ => .pure fun _ h => h

/-! ### Any number of acquisitions -/

theorem World.IsStart.orderly (h : w.IsStart) : Orderly .outside w :=
  ⟨iff_of_true h.managerFlag h.stage, iff_of_true h.ownFlag rfl, nofun, nofun⟩

theorem Orderly.congr (h : Orderly p w) (hmemory : ∀ a, l.Covers a → t.memory a = w.memory a)
    (hstage : t.stage = w.stage) : Orderly p t := by
  have hturn : t.memory.word l.turn = w.memory.word l.turn :=
    Bytes.word_congr fun j hj => hmemory _ (.inr (.inr ⟨by omega, by omega⟩))
  obtain ⟨h₁, h₂, h₃, h₄⟩ := h
  rw [← hmemory _ (.inl rfl), ← hstage] at h₁
  rw [← hmemory _ (.inr (.inl rfl))] at h₂
  rw [← hturn, ← hstage] at h₃ h₄
  exact ⟨h₁, h₂, h₃, h₄⟩

theorem Reachable.orderly {held : Bool} (h : Reachable l held w) :
    Orderly (if held then .holding else .outside) w := by
  induction h with
  | start h => exact h.orderly
  | move m _ ih => exact ih.move m
  | aside _ hmemory hstage ih => exact ih.congr hmemory hstage
  | acquired _ heq ih => exact triple_acquire.ok ih heq
  | gaveUp _ heq ih => exact triple_acquire.ok ih heq
  | released _ heq ih => exact (triple_release (F := fun _ => True)).ok ih heq

/-- However the steps of both sides fall, and however often the processor has given up, the manager is not in
    its critical section while the processor holds the lock. -/
theorem held_excludes_manager (h : Reachable l true w) : w.stage ≠ .critical := (h.orderly.holding rfl).1

/-- The manager is in its critical section when the processor first asks, and leaves it, only to ask again,
    while the processor asks for the second time. -/
def contended : World ⟨0⟩ where
  memory _ := 0
  stage := .idle
  script
    | 0 => [.ask, .yield, .lookFlag]
    | 16 => [.leave, .ask, .yield, .lookFlag, .lookTurn]
    | 17 => [.lookTurn]
    | _ => []
  clock _ := 0
  patience := 1

theorem held_excludes_manager_contended :
    ∃ w : World ⟨0⟩, Reachable ⟨0⟩ true w ∧ w.stage = .waiting ∧ w.stage ≠ .critical := by
  have hstart : contended.IsStart := ⟨rfl, rfl, rfl⟩
  obtain ⟨s, t, hfirst, hsecond, hstage⟩ : ∃ s t, acquire ⟨0⟩ (.within 0) contended = (.ok (.error ⟨0⟩), s) ∧
      acquire ⟨0⟩ (.within 0) s = (.ok (.ok ()), t) ∧ t.stage = .waiting := ⟨_, _, rfl, rfl, rfl⟩
  have hheld : Reachable ⟨0⟩ true t := .acquired (.gaveUp (.start hstart) hfirst) hsecond
  exact ⟨t, hheld, hstage, held_excludes_manager hheld⟩

end PowerFirmware.ManagerLock
