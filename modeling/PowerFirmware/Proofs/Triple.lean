import PowerFirmware.Poll

/-! What holds after a run of firmware, by what held before it. Main statement: a condition that each
look of a wait keeps is kept by the whole wait, and a wait that succeeds ends with a look that held
(`Triple.pollUntil`). -/

namespace PowerFirmware
namespace Run
variable {σ α β : Type} {P P' : σ → Prop} {Q Q' R : α → σ → Prop} {F : σ → Prop}

/-- From states in `P`, the run answers in `Q`, or stops without an answer in `F`. -/
def Triple (P : σ → Prop) (x : Run σ α) (Q : α → σ → Prop) (F : σ → Prop) : Prop :=
  ∀ s, P s → match x s with
    | (.ok a, t) => Q a t
    | (.error _, t) => F t

namespace Triple

theorem imp {x : Run σ α} (h : Triple P x Q F) (hP : ∀ s, P' s → P s) (hQ : ∀ a s, Q a s → Q' a s) :
    Triple P' x Q' F := by
  intro s hs
  have hx := h s (hP s hs)
  split at hx
  · exact hQ _ _ hx
  · exact hx

theorem pre {x : Run σ α} (h : Triple P x Q F) (hP : ∀ s, P' s → P s) : Triple P' x Q F :=
  h.imp hP fun _ _ hq => hq

theorem post {x : Run σ α} (h : Triple P x Q F) (hQ : ∀ a s, Q a s → Q' a s) : Triple P x Q' F :=
  h.imp (fun _ hs => hs) hQ

theorem pure {a : α} (h : ∀ s, P s → Q a s) : Triple P (Pure.pure a) Q F := h

theorem throw {e : Fault} (h : ∀ s, P s → F s) : Triple P (throw e : Run σ α) Q F := h

theorem bind {x : Run σ α} {f : α → Run σ β} {S : β → σ → Prop} (hx : Triple P x Q F)
    (hf : ∀ a, Triple (Q a) (f a) S F) : Triple P (x >>= f) S F := by
  intro s hs
  have h := hx s hs
  rw [bind_apply]
  rcases hxs : x s with ⟨r, t⟩
  rw [hxs] at h
  cases r with
  | ok a => exact hf a t h
  | error e => exact h

theorem update {f : σ → σ} {Q : Unit → σ → Prop} (h : ∀ s, P s → Q () (f s)) : Triple P (Run.update f) Q F := h

theorem access {f : σ → α × σ} (h : ∀ s, P s → Q (f s).1 (f s).2) : Triple P (Run.access f) Q F := h

theorem view {f : σ → α} (h : ∀ s, P s → Q (f s) s) : Triple P (Run.view f) Q F := h

/-- A precondition that does not speak of the state may be assumed outright. -/
theorem of_imp {φ : Prop} {x : Run σ α} (h : φ → Triple P x Q F) : Triple (fun s => φ ∧ P s) x Q F :=
  fun s hs => h hs.1 s hs.2

theorem of_forall {ι : Type} {P : ι → σ → Prop} {x : Run σ α} (h : ∀ i, Triple (P i) x Q F) :
    Triple (fun s => ∃ i, P i s) x Q F :=
  fun s ⟨i, hs⟩ => h i s hs

/-- A run that answers does so in `Q`. -/
theorem ok {x : Run σ α} (h : Triple P x Q F) {s t : σ} {a : α} (hs : P s) (hx : x s = (.ok a, t)) : Q a t := by
  have := h s hs
  rwa [hx] at this

theorem error {x : Run σ α} (h : Triple P x Q F) {s t : σ} {e : Fault} (hs : P s) (hx : x s = (.error e, t)) :
    F t := by
  have := h s hs
  rwa [hx] at this

/-! ### Waiting -/

section Waiting
variable [Machine σ] {I D : σ → Prop} {done : Run σ Bool} {budget : PollBudget}

/-- What a wait relies on: looks, readings of the clock and messages keep `I`, a look that holds ends
    in `D`, and a wait that never ends leaves the state in `F`. -/
structure Waits (I D F : σ → Prop) (done : Run σ Bool) : Prop where
  look : Triple I done (fun b t => match b with | true => D t | false => I t) F
  tick : ∀ s, I s → I (Machine.tick s).2
  note : ∀ level message s, I s → I (Machine.note level message s)
  hung : ∀ s, I s → F s

theorem pollRounds (h : Waits I D F done) (limit : Option UInt64) (start : UInt64) : ∀ rounds,
    Triple I (pollRounds limit start done rounds) (fun r t => match r with | .ok () => D t | .error _ => I t) F
  | 0 => throw h.hung
  | rounds + 1 => by
    have ih := pollRounds h limit start rounds
    refine bind h.look fun b => ?_
    cases b with
    | true => exact pure fun _ hs => hs
    | false =>
      cases limit with
      | none => exact ih
      | some most =>
        refine bind (Q := fun _ => I) (access h.tick) fun present => ?_
        dsimp only
        split
        · refine bind h.look fun b => ?_
          cases b with
          | true => exact pure fun _ hs => hs
          | false => exact bind (Q := fun _ => I) (update (h.note _ _)) fun _ => pure fun _ hs => hs
        · exact ih

theorem pollUntil (h : Waits I D F done) :
    Triple I (pollUntil budget done) (fun r t => match r with | .ok () => D t | .error _ => I t) F := by
  refine bind h.look fun b => ?_
  cases b with
  | true => exact pure fun _ hs => hs
  | false =>
    refine bind (Q := fun _ => I) (access h.tick) fun start => ?_
    exact bind (Q := fun _ => I) (view fun _ hs => hs) fun rounds => pollRounds h _ _ rounds

end Waiting
end Triple
end Run
end PowerFirmware
