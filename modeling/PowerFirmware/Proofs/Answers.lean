import PowerFirmware.Proofs.Requests

/-! Runs that always answer: nothing in them is out of range or waits without end. Main statement: sending
a command is such a run, however the System Manager replies (`concludes_send`). -/

namespace PowerFirmware
namespace Run
variable {σ α β ε τ ι : Type}

/-- The run answers from every state. -/
def Answers (x : Run σ α) : Prop := ∀ s, ∃ a t, x s = (.ok a, t)

namespace Answers

theorem pure {a : α} : Answers (Pure.pure a : Run σ α) := fun s => ⟨a, s, rfl⟩

theorem update {f : σ → σ} : Answers (Run.update f) := fun s => ⟨(), f s, rfl⟩

theorem access {f : σ → α × σ} : Answers (Run.access f) := fun s => ⟨(f s).1, (f s).2, rfl⟩

theorem view {f : σ → α} : Answers (Run.view f) := fun s => ⟨f s, s, rfl⟩

theorem bind {x : Run σ α} {f : α → Run σ β} (hx : Answers x) (hf : ∀ a, Answers (f a)) : Answers (x >>= f) := by
  intro s
  obtain ⟨a, t, hxs⟩ := hx s
  obtain ⟨b, u, hft⟩ := hf a t
  exact ⟨b, u, (bind_of_ok hxs).trans hft⟩

theorem mapM {f : ι → Run σ α} (hf : ∀ i, Answers (f i)) : ∀ is : List ι, Answers (is.mapM f)
  | [] => by
    rw [List.mapM_nil]
    exact pure
  | i :: is => by
    rw [List.mapM_cons]
    exact bind (hf i) fun _ => bind (mapM hf is) fun _ => pure

theorem forM {f : ι → Run σ PUnit} (hf : ∀ i, Answers (f i)) : ∀ is : List ι, Answers (is.forM f)
  | [] => pure
  | i :: is => bind (hf i) fun _ => forM hf is

theorem lift {x : Run σ α} (hx : Answers x) {c : τ} : Answers ((liftM x : StateT τ (Run σ) α).run c) := by
  refine bind hx fun a => ?_
  exact pure

theorem forM_state {f : ι → StateT τ (Run σ) PUnit} (hf : ∀ i c, Answers ((f i).run c)) :
    ∀ {is : List ι} {c : τ}, Answers ((is.forM f).run c)
  | [], _ => pure
  | i :: _, c => bind (hf i c) fun _ => forM_state hf

theorem readWords [Machine σ] : ∀ {count a : Nat}, Answers (PowerFirmware.readWords a count : Run σ (List UInt32))
  | 0, _ => pure
  | _ + 1, _ => bind access fun _ => bind readWords fun _ => pure

end Answers

section Failing
variable {x : ExceptT ε (StateT τ (Run σ)) α} {f : α → ExceptT ε (StateT τ (Run σ)) β} {c d : τ} {s t : σ}

theorem bind_of_success {a : α} (h : x c s = (.ok (.ok a, d), t)) : (x >>= f) c s = f a d t :=
  bind_of_ok (x := x.run.run c) h

theorem bind_of_failure {e : ε} (h : x c s = (.ok (.error e, d), t)) : (x >>= f) c s = (.ok (.error e, d), t) :=
  bind_of_ok (x := x.run.run c) h

theorem liftM_of_ok {y : Run σ α} {a : α} (h : y s = (.ok a, t)) :
    (liftM y : ExceptT ε (StateT τ (Run σ)) α) c s = (.ok (.ok a, c), t) :=
  bind_of_ok (x := y >>= fun a => pure (a, c)) (bind_of_ok h)

end Failing

/-- A run that may fail and keeps a state of its own answers, from every state of both kinds. -/
def Concludes (x : ExceptT ε (StateT τ (Run σ)) α) : Prop := ∀ c, Answers (x.run.run c)

namespace Concludes

theorem pure {a : α} : Concludes (Pure.pure a : ExceptT ε (StateT τ (Run σ)) α) := fun _ => Answers.pure

theorem throw {e : ε} : Concludes (throw e : ExceptT ε (StateT τ (Run σ)) α) := fun _ => Answers.pure

theorem get : Concludes (get : ExceptT ε (StateT τ (Run σ)) τ) := fun _ => Answers.pure

theorem set {c : τ} : Concludes (set c : ExceptT ε (StateT τ (Run σ)) PUnit) := fun _ => Answers.pure

theorem modify {f : τ → τ} : Concludes (modify f : ExceptT ε (StateT τ (Run σ)) PUnit) := fun _ => Answers.pure

theorem bind {x : ExceptT ε (StateT τ (Run σ)) α} {f : α → ExceptT ε (StateT τ (Run σ)) β} (hx : Concludes x)
    (hf : ∀ a, Concludes (f a)) : Concludes (x >>= f) := by
  refine fun c => Answers.bind (hx c) ?_
  rintro ⟨_ | a, d⟩
  · exact Answers.pure
  · exact hf a d

theorem run {x : Run σ α} (h : Answers x) : Concludes (liftM x : ExceptT ε (StateT τ (Run σ)) α) := by
  intro c
  exact Answers.bind (Answers.bind h fun _ => Answers.pure) fun _ => Answers.pure

theorem ite {b : Prop} [Decidable b] {x y : ExceptT ε (StateT τ (Run σ)) α} (hx : Concludes x) (hy : Concludes y) :
    Concludes (if b then x else y) := by
  split
  · exact hx
  · exact hy

end Concludes
end Run

open Run

/-- A run that always answers does so as it is known to. -/
theorem Run.Does.answers {κ α : Type} {env : Environment κ} {x : Run (History env) α} {Φ : α → List (Event κ) → Prop}
    (hx : Does x Φ) (h : Answers x) (past : History env) :
    ∃ a L, x past = (.ok a, past.add L) ∧ env.Allows past.events L ∧ Φ a L := by
  obtain ⟨L, hL, allowed, hΦ⟩ := hx past
  obtain ⟨a, t, hxs⟩ := h past
  rw [hxs] at hL hΦ
  cases hL
  exact ⟨a, L, hxs, allowed, hΦ⟩

section Requests
variable {κ α : Type} {env : Environment κ} {region : DmaRegion (History env)} {cmd : Scmi.Command}

theorem answers_accept {response : Response} :
    Answers (Scmi.Client.accept cmd response : Run (History env) (Except Scmi.Error Unit)) := by
  unfold Scmi.Client.accept
  dsimp only
  split
  · exact .bind .update fun _ => .pure
  · split
    · exact .bind .update fun _ => .pure
    · split <;> exact .pure

theorem concludes_call : Concludes (Scmi.Client.call (env.platform region).manager cmd) := by
  unfold Scmi.Client.call
  split
  · exact .throw
  · refine .bind (.bind .get fun _ => .bind .set fun _ => .pure) fun token => .bind (.run .access) ?_
    rintro ⟨_ | response, words⟩
    · exact .throw
    · refine .bind (.run answers_accept) fun o => ?_
      cases o with
      | error e => exact .throw
      | ok _ => exact .pure

theorem concludes_request {call : Scmi.Call (History env) α} (h : Concludes call) :
    Concludes (Platform.request call : Hook (History env) κ α) := by
  refine .bind .get fun c => .bind (.run (h c.client)) ?_
  rintro ⟨_ | a, client⟩
  · exact .bind .set fun _ => .throw
  · exact .bind .set fun _ => .pure

theorem concludes_send : Concludes ((env.platform region).send cmd) :=
  concludes_request (.bind concludes_call fun _ => .pure)

end Requests
end PowerFirmware
