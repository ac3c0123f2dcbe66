import PowerFirmware.Proofs.Environment

/-! What a run does in an environment, by the events that it adds to the history. Main statement: the events
of a run put together of others are theirs, one after the other (`DoesOr.bind`), also if it keeps a state of
its own and may fail (`Acts.bind`).

A run that does not answer waits without end, and its events end in that wait. -/

namespace PowerFirmware
namespace Run
variable {κ α β : Type} {env : Environment κ} {Φ Ψ : α → List (Event κ) → Prop} {a : Nat} {w : UInt32}
variable {F G : List (Event κ) → Prop}

/-- After any history the run answers and adds events as `Φ` says, or hangs and adds events as `F` says. -/
def DoesOr {E : Environment κ} (F : List (Event κ) → Prop) (x : Run (History E) α) (Φ : α → List (Event κ) → Prop) :
    Prop :=
  ∀ h, ∃ L, (x h).2 = h.add L ∧ E.Allows h.events L ∧ match (x h).1 with
    | .ok a => Φ a L
    | .error f => f = .hung ∧ F L

/-- After any history the run answers and adds events as `Φ` says, or waits without end. -/
def Does {E : Environment κ} (x : Run (History E) α) (Φ : α → List (Event κ) → Prop) : Prop := DoesOr E.Endless x Φ

namespace DoesOr

theorem imp {x : Run (History env) α} (hx : DoesOr F x Φ) (h : ∀ a L, Φ a L → Ψ a L) (hF : ∀ L, F L → G L) :
    DoesOr G x Ψ := by
  intro past
  obtain ⟨L, hL, allowed, hΦ⟩ := hx past
  refine ⟨L, hL, allowed, ?_⟩
  split at hΦ
  · exact h _ _ hΦ
  · exact ⟨hΦ.1, hF L hΦ.2⟩

theorem pure {a : α} (h : Φ a []) : DoesOr (E := env) F (Pure.pure a) Φ :=
  fun past => ⟨[], past.add_nil.symm, trivial, h⟩

/-- The events of a run come before those of the run that goes on with its answer. -/
theorem bind {x : Run (History env) α} {f : α → Run (History env) β} {Ψ : β → List (Event κ) → Prop}
    (h : DoesOr F x fun a L => DoesOr (fun M => F (L ++ M)) (f a) fun b M => Ψ b (L ++ M)) :
    DoesOr F (x >>= f) Ψ := by
  intro past
  obtain ⟨L, hL, allowed, hx⟩ := h past
  rw [bind_apply]
  rcases hxp : x past with ⟨_ | b, t⟩
  · rw [hxp] at hL hx
    exact ⟨L, hL, allowed, hx⟩
  · rw [hxp] at hL hx
    obtain ⟨M, hM, hallowed, hf⟩ := hx t
    simp only at hL
    subst hL
    exact ⟨L ++ M, by rw [hM, History.add_add], Environment.allows_append.mpr ⟨allowed, hallowed⟩, hf⟩

theorem read {Φ : UInt32 → List (Event κ) → Prop} (h : ∀ w, Φ w [.read a w]) :
    DoesOr (E := env) F (read32 a) Φ :=
  fun past => ⟨[.read a (env.load past.events a)], rfl, ⟨rfl, trivial⟩, h _⟩

theorem write {Φ : Unit → List (Event κ) → Prop} (h : Φ () [.write a w]) : DoesOr (E := env) F (write32 a w) Φ :=
  fun _ => ⟨[.write a w], rfl, ⟨trivial, trivial⟩, h⟩

/-- An access that yields nothing. -/
theorem did {e : Event κ} {Φ : Unit → List (Event κ) → Prop} (hy : ∀ events, env.Yields events e) (h : Φ () [e]) :
    DoesOr (E := env) F (update (·.add [e])) Φ :=
  fun past => ⟨[e], rfl, ⟨hy past.events, trivial⟩, h⟩

theorem view {f : History env → α} (h : ∀ past, Φ (f past) []) : DoesOr F (Run.view f) Φ :=
  fun past => ⟨[], past.add_nil.symm, trivial, h past⟩

theorem log {level : Level} {message : String} {Φ : Unit → List (Event κ) → Prop} (h : Φ () []) :
    DoesOr (E := env) F (log level message) Φ :=
  fun past => ⟨[], past.add_nil.symm, trivial, h⟩

/-- What is known of one run in two ways is known of the same events. -/
theorem and {x : Run (History env) α} (hΦ : DoesOr F x Φ) (hΨ : DoesOr G x Ψ) :
    DoesOr (fun L => F L ∧ G L) x fun a L => Φ a L ∧ Ψ a L := by
  intro past
  obtain ⟨L, hL, allowed, hΦ⟩ := hΦ past
  obtain ⟨M, hM, -, hΨ⟩ := hΨ past
  obtain rfl : L = M := History.add_inj.mp (hL.symm.trans hM)
  refine ⟨L, hL, allowed, ?_⟩
  split
  · rename_i hx
    rw [hx] at hΦ hΨ
    exact ⟨hΦ, hΨ⟩
  · rename_i hx
    rw [hx] at hΦ hΨ
    exact ⟨hΦ.1, hΦ.2, hΨ.2⟩

/-- A sequence of runs none of which hangs. -/
theorem forM {ι : Type} {f : ι → Run (History env) PUnit} {events : ι → List (Event κ)} :
    ∀ {is : List ι} {F : List (Event κ) → Prop}, (∀ i ∈ is, ∀ F, DoesOr F (f i) fun _ L => L = events i) →
      DoesOr F (is.forM f) fun _ L => L = is.flatMap events
  | [], _, _ => .pure rfl
  | i :: is, F, h => by
    refine bind ((h i List.mem_cons_self F).imp ?_ fun _ hF => hF)
    rintro _ _ rfl
    refine (forM fun j hj => h j (List.mem_cons_of_mem i hj)).imp ?_ fun _ hF => hF
    rintro _ _ rfl
    simp

/-- How a run ends: with an answer, or without end. -/
theorem outcome {x : Run (History env) α} (hx : DoesOr F x Φ) (past : History env) :
    ∃ L outcome, x past = (outcome, past.add L) ∧ env.Allows past.events L ∧
      (outcome = .error .hung ∧ F L ∨ ∃ a, outcome = .ok a ∧ Φ a L) := by
  obtain ⟨L, hL, allowed, h⟩ := hx past
  refine ⟨L, _, Prod.ext rfl hL, allowed, ?_⟩
  split at h <;> rename_i hout
  · exact .inr ⟨_, hout, h⟩
  · exact .inl ⟨hout.trans (by rw [h.1]), h.2⟩

section Exchanges
variable {n : Nat} {q : Request} {buffer : Vector UInt32 n} {region : DmaRegion (History env)}

theorem manager {Φ : Delivery n → List (Event κ) → Prop}
    (h : ∀ outcome payload, Φ (outcome, overlay payload buffer) [.manager ⟨q, outcome, payload⟩]) :
    DoesOr F ((env.platform region).manager.transact q buffer) Φ :=
  fun past => ⟨[.manager ⟨q, (env.manager past.events q).1, (env.manager past.events q).2⟩], rfl, ⟨rfl, trivial⟩, h _ _⟩

theorem enclave {Φ : Delivery n → List (Event κ) → Prop}
    (h : ∀ outcome payload, Φ (outcome, overlay payload buffer) [.enclave ⟨q, outcome, payload⟩]) :
    DoesOr F ((env.platform region).enclave.channel.transact q buffer) Φ :=
  fun past => ⟨[.enclave ⟨q, (env.enclave past.events q).1, (env.enclave past.events q).2⟩], rfl, ⟨rfl, trivial⟩, h _ _⟩

end Exchanges
end DoesOr

namespace Does

theorem pure {a : α} (h : Φ a []) : Does (E := env) (Pure.pure a) Φ := DoesOr.pure h

theorem imp {x : Run (History env) α} (hx : Does x Φ) (h : ∀ a L, Φ a L → Ψ a L) : Does x Ψ :=
  DoesOr.imp hx h fun _ hL => hL

theorem bind {x : Run (History env) α} {f : α → Run (History env) β} {Ψ : β → List (Event κ) → Prop}
    (h : Does x fun a L => Does (f a) fun b M => Ψ b (L ++ M)) : Does (x >>= f) Ψ :=
  DoesOr.bind (h.imp fun _ _ hf => DoesOr.imp hf (fun _ _ hΨ => hΨ) fun _ hM => hM.append)

theorem and {x : Run (History env) α} (hΦ : Does x Φ) (hΨ : Does x Ψ) : Does x fun a L => Φ a L ∧ Ψ a L :=
  (DoesOr.and hΦ hΨ).imp (fun _ _ h => h) fun _ h => h.1

/-! ### Sequences -/

theorem mapM {ι : Type} {f : ι → Run (History env) α} {events : ι → α → List (Event κ)} {P : ι → α → Prop} :
    ∀ {is : List ι}, (∀ i ∈ is, Does (f i) fun a L => P i a ∧ L = events i a) →
      Does (is.mapM f) fun as L => as.length = is.length ∧ (∀ x ∈ is.zip as, P x.1 x.2) ∧
        L = (List.zipWith events is as).flatten
  | [], _ => by
    rw [List.mapM_nil]
    exact .pure ⟨rfl, fun _ hx => absurd hx List.not_mem_nil, rfl⟩
  | i :: is, h => by
    rw [List.mapM_cons]
    refine bind ((h i List.mem_cons_self).imp ?_)
    rintro a _ ⟨ha, rfl⟩
    refine bind ((mapM fun j hj => h j (List.mem_cons_of_mem i hj)).imp ?_)
    rintro as _ ⟨hlength, has, rfl⟩
    refine .pure ⟨by rw [List.length_cons, hlength, List.length_cons], fun x hx => ?_, by simp⟩
    rcases List.mem_cons.mp hx with rfl | hx
    · exact ha
    · exact has x hx

/-! ### Runs that keep a state of their own -/

section State
variable {τ : Type} {c : τ}

theorem lift {x : Run (History env) α} {Φ : α × τ → List (Event κ) → Prop} (h : Does x fun a L => Φ (a, c) L) :
    Does ((liftM x : StateT τ (Run (History env)) α).run c) Φ := by
  refine Does.bind (h.imp fun a L ha => Does.pure ?_)
  simpa using ha

/-- A sequence of runs that leave the state as it is and add no events. -/
theorem forM_idle {ι : Type} {f : ι → StateT τ (Run (History env)) PUnit} {Φ : PUnit × τ → List (Event κ) → Prop}
    (hf : ∀ i Ψ, Ψ (⟨⟩, c) [] → Does (E := env) ((f i).run c) Ψ) :
    ∀ {is : List ι}, Φ (⟨⟩, c) [] → Does (E := env) ((is.forM f).run c) Φ
  | [], h => .pure h
  | i :: is, h => by
    refine Does.bind ?_
    exact hf i _ (forM_idle hf h)

end State
end Does

/-! ### Runs that keep a state of their own and may fail -/

section Failing
variable {ε τ : Type}

/-- From the given state of its own the run answers or fails, keeps another state and adds events, all as
    `Φ` says, or it waits without end. -/
def Acts {E : Environment κ} (x : ExceptT ε (StateT τ (Run (History E))) α) (c : τ)
    (Φ : Except ε α → τ → List (Event κ) → Prop) : Prop :=
  Does (x.run.run c) fun r => Φ r.1 r.2

namespace Acts
variable {Φ Ψ : Except ε α → τ → List (Event κ) → Prop} {c : τ}

theorem imp {x : ExceptT ε (StateT τ (Run (History env))) α} (hx : Acts x c Φ) (h : ∀ r d L, Φ r d L → Ψ r d L) :
    Acts x c Ψ :=
  Does.imp hx fun r => h r.1 r.2

theorem and {x : ExceptT ε (StateT τ (Run (History env))) α} (hΦ : Acts x c Φ) (hΨ : Acts x c Ψ) :
    Acts x c fun r d L => Φ r d L ∧ Ψ r d L :=
  Does.and hΦ hΨ

theorem pure {a : α} (h : Φ (.ok a) c []) : Acts (E := env) (Pure.pure a) c Φ := Does.pure h

theorem throw {e : ε} (h : Φ (.error e) c []) : Acts (E := env) (throw e) c Φ := Does.pure h

/-- What goes on after a failure is the failure. -/
theorem bind {x : ExceptT ε (StateT τ (Run (History env))) α} {f : α → ExceptT ε (StateT τ (Run (History env))) β}
    {Ψ : Except ε β → τ → List (Event κ) → Prop}
    (h : Acts x c fun r d L => match r with
      | .ok a => Acts (f a) d fun r' e M => Ψ r' e (L ++ M)
      | .error e => Ψ (.error e) d L) : Acts (x >>= f) c Ψ := by
  refine Does.bind (Does.imp h fun r L hr => ?_)
  rcases r with ⟨_ | a, d⟩
  · exact Does.pure (by simpa using hr)
  · exact hr

theorem run {x : Run (History env) α} (h : Does x fun a L => Φ (.ok a) c L) :
    Acts (liftM x : ExceptT ε (StateT τ (Run (History env))) α) c Φ := by
  refine Does.bind (Does.bind (h.imp fun a L ha => Does.pure ?_))
  exact Does.pure (by simpa using ha)

theorem state {x : StateT τ (Run (History env)) α} (h : Does (x.run c) fun r L => Φ (.ok r.1) r.2 L) :
    Acts (liftM x : ExceptT ε (StateT τ (Run (History env))) α) c Φ := by
  refine Does.bind (h.imp fun r L hr => Does.pure ?_)
  simpa using hr

theorem get {Φ : Except ε τ → τ → List (Event κ) → Prop} (h : Φ (.ok c) c []) : Acts (E := env) get c Φ :=
  Does.pure h

theorem set {d : τ} {Φ : Except ε PUnit → τ → List (Event κ) → Prop} (h : Φ (.ok ()) d []) :
    Acts (E := env) (set d) c Φ := Does.pure h

theorem modify {g : τ → τ} {Φ : Except ε PUnit → τ → List (Event κ) → Prop} (h : Φ (.ok ()) (g c) []) :
    Acts (E := env) (modify g) c Φ := Does.pure h

/-- How a run ends: without end, or with an answer. -/
theorem outcome {x : ExceptT ε (StateT τ (Run (History env))) α} (hx : Acts x c Φ) (past : History env) :
    ∃ L outcome, x c past = (outcome, past.add L) ∧ env.Allows past.events L ∧
      (outcome = .error .hung ∧ env.Endless L ∨ ∃ r d, outcome = .ok (r, d) ∧ Φ r d L) := by
  obtain ⟨L, outcome, heq, allowed, hend⟩ := DoesOr.outcome hx past
  exact ⟨L, outcome, heq, allowed, hend.imp_right fun ⟨r, hr⟩ => ⟨r.1, r.2, hr⟩⟩

theorem answered {x : ExceptT ε (StateT τ (Run (History env))) α} (hx : Acts x c Φ) {past t : History env}
    {r : Except ε α} {d : τ} (h : x c past = (.ok (r, d), t)) :
    ∃ L, t = past.add L ∧ env.Allows past.events L ∧ Φ r d L := by
  obtain ⟨L, outcome, heq, allowed, hend⟩ := hx.outcome past
  rw [h] at heq
  cases heq
  rcases hend with ⟨hhung, -⟩ | ⟨_, _, hok, hΦ⟩
  · cases hhung
  · cases hok
    exact ⟨L, rfl, allowed, hΦ⟩

end Acts

end Failing
end Run
end PowerFirmware
