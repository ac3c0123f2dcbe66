import PowerFirmware.Poll

/-! Runs that are never out of range. Main statements: what is put together of such runs is such a run
(`InRange.bind`), also if it keeps a state of its own and may fail (`Meets.bind`), and a wait is one if
each of its looks is (`InRange.pollUntil`). -/

namespace PowerFirmware
namespace Run
variable {σ α β ι : Type} {Q Q' : α → Prop} {R : β → Prop}

/-- From every state the run is not out of range, and what it yields is in `Q`. It may wait without end. -/
def InRange (x : Run σ α) (Q : α → Prop) : Prop :=
  ∀ s, (x s).1 ≠ .error .outOfRange ∧ ∀ a, (x s).1 = .ok a → Q a

namespace InRange

theorem imp {x : Run σ α} (h : InRange x Q) (hQ : ∀ a, Q a → Q' a) : InRange x Q' :=
  fun s => ⟨(h s).1, fun a ha => hQ a ((h s).2 a ha)⟩

theorem pure {a : α} (h : Q a) : InRange (Pure.pure a : Run σ α) Q :=
  fun _ => ⟨nofun, fun _ ha => Except.ok.inj ha ▸ h⟩

theorem hang : InRange (throw .hung : Run σ α) Q := fun _ => ⟨nofun, nofun⟩

theorem bind {x : Run σ α} {f : α → Run σ β} (hx : InRange x Q) (hf : ∀ a, Q a → InRange (f a) R) :
    InRange (x >>= f) R := by
  intro s
  obtain ⟨hrange, hQ⟩ := hx s
  rw [bind_apply]
  rcases hxs : x s with ⟨e | a, t⟩
  · refine ⟨fun he => ?_, nofun⟩
    cases he
    exact hrange (congrArg Prod.fst hxs)
  · exact hf a (hQ a (congrArg Prod.fst hxs)) t

theorem access {f : σ → α × σ} (h : ∀ s, Q (f s).1) : InRange (Run.access f) Q :=
  fun s => ⟨nofun, fun _ ha => Except.ok.inj ha ▸ h s⟩

theorem update {f : σ → σ} : InRange (Run.update f) fun _ => True := fun _ => ⟨nofun, fun _ _ => trivial⟩

theorem view {f : σ → α} (h : ∀ s, Q (f s)) : InRange (Run.view f) Q :=
  fun s => ⟨nofun, fun _ ha => Except.ok.inj ha ▸ h s⟩

theorem ite {b : Prop} [Decidable b] {x y : Run σ α} (hx : InRange x Q) (hy : InRange y Q) :
    InRange (if b then x else y) Q := by
  split
  · exact hx
  · exact hy

/-- A part of a run that is left out unless asked for. -/
theorem part {x : Run σ α} {a : α} {f : α → Run σ β} {b : Bool} (hx : InRange x Q) (ha : Q a)
    (hf : ∀ a, Q a → InRange (f a) R) : InRange (if b then x >>= f else Pure.pure a >>= f) R :=
  ite (bind hx hf) (bind (pure ha) hf)

/-- What goes on is the same with or without the part. -/
theorem when {x : Run σ Unit} {f : Unit → Run σ β} {b : Bool} (hx : InRange x fun _ => True) (hf : InRange (f ()) R) :
    InRange (if b then x >>= f else f ()) R :=
  ite (bind hx fun _ _ => hf) hf

theorem mapM {f : ι → Run σ α} : ∀ {is : List ι}, (∀ i ∈ is, InRange (f i) Q) →
    InRange (is.mapM f) fun as => as.length = is.length ∧ ∀ a ∈ as, Q a
  | [], _ => by
    rw [List.mapM_nil]
    exact pure ⟨rfl, fun _ ha => absurd ha List.not_mem_nil⟩
  | i :: is, h => by
    rw [List.mapM_cons]
    refine bind (h i List.mem_cons_self) fun a ha => ?_
    refine bind (mapM fun j hj => h j (List.mem_cons_of_mem i hj)) ?_
    rintro as ⟨hlength, has⟩
    exact pure ⟨congrArg Nat.succ hlength, List.forall_mem_cons.mpr ⟨ha, has⟩⟩

theorem forM {f : ι → Run σ PUnit} : ∀ {is : List ι}, (∀ i ∈ is, InRange (f i) fun _ => True) →
    InRange (is.forM f) fun _ => True
  | [], _ => pure trivial
  | i :: _, h => bind (h i List.mem_cons_self) fun _ _ => forM fun j hj => h j (List.mem_cons_of_mem i hj)

section Accesses
variable [Machine σ] {a : Nat}

theorem read : InRange (read32 a : Run σ UInt32) fun _ => True := access fun _ => trivial

theorem readWords : ∀ {count a : Nat}, InRange (readWords a count : Run σ (List UInt32)) fun ws => ws.length = count
  | 0, _ => pure rfl
  | _ + 1, _ => bind read fun _ _ => bind readWords fun _ hws => pure (congrArg Nat.succ hws)

theorem writeWords : ∀ {ws : List UInt32} {a : Nat}, InRange (writeWords a ws : Run σ Unit) fun _ => True
  | [], _ => pure trivial
  | _ :: _, _ => bind update fun _ _ => writeWords

theorem modify {clear set : UInt32} : InRange (modify32 a clear set : Run σ Unit) fun _ => True :=
  bind read fun _ _ => update

theorem pollRounds {limit : Option UInt64} {start : UInt64} {done : Run σ Bool} (h : InRange done fun _ => True) :
    ∀ rounds, InRange (pollRounds limit start done rounds) fun _ => True
  | 0 => hang
  | rounds + 1 => by
    have ih : InRange (PowerFirmware.pollRounds limit start done rounds) fun _ => True := pollRounds h rounds
    refine bind h fun b _ => ite (pure trivial) ?_
    cases limit with
    | none => exact ih
    | some most =>
      refine bind (Q := fun _ => True) (access fun _ => trivial) fun present _ => ite ?_ ih
      exact bind h fun b _ => ite (pure trivial) (bind update fun _ _ => pure trivial)

theorem pollUntil {budget : PollBudget} {done : Run σ Bool} (h : InRange done fun _ => True) :
    InRange (pollUntil budget done) fun _ => True := by
  refine bind h fun b _ => ite (pure trivial) ?_
  refine bind (Q := fun _ => True) (access fun _ => trivial) fun start _ => ?_
  exact bind (Q := fun _ => True) (view fun _ => trivial) fun rounds _ => pollRounds h rounds

end Accesses
end InRange

/-! ### Runs that keep a state of their own and may fail -/

section Failing
variable {ε τ : Type} {I : τ → Prop} {E : ε → Prop}

/-- A failure is in `E`, and what else comes out is in `Q`. -/
def Ends (E : ε → Prop) (Q : α → Prop) : Except ε α → Prop
  | .ok a => Q a
  | .error e => E e

/-- The run is never out of range, and keeps a state in `I` there. -/
def Keeps (I : τ → Prop) (x : StateT τ (Run σ) α) (Q : α → Prop) : Prop :=
  ∀ c, I c → InRange (x.run c) fun r => Q r.1 ∧ I r.2

namespace Keeps

theorem pure {a : α} (h : Q a) : Keeps I (Pure.pure a : StateT τ (Run σ) α) Q := fun _ hc => InRange.pure ⟨h, hc⟩

theorem bind {x : StateT τ (Run σ) α} {f : α → StateT τ (Run σ) β} (hx : Keeps I x Q)
    (hf : ∀ a, Q a → Keeps I (f a) R) : Keeps I (x >>= f) R :=
  fun c hc => InRange.bind (hx c hc) fun r hr => hf r.1 hr.1 r.2 hr.2

theorem run {x : Run σ α} (h : InRange x Q) : Keeps I (liftM x : StateT τ (Run σ) α) Q :=
  fun _ hc => InRange.bind h fun _ ha => InRange.pure ⟨ha, hc⟩

theorem get : Keeps I (get : StateT τ (Run σ) τ) I := fun _ hc => InRange.pure ⟨hc, hc⟩

theorem set {d : τ} (h : I d) : Keeps I (set d : StateT τ (Run σ) PUnit) fun _ => True :=
  fun _ _ => InRange.pure ⟨trivial, h⟩

theorem forM {f : ι → StateT τ (Run σ) PUnit} : ∀ {is : List ι}, (∀ i ∈ is, Keeps I (f i) fun _ => True) →
    Keeps I (is.forM f) fun _ => True
  | [], _ => pure trivial
  | i :: _, h => bind (h i List.mem_cons_self) fun _ _ => forM fun j hj => h j (List.mem_cons_of_mem i hj)

end Keeps

/-- The run keeps a state in `I` there, fails only in `E`, and yields what is in `Q`. -/
def Meets (I : τ → Prop) (E : ε → Prop) (x : ExceptT ε (StateT τ (Run σ)) α) (Q : α → Prop) : Prop :=
  Keeps I x.run (Ends E Q)

namespace Meets

theorem pure {a : α} (h : Q a) : Meets I E (Pure.pure a : ExceptT ε (StateT τ (Run σ)) α) Q := Keeps.pure h

theorem throw {e : ε} (h : E e) : Meets I E (throw e : ExceptT ε (StateT τ (Run σ)) α) Q := Keeps.pure h

/-- What goes on after a failure is the failure. -/
theorem bind {x : ExceptT ε (StateT τ (Run σ)) α} {f : α → ExceptT ε (StateT τ (Run σ)) β} (hx : Meets I E x Q)
    (hf : ∀ a, Q a → Meets I E (f a) R) : Meets I E (x >>= f) R := by
  refine Keeps.bind hx fun o ho => ?_
  cases o with
  | error e => exact Keeps.pure ho
  | ok a => exact hf a ho

theorem state {x : StateT τ (Run σ) α} (h : Keeps I x Q) :
    Meets I E (liftM x : ExceptT ε (StateT τ (Run σ)) α) Q :=
  fun c hc => InRange.bind (h c hc) fun _ hr => InRange.pure hr

theorem run {x : Run σ α} (h : InRange x Q) : Meets I E (liftM x : ExceptT ε (StateT τ (Run σ)) α) Q :=
  state (Keeps.run h)

theorem get : Meets I E (get : ExceptT ε (StateT τ (Run σ)) τ) I := fun _ hc => InRange.pure ⟨hc, hc⟩

theorem set {d : τ} (h : I d) : Meets I E (set d : ExceptT ε (StateT τ (Run σ)) PUnit) fun _ => True :=
  fun _ _ => InRange.pure ⟨trivial, h⟩

theorem modify {f : τ → τ} (h : ∀ c, I c → I (f c)) :
    Meets I E (modify f : ExceptT ε (StateT τ (Run σ)) PUnit) fun _ => True :=
  fun _ hc => InRange.pure ⟨trivial, h _ hc⟩

theorem ite {b : Prop} [Decidable b] {x y : ExceptT ε (StateT τ (Run σ)) α} (hx : Meets I E x Q) (hy : Meets I E y Q) :
    Meets I E (if b then x else y) Q := by
  split
  · exact hx
  · exact hy

end Meets
end Failing
end Run
end PowerFirmware
