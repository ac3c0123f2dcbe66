import PowerFirmware.Proofs.Answers
import PowerFirmware.Proofs.Contents
import PowerFirmware.Proofs.Waits

/-! Runs over plain registers. Main statements: a run put together of reads yields what the registers hold
and changes nothing (`Finds.bind`), and a run put together of writes and waits writes its cells in order,
or a first part of them before a wait without end (`Writes.bind`). -/

namespace PowerFirmware
open Cells Run

variable {κ α β ι : Type} {env : Environment κ} {masksOf : κ → Nat → UInt32} {m : Contents} {L M : List (Event κ)}
variable {a : Nat} {w : UInt32} {xs ys cells : List Cell}

/-! ### Reading -/

/-- From every history the run only reads, and yields what `v` makes of what the registers hold. -/
def Finds {E : Environment κ} (masksOf : κ → Nat → UInt32) (m : Contents) (x : Run (History E) α)
    (v : (Nat → UInt32) → α) : Prop :=
  ∀ past, ∃ L, x past = (.ok (v (past.contents masksOf m).registers), past.add L) ∧ ∀ e ∈ L, e.isRead = true

theorem History.contents_add_reads {past : History env} (h : ∀ e ∈ L, e.isRead = true) :
    (past.add L).contents masksOf m = past.contents masksOf m := by
  rw [History.contents, History.events_add, Contents.replay_append]
  refine Contents.replay_eq fun e he => ?_
  have hread := h e he
  cases e <;> first | rfl | cases hread

namespace Finds
variable {x : Run (History env) α} {v v' : (Nat → UInt32) → α}

theorem congr (h : Finds masksOf m x v) (heq : ∀ n, v n = v' n) : Finds masksOf m x v' := by
  rwa [← funext heq]

theorem pure {a : α} : Finds (E := env) masksOf m (Pure.pure a) fun _ => a := fun past =>
  ⟨[], by rw [past.add_nil]; rfl, fun _ he => absurd he List.not_mem_nil⟩

theorem log {level : Level} {message : String} : Finds (E := env) masksOf m (log level message) fun _ => () := fun past =>
  ⟨[], by rw [past.add_nil]; rfl, fun _ he => absurd he List.not_mem_nil⟩

/-- What goes on finds the registers as the first part did. -/
theorem bind {f : α → Run (History env) β} {u : α → (Nat → UInt32) → β} (hx : Finds masksOf m x v)
    (hf : ∀ a, Finds masksOf m (f a) (u a)) : Finds masksOf m (x >>= f) fun n => u (v n) n := by
  intro past
  obtain ⟨L, hxp, hL⟩ := hx past
  obtain ⟨M, hfp, hM⟩ := hf (v (past.contents masksOf m).registers) (past.add L)
  rw [History.contents_add_reads hL, History.add_add] at hfp
  exact ⟨L ++ M, (bind_of_ok hxp).trans hfp, fun e he => (List.mem_append.mp he).elim (hL e) (hM e)⟩

theorem mapM {f : ι → Run (History env) α} {v : ι → (Nat → UInt32) → α} (h : ∀ i, Finds masksOf m (f i) (v i)) :
    ∀ is : List ι, Finds masksOf m (is.mapM f) fun n => is.map (v · n)
  | [] => by
    rw [List.mapM_nil]
    exact pure
  | i :: is => by
    rw [List.mapM_cons]
    exact bind (h i) fun _ => bind (mapM h is) fun _ => pure

variable (hplain : env.Plain masksOf m)
include hplain

theorem read : Finds (E := env) masksOf m (read32 a) (· a) := by
  refine fun past => ⟨[.read a (env.load past.events a)], ?_, fun e he => ?_⟩
  · show read32 a past = (.ok ((m.replay masksOf past.events).registers a), _)
    rw [← hplain.load]
    rfl
  · rw [List.mem_singleton.mp he]
    rfl

theorem readDouble : Finds (E := env) masksOf m (read64 a) fun n => LittleEndian.ofHalves (n a) (n (a + 4)) :=
  bind (read hplain) fun _ => bind (read hplain) fun _ => pure

theorem readWords : ∀ {count a : Nat},
    Finds (E := env) masksOf m (readWords a count) fun n => (List.range count).map fun i => n (a + 4 * i)
  | 0, _ => pure
  | count + 1, a => by
    refine (bind (read hplain) fun _ => bind readWords fun _ => pure).congr fun n => ?_
    rw [List.range_succ_eq_map, List.map_cons, List.map_map]
    refine congrArg _ (List.map_congr_left fun i _ => congrArg n ?_)
    omega

end Finds

/-! ### Writing -/

/-- The cell that an access writes. -/
def Event.cell? : Event κ → Option Cell
  | .write a w => some (a, w)
  | _ => none

/-- All that was written, the latest last. -/
def written (L : List (Event κ)) : List Cell := L.filterMap Event.cell?

@[simp] theorem written_append : written (L ++ M) = written L ++ written M := List.filterMap_append

theorem Run.Watches.written_eq (h : Watches a L) : written L = [] := by
  refine List.filterMap_eq_nil_iff.mpr fun e he => ?_
  rcases h e he with ⟨w, rfl⟩ | ⟨t, rfl⟩ <;> rfl

/-- Registers hold what was written last. -/
theorem registers_replay : ∀ {L : List (Event κ)} {m : Contents},
    (m.replay masksOf L).registers = overwrite m.registers (written L)
  | [], _ => rfl
  | e :: L, m => by
    rw [Contents.replay_cons, registers_replay]
    cases e <;> rfl

/-- The run writes the cells in order, or waits without end after a first part of them. -/
def Writes {E : Environment κ} (x : Run (History E) α) (cells : List Cell) : Prop :=
  DoesOr (fun L => E.Endless L ∧ written L <+: cells) x fun _ L => written L = cells

namespace Writes
variable {x : Run (History env) α}

theorem congr (h : Writes x xs) (heq : xs = ys) : Writes x ys := heq ▸ h

theorem pure {a : α} : Writes (E := env) (Pure.pure a) [] := DoesOr.pure rfl

theorem log {level : Level} {message : String} : Writes (E := env) (log level message) [] := DoesOr.log rfl

theorem write : Writes (E := env) (write32 a w) [(a, w)] := DoesOr.write rfl

theorem bind {f : α → Run (History env) β} (hx : Writes x xs) (hf : ∀ a, Writes (f a) ys) :
    Writes (x >>= f) (xs ++ ys) := by
  refine DoesOr.bind (hx.imp (fun a L hL => (hf a).imp (fun b M hM => ?_) fun M hM => ?_) fun L hL => ?_)
  · rw [written_append, hL, hM]
  · rw [written_append, hL]
    exact ⟨hM.1.append, (List.prefix_append_right_inj xs).mpr hM.2⟩
  · exact ⟨hL.1, hL.2.trans (List.prefix_append xs ys)⟩

theorem forM {f : ι → Run (History env) PUnit} {cells : ι → List Cell} (h : ∀ i, Writes (f i) (cells i)) :
    ∀ is : List ι, Writes (is.forM f) (is.flatMap cells)
  | [] => pure
  | i :: is => bind (h i) fun _ => forM h is

theorem each {f : ι → Run (History env) PUnit} {cell : ι → Cell} (h : ∀ i, Writes (f i) [cell i]) (is : List ι) :
    Writes (is.forM f) (is.map cell) :=
  (forM h is).congr (List.map_eq_flatMap).symm

theorem writeDouble {w : UInt64} :
    Writes (E := env) (write64 a w) [(a, w.toUInt32), (a + 4, (w >>> 32).toUInt32)] :=
  bind write fun _ => write

theorem poll {test : UInt32 → Bool} :
    Writes (E := env) (pollUntil env.budget (do return test (← read32 a))) [] :=
  DoesOr.pollUntil (fun _ _ h => h.watches.written_eq) fun _ h => ⟨h.endless, h.watches.written_eq ▸ List.prefix_rfl⟩

/-- How a run that writes ends, and that no access writes anything but the next of the cells. -/
theorem outcome (h : Writes x cells) (past : History env) :
    ∃ L outcome, x past = (outcome, past.add L) ∧ written L <+: cells ∧
      (outcome = .error .hung ∧ env.Endless L ∨ ∃ a, outcome = .ok a ∧ written L = cells) := by
  obtain ⟨L, outcome, heq, -, hend⟩ := DoesOr.outcome h past
  refine ⟨L, outcome, heq, ?_⟩
  rcases hend with ⟨hhung, hL⟩ | ⟨a, hok, hL⟩
  · exact ⟨hL.2, .inl ⟨hhung, hL.1⟩⟩
  · exact ⟨hL ▸ List.prefix_rfl, .inr ⟨a, hok, hL⟩⟩

end Writes
end PowerFirmware
