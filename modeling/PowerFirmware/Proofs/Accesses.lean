import PowerFirmware.Proofs.Waits

/-! Which registers a run accesses. Main statements: a wait accesses its own register alone, also if it never
ends (`Stays.poll`), and adjacent words are accessed one after the other (`DoesOr.readWords`,
`DoesOr.writeWords`). -/

namespace PowerFirmware
open Cells Run

variable {κ α : Type} {env : Environment κ} {A B : Nat → Prop} {L M : List (Event κ)} {a : Nat}
variable {cells : List Cell}

/-- The register that an access reads or writes. -/
def Event.address? : Event κ → Option Nat
  | .read a _ | .write a _ => some a
  | _ => none

/-- Every register that is read or written is in `A`. -/
def Touches (A : Nat → Prop) (L : List (Event κ)) : Prop := ∀ e ∈ L, ∀ a, e.address? = some a → A a

@[simp] theorem touches_nil : Touches A ([] : List (Event κ)) := fun _ he => absurd he List.not_mem_nil

@[simp] theorem touches_cons {e : Event κ} : Touches A (e :: L) ↔ (∀ a, e.address? = some a → A a) ∧ Touches A L :=
  List.forall_mem_cons

@[simp] theorem touches_append : Touches A (L ++ M) ↔ Touches A L ∧ Touches A M := List.forall_mem_append

theorem Touches.imp (h : Touches A L) (hAB : ∀ a, A a → B a) : Touches B L := fun e he a ha => hAB a (h e he a ha)

@[simp] theorem touches_reads : ∀ {cells : List Cell},
    Touches A (reads cells : List (Event κ)) ↔ ∀ a ∈ addresses cells, A a
  | [] => by simp [reads]
  | x :: xs => by
    show Touches A (.read x.1 x.2 :: reads xs) ↔ _
    rw [touches_cons, touches_reads, addresses_cons, List.forall_mem_cons]
    simp [Event.address?]

@[simp] theorem touches_writes : ∀ {cells : List Cell},
    Touches A (writes cells : List (Event κ)) ↔ ∀ a ∈ addresses cells, A a
  | [] => by simp [writes]
  | x :: xs => by
    show Touches A (.write x.1 x.2 :: writes xs) ↔ _
    rw [touches_cons, touches_writes, addresses_cons, List.forall_mem_cons]
    simp [Event.address?]

theorem touches_writes_map {ι : Type} {f : ι → Nat} {g : ι → UInt32} {is : List ι} (h : ∀ i ∈ is, A (f i)) :
    Touches A (writes (is.map fun i => (f i, g i)) : List (Event κ)) := by
  rw [touches_writes, addresses_map]
  exact List.forall_mem_map.mpr h

/-- What the first events are not comes after all of them. -/
theorem prefix_of_split {P : Event κ → Prop} {before after : List (Event κ)} {e : Event κ} (h : ∀ f ∈ L, ¬P f)
    (heq : L ++ M = before ++ e :: after) (he : P e) : L <+: before := by
  rcases List.append_eq_append_iff.mp heq with ⟨rest, rfl, -⟩ | ⟨rest, rfl, hrest⟩
  · exact List.prefix_append L rest
  · cases rest with
    | nil => rw [List.append_nil]
    | cons f rest =>
      obtain rfl : e = f := (List.cons.inj hrest).1
      exact absurd he (h e (List.mem_append_right _ List.mem_cons_self))

theorem Run.Watches.touches (h : Watches a L) (ha : A a) : Touches A L := by
  intro e he b hb
  rcases h e he with ⟨w, rfl⟩ | ⟨t, rfl⟩
  · cases hb
    exact ha
  · cases hb

/-! ### Runs that stay in a set of registers -/

/-- However the run ends, every register that it accesses is in `A`. -/
def Stays {E : Environment κ} (A : Nat → Prop) (x : Run (History E) α) : Prop :=
  DoesOr (Touches A) x fun _ L => Touches A L

theorem Stays.poll {budget : PollBudget} {test : UInt32 → Bool} (ha : A a) :
    Stays (E := env) A (pollUntil budget (do return test (← read32 a))) :=
  DoesOr.pollUntil (fun _ _ h => h.watches.touches ha) fun _ h => h.watches.touches ha

/-! ### Adjacent words -/

namespace Run.DoesOr

theorem readWords : ∀ {count a : Nat} {F : List (Event κ) → Prop}, DoesOr (E := env) F (readWords a count) fun ws L =>
    ws.length = count ∧ L = reads (adjacent a ws)
  | 0, _, _ => .pure ⟨rfl, rfl⟩
  | count + 1, a, _ => by
    refine .bind (.read fun w => .bind (readWords.imp ?_ fun _ h => h))
    rintro ws _ ⟨hlength, rfl⟩
    exact .pure ⟨by rw [List.length_cons, hlength], by simp [reads, adjacent]⟩

theorem writeWords : ∀ {ws : List UInt32} {a : Nat} {F : List (Event κ) → Prop},
    DoesOr (E := env) F (writeWords a ws) fun _ L => L = writes (adjacent a ws)
  | [], _, _ => .pure rfl
  | w :: ws, a, _ => by
    refine .bind (.write (writeWords.imp ?_ fun _ h => h))
    rintro _ _ rfl
    rfl

end Run.DoesOr
end PowerFirmware
