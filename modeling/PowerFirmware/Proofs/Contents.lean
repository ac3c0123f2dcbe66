import PowerFirmware.Proofs.Environment

/-! Plain registers, and an interrupt controller that puts back what it saved. Main statement: in such an
environment what happened says what every register holds, and what was read is what it held
(`Environment.Plain.consistent`). -/

namespace PowerFirmware
open Cells

/-- What the registers hold, and the enable masks of the interrupt controller. -/
structure Contents where
  registers : Nat → UInt32
  masks : Nat → UInt32

variable {κ : Type} {env : Environment κ} {masksOf : κ → Nat → UInt32} {m : Contents} {L M : List (Event κ)}
variable {cells : List Cell}

def Event.isChange : Event κ → Bool
  | write .. | restoreGic _ => true
  | _ => false

namespace Contents

/-- The contents after an event; `masksOf` is what a saved controller puts back. -/
def after (masksOf : κ → Nat → UInt32) (m : Contents) : Event κ → Contents
  | .write a w => { m with registers := Function.update m.registers a w }
  | .restoreGic k => { m with masks := masksOf k }
  | _ => m

def replay (masksOf : κ → Nat → UInt32) (m : Contents) (L : List (Event κ)) : Contents := L.foldl (after masksOf) m

def put (m : Contents) (cells : List Cell) : Contents := { m with registers := overwrite m.registers cells }

/-- The event yields what the contents hold. -/
def Agrees (masksOf : κ → Nat → UInt32) (m : Contents) : Event κ → Prop
  | .read a w => m.registers a = w
  | .enableMask bank w => m.masks bank = w
  | .saveGic k => masksOf k = m.masks
  | _ => True

def Consistent (masksOf : κ → Nat → UInt32) (m : Contents) : List (Event κ) → Prop
  | [] => True
  | e :: L => m.Agrees masksOf e ∧ (m.after masksOf e).Consistent masksOf L

end Contents

/-- The environment holds `m` at first, a read yields what was written last, and the masks that a saved
    controller puts back are those it was saved with. -/
structure Environment.Plain (env : Environment κ) (masksOf : κ → Nat → UInt32) (m : Contents) : Prop where
  load : ∀ L a, env.load L a = (m.replay masksOf L).registers a
  enableMask : ∀ L bank, env.enableMask L bank = (m.replay masksOf L).masks bank
  saveGic : ∀ L k, masksOf (env.saveGic L k) = (m.replay masksOf L).masks

/-- The environment with plain registers, and a controller that saves its masks. -/
def Environment.holding (env : Environment (Nat → UInt32)) (m : Contents) : Environment (Nat → UInt32) :=
  { env with
    load L a := (m.replay id L).registers a
    saveGic L _ := (m.replay id L).masks
    enableMask L bank := (m.replay id L).masks bank }

theorem Environment.plain_holding {env : Environment (Nat → UInt32)} : (env.holding m).Plain id m :=
  ⟨fun _ _ => rfl, fun _ _ => rfl, fun _ _ => rfl⟩

def History.contents (masksOf : κ → Nat → UInt32) (m : Contents) (h : History env) : Contents :=
  m.replay masksOf h.events

namespace Contents

@[simp] theorem registers_put : (m.put cells).registers = overwrite m.registers cells := rfl
@[simp] theorem masks_put : (m.put cells).masks = m.masks := rfl

theorem put_put {xs ys : List Cell} : (m.put xs).put ys = m.put (xs ++ ys) := by
  simp only [put, overwrite_append]

theorem put_of_stand (h : Stand cells m.registers) : m.put cells = m := by
  simp only [put, overwrite_of_stand h]

theorem put_undone {xs ys : List Cell} (h : Stand ys m.registers) (hsub : ∀ a ∈ addresses xs, a ∈ addresses ys) :
    (m.put xs).put ys = m := by
  simp only [put, overwrite_undone h hsub]

theorem replay_append : m.replay masksOf (L ++ M) = (m.replay masksOf L).replay masksOf M := List.foldl_append

theorem replay_cons {e : Event κ} : m.replay masksOf (e :: L) = (m.after masksOf e).replay masksOf L := rfl

theorem consistent_append : ∀ {L : List (Event κ)} {m : Contents},
    m.Consistent masksOf (L ++ M) ↔ m.Consistent masksOf L ∧ (m.replay masksOf L).Consistent masksOf M
  | [], _ => by simp [Consistent, replay]
  | e :: L, m => by
    rw [List.cons_append, Consistent, Consistent, consistent_append, replay_cons, and_assoc]

/-- Only writes and restores change the contents. -/
theorem replay_eq : ∀ {L : List (Event κ)}, (∀ e ∈ L, e.isChange = false) → m.replay masksOf L = m
  | [], _ => rfl
  | e :: L, h => by
    have he : m.after masksOf e = m := by
      cases e with
      | write => cases h _ List.mem_cons_self
      | restoreGic => cases h _ List.mem_cons_self
      | _ => rfl
    rw [replay_cons, he, replay_eq fun e' he' => h e' (List.mem_cons_of_mem e he')]

theorem replay_writes : ∀ {cells : List Cell} {m : Contents},
    m.replay masksOf (writes cells) = m.put cells
  | [], _ => rfl
  | x :: xs, m => by
    show (m.after masksOf (.write x.1 x.2)).replay masksOf (writes xs) = _
    rw [replay_writes]
    rfl

theorem replay_reads : m.replay masksOf (reads cells) = m := by
  refine replay_eq fun e he => ?_
  obtain ⟨x, -, rfl⟩ := List.mem_map.mp he
  rfl

theorem consistent_reads : ∀ {cells : List Cell}, m.Consistent masksOf (reads cells) ↔ Stand cells m.registers
  | [] => by simp [reads, Consistent]
  | x :: xs => by
    show m.registers x.1 = x.2 ∧ m.Consistent masksOf (reads xs) ↔ _
    rw [consistent_reads, stand_cons]

end Contents

open Contents

theorem Environment.Plain.consistent (h : env.Plain masksOf m) : ∀ {L past : List (Event κ)}, env.Allows past L →
    (m.replay masksOf past).Consistent masksOf L
  | [], _, _ => trivial
  | e :: L, past, hL => by
    have hrest := h.consistent hL.2
    rw [replay_append] at hrest
    refine ⟨?_, hrest⟩
    have he := hL.1
    cases e with
    | read a w => exact ((h.load past a).symm.trans he.symm)
    | enableMask bank w => exact ((h.enableMask past bank).symm.trans he.symm)
    | saveGic k =>
      obtain ⟨k₀, rfl⟩ := he
      exact h.saveGic past k₀
    | _ => trivial

end PowerFirmware
