import Mathlib.Data.List.Nodup
import Mathlib.Logic.Function.Basic
import PowerFirmware.Machine

/-! Words at addresses. Main statements: words written one after the other to distinct addresses all
stand afterwards (`stand_overwrite`), and a memory is as before when every word that was disturbed has
been put back (`overwrite_undone`). -/

namespace PowerFirmware

/-- A word and the address it belongs to. -/
abbrev Cell := Nat × UInt32

namespace Cells
variable {m m' : Nat → UInt32} {cells xs ys : List Cell} {a : Nat} {ws : List UInt32}

/-- Every cell's word is at its address. -/
def Stand (cells : List Cell) (m : Nat → UInt32) : Prop := ∀ x ∈ cells, m x.1 = x.2

def addresses (cells : List Cell) : List Nat := cells.map (·.1)

/-- A memory after the cells have been written in order. -/
def overwrite (m : Nat → UInt32) : List Cell → Nat → UInt32
  | [] => m
  | x :: xs => overwrite (Function.update m x.1 x.2) xs

/-- Adjacent words, the first of them at `a`. -/
def adjacent (a : Nat) : List UInt32 → List Cell
  | [] => []
  | w :: ws => (a, w) :: adjacent (a + 4) ws

@[simp] theorem addresses_nil : addresses [] = [] := rfl
@[simp] theorem addresses_cons {x : Cell} : addresses (x :: xs) = x.1 :: addresses xs := rfl
@[simp] theorem addresses_append : addresses (xs ++ ys) = addresses xs ++ addresses ys := List.map_append

theorem addresses_map {ι : Type} {f : ι → Nat} {g : ι → UInt32} {is : List ι} :
    addresses (is.map fun i => (f i, g i)) = is.map f := List.map_map

@[simp] theorem stand_nil : Stand [] m := fun _ h => absurd h List.not_mem_nil

@[simp] theorem stand_cons {x : Cell} : Stand (x :: xs) m ↔ m x.1 = x.2 ∧ Stand xs m := by
  simp [Stand]

@[simp] theorem stand_append : Stand (xs ++ ys) m ↔ Stand xs m ∧ Stand ys m := by
  simp only [Stand, List.mem_append, or_imp, forall_and]

theorem Stand.congr (h : Stand cells m) (heq : ∀ a ∈ addresses cells, m' a = m a) : Stand cells m' := by
  intro x hx
  rw [heq x.1 (List.mem_map_of_mem hx)]
  exact h x hx

theorem mem_addresses_adjacent : ∀ {ws : List UInt32} {a b : Nat},
    b ∈ addresses (adjacent a ws) ↔ ∃ i < ws.length, b = a + 4 * i
  | [], a, b => by simp [adjacent]
  | w :: ws, a, b => by
    simp only [adjacent, addresses_cons, List.mem_cons, mem_addresses_adjacent, List.length_cons]
    constructor
    · rintro (rfl | ⟨i, hi, rfl⟩)
      · exact ⟨0, by omega, by omega⟩
      · exact ⟨i + 1, by omega, by omega⟩
    · rintro ⟨i, hi, rfl⟩
      cases i with
      | zero => exact Or.inl (by omega)
      | succ i => exact Or.inr ⟨i, by omega, by omega⟩

theorem adjacent_eq_map : ∀ {ws : List UInt32} {a : Nat},
    adjacent a ws = (List.range ws.length).map fun i => (a + 4 * i, ws.getD i 0)
  | [], _ => rfl
  | w :: ws, a => by
    rw [adjacent, adjacent_eq_map, List.length_cons, List.range_succ_eq_map, List.map_cons, List.map_map]
    refine congrArg₂ List.cons rfl (List.map_congr_left fun i _ => ?_)
    simp only [Function.comp_apply, List.getD_cons_succ, Prod.mk.injEq, and_true]
    omega

theorem adjacent_eq_mapIdx : ∀ {ws : List UInt32} {a : Nat}, adjacent a ws = ws.mapIdx fun i w => (a + 4 * i, w)
  | [], _ => rfl
  | w :: ws, a => by
    rw [adjacent, adjacent_eq_mapIdx, List.mapIdx_cons]
    refine congrArg _ (List.mapIdx_eq_mapIdx_iff.mpr fun i hi => ?_)
    simp only [Prod.mk.injEq, and_true]
    omega

theorem nodup_adjacent : ∀ {ws : List UInt32} {a : Nat}, (addresses (adjacent a ws)).Nodup
  | [], _ => List.nodup_nil
  | w :: ws, a => by
    refine List.nodup_cons.mpr ⟨fun ha => ?_, nodup_adjacent⟩
    obtain ⟨i, -, hi⟩ := mem_addresses_adjacent.mp ha
    dsimp only at hi
    omega

/-- Adjacent words stand exactly if reading as many words yields them. -/
theorem stand_adjacent : ∀ {ws : List UInt32} {a : Nat},
    Stand (adjacent a ws) m ↔ (List.range ws.length).map (fun i => m (a + 4 * i)) = ws
  | [], a => by simp [adjacent]
  | w :: ws, a => by
    have hshift : (fun i => m (a + 4 * i)) ∘ Nat.succ = fun i => m (a + 4 + 4 * i) := by
      funext i
      exact congrArg m (by omega)
    rw [adjacent, stand_cons, stand_adjacent, List.length_cons, List.range_succ_eq_map, List.map_cons, List.map_map,
      hshift, List.cons.injEq, Nat.mul_zero]
    rfl

/-- Of words that stand in one place, the fewer are the first of the more. -/
theorem eq_take_of_stand {us : List UInt32} (hws : Stand (adjacent a ws) m) (hus : Stand (adjacent a us) m)
    (h : ws.length ≤ us.length) : ws = us.take ws.length := by
  rw [stand_adjacent] at hws hus
  have htake := congrArg (List.take ws.length) hus
  rw [← List.map_take, List.take_range, Nat.min_eq_left h, hws] at htake
  exact htake

/-! ### Overwriting -/

theorem overwrite_append : ∀ {xs : List Cell} {m : Nat → UInt32}, overwrite m (xs ++ ys) = overwrite (overwrite m xs) ys
  | [], _ => rfl
  | _ :: _, _ => by rw [List.cons_append, overwrite, overwrite, overwrite_append]

theorem overwrite_of_notMem : ∀ {cells : List Cell} {m : Nat → UInt32}, a ∉ addresses cells → overwrite m cells a = m a
  | [], _, _ => rfl
  | x :: xs, m, h => by
    rw [addresses_cons, List.mem_cons, not_or] at h
    rw [overwrite, overwrite_of_notMem h.2, Function.update_of_ne h.1]

/-- An address that is written, however often, but always with one word. -/
theorem overwrite_of_mem {w : UInt32} : ∀ {cells : List Cell} {m : Nat → UInt32}, a ∈ addresses cells →
    (∀ x ∈ cells, x.1 = a → x.2 = w) → overwrite m cells a = w
  | x :: xs, m, h, hw => by
    rw [overwrite]
    by_cases hxs : a ∈ addresses xs
    · exact overwrite_of_mem hxs fun y hy => hw y (List.mem_cons_of_mem x hy)
    · obtain rfl : a = x.1 := (List.mem_cons.mp h).resolve_right hxs
      rw [overwrite_of_notMem hxs, Function.update_self]
      exact hw x List.mem_cons_self rfl

theorem Stand.overwrite (h : Stand cells m) (hd : ∀ a ∈ addresses cells, a ∉ addresses xs) :
    Stand cells (overwrite m xs) :=
  h.congr fun a ha => overwrite_of_notMem (hd a ha)

theorem stand_overwrite : ∀ {cells : List Cell} {m : Nat → UInt32}, (addresses cells).Nodup →
    Stand cells (overwrite m cells)
  | [], _, _ => stand_nil
  | x :: xs, m, h => by
    rw [addresses_cons, List.nodup_cons] at h
    refine stand_cons.mpr ⟨?_, stand_overwrite h.2⟩
    rw [Cells.overwrite, overwrite_of_notMem h.1, Function.update_self]

theorem overwrite_of_stand : ∀ {cells : List Cell}, Stand cells m → overwrite m cells = m
  | [], _ => rfl
  | x :: xs, h => by
    rw [stand_cons] at h
    rw [overwrite, ← h.1, Function.update_eq_self, overwrite_of_stand h.2]

theorem overwrite_update {w : UInt32} : ∀ {cells : List Cell} {m : Nat → UInt32}, a ∈ addresses cells →
    overwrite (Function.update m a w) cells = overwrite m cells
  | x :: xs, m, h => by
    rw [overwrite, overwrite]
    by_cases hx : a = x.1
    · rw [hx, Function.update_idem]
    · have hxs : a ∈ addresses xs := (List.mem_cons.mp h).resolve_left hx
      rw [Function.update_comm hx, overwrite_update hxs]

theorem overwrite_overwrite : ∀ {xs : List Cell} {m : Nat → UInt32}, (∀ a ∈ addresses xs, a ∈ addresses ys) →
    overwrite (overwrite m xs) ys = overwrite m ys
  | [], _, _ => rfl
  | x :: xs, m, h => by
    rw [overwrite, overwrite_overwrite fun a ha => h a (List.mem_cons_of_mem _ ha),
      overwrite_update (h _ List.mem_cons_self)]

/-- Whatever is written to some addresses is undone by writing what was there. -/
theorem overwrite_undone (h : Stand ys m) (hsub : ∀ a ∈ addresses xs, a ∈ addresses ys) :
    overwrite (overwrite m xs) ys = m := by
  rw [overwrite_overwrite hsub, overwrite_of_stand h]

/-- Blocks of writes at addresses of their own leave the cells of every block standing. -/
theorem stand_blocks {ι : Type} {writes cells : ι → List Cell} :
    ∀ {blocks : List ι} {m : Nat → UInt32}, (∀ i ∈ blocks, ∀ m, Stand (cells i) (overwrite m (writes i))) →
      (∀ i ∈ blocks, ∀ a ∈ addresses (writes i), a ∈ addresses (cells i)) →
      (addresses (blocks.flatMap cells)).Nodup → Stand (blocks.flatMap cells) (overwrite m (blocks.flatMap writes))
  | [], _, _, _, _ => stand_nil
  | i :: blocks, m, hstand, hsub, hnodup => by
    rw [List.flatMap_cons, addresses_append, List.nodup_append] at hnodup
    obtain ⟨-, hrest, hdisjoint⟩ := hnodup
    have hblocks : ∀ a ∈ addresses (blocks.flatMap writes), a ∈ addresses (blocks.flatMap cells) := by
      intro a ha
      simp only [addresses, List.map_flatMap, List.mem_flatMap] at ha ⊢
      obtain ⟨j, hj, haj⟩ := ha
      exact ⟨j, hj, hsub j (List.mem_cons_of_mem i hj) a haj⟩
    -- The first block stands when it has been written, and later blocks do not touch it.
    rw [List.flatMap_cons, List.flatMap_cons, overwrite_append]
    refine stand_append.mpr ⟨(hstand i List.mem_cons_self m).overwrite fun a ha ha' => ?_, ?_⟩
    · exact hdisjoint a ha a (hblocks a ha') rfl
    · exact stand_blocks (fun j hj => hstand j (List.mem_cons_of_mem i hj))
        (fun j hj => hsub j (List.mem_cons_of_mem i hj)) hrest

end Cells
end PowerFirmware
