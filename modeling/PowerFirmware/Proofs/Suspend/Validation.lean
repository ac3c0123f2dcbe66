import PowerFirmware.Power.Validation

/-! What becomes of the requested states when a suspend is validated. Main statement: consistent states
stay so unless core and cluster are pinned below a system that is to be off
(`validateSuspend_consistent_iff`). -/

namespace PowerFirmware

variable {s : PowerState} {r : SuspendRequest}

namespace PowerState

/-- Consistency is checked for adjacent levels and holds for any two. -/
theorem isConsistent_iff : s.isConsistent = true ↔
    ∀ {i j : Nat} {a b : LocalState}, i ≤ j → s.level? i = some a → s.level? j = some b → b.code ≤ a.code := by
  rw [isConsistent, Bool.and_eq_true, decide_eq_true_eq, decide_eq_true_eq]
  constructor
  · rintro ⟨hcluster, hsystem⟩ i j a b hij ha hb
    match i, j with
    | 0, 0 | 1, 1 | 2, 2 =>
      cases ha
      cases hb
      exact UInt8.le_refl _
    | 0, 1 =>
      cases ha
      cases hb
      exact hcluster
    | 1, 2 =>
      cases ha
      cases hb
      exact hsystem
    | 0, 2 =>
      cases ha
      cases hb
      exact UInt8.le_trans hsystem hcluster
    | 1, 0 | 2, 0 | 2, 1 => exact absurd hij (by decide)
    | _, _ + 3 => cases hb
    | _ + 3, _ => cases ha
  · intro h
    exact ⟨h (Nat.zero_le 1) rfl rfl, h (Nat.le_succ 1) rfl rfl⟩

/-- Standby and the deep power-down state have the core off and the cluster in retention. -/
def pinned (s : PowerState) : PowerState := { s with core := .off, cluster := .retention }

/-- A system that is not to be off is to be in retention at the deepest, as the cluster then is. -/
theorem isConsistent_pinned_iff : s.pinned.isConsistent = true ↔ s.system.isOff = false := by
  have hcluster : LocalState.retention.code ≤ LocalState.off.code := by decide
  rw [isConsistent, Bool.and_eq_true, decide_eq_true_eq, decide_eq_true_eq, LocalState.isOff, decide_eq_false_iff_not,
    UInt8.not_lt]
  exact and_iff_right hcluster

end PowerState

namespace SuspendRequest

theorem isDeepStandby_iff : r.isDeepStandby = true ↔ r.type = .standby ∨ r.id = deepPowerDown := by
  rw [isDeepStandby, Bool.or_eq_true, beq_iff_eq, beq_iff_eq]

end SuspendRequest

/-- How the validation of a request goes, and what it makes of the requested states. -/
inductive Validates (r : SuspendRequest) (requested : PowerState) : Except PlatformError Unit → PowerState → Prop
  | refused : PowerState.highestLevel < r.level.toNat → Validates r requested (.error .invalidArgument) requested
  | pinned : r.level.toNat ≤ PowerState.highestLevel → r.type = .standby ∨ r.id = SuspendRequest.deepPowerDown →
      Validates r requested (.ok ()) requested.pinned
  | kept : r.level.toNat ≤ PowerState.highestLevel → ¬(r.type = .standby ∨ r.id = SuspendRequest.deepPowerDown) →
      Validates r requested (.ok ()) requested

theorem validates (r : SuspendRequest) (requested : PowerState) :
    Validates r requested (validateSuspend r requested).1 (validateSuspend r requested).2 := by
  rw [validateSuspend]
  split
  · rename_i hlevel
    exact .refused hlevel
  · rename_i hlevel
    split
    · rename_i hdeep
      exact .pinned (Nat.not_lt.mp hlevel) (SuspendRequest.isDeepStandby_iff.mp hdeep)
    · rename_i hdeep
      exact .kept (Nat.not_lt.mp hlevel) (mt SuspendRequest.isDeepStandby_iff.mpr hdeep)

/-- Validation of any word, for any states that are consistent. A request that is refused leaves them as
    they are, as does any that is neither for standby nor for the deep power-down state. These two pin the
    core and the cluster and not the system, so that the states are no longer consistent exactly if the
    system is to be off. -/
theorem validateSuspend_consistent_iff {requested : PowerState} (h : requested.isConsistent = true)
    (r : SuspendRequest) : ∃ o s, validateSuspend r requested = (o, s) ∧ Validates r requested o s ∧
      (s.isConsistent = true ↔ ¬(o = .ok () ∧ (r.type = .standby ∨ r.id = SuspendRequest.deepPowerDown) ∧
        requested.system.isOff = true)) := by
  have hvalidates := validates r requested
  generalize validateSuspend r requested = v at hvalidates
  obtain ⟨o, s⟩ := v
  refine ⟨o, s, rfl, hvalidates, ?_⟩
  cases hvalidates with
  | refused _ => exact iff_of_true h fun hpinned => by cases hpinned.1
  | pinned _ hdeep =>
    refine PowerState.isConsistent_pinned_iff.trans ?_
    rw [← Bool.not_eq_true, and_iff_right rfl, and_iff_right hdeep]
  | kept _ hdeep => exact iff_of_true h fun hpinned => hdeep hpinned.2.1

theorem validateSuspend_consistent_iff_standby : PowerState.isConsistent ⟨.retention, .run, .run⟩ = true ∧
    validateSuspend ⟨0⟩ ⟨.retention, .run, .run⟩ = (.ok (), ⟨.off, .retention, .run⟩) ∧
    PowerState.isConsistent ⟨.off, .retention, .run⟩ = true := by
  have hconsistent : PowerState.isConsistent ⟨.retention, .run, .run⟩ = true := by decide
  obtain ⟨o, s, heq, -, hiff⟩ := validateSuspend_consistent_iff hconsistent ⟨0⟩
  cases heq
  exact ⟨hconsistent, rfl, hiff.mpr fun h => absurd h.2.2 (by decide)⟩

/-- The deep power-down state asked for with every level off: the system is to be off around a cluster in
    retention. -/
theorem validateSuspend_pins_below_off : PowerState.allOff.isConsistent = true ∧
    validateSuspend ⟨0x02010033⟩ .allOff = (.ok (), ⟨.off, .retention, .off⟩) ∧
    PowerState.isConsistent ⟨.off, .retention, .off⟩ = false := ⟨by decide, rfl, by decide⟩

end PowerFirmware
