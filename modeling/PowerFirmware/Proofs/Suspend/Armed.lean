import PowerFirmware.Bench.Basic
import PowerFirmware.Proofs.Records
import PowerFirmware.Proofs.Suspend.Held
import PowerFirmware.Proofs.Suspend.Policy

/-! Whether the wakeup domain stays on for the peripherals that are held to wake the system. The lines of the
peripherals and the lines of the domain are two tables, and they differ in the console, whose line the domain
does not have. Main statement: the domain stays on for every peripheral whose line is enabled, except where the
console's line is enabled and none of the domain's (`armed_keepsDomain_iff`). -/

namespace PowerFirmware
open Run WakeupPolicy

/-! ### Lines -/

namespace WakeupPolicy
variable {E : Nat → UInt32} {p : WakeupPolicy} {line : Nat} {w v : UInt32}

/-- Whether a shared line is one of the wakeup domain's. -/
def inDomain (line : Nat) : Bool := lineBit (domainLines.getD (line / 32) 0) line

/-- The line is that of a peripheral in the table. -/
def Watched (line : Nat) : Prop := ∃ q ∈ table, q.line = some line

/-- The line of the console. -/
def consoleLine : Nat := 21

/-- The line of the console is enabled, and no line of the wakeup domain. -/
structure OnlyConsole (E : Nat → UInt32) : Prop where
  enabled : lineEnabled E consoleLine = true
  others : ∀ line, inDomain line = true → lineEnabled E line = false

theorem watched_consoleLine : Watched consoleLine := ⟨⟨12, some 21, false⟩, by decide, rfl⟩

/-- The wakeup domain has the line of every peripheral but the console's. -/
theorem Watched.cases (h : Watched line) : inDomain line = true ∨ line = consoleLine := by
  have hall : ∀ q ∈ table, ∀ line ∈ q.line, inDomain line = true ∨ line = consoleLine := by decide
  obtain ⟨q, hq, hline⟩ := h
  exact hall q hq line hline

theorem and_ne_zero_iff : w &&& v ≠ 0 ↔ ∃ i < 32, w.toBitVec.getLsbD i = true ∧ v.toBitVec.getLsbD i = true := by
  rw [ne_eq, ← UInt32.toBitVec_inj, BitVec.eq_of_getLsbD_eq_iff]
  simp only [UInt32.toBitVec_and, BitVec.getLsbD_and, UInt32.toBitVec_zero, BitVec.getLsbD_zero, Bool.and_eq_false_imp,
    not_forall, Bool.not_eq_false, exists_prop]

/-- The masks leave the domain a way to wake the system exactly if one of its lines is enabled. -/
theorem leavesWakeup_iff_line :
    leavesWakeup (masksFor E) = true ↔ ∃ line, inDomain line = true ∧ lineEnabled E line = true := by
  rw [leavesWakeup_masksFor]
  constructor
  · rintro ⟨bank, -, h⟩
    obtain ⟨i, hi, hE, hdomain⟩ := and_ne_zero_iff.mp h
    refine ⟨32 * bank + i, ?_⟩
    have hbank : (32 * bank + i) / 32 = bank := by omega
    have hbit : (32 * bank + i) % 32 = i := by omega
    rw [inDomain, lineEnabled, lineBit, lineBit, hbank, hbit]
    exact ⟨hdomain, hE⟩
  · rintro ⟨line, hdomain, hE⟩
    refine ⟨line / 32, ?_, and_ne_zero_iff.mpr ⟨line % 32, Nat.mod_lt _ (by decide), hE, hdomain⟩⟩
    -- Beyond the banks there are no lines of the domain.
    by_contra hbank
    rw [inDomain, List.getD_eq_getElem?_getD, List.getElem?_eq_none (Nat.not_lt.mp hbank)] at hdomain
    simp [lineBit] at hdomain

/-- The two tables agree for the given enables exactly if it is not the console alone that is enabled. -/
theorem watched_keeps_iff : ((∃ line, Watched line ∧ lineEnabled E line = true) → leavesWakeup (masksFor E) = true) ↔
    ¬OnlyConsole E := by
  rw [leavesWakeup_iff_line]
  constructor
  · intro h honly
    obtain ⟨line, hdomain, hE⟩ := h ⟨consoleLine, watched_consoleLine, honly.enabled⟩
    rw [honly.others line hdomain] at hE
    cases hE
  · rintro hnot ⟨line, hwatched, hE⟩
    rcases hwatched.cases with hdomain | rfl
    · exact ⟨line, hdomain, hE⟩
    · by_contra hnone
      exact hnot ⟨hE, fun line hdomain => Bool.eq_false_iff.mpr fun hline => hnone ⟨line, hdomain, hline⟩⟩

/-- A peripheral with a line is marked exactly if the line of one is enabled. -/
theorem marked_iff (h : p.cleared = table) :
    (∃ e ∈ (p.mark (masksFor E)).peripherals, e.line ≠ none ∧ e.active = true) ↔
      ∃ line, Watched line ∧ lineEnabled E line = true := by
  constructor
  · rintro ⟨_, he', hline, hactive⟩
    obtain ⟨e, he, rfl⟩ := List.mem_map.mp he'
    have hmem : { e with active := false } ∈ table := h ▸ List.mem_map_of_mem he
    rcases heline : e.line with _ | line
    · simp only [heline, ne_eq, not_true_eq_false] at hline
    · refine ⟨line, ⟨_, hmem, heline⟩, ?_⟩
      simp only [heline] at hactive
      rwa [isUnmasked_masksFor (bank_lt hmem heline)] at hactive
  · rintro ⟨line, ⟨q, hq, hline⟩, hE⟩
    obtain ⟨e, he, -, heline⟩ := exists_peripheral h hq
    rw [hline] at heline
    refine ⟨_, List.mem_map_of_mem he, ?_⟩
    simp only [heline, ne_eq, reduceCtorEq, not_false_eq_true, isUnmasked_masksFor (bank_lt hq hline), hE, and_self]

section Capture
variable {σ κ : Type} {gic : InterruptController σ κ} {s : σ}

theorem mapM_of_ok {ι α : Type} {f : ι → Run σ α} {g : ι → α} :
    ∀ {is : List ι}, (∀ i ∈ is, f i s = (.ok (g i), s)) → is.mapM f s = (.ok (is.map g), s)
  | [], _ => rfl
  | i :: is, h => by
    rw [List.mapM_cons]
    exact (bind_of_ok (h i List.mem_cons_self)).trans
      (bind_of_ok (mapM_of_ok fun j hj => h j (List.mem_cons_of_mem i hj)))

/-- The masks are captured by the enables of the interrupt controller as they are. -/
theorem capture_eq (h : ∀ bank < wakeBanks, gic.enableMask (bank + 1) s = (.ok (E (bank + 1)), s)) :
    p.capture gic s = (.ok (masksFor E, p.mark (masksFor E)), s) := by
  have hread : ∀ bank ∈ List.range wakeBanks, (do return ~~~(← gic.enableMask (bank + 1)) : Run σ UInt32) s =
      (.ok (~~~E (bank + 1)), s) := fun bank hbank => bind_of_ok (h bank (List.mem_range.mp hbank))
  exact bind_of_ok (mapM_of_ok hread)

end Capture
end WakeupPolicy

/-! ### A suspend -/

section Reading
variable {κ : Type} {L M : List (Event κ)}

def Event.enable? : Event κ → Option (Nat × UInt32)
  | .enableMask bank w => some (bank, w)
  | _ => none

theorem Event.enable?_of_address? {e : Event κ} (h : e.address?.isSome = true) : e.enable? = none := by
  cases e <;> first | rfl | cases h

/-- The enables of the interrupt controller that have been read, bank by bank. -/
def enablesRead (L : List (Event κ)) : List (Nat × UInt32) := L.filterMap Event.enable?

@[simp] theorem enablesRead_append : enablesRead (L ++ M) = enablesRead L ++ enablesRead M := List.filterMap_append

theorem enablesRead_eq_nil (h : ∀ e ∈ L, e.enable? = none) : enablesRead L = [] := List.filterMap_eq_nil_iff.mpr h

theorem Sends.enablesRead_eq_nil {a b : Scmi.Client} {cmds : List Scmi.Command} {r : Except PlatformError Unit}
    (h : Sends a cmds L r b) : enablesRead L = [] := by
  refine PowerFirmware.enablesRead_eq_nil fun e he => ?_
  obtain ⟨x, rfl⟩ := h.managers e he
  rfl

theorem enablesRead_saveEvents {s : Snapshot κ} : enablesRead (s.saveEvents .peripherals) = [] :=
  enablesRead_eq_nil fun e he => e.enable?_of_address? (saveEvents_address? e he)

theorem enablesRead_leaveEvents {core : Fin 4} {target : PowerState} :
    enablesRead (Platform.leaveEvents (κ := κ) core target) = [] := by
  unfold Platform.leaveEvents
  split <;> split <;> rfl

theorem enablesRead_maskReads {E : Nat → UInt32} : enablesRead (Platform.maskReads (κ := κ) (masksFor E)) =
    (List.range wakeBanks).map fun bank => (bank + 1, E (bank + 1)) := by
  rw [Platform.maskReads, masksFor, List.zipWith_map_right, List.zipWith_self]
  simp only [UInt32.not_not]
  rfl

end Reading

namespace Platform
variable {κ : Type} {c d : Controller κ} {core : Fin 4} {target : PowerState} {L M : List (Event κ)} {E : Nat → UInt32}

theorem exists_masksFor {masks : List UInt32} (h : masks.length = wakeBanks) : ∃ E, masks = masksFor E := by
  refine ⟨fun bank => ~~~masks.getD (bank - 1) 0, List.ext_getElem (by simp [masksFor, h]) fun i hi _ => ?_⟩
  simp [masksFor, List.getD_eq_getElem?_getD, hi]

theorem HandsOver.reads (h : HandsOver core c (.ok ()) d L) (htable : c.wakeup.cleared = table) :
    ∃ E, enablesRead L = (List.range wakeBanks).map (fun bank => (bank + 1, E (bank + 1))) ∧
      acceptedCommands L = handOverCommands core E ∧ d.wakeup.hasWakeupIrq = leavesWakeup (masksFor E) := by
  cases h with
  | @masked _ _ _ masks _ _ hmask hlength harm =>
    obtain ⟨E, rfl⟩ := exists_masksFor hlength
    have hsends := harm.sends
    rw [enter_mark htable] at hsends
    refine ⟨E, ?_, ?_, harm.hasWakeupIrq⟩
    · rw [enablesRead_append, enablesRead_append, hmask.enablesRead_eq_nil, enablesRead_maskReads,
        hsends.enablesRead_eq_nil, List.nil_append, List.append_nil]
    · rw [accepted_append, accepted_append, hmask.accepted_eq, accepted_eq_nil maskReads_exchange?, hsends.accepted_eq]
      rfl

/-- A suspend of the system reads the enables of every bank once, and by these the System Manager accepts its
    requests: the policy keeps the wakeup domain on if a pin is to wake the system or a line of the domain is
    enabled. -/
theorem Suspends.reads (h : Suspends core target c (.ok ()) d L) (hoff : target.system.isOff = true)
    (htable : c.wakeup.cleared = table) : ∃ E keep,
      enablesRead L = (List.range wakeBanks).map (fun bank => (bank + 1, E (bank + 1))) ∧
      acceptedCommands L = suspendCommands core target c.entry E (suspendPolicy keep) ∧
      keep = (d.snapshot.pinWakeup || leavesWakeup (masksFor E)) := by
  cases h with
  | leaves h hsystem =>
    rw [if_pos hoff] at hsystem
    cases hsystem with
    | @saved k _ b s _ H P hover _ hpolicy =>
      obtain ⟨E, hread, haccepted, hirq⟩ := hover.reads htable
      refine ⟨E, s.pinWakeup || b.wakeup.hasWakeupIrq, ?_, ?_, by rw [hirq]⟩
      · have hsave : enablesRead (.saveGic k :: (H ++ (s.saveEvents .peripherals ++ P))) =
            enablesRead (H ++ (s.saveEvents .peripherals ++ P)) := rfl
        rw [enablesRead_append, enablesRead_append, h.enablesRead_eq_nil, enablesRead_leaveEvents, hsave,
          enablesRead_append, enablesRead_append, hread, enablesRead_saveEvents, hpolicy.enablesRead_eq_nil]
        simp only [List.nil_append, List.append_nil]
      · rw [accepted_append, accepted_append, h.accepted_eq, accepted_eq_nil leaveEvents_exchange?, accepted_cons rfl,
          accepted_append, accepted_append, haccepted, accepted_eq_nil saveEvents_exchange?, hpolicy.accepted_eq]
        rfl

end Platform

/-! ### Main statement -/

/-- The enables of the interrupt controller may be any. After they have been captured, that a peripheral with a
    line is marked has the wakeup domain stay on, unless the line of the console is enabled and none of the
    domain's: then the console is marked, and the domain does not stay on for it. If the line of no peripheral and
    no line of the domain is enabled, the domain does not stay on either.

    So it goes with a suspend of the system. It reads every bank once and asks for the console to be held with the
    others, but where only the console is to wake the system, and no pin is, the policy that it asks for lets the
    wakeup domain go off. -/
theorem armed_keepsDomain_iff {σ κ : Type} :
    (∀ (gic : InterruptController σ κ) (s : σ) (E : Nat → UInt32) (p : WakeupPolicy), p.cleared = table →
      (∀ bank < wakeBanks, gic.enableMask (bank + 1) s = (.ok (E (bank + 1)), s)) →
      ∃ masks q, p.capture gic s = (.ok (masks, q), s) ∧
        (((∃ e ∈ q.peripherals, e.line ≠ none ∧ e.active = true) → (q.evaluate masks).hasWakeupIrq = true) ↔
          ¬OnlyConsole E) ∧
        ((∀ line, Watched line ∨ inDomain line = true → lineEnabled E line = false) →
          (q.evaluate masks).hasWakeupIrq = false)) ∧
    ∀ (env : Environment κ) (region : DmaRegion (History env)) (core : Fin 4) (target : PowerState)
      (c d : Controller κ) (past t : History env), env.core = core.val → target.system.isOff = true →
      c.wakeup.cleared = table → (env.platform region).domainSuspend target c past = (.ok (.ok (), d), t) →
      ∃ L E keep, t = past.add L ∧
        enablesRead L = (List.range wakeBanks).map (fun bank => (bank + 1, E (bank + 1))) ∧
        acceptedCommands L = Platform.suspendCommands core target c.entry E
          [⟨Layout.cluster.domain, .onRunWaitStop, 0⟩,
            ⟨Layout.nocDomain, .onRunWaitStop, Layout.retentionBit Layout.nocMemory⟩,
            ⟨Layout.wakeupDomain, if keep then .onAlways else .onRunWaitStop, 0⟩] ∧
        (((∃ line, Watched line ∧ lineEnabled E line = true) → keep = true) ↔
          d.snapshot.pinWakeup = true ∨ ¬OnlyConsole E) ∧
        ((∀ line, Watched line ∨ inDomain line = true → lineEnabled E line = false) →
          keep = d.snapshot.pinWakeup) := by
  have hnone : ∀ E, (∀ line, Watched line ∨ inDomain line = true → lineEnabled E line = false) →
      leavesWakeup (masksFor E) = false := by
    intro E h
    refine Bool.eq_false_iff.mpr fun hleaves => ?_
    obtain ⟨line, hdomain, hE⟩ := leavesWakeup_iff_line.mp hleaves
    rw [h line (.inr hdomain)] at hE
    cases hE
  constructor
  · intro gic s E p htable hgic
    refine ⟨masksFor E, p.mark (masksFor E), capture_eq hgic, ?_, hnone E⟩
    rw [marked_iff htable]
    exact watched_keeps_iff
  · intro env region core target c d past t hcore hoff htable hrun
    have hdoes : Acts ((env.platform region).domainSuspend target) c (Platform.Suspends core target c) :=
      Platform.acts_domainSuspend hcore
    obtain ⟨L, rfl, -, hsuspends⟩ := hdoes.answered hrun
    obtain ⟨E, keep, hread, haccepted, rfl⟩ := hsuspends.reads hoff htable
    refine ⟨L, E, _, rfl, hread, haccepted, ?_, fun h => by rw [hnone E h, Bool.or_false]⟩
    rw [Bool.or_eq_true, ← watched_keeps_iff]
    cases d.snapshot.pinWakeup <;> simp

namespace Bench

/-- The bench with a single shared line enabled. -/
def enabled (line : Nat) : State := { lines := (({} : Lines).enable? (32 + line)).getD {} }

end Bench

/-- A suspend of the system while the same lines of every bank are enabled. -/
def linedSuspend (enables : UInt32) :
    Except Fault (Except PlatformError Unit × Controller Unit) × History (lined 0x3ff enables) :=
  ((lined 0x3ff enables).platform Platform.noRegion).domainSuspend .allOff (Controller.initial ()) ⟨[]⟩

/-- One of the bus interfaces is to wake the system. -/
theorem armed_keepsDomain_iff_interface : ∃ masks q d t,
    WakeupPolicy.initial.capture Bench.gic (Bench.enabled 42) = (.ok (masks, q), Bench.enabled 42) ∧
    q.activeInterfaces = [9] ∧ (q.evaluate masks).hasWakeupIrq = true ∧
    linedSuspend 0x400 = (.ok (.ok (), d), t) ∧
    .domainPolicySet 6 [⟨9, .onRunWaitStop, 0⟩, ⟨16, .onRunWaitStop, 0x2000⟩, ⟨18, .onAlways, 0⟩] ∈
      acceptedCommands t.events := by
  obtain ⟨hcapture, -⟩ := armed_keepsDomain_iff (σ := Bench.State) (κ := Vector UInt32 16)
  obtain ⟨-, hsuspend⟩ := armed_keepsDomain_iff (σ := Bench.State) (κ := Unit)
  have hgic : ∀ bank < wakeBanks, Bench.gic.enableMask (bank + 1) (Bench.enabled 42) =
      (.ok ((Bench.enabled 42).lines.mask (bank + 1)), Bench.enabled 42) := fun _ _ => rfl
  obtain ⟨masks, q, hq, harmed, -⟩ := hcapture Bench.gic (Bench.enabled 42) _ .initial (by decide) hgic
  have hactive : (WakeupPolicy.initial.capture Bench.gic (Bench.enabled 42)).1.toOption.map
      (·.2.activeInterfaces) = some [9] := by decide +kernel
  have hmarked : (WakeupPolicy.initial.capture Bench.gic (Bench.enabled 42)).1.toOption.map
      (·.2.peripherals.any fun e => e.line.isSome && e.active) = some true := by decide +kernel
  rw [hq] at hactive hmarked
  obtain ⟨e, he, hmark⟩ := List.any_eq_true.mp (Option.some_inj.mp hmarked)
  rw [Bool.and_eq_true, Option.isSome_iff_ne_none] at hmark
  have hirq := harmed.mpr (fun h => absurd (h.others 42 (by decide)) (by decide +kernel)) ⟨e, he, hmark⟩
  obtain ⟨d, t, hrun⟩ := Platform.exists_of_outcome
    (show (linedSuspend 0x400).1.toOption.map (·.1) = some (.ok ()) by decide +kernel)
  obtain ⟨L, E, keep, rfl, hread, haccepted, hkeep, -⟩ :=
    hsuspend (lined 0x3ff 0x400) Platform.noRegion 1 .allOff _ d ⟨[]⟩ t rfl rfl (by decide) hrun
  have hevents : enablesRead (linedSuspend 0x400).2.events =
      (List.range wakeBanks).map fun bank => (bank + 1, 0x400) := by decide +kernel
  rw [hrun] at hevents
  have hE := List.map_inj_left.mp (hread.symm.trans hevents)
  have hline : lineEnabled E 42 = true := by
    rw [lineEnabled, (Prod.mk.inj (hE 1 (by decide))).2]
    decide
  have hnot : ¬OnlyConsole E := fun h => absurd (h.others 42 (by decide)) (by rw [hline]; decide)
  obtain rfl : keep = true := hkeep.mpr (.inr hnot) ⟨42, ⟨⟨9, some 42, false⟩, by decide, rfl⟩, hline⟩
  refine ⟨masks, q, d, _, hq, Option.some_inj.mp hactive, hirq, hrun, ?_⟩
  rw [History.events_add, List.nil_append, haccepted]
  exact List.mem_append_right _ (List.mem_append_right _ (List.mem_singleton.mpr (by decide)))

/-- Only the console is to wake the system. It is held, but the wakeup domain goes off. -/
theorem console_losesDomain : ∃ masks q d t,
    WakeupPolicy.initial.capture Bench.gic (Bench.enabled consoleLine) =
      (.ok (masks, q), Bench.enabled consoleLine) ∧
    q.activeInterfaces = [12] ∧ (q.evaluate masks).hasWakeupIrq = false ∧
    linedSuspend 0x200000 = (.ok (.ok (), d), t) ∧ 12 ∈ d.wakeup.activeInterfaces ∧
    .domainPolicySet 6 [⟨9, .onRunWaitStop, 0⟩, ⟨16, .onRunWaitStop, 0x2000⟩, ⟨18, .onRunWaitStop, 0⟩] ∈
      acceptedCommands t.events := by
  have hgic : ∀ bank < wakeBanks, Bench.gic.enableMask (bank + 1) (Bench.enabled consoleLine) =
      (.ok ((Bench.enabled consoleLine).lines.mask (bank + 1)), Bench.enabled consoleLine) := fun _ _ => rfl
  have hsuspend : (linedSuspend 0x200000).1.toOption.map (fun x => (x.1, decide (12 ∈ x.2.wakeup.activeInterfaces))) =
      some (.ok (), true) := by decide +kernel
  have haccepted : .domainPolicySet 6 [⟨9, .onRunWaitStop, 0⟩, ⟨16, .onRunWaitStop, 0x2000⟩, ⟨18, .onRunWaitStop, 0⟩] ∈
      acceptedCommands (linedSuspend 0x200000).2.events := by decide +kernel
  rcases hrun : linedSuspend 0x200000 with ⟨_ | ⟨r, d⟩, t⟩
  · rw [hrun] at hsuspend
    cases hsuspend
  · rw [hrun] at hsuspend haccepted
    obtain ⟨rfl, hheld⟩ := Prod.mk.inj (Option.some_inj.mp hsuspend)
    exact ⟨_, _, d, t, capture_eq hgic, by decide +kernel, by decide +kernel, rfl, of_decide_eq_true hheld,
      haccepted⟩

end PowerFirmware
