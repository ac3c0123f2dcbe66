import PowerFirmware.Proofs.Hooks

/-! Which peripherals the System Manager still holds after a resume. Main statement: after a resume of the
system that succeeded, exactly those are held that an earlier turn forgot and that were not marked again
(`held_iff_forgotten`).

The marks of the wakeup sources stand for what the System Manager holds. They come apart in two ways: a
resume takes the marks away before its request is accepted, and a suspend takes the mark from a peripheral
whose line has been disabled, also if an earlier cycle left it held. -/

namespace PowerFirmware
open WakeupPolicy

variable {κ : Type} {c d : Controller κ} {core : Fin 4} {target : PowerState} {r : Except PlatformError Unit}
variable {L M : List (Event κ)} {q : WakeupPeripheral} {i : UInt32} {e : Turn κ} {turns : List (Turn κ)}

/-- The System Manager's last setting of the peripheral holds it in run, wait and stop. -/
def Moment.Holds (s : Moment κ) (i : UInt32) : Prop := lastSetting (settings s.events) i = some .onRunWaitStop

def Moment.Marks (s : Moment κ) (i : UInt32) : Prop := i ∈ s.controller.wakeup.activeInterfaces

def Turn.events (e : Turn κ) : List (Event κ) := e.after.events.drop e.before.events.length

/-- A suspend of the system by a core that there is. -/
def Turn.IsSuspend (e : Turn κ) : Prop :=
  e.core < 4 ∧ ∃ target, e.call = .suspend target ∧ target.system.isOff = true

/-- A resume of the system by a core that there is. -/
def Turn.IsResume (e : Turn κ) : Prop :=
  e.core < 4 ∧ ∃ target, e.call = .resume target ∧ target.system.isOff = true

/-- A request to put the peripheral back to always on was not accepted. -/
def PutBackRefused (L : List (Event κ)) (i : UInt32) : Prop :=
  ∃ x ∈ exchanges L, ∃ cmd, x.command? = some cmd ∧ ⟨i, .onAlways⟩ ∈ cmd.policies ∧
    (Scmi.verdict cmd x.outcome).isOk = false

/-- The peripheral has a line, and that was read as disabled. -/
def LineDisabled (L : List (Event κ)) (q : WakeupPeripheral) : Prop :=
  ∃ line w, q.line = some line ∧ .enableMask (line / 32 + 1) w ∈ L ∧ lineBit w line = false

/-- The turn loses track of a peripheral that is held and marked: a resume is refused to put it back, or a
    suspend finds its line disabled. -/
def Turn.Forgets (e : Turn κ) (q : WakeupPeripheral) : Prop :=
  e.before.Holds q.interface ∧ e.before.Marks q.interface ∧
    (e.IsResume ∧ PutBackRefused e.events q.interface ∨ e.IsSuspend ∧ LineDisabled e.events q)

/-- Some turn forgot the peripheral, and from then on it was not marked. -/
def Forgotten (q : WakeupPeripheral) (turns : List (Turn κ)) : Prop :=
  ∃ before e after, turns = before ++ e :: after ∧ e.Forgets q ∧ ∀ f ∈ e :: after, ¬f.after.Marks q.interface

theorem forgotten_snoc :
    Forgotten q (turns ++ [e]) ↔ ¬e.after.Marks q.interface ∧ (Forgotten q turns ∨ e.Forgets q) := by
  constructor
  · rintro ⟨before, f, after, heq, hforgets, hafter⟩
    rcases List.eq_nil_or_concat after with rfl | ⟨after, g, rfl⟩
    · obtain ⟨-, hlast⟩ := List.append_inj' heq rfl
      cases hlast
      exact ⟨hafter e List.mem_cons_self, .inr hforgets⟩
    · rw [List.concat_eq_append] at heq hafter
      rw [← List.cons_append, ← List.append_assoc] at heq
      obtain ⟨rfl, hlast⟩ := List.append_inj' heq rfl
      cases hlast
      have hlater : ∀ g ∈ f :: after ++ [e], ¬g.after.Marks q.interface := hafter
      exact ⟨hlater e (List.mem_append_right _ List.mem_cons_self), .inl ⟨before, f, after, rfl, hforgets,
        fun g hg => hlater g (List.mem_append_left _ hg)⟩⟩
  · rintro ⟨hmarks, ⟨before, f, after, rfl, hforgets, hafter⟩ | hforgets⟩
    · refine ⟨before, f, after ++ [e], by simp, hforgets, fun g hg => ?_⟩
      rw [← List.cons_append] at hg
      rcases List.mem_append.mp hg with hg | hg
      · exact hafter g hg
      · rwa [List.mem_singleton.mp hg]
    · exact ⟨turns, e, [], rfl, hforgets, fun f hf => by rwa [List.mem_singleton.mp hf]⟩

/-! ### Suspending -/

section Suspending
variable {masks : List UInt32} {flags : Scmi.WakeupFlags} {mode : Scmi.SleepMode}

theorem settings_arm {a b : Scmi.Client} (h : Sends a (Platform.armCommands core masks flags mode) L r b) :
    settings L = [] := by
  refine h.settings_eq_nil fun cmd hcmd => ?_
  simp only [Platform.armCommands, List.mem_cons, List.not_mem_nil, or_false] at hcmd
  rcases hcmd with rfl | rfl | rfl <;> rfl

theorem lastSetting_enter {p : WakeupPolicy} {a b : Scmi.Client}
    (h : Sends a [.peripheralPolicySet Layout.cluster.cpu p.enter.1] L (.ok ()) b) :
    lastSetting (settings L) i = if i ∈ p.enter.2.activeInterfaces then some .onRunWaitStop else none := by
  rw [h.settings_of_ok, List.flatMap_cons, List.flatMap_nil, List.append_nil]
  show lastSetting p.enter.1 i = _
  rw [enter_fst, lastSetting_map]

/-- What is not marked when wakeup has been set for a suspend is not held by that, and was not marked
    before. -/
theorem SetsWakeup.unmarked (h : Platform.SetsWakeup core masks flags mode true c r d L)
    (htable : c.wakeup.cleared = table) (hq : q ∈ table) (hd : q.interface ∉ d.wakeup.activeInterfaces) :
    lastSetting (settings L) q.interface = none ∧ q.interface ∉ c.wakeup.activeInterfaces := by
  cases h with
  | unarmed h =>
    rw [settings_arm h]
    exact ⟨rfl, hd⟩
  | armed h h' =>
    have hmarks : q.interface ∉ c.wakeup.activeInterfaces := fun hc =>
      hd ((mem_enter (p := c.wakeup.evaluate masks) htable hq).mpr (.inl hc))
    rw [settings_append, settings_arm h, List.nil_append]
    cases r with
    | error e =>
      rw [h'.settings_of_error]
      exact ⟨rfl, hmarks⟩
    | ok _ => exact ⟨(lastSetting_enter h').trans (if_neg hd), hmarks⟩

theorem SetsWakeup.holds (h : Platform.SetsWakeup core masks flags mode true c (.ok ()) d L)
    (hd : i ∈ d.wakeup.activeInterfaces) : lastSetting (settings L) i = some .onRunWaitStop := by
  cases h with
  | armed h h' =>
    rw [settings_append, settings_arm h, List.nil_append]
    exact (lastSetting_enter h').trans (if_pos hd)

theorem lineDisabled_of_masked {line : Nat} (hlength : masks.length = wakeBanks) (hq : q ∈ table)
    (hline : q.line = some line) (h : ¬isUnmasked masks line = true) :
    LineDisabled (κ := κ) (Platform.maskReads masks) q := by
  have hbank : line / 32 < masks.length := hlength ▸ bank_lt hq hline
  refine ⟨line, ~~~masks.getD (line / 32) 0xffffffff, hline, ?_, ?_⟩
  · refine List.mem_flatten.mpr ⟨_, List.mem_iff_getElem.mpr ⟨line / 32, ?_, rfl⟩, ?_⟩
    · rw [List.length_zipWith, List.length_range, hlength, Nat.min_self]
      exact bank_lt hq hline
    · rw [List.getElem_zipWith, List.getElem_range, List.getD_eq_getElem?_getD, List.getElem?_eq_getElem hbank]
      exact List.mem_singleton_self _
  · rw [← isUnmasked_eq]
    simpa using h

theorem LineDisabled.mono (h : LineDisabled L q) (hsub : L ⊆ M) : LineDisabled M q := by
  obtain ⟨line, w, hline, hmem, hbit⟩ := h
  exact ⟨line, w, hline, hsub hmem, hbit⟩

theorem settings_mask {a b : Scmi.Client} (h : Sends a [.irqWakeSet (Layout.cpuOf core) 0 allMasked] L r b) :
    settings L = [] :=
  h.settings_eq_nil fun cmd hcmd => by rw [List.mem_singleton.mp hcmd]; rfl

/-- What is not marked when wakeup has been handed over is not held by that, and if it was marked before,
    its line was disabled. -/
theorem HandsOver.unmarked (h : Platform.HandsOver core c r d L) (htable : c.wakeup.cleared = table)
    (hq : q ∈ table) (hd : q.interface ∉ d.wakeup.activeInterfaces) :
    lastSetting (settings L) q.interface = none ∧
      (q.interface ∈ c.wakeup.activeInterfaces → LineDisabled L q) := by
  cases h with
  | unmasked h =>
    rw [settings_mask h]
    exact ⟨rfl, fun hc => absurd hc hd⟩
  | @masked _ _ _ masks H M h hlength harm =>
    obtain ⟨hnone, hmark⟩ := SetsWakeup.unmarked harm (cleared_mark.trans htable) hq hd
    rw [settings_append, settings_mask h, settings_append, settings_eq_nil Platform.maskReads_exchange?]
    have hsub : Platform.maskReads masks ⊆ H ++ (Platform.maskReads masks ++ M) := fun e he => by simp [he]
    refine ⟨hnone, fun hc => .mono ?_ hsub⟩
    rcases hline : q.line with _ | line
    · exact absurd ((mem_mark_of_clock htable hq hline).mpr hc) hmark
    · exact lineDisabled_of_masked hlength hq hline fun h => hmark ((mem_mark_of_line htable hq hline).mpr h)

theorem HandsOver.holds (h : Platform.HandsOver core c (.ok ()) d L) (hd : i ∈ d.wakeup.activeInterfaces) :
    lastSetting (settings L) i = some .onRunWaitStop := by
  cases h with
  | masked h _ harm =>
    rw [settings_append, settings_mask h, settings_append, settings_eq_nil Platform.maskReads_exchange?]
    exact SetsWakeup.holds harm hd

/-- Of a suspend of the system it is handing wakeup over that sets and marks peripherals. -/
theorem Suspends.handsOver (h : Platform.Suspends core target c r d L) (hoff : target.system.isOff = true) :
    (settings L = [] ∧ d.wakeup = c.wakeup ∧ r ≠ .ok ()) ∨
      ∃ a b o H, Platform.HandsOver core a o b H ∧ a.wakeup = c.wakeup ∧ d.wakeup = b.wakeup ∧
        (r = .ok () → o = .ok ()) ∧ settings L = settings H ∧ H ⊆ L := by
  cases h with
  | stays h => exact .inl ⟨settings_leave h, rfl, nofun⟩
  | leaves h hsystem =>
    right
    rw [if_pos hoff] at hsystem
    rw [settings_append, settings_leave h, settings_append, settings_eq_nil Platform.leaveEvents_exchange?]
    cases hsystem with
    | @held k _ _ H h => exact ⟨_, _, _, H, h, rfl, rfl, nofun, rfl, fun e he => by simp [he]⟩
    | @saved k _ _ s _ H M h _ hsends =>
      have hpolicy : settings M = [] := hsends.settings_eq_nil fun cmd hcmd => by rw [List.mem_singleton.mp hcmd]; rfl
      refine ⟨_, _, _, H, h, rfl, rfl, fun _ => rfl, ?_, fun e he => by simp [he]⟩
      show settings (H ++ (s.saveEvents .peripherals ++ M)) = _
      rw [settings_append, settings_append, settings_eq_nil saveEvents_exchange?, hpolicy, List.append_nil,
        List.append_nil]

theorem Suspends.unmarked (h : Platform.Suspends core target c r d L) (hoff : target.system.isOff = true)
    (htable : c.wakeup.cleared = table) (hq : q ∈ table) (hd : q.interface ∉ d.wakeup.activeInterfaces) :
    lastSetting (settings L) q.interface = none ∧
      (q.interface ∈ c.wakeup.activeInterfaces → LineDisabled L q) := by
  rcases Suspends.handsOver h hoff with ⟨hnone, hwakeup, -⟩ | ⟨a, b, o, H, hover, ha, hb, -, hsettings, hsub⟩
  · rw [hnone]
    exact ⟨rfl, fun hc => absurd (hwakeup ▸ hc) hd⟩
  · rw [← ha] at htable ⊢
    rw [hb] at hd
    rw [hsettings]
    exact (HandsOver.unmarked hover htable hq hd).imp_right fun h hc => (h hc).mono hsub

theorem Suspends.holds (h : Platform.Suspends core target c (.ok ()) d L) (hoff : target.system.isOff = true)
    (hd : i ∈ d.wakeup.activeInterfaces) : lastSetting (settings L) i = some .onRunWaitStop := by
  rcases Suspends.handsOver h hoff with ⟨-, -, hr⟩ | ⟨a, b, o, H, hover, -, hb, hok, hsettings, -⟩
  · exact absurd rfl hr
  · obtain rfl := hok rfl
    rw [hb] at hd
    rw [hsettings]
    exact HandsOver.holds hover hd

end Suspending

/-! ### Resuming -/

section Resuming
variable {masks : List UInt32} {flags : Scmi.WakeupFlags} {mode : Scmi.SleepMode} {a b : Scmi.Client}
variable {cmds : List Scmi.Command}

theorem putBackRefused_append : PutBackRefused (L ++ M) i ↔ PutBackRefused L i ∨ PutBackRefused M i := by
  simp only [PutBackRefused, exchanges_append, List.mem_append, or_and_right, exists_or]

/-- Where commands were accepted, or set no peripheral, none was refused to put one back. -/
theorem Sends.not_putBackRefused (h : Sends a cmds L r b) (hcmds : r = .ok () ∨ ∀ cmd ∈ cmds, cmd.policies = []) :
    ¬PutBackRefused L i := by
  induction h with
  | done | tooLong => rintro ⟨x, hx, -⟩; cases hx
  | @refused _ cmd _ x _ _ hx he =>
    rintro ⟨y, hy, cmd', hcmd', hback, -⟩
    cases List.mem_singleton.mp hy
    cases (command?_request hx).symm.trans hcmd'
    rw [hcmds.resolve_left (fun h => by cases h) cmd List.mem_cons_self] at hback
    cases hback
  | @accepted _ _ cmd _ x L r _ hx hok _ ih =>
    rw [show (.manager x :: L) = [.manager x] ++ L from rfl, putBackRefused_append, not_or]
    refine ⟨?_, ih (hcmds.imp_right fun h cmd hcmd => h cmd (List.mem_cons_of_mem _ hcmd))⟩
    rintro ⟨y, hy, cmd', hcmd', -, hrefused⟩
    cases List.mem_singleton.mp hy
    cases (command?_request hx).symm.trans hcmd'
    rw [hok] at hrefused
    cases hrefused

/-- When wakeup has been handed back without a mark being left, either nothing was put back, and all that
    was marked was refused, or all that was marked was put back. -/
theorem SetsWakeup.putBack (h : Platform.SetsWakeup core masks flags mode false c r d L)
    (htable : c.wakeup.cleared = table) (hd : i ∉ d.wakeup.activeInterfaces) :
    (settings L = [] ∧ (i ∈ c.wakeup.activeInterfaces → PutBackRefused L i)) ∨
      (settings L = c.wakeup.activeInterfaces.map (⟨·, .onAlways⟩) ∧ ¬PutBackRefused L i) := by
  cases h with
  | unarmed h => exact .inl ⟨settings_arm h, fun hc => absurd hc hd⟩
  | @armed _ _ _ L M h h' =>
    have hleave : ((c.wakeup.evaluate masks).handshake false).1 =
        c.wakeup.activeInterfaces.map (⟨·, .onAlways⟩) := leave_fst
    rw [hleave] at h'
    rw [settings_append, settings_arm h, List.nil_append]
    cases r with
    | ok _ =>
      right
      rw [h'.settings_of_ok, putBackRefused_append, not_or]
      exact ⟨List.append_nil _, Sends.not_putBackRefused h (.inl rfl), Sends.not_putBackRefused h' (.inl rfl)⟩
    | error e =>
      left
      refine ⟨h'.settings_of_error, fun hc => putBackRefused_append.mpr (.inr ?_)⟩
      have hfits : (c.wakeup.activeInterfaces.map fun i => (⟨i, .onAlways⟩ : Scmi.PeripheralPolicy)).length ≤ 15 := by
        rw [List.length_map]
        exact Nat.le_trans (length_activeInterfaces htable) (by decide)
      obtain ⟨x, rfl, hx, he⟩ := h'.one (decide_eq_true hfits)
      refine ⟨x, List.mem_singleton_self x, _, command?_request hx, List.mem_map.mpr ⟨i, hc, rfl⟩, ?_⟩
      generalize Scmi.verdict _ x.outcome = o at he ⊢
      cases o with
      | error _ => rfl
      | ok _ => cases he

/-- Of a resume of the system it is handing wakeup back that puts peripherals back and takes their marks
    away. -/
theorem Resumes.handsBack (h : Platform.Resumes core target c r d L) (hoff : target.system.isOff = true) :
    ∃ o b H, Platform.SetsWakeup core allMasked .gic .wait false c o b H ∧ d.wakeup = b.wakeup ∧
      (r = .ok () → o = .ok ()) ∧ settings L = settings H ∧ ∀ i, PutBackRefused L i ↔ PutBackRefused H i := by
  cases h with
  | core hon => rw [hoff] at hon; cases hon
  | system _ h =>
    cases h with
    | @steps o₁ o₄ b a H W P x os hback _ hdogs hpolicy =>
      have hnone : ∀ cmd ∈ [Scmi.Command.domainPolicySet Layout.cluster.cpu Platform.runModePolicy],
          cmd.policies = [] := fun cmd hcmd => by rw [List.mem_singleton.mp hcmd]; rfl
      have hlast : exchanges (κ := κ) (if target.core.isOff then [.enableInterface core] else []) = [] := by
        split <;> rfl
      refine ⟨o₁, b, H, hback, rfl, fun hok => firstFailure_eq_ok.mp hok o₁ List.mem_cons_self, ?_⟩
      -- The exchanges are those of handing wakeup back and of the policy, which sets no peripheral.
      generalize hL : (_ ++ _ : List (Event κ)) = L
      have hexchanges : exchanges L = exchanges (H ++ P) := by
        rw [← hL, exchanges_append, hlast, List.append_nil, exchanges_cons rfl, exchanges_append, exchanges_cons rfl]
        simp only [exchanges_append, exchanges_eq_nil writes_exchange?,
          exchanges_eq_nil (restoresWatchdogs_exchange? hdogs), List.nil_append]
      constructor
      · rw [settings_eq_flatMap, hexchanges, ← settings_eq_flatMap, settings_append,
          hpolicy.settings_eq_nil hnone, List.append_nil]
      · intro i
        unfold PutBackRefused
        rw [hexchanges]
        exact putBackRefused_append.trans (or_iff_left (Sends.not_putBackRefused hpolicy (.inr hnone)))

theorem Resumes.putBack (h : Platform.Resumes core target c r d L) (hoff : target.system.isOff = true)
    (htable : c.wakeup.cleared = table) (hd : i ∉ d.wakeup.activeInterfaces) :
    (settings L = [] ∧ (i ∈ c.wakeup.activeInterfaces → PutBackRefused L i)) ∨
      (settings L = c.wakeup.activeInterfaces.map (⟨·, .onAlways⟩) ∧ ¬PutBackRefused L i) := by
  obtain ⟨o, b, H, hback, hwakeup, -, hsettings, hrefused⟩ := Resumes.handsBack h hoff
  rw [hwakeup] at hd
  rw [hsettings, hrefused]
  exact SetsWakeup.putBack hback htable hd

/-- A resume that leaves a mark has put nothing back. -/
theorem Resumes.kept (h : Platform.Resumes core target c r d L) (hoff : target.system.isOff = true)
    (hd : i ∈ d.wakeup.activeInterfaces) : settings L = [] := by
  obtain ⟨o, b, H, hback, hwakeup, -, hsettings, -⟩ := Resumes.handsBack h hoff
  rw [hsettings]
  rw [hwakeup] at hd
  cases hback with
  | unarmed h => exact settings_arm h
  | armed =>
    have hnone : ((c.wakeup.evaluate allMasked).handshake false).2.activeInterfaces = [] := activeInterfaces_leave
    change i ∈ ((c.wakeup.evaluate allMasked).handshake false).2.activeInterfaces at hd
    rw [hnone] at hd
    cases hd

theorem Resumes.unmarked (h : Platform.Resumes core target c (.ok ()) d L) (hoff : target.system.isOff = true) :
    d.wakeup.activeInterfaces = [] := by
  obtain ⟨o, b, H, hback, hwakeup, hok, -⟩ := Resumes.handsBack h hoff
  rw [hwakeup]
  cases hback with
  | unarmed => cases hok rfl
  | armed => exact activeInterfaces_leave

end Resuming

/-! ### Turns -/

theorem Turn.Happens.suspending (h : e.Happens) (hcore : e.core = core.val) (hcall : e.call = .suspend target)
    (hoff : target.system.isOff = true) : ∃ L, e.after.events = e.before.events ++ L ∧
      Platform.Suspends core target e.before.controller e.outcome e.after.controller L := by
  obtain ⟨L, hL, hgoes⟩ := h.goes
  refine ⟨L, hL, ?_⟩
  cases hgoes with
  | spares hspared => exact absurd core.isLt (Nat.not_lt_of_le (hcore ▸ hspared target hoff (.inl hcall)))
  | suspends hcore' hcall' _ hsuspends =>
    obtain rfl := Fin.ext (hcore.symm.trans hcore')
    obtain rfl := HookCall.suspend.inj (hcall.symm.trans hcall')
    exact hsuspends
  | resumes _ hresume => rw [hcall] at hresume; cases hresume

theorem Turn.Happens.resuming (h : e.Happens) (hcore : e.core = core.val) (hcall : e.call = .resume target)
    (hoff : target.system.isOff = true) : ∃ L, e.after.events = e.before.events ++ L ∧
      Platform.Resumes core target e.before.controller e.outcome e.after.controller L := by
  obtain ⟨L, hL, hgoes⟩ := h.goes
  refine ⟨L, hL, ?_⟩
  cases hgoes with
  | spares hspared => exact absurd core.isLt (Nat.not_lt_of_le (hcore ▸ hspared target hoff (.inr hcall)))
  | suspends _ hsuspend => rw [hcall] at hsuspend; cases hsuspend
  | resumes hcore' hcall' _ hresumes =>
    obtain rfl := Fin.ext (hcore.symm.trans hcore')
    obtain rfl := HookCall.resume.inj (hcall.symm.trans hcall')
    exact hresumes

theorem Turn.Happens.suspends (h : e.Happens) (hsuspend : e.IsSuspend) : ∃ core target L,
    target.system.isOff = true ∧ e.after.events = e.before.events ++ L ∧
      Platform.Suspends core target e.before.controller e.outcome e.after.controller L := by
  obtain ⟨hcore, target, hcall, hoff⟩ := hsuspend
  obtain ⟨L, hL, hsuspends⟩ := h.suspending (show e.core = (⟨e.core, hcore⟩ : Fin 4).val from rfl) hcall hoff
  exact ⟨_, target, L, hoff, hL, hsuspends⟩

theorem Turn.Happens.resumes (h : e.Happens) (hresume : e.IsResume) : ∃ core target L,
    target.system.isOff = true ∧ e.after.events = e.before.events ++ L ∧
      Platform.Resumes core target e.before.controller e.outcome e.after.controller L := by
  obtain ⟨hcore, target, hcall, hoff⟩ := hresume
  obtain ⟨L, hL, hresumes⟩ := h.resuming (show e.core = (⟨e.core, hcore⟩ : Fin 4).val from rfl) hcall hoff
  exact ⟨_, target, L, hoff, hL, hresumes⟩

/-- What a turn leaves without a mark is held after it exactly if it already was held without one, or is
    forgotten just then. -/
theorem Turn.Goes.holds_iff (h : e.Goes L) (hL : e.after.events = e.before.events ++ L)
    (htable : e.before.controller.wakeup.cleared = table) (hq : q ∈ table) (hmarks : ¬e.after.Marks q.interface) :
    e.after.Holds q.interface ↔
      e.before.Holds q.interface ∧ ¬e.before.Marks q.interface ∨ e.Forgets q := by
  have hevents : e.events = L := by rw [Turn.events, hL, List.drop_left]
  have hlast : lastSetting (settings e.after.events) q.interface =
      (lastSetting (settings L) q.interface).or (lastSetting (settings e.before.events) q.interface) := by
    rw [hL, settings_append, lastSetting_append]
  have hkept : lastSetting (settings L) q.interface = none →
      (e.after.Holds q.interface ↔ e.before.Holds q.interface) := by
    intro hnone
    rw [Moment.Holds, hlast, hnone]
    rfl
  cases h with
  | spares hcall hspares =>
    have hwatchdog : ∀ q ∈ table, q.interface ≠ Layout.watchdogInterface := by decide
    have hnone : lastSetting (settings L) q.interface = none := by
      refine lastSetting_eq_none fun hmem => ?_
      obtain ⟨p, hp, heq⟩ := List.mem_map.mp hmem
      exact hwatchdog q hq (heq.symm.trans (hspares.peripherals p hp))
    have hbefore : ¬e.before.Marks q.interface := by
      rwa [Moment.Marks, ← hspares.wakeup]
    rw [hkept hnone]
    exact ⟨fun h => .inl ⟨h, hbefore⟩, fun h => h.elim And.left And.left⟩
  | suspends hcore hcall hoff hsuspends =>
    obtain ⟨hnone, hdisabled⟩ := Suspends.unmarked hsuspends hoff htable hq hmarks
    rw [hkept hnone]
    refine ⟨fun h => ?_, fun h => h.elim And.left And.left⟩
    by_cases hmarked : e.before.Marks q.interface
    · exact .inr ⟨h, hmarked, .inr ⟨⟨hcore ▸ Fin.isLt _, _, hcall, hoff⟩, hevents ▸ hdisabled hmarked⟩⟩
    · exact .inl ⟨h, hmarked⟩
  | resumes hcore hcall hoff hresumes =>
    have hresume : e.IsResume := ⟨hcore ▸ Fin.isLt _, _, hcall, hoff⟩
    rcases Resumes.putBack hresumes hoff htable hmarks with ⟨hnone, hback⟩ | ⟨hput, hback⟩ <;> rw [← hevents] at hback
    · rw [hkept (by rw [hnone]; rfl)]
      refine ⟨fun h => ?_, fun h => h.elim And.left And.left⟩
      by_cases hmarked : e.before.Marks q.interface
      · exact .inr ⟨h, hmarked, .inl ⟨hresume, hback hmarked⟩⟩
      · exact .inl ⟨h, hmarked⟩
    · by_cases hmarked : e.before.Marks q.interface
      · have halways : lastSetting (settings L) q.interface = some .onAlways := by
          rw [hput]
          exact lastSetting_map.trans (if_pos hmarked)
        rw [Moment.Holds, hlast, halways]
        refine iff_of_false (fun h => by cases h) ?_
        rintro (⟨-, hnot⟩ | ⟨-, -, ⟨-, h⟩ | ⟨⟨-, target, hsuspend, -⟩, -⟩⟩)
        · exact hnot hmarked
        · exact hback h
        · rw [hcall] at hsuspend
          cases hsuspend
      · have hnone : lastSetting (settings L) q.interface = none := by
          rw [hput]
          exact lastSetting_map.trans (if_neg hmarked)
        rw [hkept hnone]
        exact ⟨fun h => .inl ⟨h, hmarked⟩, fun h => h.elim And.left And.left⟩

/-! ### Courses -/

theorem Course.holds_iff {s t : Moment κ} (h : Course s turns t) (hs : s.events = [])
    (htable : s.controller.wakeup.cleared = table) (hq : q ∈ table) :
    t.Holds q.interface ∧ ¬t.Marks q.interface ↔ Forgotten q turns := by
  induction h with
  | nil =>
    refine iff_of_false ?_ ?_
    · rintro ⟨hholds, -⟩
      rw [Moment.Holds, hs] at hholds
      cases hholds
    · rintro ⟨before, e, after, heq, -⟩
      simp at heq
  | @snoc turns e h he ih =>
    obtain ⟨L, hL, hgoes⟩ := he.goes
    rw [forgotten_snoc, ← ih, and_comm]
    exact and_congr_right fun hmarks => hgoes.holds_iff hL (h.cleared.trans htable) hq hmarks

theorem Turn.Happens.unmarked (h : e.Happens) (hresume : e.IsResume) (hok : e.outcome = .ok ()) :
    ¬e.after.Marks i := by
  obtain ⟨core, target, L, hoff, -, hresumes⟩ := h.resumes hresume
  rw [hok] at hresumes
  rw [Moment.Marks, Resumes.unmarked hresumes hoff]
  exact List.not_mem_nil

/-- After a resume of the system that succeeded, a peripheral of the table is still held exactly if it has
    been forgotten: it was held and marked when a resume was refused to put it back, or when a suspend
    found its line disabled, and it has not been marked since. -/
theorem held_iff_forgotten {k : κ} {t : Moment κ} (hcourse : Course ⟨Controller.initial k, []⟩ (turns ++ [e]) t)
    (hresume : e.IsResume) (hok : e.outcome = .ok ()) (hq : q ∈ table) :
    t.Holds q.interface ↔ Forgotten q (turns ++ [e]) := by
  rw [← hcourse.holds_iff rfl rfl hq]
  obtain ⟨rfl, he, -⟩ := hcourse.last
  exact (and_iff_left (he.unmarked hresume hok)).symm

/-! ### A peripheral that stays held -/

theorem Turn.Happens.holds (h : e.Happens) (hsuspend : e.IsSuspend) (hok : e.outcome = .ok ())
    (hmarks : e.after.Marks i) : e.after.Holds i := by
  obtain ⟨core, target, L, hoff, hL, hsuspends⟩ := h.suspends hsuspend
  rw [hok] at hsuspends
  rw [Moment.Holds, hL, settings_append, lastSetting_append, Suspends.holds hsuspends hoff hmarks]
  rfl

theorem Turn.Happens.kept (h : e.Happens) (hresume : e.IsResume) (hmarks : e.after.Marks i)
    (hholds : e.before.Holds i) : e.after.Holds i := by
  obtain ⟨core, target, L, hoff, hL, hresumes⟩ := h.resumes hresume
  rw [Moment.Holds, hL, settings_append, Resumes.kept hresumes hoff hmarks, List.append_nil]
  exact hholds

/-- A suspend that takes the mark from what is held forgets it. -/
theorem Turn.Happens.forgets (h : e.Happens) (hsuspend : e.IsSuspend)
    (htable : e.before.controller.wakeup.cleared = table) (hq : q ∈ table) (hholds : e.before.Holds q.interface)
    (hmarked : e.before.Marks q.interface) (hmarks : ¬e.after.Marks q.interface) : e.Forgets q := by
  obtain ⟨core, target, L, hoff, hL, hsuspends⟩ := h.suspends hsuspend
  have hevents : e.events = L := by rw [Turn.events, hL, List.drop_left]
  obtain ⟨-, hdisabled⟩ := Suspends.unmarked hsuspends hoff htable hq hmarks
  exact ⟨hholds, hmarked, .inr ⟨hsuspend, hevents ▸ hdisabled hmarked⟩⟩

/-- A world in which the request of one token is denied, and all lines are enabled alike. -/
def lined (denied : BitVec 10) (enables : UInt32) : Environment Unit :=
  { Platform.denying fun q => (Scmi.Header.decode q.opcode).token == denied with
    enclave := fun _ _ => (.ok ⟨0, Enclave.successStatus, 0⟩, [])
    enableMask := fun _ _ => enables }

def cycle : List HookCall := [.suspend .allOff, .resume .allOff]

/-- The console and its line. -/
def console : WakeupPeripheral := ⟨12, some 21, false⟩

/-- The first resume is refused before it puts anything back, and by the second suspend the line of the
    console has been disabled: which core called what, how that ended, and whether the console was marked
    then. -/
theorem play_lined : (((lined 7 0xffffffff).play Platform.noRegion cycle ⟨Controller.initial (), []⟩).bind fun x =>
    ((lined 0x3ff 0).play Platform.noRegion cycle x.2).map fun y => (x.1 ++ y.1).map fun e =>
      (e.core, e.call, e.outcome, decide (console.interface ∈ e.after.controller.wakeup.activeInterfaces))) =
    some [(1, .suspend .allOff, .ok (), true), (1, .resume .allOff, .error (.scmi (.status .denied)), true),
      (1, .suspend .allOff, .ok (), false), (1, .resume .allOff, .ok (), false)] := by decide +kernel

theorem console_forgotten : ∃ turns e t, Course ⟨Controller.initial (), []⟩ (turns ++ [e]) t ∧
    (turns ++ [e]).map (fun e => (e.core, e.call)) = (cycle ++ cycle).map (fun call => (1, call)) ∧
    e.IsResume ∧ e.outcome = .ok () ∧ Forgotten console (turns ++ [e]) := by
  obtain ⟨⟨first, s⟩, hfirst, hx⟩ := Option.bind_eq_some_iff.mp play_lined
  obtain ⟨⟨second, t⟩, hsecond, hseen⟩ := Option.map_eq_some_iff.mp hx
  have hcourse := course_of_play (course_of_play .nil hfirst) hsecond
  rw [List.nil_append] at hcourse
  dsimp only at hseen
  generalize first ++ second = turns at hcourse hseen
  obtain ⟨e₁, turns, rfl, h₁, hseen⟩ := List.map_eq_cons_iff.mp hseen
  obtain ⟨e₂, turns, rfl, h₂, hseen⟩ := List.map_eq_cons_iff.mp hseen
  obtain ⟨e₃, turns, rfl, h₃, hseen⟩ := List.map_eq_cons_iff.mp hseen
  obtain ⟨e₄, turns, rfl, h₄, hseen⟩ := List.map_eq_cons_iff.mp hseen
  obtain rfl := List.map_eq_nil_iff.mp hseen
  simp only [Prod.mk.injEq, decide_eq_true_eq, decide_eq_false_iff_not] at h₁ h₂ h₃ h₄
  obtain ⟨hcore₁, hcall₁, hok₁, hmarks₁⟩ := h₁
  obtain ⟨hcore₂, hcall₂, -, hmarks₂⟩ := h₂
  obtain ⟨hcore₃, hcall₃, -, hmarks₃⟩ := h₃
  obtain ⟨hcore₄, hcall₄, hok₄, hmarks₄⟩ := h₄
  change Course _ ([] ++ [e₁] ++ [e₂] ++ [e₃] ++ [e₄]) t at hcourse
  obtain ⟨-, -, hcourse₃⟩ := hcourse.last
  obtain ⟨-, he₃, hcourse₂⟩ := hcourse₃.last
  obtain ⟨heq₂, he₂, hcourse₁⟩ := hcourse₂.last
  obtain ⟨heq₁, he₁, -⟩ := hcourse₁.last
  have hheld₁ : e₁.after.Holds console.interface := he₁.holds ⟨by omega, _, hcall₁, rfl⟩ hok₁ hmarks₁
  have hheld₂ : e₂.after.Holds console.interface := he₂.kept ⟨by omega, _, hcall₂, rfl⟩ hmarks₂ (heq₁ ▸ hheld₁)
  have hforgets : e₃.Forgets console := he₃.forgets ⟨by omega, _, hcall₃, rfl⟩ hcourse₂.cleared (by decide)
    (heq₂ ▸ hheld₂) (by rw [heq₂]; exact hmarks₂) hmarks₃
  refine ⟨[e₁, e₂, e₃], e₄, t, hcourse, ?_, ⟨by omega, _, hcall₄, rfl⟩, hok₄, [e₁, e₂], e₃, [e₄], rfl, hforgets, ?_⟩
  · simp only [List.map_cons, List.map_append, hcore₁, hcall₁, hcore₂, hcall₂, hcore₃, hcall₃, hcore₄, hcall₄]
    rfl
  · intro f hf
    rcases List.mem_cons.mp hf with rfl | hf
    · exact hmarks₃
    · rw [List.mem_singleton.mp hf]
      exact hmarks₄

theorem held_iff_forgotten_console : ∃ turns e t, Course ⟨Controller.initial (), []⟩ (turns ++ [e]) t ∧
    e.IsResume ∧ e.outcome = .ok () ∧ Forgotten console (turns ++ [e]) ∧ t.Holds console.interface := by
  obtain ⟨turns, e, t, hcourse, -, hresume, hok, hforgotten⟩ := console_forgotten
  have hq : console ∈ table := by decide
  exact ⟨turns, e, t, hcourse, hresume, hok, hforgotten, (held_iff_forgotten hcourse hresume hok hq).mpr hforgotten⟩

/-- After two pairs of a suspend and a resume the last resume succeeds, and the console is still held. -/
theorem resume_leavesHeld : ∃ turns e t, Course ⟨Controller.initial (), []⟩ (turns ++ [e]) t ∧
    (turns ++ [e]).map (fun e => (e.core, e.call)) = (cycle ++ cycle).map (fun call => (1, call)) ∧
    e.outcome = .ok () ∧ console ∈ table ∧ t.Holds console.interface := by
  obtain ⟨turns, e, t, hcourse, hcalls, -, hok, hforgotten⟩ := console_forgotten
  have hq : console ∈ table := by decide
  exact ⟨turns, e, t, hcourse, hcalls, hok, hq, ((hcourse.holds_iff rfl rfl hq).mpr hforgotten).1⟩

end PowerFirmware
