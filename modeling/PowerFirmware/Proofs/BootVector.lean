import PowerFirmware.Proofs.Records
import PowerFirmware.Proofs.Suspend.Held
import PowerFirmware.Proofs.Turns

/-! The boot vector of a core. Main statement: whatever is called and answered, a core other than the one
that boots the system is started only after the System Manager has accepted one boot vector for it, is
never given another, and counts as pending just until then (`bootVector_discipline`). -/

namespace PowerFirmware
open Run Platform

variable {κ : Type} {L M : List (Event κ)} {core : Fin 4} {x : Exchange} {cmd : Scmi.Command}
variable {c d : Controller κ} {r : Except PlatformError Unit} {target : PowerState} {s t : Moment κ} {e : Turn κ}
variable {Entry Entry' : UInt64 → Prop}

/-! ### What boots a core -/

def Scmi.Command.bootVector? (core : Fin 4) : Scmi.Command → Option UInt64
  | .resetVectorSet cpu flags v => if cpu = Layout.cpuOf core ∧ flags = .boot then some v else none
  | _ => none

/-- Whether a command starts the core or gives it a boot vector. -/
def Scmi.Command.boots (core : Fin 4) (cmd : Scmi.Command) : Bool :=
  cmd = .cpuStart (Layout.cpuOf core) || (cmd.bootVector? core).isSome

/-- The boot vector of the core that an exchange brought about: that of its command, if that was
    accepted. -/
def Exchange.bootVector? (core : Fin 4) (x : Exchange) : Option UInt64 := do
  let cmd ← x.command?
  if (Scmi.verdict cmd x.outcome).isOk then cmd.bootVector? core else none

/-- All boot vectors of the core that the System Manager has accepted, the latest last. -/
def bootVectors (core : Fin 4) (L : List (Event κ)) : List UInt64 := (exchanges L).filterMap (·.bootVector? core)

@[simp] theorem bootVectors_append : bootVectors core (L ++ M) = bootVectors core L ++ bootVectors core M := by
  rw [bootVectors, exchanges_append, List.filterMap_append]
  rfl

/-! ### Events that boot no core -/

theorem bootVectors_eq_nil (h : Asks (·.bootVector? core = none) L) : bootVectors core L = [] := by
  refine List.filterMap_eq_nil_iff.mpr fun x hx => ?_
  rw [Exchange.bootVector?]
  rcases hcmd : x.command? with _ | cmd
  · rfl
  · show (if _ then cmd.bootVector? core else none) = none
    rw [h x hx cmd hcmd, ite_self]

/-- Nothing was put to the System Manager that starts the core or gives it a boot vector. -/
def Passes (core : Fin 4) (L : List (Event κ)) : Prop := Asks (·.boots core = false) L

theorem Passes.bootVectors (h : Passes core L) : bootVectors core L = [] := by
  refine bootVectors_eq_nil fun x hx cmd hcmd => ?_
  have hboots := h x hx cmd hcmd
  simp only [Scmi.Command.boots, Bool.or_eq_false_iff, Option.isSome_eq_false_iff, Option.isNone_iff_eq_none] at hboots
  exact hboots.2

theorem boots_setup {entry : UInt64} (hcore : core ≠ Layout.bootCore) :
    ∀ cmd ∈ setupCommands entry, cmd.boots core = false := by
  have hcpu : ¬Layout.cpuOf Layout.bootCore = Layout.cpuOf core := fun h => hcore (cpuOf_inj.mp h).symm
  simp [setupCommands, allowEventsCommand, corePolicyCommand, Scmi.Command.boots, Scmi.Command.bootVector?, hcpu]

theorem boots_boot {core' : Fin 4} {entry : UInt64} (hcore : core ≠ core') :
    ∀ cmd ∈ [bootCommand core' entry], cmd.boots core = false := by
  have hcpu : ¬Layout.cpuOf core' = Layout.cpuOf core := fun h => hcore (cpuOf_inj.mp h).symm
  simp [bootCommand, Scmi.Command.boots, Scmi.Command.bootVector?, hcpu]

theorem boots_start {core' : Fin 4} (hcore : core ≠ core') : ∀ cmd ∈ startCommands core', cmd.boots core = false := by
  have hcpu : ¬Layout.cpuOf core' = Layout.cpuOf core := fun h => hcore (cpuOf_inj.mp h).symm
  simp [startCommands, allowEventsCommand, corePolicyCommand, Scmi.Command.boots, Scmi.Command.bootVector?, hcpu]

theorem boots_off {core' : Fin 4} : ∀ cmd ∈ offCommands core', cmd.boots core = false := by
  simp [offCommands, corePolicyCommand, Scmi.Command.boots, Scmi.Command.bootVector?]

theorem boots_leave {core' : Fin 4} {entry : UInt64} :
    ∀ cmd ∈ leaveCommands core' target entry, cmd.boots core = false := by
  have hflags : ¬Scmi.VectorFlags.resume = Scmi.VectorFlags.boot := by decide
  unfold leaveCommands
  split <;> simp [Scmi.Command.boots, Scmi.Command.bootVector?, hflags]

theorem boots_arm {core' : Fin 4} {masks : List UInt32} {flags : Scmi.WakeupFlags} {mode : Scmi.SleepMode} :
    ∀ cmd ∈ armCommands core' masks flags mode, cmd.boots core = false := by
  simp [armCommands, Scmi.Command.boots, Scmi.Command.bootVector?]

/-! ### Hooks that boot another core or none -/

section Others
variable {core' : Fin 4}

/-- The entry is kept, and so is whether the core is pending, and the core is not booted. -/
structure LeavesOff (core : Fin 4) (c d : Controller κ) (L : List (Event κ)) : Prop where
  entry : d.entry = c.entry
  pending : d.isBootPending core = c.isBootPending core
  passes : Passes core L

theorem Platform.SetsWakeup.leavesOff (core : Fin 4) {masks : List UInt32} {flags : Scmi.WakeupFlags}
    {mode : Scmi.SleepMode} {entering : Bool} (h : SetsWakeup core' masks flags mode entering c r d L) :
    LeavesOff core c d L := by
  have hpasses : Passes core L := by
    refine h.sends.asks fun cmd hcmd => ?_
    rcases List.mem_append.mp hcmd with hcmd | hcmd
    · exact boots_arm cmd hcmd
    · rw [List.mem_singleton.mp hcmd]
      rfl
  cases h with
  | unarmed => exact ⟨rfl, rfl, hpasses⟩
  | armed => exact ⟨rfl, rfl, hpasses⟩

theorem Platform.HandsOver.leavesOff (core : Fin 4) (h : HandsOver core' c r d L) : LeavesOff core c d L := by
  have hmask : ∀ cmd ∈ [Scmi.Command.irqWakeSet (Layout.cpuOf core') 0 WakeupPolicy.allMasked],
      cmd.boots core = false := by
    simp [Scmi.Command.boots, Scmi.Command.bootVector?]
  cases h with
  | unmasked h => exact ⟨rfl, rfl, h.asks hmask⟩
  | masked h _ hsets =>
    obtain ⟨hentry, hpending, hpasses⟩ := hsets.leavesOff core
    exact ⟨hentry, hpending, (h.asks hmask).append (.append (.of_none maskReads_exchange?) hpasses)⟩

theorem Platform.SuspendsSystem.leavesOff (core : Fin 4) (h : SuspendsSystem core' c r d L) :
    LeavesOff core c d L := by
  cases h with
  | held h =>
    obtain ⟨hentry, hpending, hpasses⟩ := h.leavesOff core
    exact ⟨hentry, hpending, .cons rfl hpasses⟩
  | saved h _ hpolicy =>
    obtain ⟨hentry, hpending, hpasses⟩ := h.leavesOff core
    refine ⟨hentry, hpending, .cons rfl (hpasses.append (.append (.of_none saveEvents_exchange?) (hpolicy.asks ?_)))⟩
    simp [Scmi.Command.boots, Scmi.Command.bootVector?]

theorem Platform.Suspends.leavesOff (core : Fin 4) (h : Suspends core' target c r d L) : LeavesOff core c d L := by
  cases h with
  | stays h => exact ⟨rfl, rfl, h.asks boots_leave⟩
  | leaves h hsystem =>
    split at hsystem
    · obtain ⟨hentry, hpending, hpasses⟩ := hsystem.leavesOff core
      exact ⟨hentry, hpending, (h.asks boots_leave).append (.append (.of_none leaveEvents_exchange?) hpasses)⟩
    · obtain ⟨-, rfl, rfl⟩ := hsystem
      rw [List.append_nil]
      exact ⟨rfl, rfl, (h.asks boots_leave).append (.of_none leaveEvents_exchange?)⟩

theorem Platform.ResumesSystem.leavesOff (core : Fin 4) {os : List (Except PlatformError Unit)}
    (h : ResumesSystem core' c os d L) : LeavesOff core c d L := by
  cases h with
  | steps hback _ hdogs hpolicy =>
    obtain ⟨hentry, hpending, hpasses⟩ := hback.leavesOff core
    refine ⟨hentry, hpending, .cons rfl (hpasses.append (.cons rfl (.append (.of_none writes_exchange?)
      (.append (.of_none writes_exchange?) (.append (.of_none (restoresWatchdogs_exchange? hdogs)) (hpolicy.asks ?_))))))⟩
    simp [Scmi.Command.boots, Scmi.Command.bootVector?]

theorem Platform.Resumes.leavesOff (core : Fin 4) (h : Resumes core' target c r d L) : LeavesOff core c d L := by
  have hlast : Passes core (if target.core.isOff then [.enableInterface core'] else [] : List (Event κ)) := by
    refine .of_none fun e he => ?_
    split at he
    · rw [List.mem_singleton.mp he]
      rfl
    · cases he
  cases h with
  | system _ h =>
    obtain ⟨hentry, hpending, hpasses⟩ := h.leavesOff core
    exact ⟨hentry, hpending, hpasses.append hlast⟩
  | core => exact ⟨rfl, rfl, hlast⟩

theorem Platform.PowersOn.leavesOff (hcore : core ≠ core') (h : PowersOn core' c r d L) : LeavesOff core c d L := by
  cases h with
  | refused _ hboot => exact ⟨rfl, rfl, hboot.asks (boots_boot hcore)⟩
  | first _ hboot hstart =>
    refine ⟨rfl, ?_, (hboot.asks (boots_boot hcore)).append (hstart.asks (boots_start hcore))⟩
    exact c.isBootPending_other hcore
  | again _ hstart => exact ⟨rfl, rfl, hstart.asks (boots_start hcore)⟩

theorem Platform.PowersOn.booted (h : PowersOn core' c r d L) (hbooted : c.isBootPending core = false) :
    d.isBootPending core = false := by
  by_cases hsame : core = core'
  · subst hsame
    cases h with
    | refused => exact hbooted
    | first => exact c.isBootPending_self
    | again => exact hbooted
  · rw [(h.leavesOff hsame).pending]
    exact hbooted

theorem Platform.PowersOn.entry (h : PowersOn core' c r d L) : d.entry = c.entry := by
  cases h <;> rfl

end Others

/-! ### The discipline -/

/-- What is asked of an exchange by what was before it: a start of the core comes after the one boot
    vector that was accepted for it, and a boot vector for it when none has been, and these are entries. -/
structure Exchange.Due (Entry : UInt64 → Prop) (core : Fin 4) (past : List (Event κ)) (x : Exchange) : Prop where
  start : x.command? = some (.cpuStart (Layout.cpuOf core)) → ∃ v, Entry v ∧ bootVectors core past = [v]
  vector : ∀ v, x.command? = some (.resetVectorSet (Layout.cpuOf core) .boot v) →
    Entry v ∧ bootVectors core past = []

/-- Every exchange was due when it was made. -/
def InOrder (Entry : UInt64 → Prop) (core : Fin 4) (L : List (Event κ)) : Prop :=
  ∀ M x N, L = M ++ .manager x :: N → x.Due Entry core M

/-- What the controller and the events so far agree on about a core. -/
structure Disciplined (Entry : UInt64 → Prop) (core : Fin 4) (s : Moment κ) : Prop where
  pending : s.controller.isBootPending core = true → bootVectors core s.events = []
  booted : s.controller.isBootPending core = false → ∃ v, Entry v ∧ bootVectors core s.events = [v]
  inOrder : InOrder Entry core s.events

theorem Exchange.Due.mono (h : ∀ v, Entry v → Entry' v) (hx : x.Due Entry core L) : x.Due Entry' core L :=
  ⟨fun hstart => (hx.start hstart).imp fun v hv => ⟨h v hv.1, hv.2⟩,
    fun v hvector => ⟨h v (hx.vector v hvector).1, (hx.vector v hvector).2⟩⟩

theorem Disciplined.mono (h : ∀ v, Entry v → Entry' v) (hs : Disciplined Entry core s) : Disciplined Entry' core s :=
  ⟨hs.pending, fun hbooted => (hs.booted hbooted).imp fun v hv => ⟨h v hv.1, hv.2⟩,
    fun M x N hM => (hs.inOrder M x N hM).mono h⟩

namespace InOrder

theorem nil : InOrder Entry core ([] : List (Event κ)) := by
  intro M x N h
  simp at h

/-- An exchange of the events that follow is due by what those before it were and by all of the past. -/
theorem append (hL : InOrder Entry core L) (hM : ∀ before x after, M = before ++ .manager x :: after →
    x.Due Entry core (L ++ before)) : InOrder Entry core (L ++ M) := by
  intro before x after h
  obtain ⟨between, rfl, hafter⟩ | ⟨between, rfl, hM'⟩ := List.append_eq_append_iff.mp h
  · exact hM between x after hafter
  · rcases between with _ | ⟨e, between⟩
    · simpa using hM [] x after hM'.symm
    · obtain ⟨rfl, -⟩ := List.cons.inj hM'
      exact hL before _ between rfl

end InOrder

theorem Passes.due (hM : Passes core M) (hx : x ∈ exchanges M) : x.Due Entry core L := by
  constructor
  · intro hstart
    have hboots := hM x hx _ hstart
    simp [Scmi.Command.boots] at hboots
  · intro v hvector
    have hboots := hM x hx _ hvector
    simp [Scmi.Command.boots, Scmi.Command.bootVector?] at hboots

theorem mem_exchanges_of_eq {N : List (Event κ)} (h : M = L ++ .manager x :: N) : x ∈ exchanges M := by
  rw [mem_exchanges, h]
  exact List.mem_append_right L List.mem_cons_self

/-- Events that do not boot the core keep to the discipline. -/
theorem Disciplined.pass (hs : Disciplined Entry core s) (hevents : t.events = s.events ++ L)
    (hpending : t.controller.isBootPending core = s.controller.isBootPending core)
    (hL : Passes core L) : Disciplined Entry core t := by
  have hvectors : bootVectors core t.events = bootVectors core s.events := by
    rw [hevents, bootVectors_append, hL.bootVectors, List.append_nil]
  refine ⟨?_, ?_, ?_⟩
  · rw [hpending, hvectors]
    exact hs.pending
  · rw [hpending, hvectors]
    exact hs.booted
  · rw [hevents]
    exact hs.inOrder.append fun before x after h => hL.due (mem_exchanges_of_eq h)

/-! ### Powering a core on -/

section On
variable {a b : Scmi.Client} {entry : UInt64}

theorem bootVector?_bootCommand : (bootCommand core entry).bootVector? core = some entry := if_pos ⟨rfl, rfl⟩

theorem Sends.boot (h : Sends a [bootCommand core entry] L r b) : ∃ x, L = [.manager x] ∧
    x.command? = some (bootCommand core entry) ∧ bootVectors core L = if r.isOk then [entry] else [] := by
  obtain ⟨x, rfl, hx, rfl⟩ := h.one rfl
  have hvector : x.bootVector? core =
      if (Scmi.verdict (bootCommand core entry) x.outcome).isOk then some entry else none := by
    rw [Exchange.bootVector?, command?_request hx, ← bootVector?_bootCommand]
    rfl
  refine ⟨x, rfl, command?_request hx, ?_⟩
  show [x].filterMap _ = _
  rw [List.filterMap_cons, hvector]
  cases Scmi.verdict (bootCommand core entry) x.outcome with
  | error e => rfl
  | ok _ => rfl

theorem asks_start {core' : Fin 4} (h : Sends a (startCommands core') L r b) :
    Asks (·.bootVector? core = none) L := by
  refine h.asks ?_
  simp [startCommands, allowEventsCommand, corePolicyCommand, Scmi.Command.bootVector?]

/-- A core may be started once its boot vector has been accepted. -/
theorem InOrder.start {v : UInt64} (hL : InOrder Entry core L) (hv : Entry v) (hvectors : bootVectors core L = [v])
    (h : Sends a (startCommands core) M r b) : InOrder Entry core (L ++ M) := by
  have hM : Asks (·.bootVector? core = none) M := asks_start h
  refine hL.append fun before x after hbefore => ⟨fun _ => ⟨v, hv, ?_⟩, fun w hw => ?_⟩
  · rw [bootVectors_append, hvectors, bootVectors_eq_nil, List.append_nil]
    intro y hy
    refine hM y ?_
    rw [hbefore, exchanges_append]
    exact List.mem_append_left _ hy
  · have hnone := hM x (mem_exchanges_of_eq hbefore) _ hw
    simp [Scmi.Command.bootVector?] at hnone

/-- A boot vector may be given to the core while none has been accepted. -/
theorem InOrder.boot (hL : InOrder Entry core L) (hentry : Entry entry) (hnone : bootVectors core L = [])
    (hx : x.command? = some (bootCommand core entry)) : InOrder Entry core (L ++ [.manager x]) := by
  refine hL.append fun before y after h => ?_
  obtain ⟨rfl, rfl⟩ : before = [] ∧ y = x := by
    rcases before with _ | ⟨e, before⟩
    · cases h
      exact ⟨rfl, rfl⟩
    · simp at h
  rw [List.append_nil]
  refine ⟨fun hstart => ?_, fun v hvector => ?_⟩
  · rw [hx] at hstart
    cases hstart
  · rw [hx] at hvector
    cases hvector
    exact ⟨hentry, hnone⟩

/-- A core is given its boot vector while none has been accepted, and is started once one has. -/
theorem Disciplined.on (hs : Disciplined Entry core s) (hentry : Entry s.controller.entry)
    (hevents : t.events = s.events ++ L) (h : PowersOn core s.controller r t.controller L) : Disciplined Entry core t := by
  obtain ⟨t, events⟩ := t
  simp only at hevents h
  subst hevents
  cases h with
  | refused hpending hboot =>
    have hnone := hs.pending hpending
    obtain ⟨x, rfl, hx, hvectors⟩ := hboot.boot
    refine ⟨fun _ => ?_, fun hbooted => absurd (hbooted.symm.trans hpending) Bool.false_ne_true,
      hs.inOrder.boot hentry hnone hx⟩
    rw [bootVectors_append, hnone, hvectors]
    rfl
  | @first _ _ _ L M hpending hboot hstart =>
    have hnone := hs.pending hpending
    obtain ⟨x, rfl, hx, hvectors⟩ := hboot.boot
    have hone : bootVectors core (s.events ++ [.manager x]) = [s.controller.entry] := by
      rw [bootVectors_append, hnone, hvectors]
      rfl
    rw [← List.append_assoc]
    refine ⟨fun hpending => ?_, fun _ => ⟨_, hentry, ?_⟩,
      (hs.inOrder.boot hentry hnone hx).start hentry hone hstart⟩
    · exact absurd (s.controller.isBootPending_self.symm.trans hpending) Bool.false_ne_true
    · rw [bootVectors_append, hone, bootVectors_eq_nil (asks_start hstart), List.append_nil]
  | again hbooted hstart =>
    obtain ⟨v, hv, hone⟩ := hs.booted hbooted
    refine ⟨fun hpending => absurd (hbooted.symm.trans hpending) Bool.false_ne_true, fun _ => ⟨v, hv, ?_⟩,
      hs.inOrder.start hv hone hstart⟩
    rw [bootVectors_append, hone, bootVectors_eq_nil (asks_start hstart), List.append_nil]

end On

/-! ### Turns -/

theorem Turn.Makes.entry (h : e.Makes L) : (∃ v, e.call = .setup v ∧ e.after.controller.entry = v) ∨
    (∀ v, e.call ≠ .setup v) ∧ e.after.controller.entry = e.before.controller.entry := by
  cases h with
  | setup hcall _ hafter => exact .inl ⟨_, hcall, by rw [hafter]⟩
  | on hcall _ h => exact .inr ⟨by simp [hcall], h.entry⟩
  | onFinish hcall _ _ hafter => exact .inr ⟨by simp [hcall], by rw [hafter]⟩
  | off hcall _ _ hafter => exact .inr ⟨by simp [hcall], by rw [hafter]⟩
  | suspend hcall _ h => exact .inr ⟨by simp [hcall], (h.leavesOff 0).entry⟩
  | resume hcall _ h => exact .inr ⟨by simp [hcall], (h.leavesOff 0).entry⟩
  | transition hcall _ hafter =>
    refine .inr ⟨fun v hv => ?_, by rw [hafter]⟩
    rw [hv] at hcall
    obtain ⟨⟨⟩, -⟩ | ⟨⟨⟩, -⟩ := hcall
  | noCore hcall _ hafter =>
    refine .inr ⟨fun v hv => ?_, by rw [hafter]⟩
    rw [hv] at hcall
    obtain ⟨_, ⟨⟩, -⟩ | ⟨⟨⟩, -⟩ := hcall

/-- Every hook keeps the discipline. -/
theorem Turn.Makes.disciplined (h : e.Makes L) (hL : e.after.events = e.before.events ++ L)
    (hcore : core ≠ Layout.bootCore) (hentry : (∀ v, e.call ≠ .setup v) → Entry e.before.controller.entry)
    (hs : Disciplined Entry core e.before) : Disciplined Entry core e.after := by
  have kept : e.after.controller = { e.before.controller with client := e.after.controller.client } →
      Passes core L → Disciplined Entry core e.after := by
    intro hafter
    exact hs.pass hL (by rw [hafter]; rfl)
  have left : LeavesOff core e.before.controller e.after.controller L → Disciplined Entry core e.after :=
    fun h => hs.pass hL h.pending h.passes
  cases h with
  | setup hcall hsends hafter => exact hs.pass hL (by rw [hafter]; rfl) (hsends.asks (boots_setup hcore))
  | @on _ core' hcall _ hpowers =>
    by_cases hsame : core = core'
    · exact hs.on (hentry fun v hv => HookCall.noConfusion (hcall.symm.trans hv)) hL (hsame ▸ hpowers)
    · exact left (hpowers.leavesOff hsame)
  | onFinish _ _ hsends hafter heq =>
    refine kept hafter ?_
    rw [heq]
    refine (hsends.asks ?_).append (.of_none ?_)
    · simp [Scmi.Command.boots, Scmi.Command.bootVector?]
    · split <;> simp [Event.exchange?]
  | off _ _ hsends hafter heq =>
    refine kept hafter ?_
    rw [heq]
    exact .cons rfl (.cons rfl (hsends.asks boots_off))
  | suspend _ _ h => exact left (h.leavesOff core)
  | resume _ _ h => exact left (h.leavesOff core)
  | transition _ hsends hafter heq =>
    refine kept hafter ?_
    rw [heq]
    exact .cons rfl (hsends.asks (by simp [Scmi.Command.boots, Scmi.Command.bootVector?]))
  | noCore _ _ hafter heq =>
    refine kept ?_ ?_
    · rw [hafter]
    · rw [heq]
      exact .of_none fun _ he => absurd he List.not_mem_nil

/-- A core that is no longer pending never is again. -/
theorem Turn.Makes.booted (h : e.Makes L) (hbooted : e.before.controller.isBootPending core = false) :
    e.after.controller.isBootPending core = false := by
  cases h with
  | setup _ _ hafter => rw [hafter]; exact hbooted
  | on _ _ h => exact h.booted hbooted
  | onFinish _ _ _ hafter => rw [hafter]; exact hbooted
  | off _ _ _ hafter => rw [hafter]; exact hbooted
  | suspend _ _ h => exact (h.leavesOff core).pending.trans hbooted
  | resume _ _ h => exact (h.leavesOff core).pending.trans hbooted
  | transition _ _ hafter => rw [hafter]; exact hbooted
  | noCore _ _ hafter => rw [hafter]; exact hbooted

/-- Whether a command is a boot vector, for whichever core. -/
def Scmi.Command.isBootVector : Scmi.Command → Bool
  | .resetVectorSet _ flags _ => flags = .boot
  | _ => false

/-- Powering on a core that is not pending gives no core a boot vector. -/
theorem Turn.Makes.gives_none {affinity : UInt64} (h : e.Makes L) (hcall : e.call = .on affinity)
    (hcore : coreOfAffinity affinity = core.val) (hbooted : e.before.controller.isBootPending core = false) :
    Asks (·.isBootVector = false) L := by
  cases h with
  | @on affinity' core' hcall' hval h =>
    obtain rfl : affinity = affinity' := HookCall.on.inj (hcall.symm.trans hcall')
    obtain rfl : core = core' := Fin.ext (hcore.symm.trans hval)
    generalize e.outcome = r, e.after.controller = d at h
    cases h with
    | refused hpending => exact absurd (hbooted.symm.trans hpending) Bool.false_ne_true
    | first hpending => exact absurd (hbooted.symm.trans hpending) Bool.false_ne_true
    | again _ hstart =>
      refine hstart.asks ?_
      simp [startCommands, allowEventsCommand, corePolicyCommand, Scmi.Command.isBootVector]
  | noCore _ _ _ hL =>
    rw [hL]
    exact .of_none fun _ he => absurd he List.not_mem_nil
  | setup h => exact HookCall.noConfusion (hcall.symm.trans h)
  | onFinish h => exact HookCall.noConfusion (hcall.symm.trans h)
  | off h => exact HookCall.noConfusion (hcall.symm.trans h)
  | suspend h => exact HookCall.noConfusion (hcall.symm.trans h)
  | resume h => exact HookCall.noConfusion (hcall.symm.trans h)
  | transition h =>
    rw [hcall] at h
    obtain ⟨⟨⟩, -⟩ | ⟨⟨⟩, -⟩ := h

/-! ### Courses -/

/-- The address was given to a set-up among the turns. -/
def Entered (turns : List (Turn κ)) (v : UInt64) : Prop := ∃ e ∈ turns, e.call = .setup v

theorem Entered.append {turns turns' : List (Turn κ)} {v : UInt64} (h : Entered turns v) : Entered (turns ++ turns') v :=
  h.imp fun _ he => ⟨List.mem_append_left _ he.1, he.2⟩

theorem initial_disciplined {k : κ} (hcore : core ≠ Layout.bootCore) :
    Disciplined Entry core ⟨Controller.initial k, []⟩ := by
  have hpending : ∀ core : Fin 4, core ≠ Layout.bootCore → secondaryCores.toList.getD core false = true := by
    decide
  exact ⟨fun _ => rfl, fun hbooted => absurd (hbooted.symm.trans (hpending core hcore)) Bool.false_ne_true, .nil⟩

section Course
variable {k : κ} {start : Moment κ} {first : Turn κ} {turns : List (Turn κ)} {entry : UInt64}

theorem Course.booted (h : Course start turns t) (hbooted : start.controller.isBootPending core = false) :
    t.controller.isBootPending core = false := by
  refine h.induct (P := fun _ s => s.controller.isBootPending core = false) hbooted fun _ e ih he => ?_
  obtain ⟨L, -, hmakes⟩ := he.makes
  exact hmakes.booted ih

theorem Course.booted_of_mem (h : Course start turns t) : ∀ e ∈ turns,
    e.before.controller.isBootPending core = false → t.controller.isBootPending core = false := by
  refine h.induct (P := fun turns s => ∀ e ∈ turns, e.before.controller.isBootPending core = false →
    s.controller.isBootPending core = false) (fun _ he => absurd he List.not_mem_nil) fun turns f ih hf e he hbooted => ?_
  obtain ⟨L, -, hmakes⟩ := hf.makes
  rcases List.mem_append.mp he with he | he
  · exact hmakes.booted (ih e he hbooted)
  · obtain rfl := List.mem_singleton.mp he
    exact hmakes.booted hbooted

theorem Course.gives_none (h : Course start turns t) (hbooted : start.controller.isBootPending core = false) :
    ∀ e ∈ turns, ∀ affinity, e.call = .on affinity → coreOfAffinity affinity = core.val →
      Asks (·.isBootVector = false) e.events := by
  induction h with
  | nil => exact fun _ he => absurd he List.not_mem_nil
  | snoc h hf ih =>
    intro e he affinity hcall hcore
    rcases List.mem_append.mp he with he | he
    · exact ih e he affinity hcall hcore
    · obtain rfl := List.mem_singleton.mp he
      obtain ⟨L, hL, hmakes⟩ := hf.makes
      rw [Turn.events, hL, List.drop_left]
      exact hmakes.gives_none hcall hcore (h.booted hbooted)

theorem Course.disciplined (h : Course ⟨Controller.initial k, []⟩ (first :: turns) t)
    (hsetup : first.call = .setup entry) (hcore : core ≠ Layout.bootCore) :
    Disciplined (Entered (first :: turns)) core t := by
  obtain ⟨hbefore, hfirst, h⟩ := h.head
  -- The induction starts after the first turn: before it the controller has an entry that nobody gave.
  refine (h.induct (P := fun turns s => Entered (first :: turns) s.controller.entry ∧
    Disciplined (Entered (first :: turns)) core s) ?_ fun turns e ih he => ?_).2
  · obtain ⟨L, hL, hmakes⟩ := hfirst.makes
    have hentered : Entered [first] first.after.controller.entry := by
      rcases hmakes.entry with ⟨v, hcall, hv⟩ | ⟨hnot, -⟩
      · exact ⟨first, List.mem_singleton_self first, hv ▸ hcall⟩
      · exact absurd hsetup (hnot entry)
    refine ⟨hentered, hmakes.disciplined hL hcore (fun hnot => absurd hsetup (hnot entry)) ?_⟩
    rw [hbefore]
    exact initial_disciplined hcore
  · obtain ⟨L, hL, hmakes⟩ := he.makes
    obtain ⟨hentered, hdisciplined⟩ := ih
    have hlater : ∀ v, Entered (first :: turns) v → Entered (first :: (turns ++ [e])) v := fun v hv => hv.append
    refine ⟨?_, hmakes.disciplined hL hcore (fun _ => hlater _ hentered) (hdisciplined.mono hlater)⟩
    rcases hmakes.entry with ⟨v, hcall, hv⟩ | ⟨-, hkept⟩
    · exact ⟨e, by simp, hv ▸ hcall⟩
    · rw [hkept]
      exact hlater _ hentered

/-- In every course of turns that begins with a set-up, a core other than the one that boots the system is
    started only once the System Manager has accepted a boot vector for it, the address of which was given
    to a set-up; it is offered a boot vector only while none has been accepted, and counts as pending just
    as long; and powering on the core that boots the system offers no boot vector at all. -/
theorem bootVector_discipline (h : Course ⟨Controller.initial k, []⟩ (first :: turns) t)
    (hsetup : first.call = .setup entry) (hcore : core ≠ Layout.bootCore) :
    InOrder (Entered (first :: turns)) core t.events ∧
    (bootVectors core t.events).length ≤ 1 ∧
    (t.controller.isBootPending core = true ↔ bootVectors core t.events = []) ∧
    (∀ e ∈ first :: turns, e.before.controller.isBootPending core = false →
      t.controller.isBootPending core = false) ∧
    ∀ e ∈ first :: turns, ∀ affinity, e.call = .on affinity → coreOfAffinity affinity = Layout.bootCore.val →
      Asks (·.isBootVector = false) e.events := by
  obtain ⟨hpending, hbooted, hinOrder⟩ := h.disciplined hsetup hcore
  refine ⟨hinOrder, ?_, ?_, ?_, h.gives_none rfl⟩
  · cases hc : t.controller.isBootPending core with
    | true => rw [hpending hc]; exact Nat.zero_le 1
    | false =>
      obtain ⟨v, -, hv⟩ := hbooted hc
      rw [hv]
      exact Nat.le_refl 1
  · refine ⟨hpending, fun hnone => ?_⟩
    by_contra hc
    obtain ⟨v, -, hv⟩ := hbooted (Bool.eq_false_iff.mpr hc)
    rw [hnone] at hv
    cases hv
  · exact h.booted_of_mem

end Course

/-- The boot vector of the core is refused when it is first powered on and accepted the next time; then the
    core goes off and is powered on once more, and so is the core that boots the system. -/
def retry : List HookCall := [.setup Layout.imageBase, .on 0x100, .on 0x100, .off, .on 0x100, .on 0]

theorem play_retry : ((lined 8 0).play Platform.noRegion retry ⟨Controller.initial (), []⟩).map (fun x =>
    (x.1.map fun e => (e.call, e.outcome), bootVectors 1 x.2.events)) =
    some ([(.setup Layout.imageBase, .ok ()), (.on 0x100, .error (.scmi (.status .denied))), (.on 0x100, .ok ()),
      (.off, .ok ()), (.on 0x100, .ok ()), (.on 0, .ok ())], [Layout.imageBase]) := by decide +kernel

theorem bootVector_discipline_retry : ∃ (first : Turn Unit) (turns : List (Turn Unit)) (t : Moment Unit),
    Course ⟨Controller.initial (), []⟩ (first :: turns) t ∧ first.call = .setup Layout.imageBase ∧
    (1 : Fin 4) ≠ Layout.bootCore ∧ (first :: turns).map (·.outcome) =
      [.ok (), .error (.scmi (.status .denied)), .ok (), .ok (), .ok (), .ok ()] ∧
    bootVectors 1 t.events = [Layout.imageBase] ∧ InOrder (Entered (first :: turns)) 1 t.events ∧
    t.controller.isBootPending 1 = false := by
  obtain ⟨⟨turns, t⟩, hplay, hseen⟩ := Option.map_eq_some_iff.mp play_retry
  obtain ⟨hturns, hvectors⟩ := Prod.mk.inj hseen
  obtain ⟨first, turns, rfl, hfirst, hrest⟩ := List.map_eq_cons_iff.mp hturns
  have hcourse : Course ⟨Controller.initial (), []⟩ (first :: turns) t := course_of_play .nil hplay
  have hsetup : first.call = .setup Layout.imageBase := congrArg Prod.fst hfirst
  have hcore : (1 : Fin 4) ≠ Layout.bootCore := by decide
  obtain ⟨hinOrder, -, hpending, -⟩ := bootVector_discipline hcourse hsetup hcore
  refine ⟨first, turns, t, hcourse, hsetup, hcore, ?_, hvectors, hinOrder, ?_⟩
  · have houtcomes := congrArg (List.map Prod.snd) hturns
    rw [List.map_map] at houtcomes
    exact houtcomes
  · rw [Bool.eq_false_iff]
    intro h
    rw [hpending.mp h] at hvectors
    cases hvectors

end PowerFirmware
