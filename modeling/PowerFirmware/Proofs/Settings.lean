import PowerFirmware.Proofs.Encoding
import PowerFirmware.Proofs.Requests

/-! The System Manager's side of what happened: the commands that were put to it, and the settings of
peripherals that it accepted. Main statements: commands that are all accepted reach it in order
(`Sends.commands_eq`), and what it has accepted last for a peripheral is by the last table that names it
(`lastSetting_append`). -/

namespace PowerFirmware

variable {κ : Type} {L M : List (Event κ)} {a b : Scmi.Client} {cmd : Scmi.Command} {cmds : List Scmi.Command}
variable {r : Except PlatformError Unit} {x : Exchange} {i : UInt32}

/-! ### Commands -/

/-- The command that the words of an exchange stand for. -/
def Exchange.command? (x : Exchange) : Option Scmi.Command :=
  (Scmi.Command.read? x.request.opcode x.request.args).map (·.1)

/-- How a request ended, if it was for a command. -/
def Exchange.verdict? (x : Exchange) : Option (Except Scmi.Error Unit) := x.command?.map (Scmi.verdict · x.outcome)

def Exchange.IsAccepted (x : Exchange) : Prop := x.verdict? = some (.ok ())

/-- The CPU that a command of the CPU protocol is about. -/
def Scmi.Command.cpu? : Scmi.Command → Option UInt32
  | .cpuStart cpu | .cpuStop cpu | .resetVectorSet cpu .. | .sleepModeSet cpu .. | .irqWakeSet cpu ..
  | .nonIrqWakeSet cpu .. | .domainPolicySet cpu .. | .peripheralPolicySet cpu .. | .cpuInfo cpu => some cpu
  | _ => none

theorem Scmi.Command.cpu?_isSome (cmd : Scmi.Command) : cmd.cpu?.isSome ↔ cmd.protocol = Protocol.cpu := by
  cases cmd <;> simp [cpu?, protocol, Protocol.base, Protocol.power, Protocol.system, Protocol.machine, Protocol.cpu]

def Event.exchange? : Event κ → Option Exchange
  | .manager x => some x
  | _ => none

def exchanges (L : List (Event κ)) : List Exchange := L.filterMap Event.exchange?

/-- What was put to the System Manager, in order and apart from tokens. -/
def commands (L : List (Event κ)) : List (Option Scmi.Command) := (exchanges L).map Exchange.command?

theorem command?_request {token : BitVec 10} (h : x.request = cmd.request token) : x.command? = some cmd := by
  rw [Exchange.command?, h]
  show (Scmi.Command.read? (cmd.opcode token) cmd.args).map _ = _
  rw [Scmi.Command.read?_opcode]
  rfl

theorem verdict?_request {token : BitVec 10} (h : x.request = cmd.request token) :
    x.verdict? = some (Scmi.verdict cmd x.outcome) := by
  rw [Exchange.verdict?, command?_request h]
  rfl

@[simp] theorem exchanges_append : exchanges (L ++ M) = exchanges L ++ exchanges M := List.filterMap_append

@[simp] theorem commands_append : commands (L ++ M) = commands L ++ commands M := by
  rw [commands, exchanges_append, List.map_append]
  rfl

theorem mem_exchanges : x ∈ exchanges L ↔ .manager x ∈ L := by
  simp only [exchanges, List.mem_filterMap]
  constructor
  · rintro ⟨e, he, hx⟩
    cases e <;> cases hx
    exact he
  · exact fun h => ⟨_, h, rfl⟩

theorem exchanges_cons {e : Event κ} (h : e.exchange? = none) : exchanges (e :: L) = exchanges L :=
  List.filterMap_cons_none h

theorem exchanges_eq_nil (h : ∀ e ∈ L, e.exchange? = none) : exchanges L = [] := List.filterMap_eq_nil_iff.mpr h

theorem commands_eq_nil (h : ∀ e ∈ L, e.exchange? = none) : commands L = [] := by
  rw [commands, exchanges_eq_nil h]
  rfl

theorem Sends.commands_eq (h : Sends a cmds L (.ok ()) b) : commands L = cmds.map some := by
  generalize ho : (.ok () : Except PlatformError Unit) = o at h
  induction h with
  | done => rfl
  | tooLong => cases ho
  | refused => cases ho
  | @accepted _ _ cmd cmds x L _ _ hx _ _ ih =>
    show x.command? :: PowerFirmware.commands L = _
    rw [command?_request hx, ih ho]
    rfl

/-- Of commands that are sent until one is refused, each that was put to the System Manager is one. -/
theorem Sends.mem_commands (h : Sends a cmds L r b) (hx : x ∈ exchanges L) : ∃ cmd ∈ cmds, x.command? = some cmd := by
  rw [mem_exchanges] at hx
  induction h with
  | done | tooLong => cases hx
  | @refused _ cmd _ _ _ _ hrequest =>
    cases List.mem_singleton.mp hx
    exact ⟨cmd, List.mem_cons_self, command?_request hrequest⟩
  | @accepted _ _ cmd _ _ _ _ _ hrequest _ _ ih =>
    rcases List.mem_cons.mp hx with heq | hx
    · cases heq
      exact ⟨cmd, List.mem_cons_self, command?_request hrequest⟩
    · obtain ⟨cmd, hcmd, h⟩ := ih hx
      exact ⟨cmd, List.mem_cons_of_mem _ hcmd, h⟩

/-- Commands that all can be sent succeed if every request is accepted, and fail as the last request did if
    that is the first that was not. -/
theorem Sends.verdicts (h : Sends a cmds L r b) (hfits : ∀ cmd ∈ cmds, cmd.fits = true) :
    (r = .ok () ∧ ∀ x ∈ exchanges L, x.IsAccepted) ∨
      ∃ M x e, L = M ++ [.manager x] ∧ (∀ y ∈ exchanges M, y.IsAccepted) ∧ x.verdict? = some (.error e) ∧
        r = .error (.scmi e) := by
  induction h with
  | done => exact .inl ⟨rfl, fun _ hx => absurd hx List.not_mem_nil⟩
  | tooLong h =>
    rw [hfits _ List.mem_cons_self] at h
    cases h
  | @refused _ _ _ x e _ hx he =>
    refine .inr ⟨[], x, e, rfl, fun _ hy => absurd hy List.not_mem_nil, ?_, rfl⟩
    rw [verdict?_request hx, he]
  | @accepted _ _ _ _ x L _ _ hx hok _ ih =>
    have hfirst : x.IsAccepted := by
      rw [Exchange.IsAccepted, verdict?_request hx, hok]
    rcases ih fun cmd hcmd => hfits cmd (List.mem_cons_of_mem _ hcmd) with ⟨hr, hall⟩ | ⟨M, y, e, rfl, hall, hy, hr⟩
    · exact .inl ⟨hr, List.forall_mem_cons.mpr ⟨hfirst, hall⟩⟩
    · exact .inr ⟨.manager x :: M, y, e, rfl, List.forall_mem_cons.mpr ⟨hfirst, hall⟩, hy, hr⟩

/-- Every command that was put to the System Manager is as `P` says. -/
def Asks (P : Scmi.Command → Prop) (L : List (Event κ)) : Prop :=
  ∀ x ∈ exchanges L, ∀ cmd, x.command? = some cmd → P cmd

section Asks
variable {P : Scmi.Command → Prop}

theorem Asks.append (hL : Asks P L) (hM : Asks P M) : Asks P (L ++ M) := by
  intro x hx
  rw [exchanges_append] at hx
  rcases List.mem_append.mp hx with hx | hx
  · exact hL x hx
  · exact hM x hx

theorem Asks.of_none (h : ∀ e ∈ L, e.exchange? = none) : Asks P L := by
  intro x hx
  rw [exchanges_eq_nil h] at hx
  cases hx

theorem Asks.cons {e : Event κ} (he : e.exchange? = none) (hL : Asks P L) : Asks P (e :: L) := by
  rw [Asks, exchanges_cons he]
  exact hL

theorem Sends.asks (h : Sends a cmds L r b) (hcmds : ∀ cmd ∈ cmds, P cmd) : Asks P L := by
  intro x hx cmd hcmd
  obtain ⟨cmd', hmem, hcmd'⟩ := h.mem_commands hx
  obtain rfl : cmd = cmd' := Option.some.inj (hcmd.symm.trans hcmd')
  exact hcmds cmd hmem

end Asks

/-! ### Settings of peripherals -/

def Scmi.Command.policies : Scmi.Command → List Scmi.PeripheralPolicy
  | .peripheralPolicySet _ table => table
  | _ => []

/-- The settings of peripherals that an exchange brought about: those of its command, if that was
    accepted. -/
def Exchange.policies (x : Exchange) : List Scmi.PeripheralPolicy :=
  match x.command? with
  | some cmd => if (Scmi.verdict cmd x.outcome).isOk then cmd.policies else []
  | none => []

def Event.policies : Event κ → List Scmi.PeripheralPolicy
  | .manager x => x.policies
  | _ => []

/-- All settings of peripherals that the System Manager has accepted, the latest last. -/
def settings (L : List (Event κ)) : List Scmi.PeripheralPolicy := L.flatMap Event.policies

/-- The setting that a peripheral is left with. -/
def lastSetting (ps : List Scmi.PeripheralPolicy) (i : UInt32) : Option Scmi.LpmSetting :=
  (ps.reverse.find? (·.peripheral == i)).map (·.setting)

@[simp] theorem settings_append : settings (L ++ M) = settings L ++ settings M := List.flatMap_append

/-- Nothing but exchanges brings about settings. -/
theorem settings_eq_flatMap : ∀ {L : List (Event κ)}, settings L = (exchanges L).flatMap Exchange.policies
  | [] => rfl
  | e :: L => by
    have ih : settings L = (exchanges L).flatMap Exchange.policies := settings_eq_flatMap
    have he : e.policies = (exchanges [e]).flatMap Exchange.policies := by
      cases e with
      | manager x => exact (List.append_nil _).symm
      | _ => rfl
    show e.policies ++ settings L = (exchanges ([e] ++ L)).flatMap _
    rw [exchanges_append, List.flatMap_append, ih, he]

theorem settings_eq_nil (h : ∀ e ∈ L, e.exchange? = none) : settings L = [] := by
  rw [settings_eq_flatMap, exchanges_eq_nil h]
  rfl

theorem lastSetting_append {ps qs : List Scmi.PeripheralPolicy} :
    lastSetting (ps ++ qs) i = (lastSetting qs i).or (lastSetting ps i) := by
  rw [lastSetting, lastSetting, lastSetting, List.reverse_append, List.find?_append, Option.map_or]

theorem lastSetting_eq_none {ps : List Scmi.PeripheralPolicy} (h : i ∉ ps.map (·.peripheral)) :
    lastSetting ps i = none := by
  rw [lastSetting, Option.map_eq_none_iff, List.find?_eq_none]
  intro p hp hi
  rw [beq_iff_eq] at hi
  exact h (List.mem_map.mpr ⟨p, List.mem_reverse.mp hp, hi⟩)

/-- A table that gives all its peripherals one setting. -/
theorem lastSetting_map {is : List UInt32} {s : Scmi.LpmSetting} :
    lastSetting (is.map (⟨·, s⟩)) i = if i ∈ is then some s else none := by
  split
  · rename_i hi
    have hfound : ((is.map (⟨·, s⟩ : UInt32 → Scmi.PeripheralPolicy)).reverse.find? (·.peripheral == i)).isSome :=
      List.find?_isSome.mpr ⟨⟨i, s⟩, List.mem_reverse.mpr (List.mem_map.mpr ⟨i, hi, rfl⟩), beq_self_eq_true _⟩
    obtain ⟨p, hp⟩ := Option.isSome_iff_exists.mp hfound
    obtain ⟨j, -, rfl⟩ := List.mem_map.mp (List.mem_reverse.mp (List.mem_of_find?_eq_some hp))
    rw [lastSetting, hp]
    rfl
  · rename_i hi
    refine lastSetting_eq_none fun hmem => hi ?_
    rw [List.map_map] at hmem
    obtain ⟨j, hj, rfl⟩ := List.mem_map.mp hmem
    exact hj

theorem policies_eq (h : x.command? = some cmd) :
    x.policies = if (Scmi.verdict cmd x.outcome).isOk then cmd.policies else [] := by
  rw [Exchange.policies, h]

theorem Sends.settings_of_ok (h : Sends a cmds L (.ok ()) b) : settings L = cmds.flatMap (·.policies) := by
  generalize ho : (.ok () : Except PlatformError Unit) = o at h
  induction h with
  | done => rfl
  | tooLong => cases ho
  | refused => cases ho
  | @accepted _ _ cmd _ x L _ _ hx hok _ ih =>
    show x.policies ++ settings L = _
    rw [policies_eq (command?_request hx), hok, ih ho, List.flatMap_cons]
    rfl

theorem Sends.settings_of_error {e : PlatformError} (h : Sends a [cmd] L (.error e) b) : settings L = [] := by
  generalize ho : (.error e : Except PlatformError Unit) = o at h
  cases h with
  | tooLong => rfl
  | @refused _ _ _ x _ _ hx he =>
    show x.policies ++ [] = []
    rw [policies_eq (command?_request hx), he]
    rfl
  | accepted _ _ _ h => cases h; cases ho

/-- Commands that set no peripheral bring about nothing here. -/
theorem Sends.settings_eq_nil (h : Sends a cmds L r b) (hnone : ∀ cmd ∈ cmds, cmd.policies = []) : settings L = [] := by
  refine List.flatMap_eq_nil_iff.mpr fun e he => ?_
  obtain ⟨x, rfl⟩ := h.managers e he
  obtain ⟨cmd, hcmd, hx⟩ := h.mem_commands (mem_exchanges.mpr he)
  show x.policies = []
  rw [policies_eq hx, hnone cmd hcmd, ite_self]

end PowerFirmware
