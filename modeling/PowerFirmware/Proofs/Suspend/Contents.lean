import PowerFirmware.Proofs.Snapshot.Contents
import PowerFirmware.Proofs.Suspend.Resuming

/-! What a suspend of the system and the resume after it do to plain registers and to the masks of the
interrupt controller. Main statements: a resume brings back what a suspend found, also if everything was
lost in between (`domainSuspend_roundTrip`), and after a suspend that was refused it does so only where
the snapshot is of what was found (`refusedSuspend_undone_iff`). -/

namespace PowerFirmware
open Cells Contents

variable {κ : Type} {env : Environment κ} {masksOf : κ → Nat → UInt32} {m : Contents} {L M : List (Event κ)}

def Event.isSave : Event κ → Bool
  | saveGic _ => true
  | _ => false

/-- Nothing that a snapshot covers is looked at or changed. -/
def Quiet (L : List (Event κ)) : Prop := ∀ e ∈ L, e.isChange = false ∧ e.isRead = false ∧ e.isSave = false

theorem Quiet.append (h : Quiet L) (h' : Quiet M) : Quiet (L ++ M) := by
  intro e he
  rcases List.mem_append.mp he with he | he
  · exact h e he
  · exact h' e he

theorem Quiet.replay (h : Quiet L) : m.replay masksOf L = m := replay_eq fun e he => (h e he).1

theorem Quiet.any_isRead (h : Quiet L) : L.any Event.isRead = false := by
  rw [List.any_eq_false]
  intro e he
  rw [(h e he).2.1]
  exact Bool.false_ne_true

theorem Quiet.any_isSave (h : Quiet L) : L.any Event.isSave = false := by
  rw [List.any_eq_false]
  intro e he
  rw [(h e he).2.2]
  exact Bool.false_ne_true

theorem Sends.quiet {a b : Scmi.Client} {cmds : List Scmi.Command} {r : Except PlatformError Unit}
    (h : Sends a cmds L r b) : Quiet L := by
  intro e he
  obtain ⟨x, rfl⟩ := h.managers e he
  exact ⟨rfl, rfl, rfl⟩

namespace Platform

variable {region : DmaRegion (History env)} {c d : Controller κ} {core : Fin 4} {target : PowerState}
variable {r : Except PlatformError Unit}

/-! ### Suspending -/

theorem quiet_maskReads {masks : List UInt32} : Quiet (maskReads (κ := κ) masks) := by
  intro e he
  obtain ⟨l, hl, he⟩ := List.mem_flatten.mp he
  obtain ⟨i, hi, rfl⟩ := List.mem_iff_getElem.mp hl
  rw [List.getElem_zipWith, List.mem_singleton] at he
  rw [he]
  exact ⟨rfl, rfl, rfl⟩

theorem quiet_leaveEvents : Quiet (leaveEvents (κ := κ) core target) := by
  intro e he
  unfold leaveEvents at he
  rcases List.mem_append.mp he with he | he <;> split at he
  · rw [List.mem_singleton.mp he]
    exact ⟨rfl, rfl, rfl⟩
  · cases he
  · cases he
  · rw [List.mem_singleton.mp he]
    exact ⟨rfl, rfl, rfl⟩

section Wakeup
variable {masks : List UInt32} {flags : Scmi.WakeupFlags} {mode : Scmi.SleepMode} {entering : Bool}

theorem HandsOver.quiet (h : HandsOver core c r d L) : Quiet L := by
  cases h with
  | unmasked h => exact h.quiet
  | masked h _ h' => exact h.quiet.append (quiet_maskReads.append h'.sends.quiet)

theorem HandsOver.snapshot (h : HandsOver core c r d L) : d.snapshot = c.snapshot := by
  cases h with
  | unmasked => rfl
  | masked _ _ h => exact h.snapshot

theorem SetsWakeup.hasWakeupIrq (h : SetsWakeup core masks flags mode entering c r d L) :
    d.wakeup.hasWakeupIrq = WakeupPolicy.leavesWakeup masks := by
  cases h with
  | unarmed => rfl
  | armed => cases entering <;> rfl

end Wakeup

/-- The commands that set how a core or the cluster wakes. -/
def setsWakeup : Scmi.Command → Bool
  | .irqWakeSet .. | .sleepModeSet .. | .peripheralPolicySet .. => true
  | _ => false

theorem HandsOver.refuses {e : PlatformError} (h : HandsOver core c (.error e) d L) :
    ∃ cmd, setsWakeup cmd = true ∧ Refuses cmd e d.client L := by
  cases h with
  | unmasked h =>
    obtain ⟨cmd, hcmd, hrefuses⟩ := h.refuses
    exact ⟨cmd, by rw [List.mem_singleton.mp hcmd]; rfl, hrefuses⟩
  | masked _ _ h =>
    obtain ⟨cmd, hcmd, hrefuses⟩ := h.sends.refuses
    refine ⟨cmd, ?_, hrefuses.append.append⟩
    simp only [armCommands, List.cons_append, List.nil_append, List.mem_cons, List.not_mem_nil, or_false] at hcmd
    rcases hcmd with rfl | rfl | rfl | rfl <;> rfl

/-- What a controller's snapshot is of after a suspend that began with the snapshot `s`: of the contents
    `m`, or, if a command was refused, in part or as a whole still of what `s` is of. -/
inductive Captures (masksOf : κ → Nat → UInt32) (m : Contents) (core : Fin 4) (s : Snapshot κ) (entry : UInt64) :
    Except PlatformError Unit → Controller κ → List (Event κ) → Prop
  | all {d : Controller κ} {L : List (Event κ)} :
      d.snapshot.Holds masksOf m → Captures masksOf m core s entry (.ok ()) d L
  | policy {e : PlatformError} {d : Controller κ} {L : List (Event κ)} {keep : Bool} : d.snapshot.Holds masksOf m →
      Refuses (.domainPolicySet Layout.cluster.cpu (suspendPolicy keep)) e d.client L →
      L.any Event.isRead = true → L.any Event.isSave = true → Captures masksOf m core s entry (.error e) d L
  | wakeup {e : PlatformError} {d : Controller κ} {L : List (Event κ)} {cmd : Scmi.Command} :
      d.snapshot.entries = s.entries → masksOf d.snapshot.interrupts = m.masks → setsWakeup cmd = true →
      Refuses cmd e d.client L → L.any Event.isRead = false → L.any Event.isSave = true →
      Captures masksOf m core s entry (.error e) d L
  | entry {e : PlatformError} {d : Controller κ} {L : List (Event κ)} : d.snapshot = s →
      Refuses (.resetVectorSet (Layout.cpuOf core) .resume entry) e d.client L →
      L.any Event.isRead = false → L.any Event.isSave = false → Captures masksOf m core s entry (.error e) d L

theorem Captures.append {s : Snapshot κ} {entry : UInt64} (h : Captures masksOf m core s entry r d M) (hL : Quiet L) :
    Captures masksOf m core s entry r d (L ++ M) := by
  have hread : (L ++ M).any Event.isRead = M.any Event.isRead := by rw [List.any_append, hL.any_isRead, Bool.false_or]
  have hsave : (L ++ M).any Event.isSave = M.any Event.isSave := by rw [List.any_append, hL.any_isSave, Bool.false_or]
  cases h with
  | all h => exact .all h
  | policy h hrefuses hr hs => exact .policy h hrefuses.append (hread.trans hr) (hsave.trans hs)
  | wakeup hentries hmasks hcmd hrefuses hr hs =>
    exact .wakeup hentries hmasks hcmd hrefuses.append (hread.trans hr) (hsave.trans hs)
  | entry h hrefuses hr hs => exact .entry h hrefuses.append (hread.trans hr) (hsave.trans hs)

theorem SuspendsSystem.captures (h : SuspendsSystem core c r d L) (hc : m.Consistent masksOf L) :
    m.replay masksOf L = m ∧ Captures masksOf m core c.snapshot c.entry r d L := by
  cases h with
  | @held k e d L h =>
    obtain ⟨hk, -⟩ := hc
    obtain ⟨cmd, hcmd, hrefuses⟩ := h.refuses
    have hentries : d.snapshot.entries = c.snapshot.entries := by
      rw [h.snapshot]
      rfl
    have hmasks : masksOf d.snapshot.interrupts = m.masks := by
      rw [h.snapshot]
      exact hk
    exact ⟨h.quiet.replay, .wakeup hentries hmasks hcmd (hrefuses.append (L := [.saveGic k])) h.quiet.any_isRead rfl⟩
  | @saved k r b s a L M h hs hsends =>
    obtain ⟨hk, hc⟩ := hc
    change m.Consistent masksOf (L ++ (s.saveEvents .peripherals ++ M)) at hc
    rw [consistent_append, h.quiet.replay, consistent_append] at hc
    obtain ⟨-, hsave, -⟩ := hc
    obtain ⟨hstand, hreplay⟩ := Snapshot.stand_of_save (hs.full rfl) hsave
    have hmasks : masksOf s.interrupts = m.masks := by
      rw [hs.interrupts rfl, h.snapshot]
      exact hk
    refine ⟨?_, ?_⟩
    · change m.replay masksOf (L ++ (s.saveEvents .peripherals ++ M)) = m
      rw [replay_append, h.quiet.replay, replay_append, hreplay, hsends.quiet.replay]
    · cases r with
      | ok _ => exact .all ⟨hstand, hmasks⟩
      | error e =>
        obtain ⟨cmd, hcmd, hrefuses⟩ := hsends.refuses
        rw [List.mem_singleton.mp hcmd] at hrefuses
        have hflash : (s.saveEvents .peripherals).any Event.isRead = true := rfl
        refine .policy ⟨hstand, hmasks⟩ (hrefuses.append.append.append (L := [.saveGic k])) ?_ rfl
        rw [List.any_cons, List.any_append, List.any_append, hflash, Bool.true_or, Bool.or_true, Bool.or_true]

section Refused
variable {s : Snapshot κ} {entry : UInt64} {e : PlatformError}

/-- How far a refused suspend came says which command was refused. -/
theorem Captures.refuses (h : Captures masksOf m core s entry (.error e) d L) : ∃ cmd, Refuses cmd e d.client L ∧
    (L.any Event.isRead = true ↔ ∃ keep, cmd = .domainPolicySet Layout.cluster.cpu (suspendPolicy keep)) ∧
    (L.any Event.isSave = true ↔ cmd ≠ .resetVectorSet (Layout.cpuOf core) .resume entry) := by
  cases h with
  | @policy _ _ _ keep _ hrefuses hread hsave =>
    exact ⟨_, hrefuses, iff_of_true hread ⟨keep, rfl⟩, iff_of_true hsave (fun hcmd => by cases hcmd)⟩
  | @wakeup _ _ _ cmd _ _ hcmd hrefuses hread hsave =>
    refine ⟨cmd, hrefuses, iff_of_false (by rw [hread]; exact Bool.false_ne_true) ?_, iff_of_true hsave ?_⟩
    · rintro ⟨keep, rfl⟩
      cases hcmd
    · rintro rfl
      cases hcmd
  | entry _ hrefuses hread hsave =>
    refine ⟨_, hrefuses, iff_of_false (by rw [hread]; exact Bool.false_ne_true) ?_,
      iff_of_false (by rw [hsave]; exact Bool.false_ne_true) (fun h => h rfl)⟩
    rintro ⟨keep, hkeep⟩
    cases hkeep

theorem Captures.holds_iff (h : Captures masksOf m core s entry (.error e) d L) : d.snapshot.Holds masksOf m ↔
    (L.any Event.isRead = true ∨ Stand s.entries m.registers) ∧
      (L.any Event.isSave = true ∨ masksOf s.interrupts = m.masks) := by
  cases h with
  | policy hholds _ hread hsave => exact iff_of_true hholds ⟨.inl hread, .inl hsave⟩
  | wakeup hentries hmasks _ _ hread hsave =>
    simp only [Snapshot.Holds, hentries, hmasks, hread, hsave, Bool.false_eq_true, false_or, true_or]
  | entry hsnapshot _ hread hsave =>
    simp only [Snapshot.Holds, hsnapshot, hread, hsave, Bool.false_eq_true, false_or]

end Refused

/-- A suspend of the system leaves all contents as they are. -/
theorem Suspends.captures (hoff : target.system.isOff = true) (h : Suspends core target c r d L)
    (hc : m.Consistent masksOf L) : m.replay masksOf L = m ∧ Captures masksOf m core c.snapshot c.entry r d L := by
  cases h with
  | stays h =>
    obtain ⟨cmd, hcmd, hrefuses⟩ := h.refuses
    have hentry : cmd = .resetVectorSet (Layout.cpuOf core) .resume c.entry := by
      unfold leaveCommands at hcmd
      split at hcmd
      · exact List.mem_singleton.mp hcmd
      · cases hcmd
    rw [hentry] at hrefuses
    exact ⟨h.quiet.replay, .entry rfl hrefuses h.quiet.any_isRead h.quiet.any_isSave⟩
  | leaves h hsystem =>
    rw [if_pos hoff] at hsystem
    rw [consistent_append, h.quiet.replay, consistent_append, quiet_leaveEvents.replay] at hc
    obtain ⟨hreplay, hcaptures⟩ := hsystem.captures hc.2.2
    rw [replay_append, h.quiet.replay, replay_append, quiet_leaveEvents.replay]
    exact ⟨hreplay, (hcaptures.append quiet_leaveEvents).append h.quiet⟩

/-! ### Resuming -/

/-- After a resume of the system the contents are those of the snapshot. -/
theorem ResumesSystem.holds {os : List (Except PlatformError Unit)} (h : ResumesSystem core c os d L)
    (hc : m.Consistent masksOf L) : c.snapshot.Holds masksOf (m.replay masksOf L) := by
  cases h with
  | @steps _ _ b a H W P x _ hback _ hdogs hpolicy =>
    have hback : ∀ m : Contents, m.replay masksOf H = m := fun _ => hback.sends.quiet.replay
    have hpolicy : ∀ m : Contents, m.replay masksOf P = m := fun _ => hpolicy.quiet.replay
    have henclave : ∀ (m : Contents) (L : List (Event κ)), m.replay masksOf (.enclave x :: L) = m.replay masksOf L :=
      fun _ _ => rfl
    -- From here on the masks are those that the snapshot puts back.
    have hrestored : m.after masksOf (.restoreGic c.snapshot.interrupts) =
        ⟨m.registers, masksOf c.snapshot.interrupts⟩ := rfl
    obtain ⟨-, hc⟩ := hc
    rw [hrestored, consistent_append, hback] at hc
    obtain ⟨-, -, hc⟩ := hc
    change Consistent masksOf ⟨m.registers, masksOf c.snapshot.interrupts⟩ _ at hc
    rw [consistent_append, replay_writes, consistent_append, replay_writes, consistent_append] at hc
    have hdogs := Snapshot.put_of_restoreWatchdogs hdogs hc.2.2.1
    rw [replay_cons, hrestored, replay_append, hback, henclave, replay_append, replay_writes, replay_append,
      replay_writes, replay_append, hpolicy, hdogs, put_put, put_put, Snapshot.Holds, registers_put, masks_put]
    exact ⟨Snapshot.stand_of_restore, rfl⟩

theorem Resumes.holds (hoff : target.system.isOff = true) (h : Resumes core target c r d L)
    (hc : m.Consistent masksOf L) : c.snapshot.Holds masksOf (m.replay masksOf L) ∧
      d.snapshot.pinWakeup = false ∧ d.wakeup.hasWakeupIrq = false := by
  cases h with
  | core h => rw [hoff] at h; cases h
  | @system os d L _ h =>
    have hlast : ∀ m : Contents, m.replay masksOf (if target.core.isOff then [.enableInterface core] else []) = m := by
      intro m
      split <;> rfl
    rw [consistent_append] at hc
    refine ⟨?_, ?_⟩
    · rw [replay_append, hlast]
      exact h.holds hc.1
    · cases h with
      | steps hback => exact ⟨rfl, hback.hasWakeupIrq.trans (by decide)⟩

/-- A resume of the system ends with the contents of the snapshot, whatever fails. -/
theorem domainSuspendFinish_holds (region : DmaRegion (History env)) (hplain : env.Plain masksOf m)
    (hcore : env.core = core.val) (hoff : target.system.isOff = true) (c : Controller κ) (past : History env) :
    ∃ L outcome, (env.platform region).domainSuspendFinish target c past = (outcome, past.add L) ∧
      (outcome = .error .hung ∧ env.Endless L ∨ ∃ r d, outcome = .ok (r, d) ∧
        c.snapshot.Holds masksOf ((past.add L).contents masksOf m) ∧
        d.snapshot.pinWakeup = false ∧ d.wakeup.hasWakeupIrq = false) := by
  have acts : Run.Acts ((env.platform region).domainSuspendFinish target) c (Resumes core target c) :=
    acts_domainSuspendFinish hcore
  obtain ⟨L, outcome, heq, allowed, hend⟩ := acts.outcome past
  refine ⟨L, outcome, heq, hend.imp_right ?_⟩
  rintro ⟨r, d, hout, h⟩
  refine ⟨r, d, hout, ?_⟩
  rw [History.contents, History.events_add, replay_append]
  exact h.holds hoff (hplain.consistent allowed)

/-! ### Both -/

theorem domainSuspend_captures (hplain : env.Plain masksOf m) (hcore : env.core = core.val)
    (hoff : target.system.isOff = true) {past t : History env}
    (h : (env.platform region).domainSuspend target c past = (.ok (r, d), t)) :
    ∃ L, t = past.add L ∧ Captures masksOf (past.contents masksOf m) core c.snapshot c.entry r d L := by
  have acts : Run.Acts ((env.platform region).domainSuspend target) c (Suspends core target c) :=
    acts_domainSuspend hcore
  obtain ⟨L, rfl, allowed, hsuspends⟩ := acts.answered h
  exact ⟨L, rfl, (hsuspends.captures hoff (hplain.consistent allowed)).2⟩

/-- A suspend of the system that succeeds, any loss of contents, and a resume in whichever steps fail keep
    all that a snapshot covers, and leave nothing marked as a wakeup source. -/
theorem domainSuspend_roundTrip {env' : Environment κ} {m' : Contents} (region : DmaRegion (History env))
    (region' : DmaRegion (History env')) (hplain : env.Plain masksOf m) (hplain' : env'.Plain masksOf m')
    (hcore : env.core = core.val) (hcore' : env'.core = core.val) (hoff : target.system.isOff = true)
    {past t : History env} (h : (env.platform region).domainSuspend target c past = (.ok (.ok (), d), t))
    (past' : History env') :
    ∃ L outcome, (env'.platform region').domainSuspendFinish target d past' = (outcome, past'.add L) ∧
      (outcome = .error .hung ∧ env'.Endless L ∨ ∃ r e, outcome = .ok (r, e) ∧
        Snapshot.Kept (past.contents masksOf m) ((past'.add L).contents masksOf m') ∧
        e.snapshot.pinWakeup = false ∧ e.wakeup.hasWakeupIrq = false) := by
  obtain ⟨_, -, hcaptures⟩ := domainSuspend_captures hplain hcore hoff h
  obtain ⟨L, outcome, heq, hend⟩ := domainSuspendFinish_holds region' hplain' hcore' hoff d past'
  refine ⟨L, outcome, heq, hend.imp_right ?_⟩
  rintro ⟨r, e, hout, hholds, hwakeup⟩
  refine ⟨r, e, hout, hholds.kept_iff.mpr ?_, hwakeup⟩
  cases hcaptures with
  | all h => exact h

theorem not_endless {L : List (Event κ)} (hlimit : env.budget.limit? = some 0) (hpatience : 0 < env.patience) :
    ¬ env.Endless L := by
  rintro ⟨before, start, rounds, -, -, hrounds⟩
  obtain ⟨hcount, hshort⟩ := hrounds 0 hlimit
  obtain ⟨e, he, htick⟩ := List.countP_pos_iff.mp (Nat.lt_of_lt_of_le hpatience hcount)
  cases e <;> cases htick
  exact absurd (hshort _ he) (Nat.not_lt_zero _)

/-- Contents of which no register of a device is zero. -/
def written : Contents := ⟨fun a => UInt32.ofNat a, fun bank => UInt32.ofNat (bank + 1)⟩

/-- A controller that has not saved anything yet. -/
def fresh : Controller (Nat → UInt32) := { snapshot := { interrupts := fun _ => 0 } }

/-- Everything works before the power goes. -/
def beforeLoss : Environment (Nat → UInt32) := (denying fun _ => false).holding written

/-- Nothing works when the power is back, and everything is zero. -/
def afterLoss : Environment (Nat → UInt32) := (denying fun _ => true).holding ⟨fun _ => 0, fun _ => 0⟩

theorem domainSuspend_roundTrip_loss : ∃ d t L r e,
    (beforeLoss.platform noRegion).domainSuspend .allOff fresh ⟨[]⟩ = (.ok (.ok (), d), t) ∧
    (afterLoss.platform noRegion).domainSuspendFinish .allOff d ⟨[]⟩ = (.ok (r, e), (⟨[]⟩ : History afterLoss).add L) ∧
    Snapshot.Kept written (((⟨[]⟩ : History afterLoss).add L).contents id ⟨fun _ => 0, fun _ => 0⟩) := by
  obtain ⟨d, t, h⟩ := exists_of_outcome (show ((beforeLoss.platform noRegion).domainSuspend
    .allOff fresh ⟨[]⟩).1.toOption.map (·.1) = some (.ok ()) by decide +kernel)
  have hcore : beforeLoss.core = (1 : Fin 4).val := rfl
  have hcore' : afterLoss.core = (1 : Fin 4).val := rfl
  have hoff : PowerState.allOff.system.isOff = true := rfl
  obtain ⟨L, outcome, heq, ⟨-, hendless⟩ | ⟨r, e, rfl, hkept, -⟩⟩ := domainSuspend_roundTrip noRegion noRegion
    Environment.plain_holding Environment.plain_holding hcore hcore' hoff h ⟨[]⟩
  · exact absurd hendless (not_endless rfl Nat.one_pos)
  · exact ⟨d, t, L, r, e, h, heq, hkept⟩

/-- After a suspend of the system that was refused, a resume keeps what a snapshot covers exactly if the
    suspend had come as far as reading the registers, which only the last command, the policy, follows,
    or the snapshot from before already was of them; and as far as saving the interrupt controller, which
    only the first command, the entry, precedes, or that snapshot already was of its masks. -/
theorem refusedSuspend_undone_iff (region : DmaRegion (History env)) (hplain : env.Plain masksOf m)
    (hcore : env.core = core.val) (hoff : target.system.isOff = true) {past t : History env} {e : PlatformError}
    (h : (env.platform region).domainSuspend target c past = (.ok (.error e, d), t)) :
    ∃ L, t = past.add L ∧
      (∃ cmd, Refuses cmd e d.client L ∧
        (L.any Event.isRead = true ↔ ∃ keep, cmd = .domainPolicySet Layout.cluster.cpu (suspendPolicy keep)) ∧
        (L.any Event.isSave = true ↔ cmd ≠ .resetVectorSet (Layout.cpuOf core) .resume c.entry)) ∧
      ∃ M outcome, (env.platform region).domainSuspendFinish target d t = (outcome, t.add M) ∧
        (outcome = .error .hung ∧ env.Endless M ∨ ∃ r f, outcome = .ok (r, f) ∧
          (Snapshot.Kept (past.contents masksOf m) ((t.add M).contents masksOf m) ↔
            (L.any Event.isRead = true ∨ Stand c.snapshot.entries (past.contents masksOf m).registers) ∧
              (L.any Event.isSave = true ∨ masksOf c.snapshot.interrupts = (past.contents masksOf m).masks))) := by
  obtain ⟨L, rfl, hcaptures⟩ := domainSuspend_captures hplain hcore hoff h
  obtain ⟨M, outcome, heq, hend⟩ := domainSuspendFinish_holds region hplain hcore hoff d (past.add L)
  refine ⟨L, rfl, hcaptures.refuses, M, outcome, heq, hend.imp_right ?_⟩
  rintro ⟨r, f, hout, hholds, -⟩
  exact ⟨r, f, hout, hholds.kept_iff.trans hcaptures.holds_iff⟩

/-- The commands of the given message are denied, and there is something to lose. -/
def denyingMessage (message : UInt8) : Environment (Nat → UInt32) :=
  (denying fun q => (Scmi.Header.decode q.opcode).message == message).holding written

/-- When the policy is denied, nothing is lost. -/
theorem refusedSuspend_undone_policy : ∃ e d t M r f,
    ((denyingMessage 0xa).platform noRegion).domainSuspend .allOff fresh ⟨[]⟩ = (.ok (.error e, d), t) ∧
    ((denyingMessage 0xa).platform noRegion).domainSuspendFinish .allOff d t = (.ok (r, f), t.add M) ∧
    Snapshot.Kept written ((t.add M).contents id written) := by
  obtain ⟨d, t, h⟩ := exists_of_outcome (show (((denyingMessage 0xa).platform noRegion).domainSuspend .allOff fresh
    ⟨[]⟩).1.toOption.map (·.1) = some (.error (.scmi (.status .denied))) by decide +kernel)
  have hread : (((denyingMessage 0xa).platform noRegion).domainSuspend .allOff fresh ⟨[]⟩).2.events.any
    Event.isRead = true := by decide +kernel
  have hsave : (((denyingMessage 0xa).platform noRegion).domainSuspend .allOff fresh ⟨[]⟩).2.events.any
    Event.isSave = true := by decide +kernel
  have hcore : (denyingMessage 0xa).core = (1 : Fin 4).val := rfl
  obtain ⟨L, rfl, -, M, outcome, heq, ⟨-, hendless⟩ | ⟨r, f, rfl, hiff⟩⟩ := refusedSuspend_undone_iff noRegion
    Environment.plain_holding hcore (rfl : PowerState.allOff.system.isOff = true) h
  · exact absurd hendless (not_endless rfl Nat.one_pos)
  · rw [h] at hread hsave
    exact ⟨_, d, _, M, r, f, h, heq, hiff.mpr ⟨.inl hread, .inl hsave⟩⟩

/-- When wakeup cannot be handed over, a resume writes over everything what was never saved. -/
theorem refusedSuspend_loses : ∃ e d t M r f,
    ((denyingMessage 0x8).platform noRegion).domainSuspend .allOff fresh ⟨[]⟩ = (.ok (.error e, d), t) ∧
    ((denyingMessage 0x8).platform noRegion).domainSuspendFinish .allOff d t = (.ok (r, f), t.add M) ∧
    ¬ Snapshot.Kept written ((t.add M).contents id written) := by
  obtain ⟨d, t, h⟩ := exists_of_outcome (show (((denyingMessage 0x8).platform noRegion).domainSuspend .allOff fresh
    ⟨[]⟩).1.toOption.map (·.1) = some (.error (.scmi (.status .denied))) by decide +kernel)
  have hread : (((denyingMessage 0x8).platform noRegion).domainSuspend .allOff fresh ⟨[]⟩).2.events.any
    Event.isRead = false := by decide +kernel
  have hcore : (denyingMessage 0x8).core = (1 : Fin 4).val := rfl
  have hoff : PowerState.allOff.system.isOff = true := rfl
  obtain ⟨L, rfl, hcaptures⟩ := domainSuspend_captures Environment.plain_holding hcore hoff h
  obtain ⟨M, outcome, heq, ⟨-, hendless⟩ | ⟨r, f, rfl, hholds, -⟩⟩ := domainSuspendFinish_holds noRegion
    Environment.plain_holding hcore hoff d ((⟨[]⟩ : History (denyingMessage 0x8)).add L)
  · exact absurd hendless (not_endless rfl Nat.one_pos)
  · refine ⟨_, d, _, M, r, f, h, heq, fun hkept => ?_⟩
    rw [h] at hread
    obtain ⟨hread' | hstand, -⟩ := hcaptures.holds_iff.mp (hholds.kept_iff.mp hkept)
    · exact Bool.noConfusion (hread'.symm.trans hread)
    · -- The timing of the first flash controller was never saved.
      exact absurd (hstand (0x42b90928, 0) (by decide)) (by decide)

end Platform
end PowerFirmware
