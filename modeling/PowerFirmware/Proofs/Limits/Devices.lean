import PowerFirmware.Proofs.InRange
import PowerFirmware.Channel.MessagingUnit
import PowerFirmware.Channel.SharedMemory
import PowerFirmware.Interrupt.Frames
import PowerFirmware.Interrupt.ManagerLock

/-! How far devices go. Main statements: a shared area admits thirty-two argument words and a messaging unit
four (`SharedMemory.admits`, `MessagingUnit.admits`), and the register frames of an interrupt controller cover
their cores and thirty-two banks of lines (`InterruptFrames.covers_controller`), also under the lock
(`InterruptController.Covers.synced`). -/

namespace PowerFirmware
open Run

variable {σ κ : Type}

/-! ### Channels -/

/-- Not the channel's own limit, which is told before anything is sent. -/
def ChannelError.FromOutside (e : ChannelError) : Prop := ∀ given most, e ≠ .tooManyArgs given most

theorem ChannelError.fromOutside_timeout {t : PollTimeout} : FromOutside (.timeout t) := nofun

theorem ChannelError.fromOutside_transport : FromOutside .transport := nofun

/-- A request of at most `most` argument words is in range, and within the channel's limit. -/
def Channel.Admits (channel : Channel σ) (most : Nat) : Prop :=
  ∀ {n : Nat} (q : Request) (buffer : Vector UInt32 n), q.args.length ≤ most →
    InRange (channel.transact q buffer) fun d => Ends ChannelError.FromOutside (fun _ => True) d.1

section Transports
variable [Machine σ] {n : Nat} {q : Request} {buffer : Vector UInt32 n}

namespace SharedMemory
variable {c : SharedMemory}

theorem inRange_isFree : InRange (c.isFree : Run σ Bool) fun _ => True := .bind .read fun _ _ => .pure trivial

theorem inRange_send : InRange (c.send q : Run σ Unit) fun _ => True :=
  .bind .update fun _ _ => .bind .update fun _ _ => .bind .update fun _ _ => .bind .writeWords fun _ _ =>
    .bind .update fun _ _ => .modify

/-- A malformed response is the other side's fault. -/
theorem inRange_collect :
    InRange (c.collect buffer : Run σ (Delivery n)) fun d => Ends ChannelError.FromOutside (fun _ => True) d.1 := by
  refine .bind .read fun _ _ => .ite (.pure ChannelError.fromOutside_transport) ?_
  refine .bind .read fun _ _ => .ite (.pure ChannelError.fromOutside_transport) ?_
  exact .bind .read fun _ _ => .bind .read fun _ _ => .bind .readWords fun _ _ => .pure trivial

theorem admits (c : SharedMemory) : (c.channel : Channel σ).Admits maxWords := by
  intro n q buffer hq
  show InRange (c.transact q buffer) _
  rw [transact, if_neg (Nat.not_lt.mpr hq)]
  refine .bind (.pollUntil inRange_isFree) fun o _ => ?_
  cases o with
  | error t => exact .bind .update fun _ _ => .pure ChannelError.fromOutside_timeout
  | ok _ =>
    refine .bind inRange_send fun _ _ => .bind (.pollUntil inRange_isFree) fun o _ => ?_
    cases o with
    | error t => exact .bind .update fun _ _ => .pure ChannelError.fromOutside_timeout
    | ok _ => exact inRange_collect

end SharedMemory

namespace MessagingUnit

theorem admits (u : MessagingUnit) : (u.channel : Channel σ).Admits maxArgs := by
  intro n q buffer hq
  show InRange (u.transact q buffer) _
  rw [transact, if_neg (Nat.not_lt.mpr hq)]
  refine .bind .update fun _ _ => .bind .writeWords fun _ _ => ?_
  refine .bind (.pollUntil (.bind .read fun _ _ => .pure trivial)) fun o _ => ?_
  cases o with
  | error t => exact .bind .update fun _ _ => .pure ChannelError.fromOutside_timeout
  | ok _ =>
    exact .bind .read fun _ _ => .bind .read fun _ _ => .bind .readWords fun _ _ => .bind .update fun _ _ =>
      .pure trivial

end MessagingUnit
end Transports

/-! ### Interrupt controllers -/

/-- The controller has so many cores and so many banks of lines: nothing that is asked about them is out of
    range. -/
structure InterruptController.Covers (gic : InterruptController σ κ) (cores banks : Nat) : Prop where
  save : ∀ k, InRange (gic.save k) fun _ => True
  restore : ∀ k, InRange (gic.restore k) fun _ => True
  initCore : ∀ core < cores, InRange (gic.initCore core) fun _ => True
  enableInterface : ∀ core < cores, InRange (gic.enableInterface core) fun _ => True
  disableInterface : ∀ core < cores, InRange (gic.disableInterface core) fun _ => True
  enableMask : ∀ bank < banks, InRange (gic.enableMask bank) fun _ => True
  disableGroups : InRange gic.disableGroups fun _ => True

theorem InterruptController.Covers.mono {gic : InterruptController σ κ} {cores cores' banks banks' : Nat}
    (h : gic.Covers cores banks) (hcores : cores' ≤ cores) (hbanks : banks' ≤ banks) : gic.Covers cores' banks' where
  save := h.save
  restore := h.restore
  initCore core hcore := h.initCore core (Nat.lt_of_lt_of_le hcore hcores)
  enableInterface core hcore := h.enableInterface core (Nat.lt_of_lt_of_le hcore hcores)
  disableInterface core hcore := h.disableInterface core (Nat.lt_of_lt_of_le hcore hcores)
  enableMask bank hbank := h.enableMask bank (Nat.lt_of_lt_of_le hbank hbanks)
  disableGroups := h.disableGroups

variable [Machine σ]

theorem ManagerLock.inRange_guarded {l : ManagerLock} {budget : PollBudget} {change : Nat → Run σ Unit} {core : Nat}
    (h : InRange (change core) fun _ => True) : InRange (l.guarded budget change core) fun _ => True := by
  have hmayEnter : InRange (l.mayEnter : Run σ Bool) fun _ => True :=
    .bind (Q := fun _ => True) (.access fun _ => trivial) fun _ _ => .ite (.pure trivial)
      (.bind .read fun _ _ => .pure trivial)
  have hacquire : InRange (l.acquire budget : Run σ (Except PollTimeout Unit)) fun _ => True := by
    refine .bind .update fun _ _ => .bind .update fun _ _ => .bind (.pollUntil hmayEnter) fun o _ => ?_
    cases o with
    | ok _ => exact .pure trivial
    | error t => exact .bind .update fun _ _ => .pure trivial
  refine .bind hacquire fun o _ => ?_
  cases o with
  | ok _ => exact .bind h fun _ _ => .update
  | error t => exact .bind .update fun _ _ => h

theorem InterruptController.Covers.synced {gic : InterruptController σ κ} {cores banks : Nat}
    (h : gic.Covers cores banks) (l : ManagerLock) (budget : PollBudget) : (gic.synced l budget).Covers cores banks :=
  { h with
    enableInterface := fun core hcore => ManagerLock.inRange_guarded (h.enableInterface core hcore)
    disableInterface := fun core hcore => ManagerLock.inRange_guarded (h.disableInterface core hcore) }

namespace InterruptFrames
variable {f : InterruptFrames} {i : Nat}

/-- The frames as a controller. How a core's own interface is set up, and how it is switched on and off, is
    beyond the frames. -/
def controller (f : InterruptFrames) (initCore : Nat → Run σ Unit) (switch : Bool → Run σ Unit) :
    InterruptController σ Image where
  save _ := f.save
  restore := f.restore
  initCore := initCore
  enableInterface core := do
    f.wake core
    switch true
  disableInterface core := do
    switch false
    f.sleep core
  enableMask := f.enableMask
  disableGroups := f.disableGroups

theorem inRange_settle {done : Run σ Bool} {complaint : String} (h : InRange done fun _ => True) :
    InRange (f.settle done complaint) fun _ => True := by
  refine .bind (.pollUntil h) fun o _ => ?_
  cases o with
  | ok _ => exact .pure trivial
  | error t => exact .update

theorem inRange_settleBits {a : Nat} {mask : UInt32} {complaint : String} :
    InRange (f.settle (bitsClear a mask) complaint : Run σ Unit) fun _ => True :=
  inRange_settle (.bind .read fun _ _ => .pure trivial)

omit [Machine σ] in
theorem inRange_requireCore (hi : i < f.cores) : InRange (f.requireCore i : Run σ Unit) fun _ => True := by
  rw [requireCore, if_pos hi]
  exact .pure trivial

theorem inRange_wake (hi : i < f.cores) : InRange (f.wake i : Run σ Unit) fun _ => True :=
  .bind (inRange_requireCore hi) fun _ _ => .bind .modify fun _ _ => inRange_settleBits

theorem inRange_sleep (hi : i < f.cores) : InRange (f.sleep i : Run σ Unit) fun _ => True :=
  .bind (inRange_requireCore hi) fun _ _ => .bind .modify fun _ _ =>
    inRange_settle (.bind .read fun _ _ => .pure trivial)

theorem inRange_saveDistributor : InRange (f.saveDistributor : Run σ DistributorImage) fun _ => True := by
  have hbank : ∀ bank, InRange (f.saveBank bank : Run σ BankImage) fun _ => True := fun _ =>
    .bind .read fun _ _ => .bind .read fun _ _ => .bind .read fun _ _ => .pure trivial
  have hroute : ∀ line, InRange (read64 (f.route line) : Run σ UInt64) fun _ => True := fun _ =>
    .bind .read fun _ _ => .bind .read fun _ _ => .pure trivial
  exact .bind .read fun _ _ => .bind (.mapM fun _ _ => hbank _) fun _ _ => .bind .readWords fun _ _ =>
    .bind .readWords fun _ _ => .bind (.mapM fun _ _ => hroute _) fun _ _ => .pure trivial

theorem inRange_saveCore : InRange (f.saveCore i : Run σ RedistributorImage) fun _ => True :=
  .bind .read fun _ _ => .bind .read fun _ _ => .bind .read fun _ _ => .bind .read fun _ _ =>
    .bind .readWords fun _ _ => .bind .readWords fun _ _ => .pure trivial

theorem inRange_save : InRange (f.save : Run σ Image) fun _ => True :=
  .bind inRange_saveDistributor fun _ _ => .bind (.mapM fun _ _ => inRange_saveCore) fun _ _ =>
    .bind .update fun _ _ => .pure trivial

theorem inRange_restoreDistributor {d : DistributorImage} :
    InRange (f.restoreDistributor d : Run σ Unit) fun _ => True := by
  refine .bind .update fun _ _ => .bind inRange_settleBits fun _ _ => ?_
  refine .bind (.forM fun _ _ => .bind .update fun _ _ => .update) fun _ _ => ?_
  refine .bind (.forM fun _ _ => .update) fun _ _ => .bind (.forM fun _ _ => .update) fun _ _ => ?_
  refine .bind (.forM fun _ _ => .bind .update fun _ _ => .update) fun _ _ => ?_
  exact .bind (.forM fun _ _ => .update) fun _ _ => .bind .update fun _ _ => inRange_settleBits

theorem inRange_restoreCore {r : RedistributorImage} : InRange (f.restoreCore i r : Run σ Unit) fun _ => True := by
  refine .bind .update fun _ _ => .bind inRange_settleBits fun _ _ => .bind .update fun _ _ => ?_
  refine .bind .update fun _ _ => .bind (.forM fun _ _ => .update) fun _ _ => ?_
  refine .bind (.forM fun _ _ => .update) fun _ _ => ?_
  exact .bind .update fun _ _ => .bind .update fun _ _ => inRange_settleBits

theorem inRange_restore {image : Image} : InRange (f.restore image : Run σ Unit) fun _ => True :=
  .bind inRange_restoreDistributor fun _ _ => .bind (.forM fun _ _ => inRange_restoreCore) fun _ _ => .update

theorem inRange_enableMask {bank : Nat} (h : bank < 32) : InRange (f.enableMask bank : Run σ UInt32) fun _ => True := by
  rw [enableMask, if_pos h]
  exact .read

theorem inRange_disableGroups : InRange (f.disableGroups : Run σ Unit) fun _ => True :=
  .bind .modify fun _ _ => inRange_settleBits

theorem covers_controller {initCore : Nat → Run σ Unit} {switch : Bool → Run σ Unit}
    (hinit : ∀ core, InRange (initCore core) fun _ => True) (hswitch : ∀ on, InRange (switch on) fun _ => True) :
    (f.controller initCore switch).Covers f.cores 32 where
  save _ := inRange_save
  restore _ := inRange_restore
  initCore core _ := hinit core
  enableInterface _ hcore := InRange.bind (inRange_wake hcore) fun _ _ => hswitch true
  disableInterface _ hcore := InRange.bind (hswitch false) fun _ _ => inRange_sleep hcore
  enableMask _ hbank := inRange_enableMask hbank
  disableGroups := inRange_disableGroups

end InterruptFrames
end PowerFirmware
