import PowerFirmware.Proofs.Lock.Surroundings
import PowerFirmware.Proofs.Polling

/-! Changes of CPU interfaces under the lock. Main statement: whatever the System Manager does meanwhile, a change
is made exactly once, between asking and releasing if the processor was let in and after giving up if not, and in
the end the processor does not ask for the lock (`synced_brackets`). -/

namespace PowerFirmware.ManagerLock
open Run
open InterruptController (Operation)

/-! ### The wait -/

section Wait
variable {κ : Type} {l : ManagerLock} {around : Surroundings κ} {s : Site l around} {L M : List (Step κ)}
variable {budget : PollBudget}

/-- What the processor sees lets it in: the manager does not ask, or it has given its turn away. -/
def admits (l : ManagerLock) : Step κ → Bool
  | .readByte a b => a == l.managerFlag && b == 0
  | .read a w => a == l.turn && w != 0
  | _ => false

/-- The processor looks at the manager's flag, at the turn or at the clock. -/
def Looks (l : ManagerLock) : Step κ → Prop
  | .readByte a _ => a = l.managerFlag
  | .read a _ => a = l.turn
  | .tick _ => True
  | _ => False

/-- All the processor does is look, and it sees what is there. -/
structure Observes (s : Site l around) (L : List (Step κ)) : Prop where
  looks : ∀ x ∈ L, l.Looks x
  allowed : s.Allows L

theorem Observes.append (h : Observes s L) (h' : Observes (s.after L) M) : Observes s (L ++ M) :=
  ⟨List.forall_mem_append.mpr ⟨h.looks, h'.looks⟩, Site.allows_append.mpr ⟨h.allowed, h'.allowed⟩⟩

/-- A look whether the processor may enter. -/
def look {σ : Type} [Machine σ] (l : ManagerLock) (s : σ) : Bool × σ :=
  let (flag, t) := Machine.loadByte l.managerFlag s
  if flag == 0 then (true, t)
  else
    let (turn, u) := Machine.load l.turn t
    (turn != 0, u)

theorem mayEnter_eq {σ : Type} [Machine σ] : (l.mayEnter : Run σ Bool) = access l.look := by
  funext s
  have hread : (read8 l.managerFlag : Run σ UInt8) s =
      (.ok (Machine.loadByte l.managerFlag s).1, (Machine.loadByte l.managerFlag s).2) := rfl
  rw [mayEnter, bind_of_ok hread]
  simp only [access, look]
  split <;> rfl

theorem look_observes (s : Site l around) :
    ∃ P, (l.look s).2 = s.after P ∧ Observes s P ∧ P.any l.admits = (l.look s).1 := by
  let first : Step κ := .readByte l.managerFlag (s.presented.getByte l.managerFlag)
  let second : Step κ := .read l.turn ((s.take first).presented.get l.turn)
  have hfirst : l.admits first = (s.presented.getByte l.managerFlag == 0) := by
    rw [admits, beq_self_eq_true, Bool.true_and]
  have hsecond : l.admits second = ((s.take first).presented.get l.turn != 0) := by
    rw [admits, beq_self_eq_true, Bool.true_and]
  have hlook : l.look s = if s.presented.getByte l.managerFlag == 0 then (true, s.after [first])
      else ((s.take first).presented.get l.turn != 0, s.after [first, second]) := rfl
  rcases hflag : s.presented.getByte l.managerFlag == 0 with _ | _ <;> rw [hflag] at hlook hfirst
  · refine ⟨[first, second], congrArg Prod.snd hlook, ⟨?_, rfl, rfl, trivial⟩, ?_⟩
    · exact List.forall_mem_cons.mpr ⟨rfl, List.forall_mem_singleton.mpr rfl⟩
    · rw [List.any_cons, List.any_cons, hfirst, hsecond, List.any_nil, Bool.or_false, Bool.false_or, hlook]
      rfl
  · refine ⟨[first], congrArg Prod.snd hlook, ⟨List.forall_mem_singleton.mpr rfl, rfl, trivial⟩, ?_⟩
    rw [List.any_cons, hfirst, Bool.true_or, hlook]
    rfl

theorem tick_observes (s : Site l around) :
    ∃ P, (Machine.tick s).2 = s.after P ∧ Observes s P ∧ P.any l.admits = false := by
  refine ⟨[.tick (around.clock s.steps)], rfl, ⟨?_, rfl, trivial⟩, rfl⟩
  exact List.forall_mem_singleton.mpr trivial

/-- Before a look that comes after nothing but failures, the processor has only looked, and nothing let it in. -/
theorem beforeLook_observes {i : Nat} (h : ∀ j < i, found l.look budget s j = false) :
    ∃ P, beforeLook l.look budget s i = s.after P ∧ Observes s P ∧ P.any l.admits = false := by
  induction i with
  | zero => exact ⟨[], rfl, ⟨nofun, trivial⟩, rfl⟩
  | succ i ih =>
    obtain ⟨P, hP, hobserves, hnone⟩ := ih fun j hj => h j (Nat.lt_succ_of_lt hj)
    obtain ⟨Q, hQ, hlook, hfound⟩ := look_observes (beforeLook l.look budget s i)
    have hmissed : Q.any l.admits = false := hfound.trans (h i (Nat.lt_succ_self i))
    rw [hP] at hQ hlook
    have hobserves : Observes s (P ++ Q) := hobserves.append hlook
    have hnone : (P ++ Q).any l.admits = false := by
      rw [List.any_append, hnone, hmissed]
      rfl
    rw [beforeLook, hP, hQ, ← Site.after_append]
    cases budget.readsClock i with
    | false => exact ⟨P ++ Q, rfl, hobserves, hnone⟩
    | true =>
      obtain ⟨R, hR, htick, hidle⟩ := tick_observes (s.after (P ++ Q))
      refine ⟨P ++ Q ++ R, hR.trans Site.after_append.symm, hobserves.append htick, ?_⟩
      rw [List.any_append, hnone, hidle]
      rfl

/-- A wait for the lock looks until something lets the processor in or the budget is used up, or it goes on for as
    long as it can. -/
theorem wait_observes (s : Site l around) (budget : PollBudget) :
    (∃ o m P, pollUntil budget l.mayEnter s = (.ok o, s.after P) ∧ Observes s P ∧
        WaitEnds budget (found l.look budget s) (shown l.look budget s) o m ∧ (P.any l.admits = true ↔ o = .ok ())) ∨
      ∃ t, pollUntil budget l.mayEnter s = (.error .hung, t) ∧ Open l.look budget s (around.patience + 1) := by
  have hruns : WaitRuns l.look budget s (around.patience + 1) (pollUntil budget (access l.look) s) := pollUntil_runs
  rw [← mayEnter_eq] at hruns
  generalize pollUntil budget l.mayEnter s = r at hruns
  cases hruns with
  | hangs hopen => exact .inr ⟨_, rfl, hopen⟩
  | @ends o m h =>
    have hbefore : ∀ j < m, found l.look budget s j = false := by
      cases h with
      | found _ hbefore => exact hbefore
      | gaveUp _ _ hmissed => exact fun j hj => hmissed j (Nat.le_of_lt hj)
    obtain ⟨P, hP, hobserves, hnone⟩ := beforeLook_observes hbefore
    obtain ⟨Q, hQ, hlook, hfound⟩ := look_observes (beforeLook l.look budget s m)
    rw [hP] at hQ hlook
    have hstate : afterWait o (l.look (beforeLook l.look budget s m)).2 = s.after (P ++ Q) := by
      rw [hP, hQ, ← Site.after_append]
      cases o <;> rfl
    have hadmits : (P ++ Q).any l.admits = found l.look budget s m := by
      rw [List.any_append, hnone, Bool.false_or]
      exact hfound
    refine .inl ⟨o, m, P ++ Q, by rw [hstate], hobserves.append hlook, h, ?_⟩
    rw [hadmits]
    cases h with
    | found hfound => exact iff_of_true hfound rfl
    | gaveUp _ _ hmissed =>
      rw [hmissed _ (Nat.le_refl _)]
      exact iff_of_false nofun nofun

end Wait

/-! ### Operations -/

section Operations
variable {κ : Type} {l : ManagerLock} {around : Surroundings κ} {s : Site l around} {L M : List (Step κ)}
variable {budget : PollBudget} {op : Operation κ}

/-- The processor asks for the lock and gives its turn away. -/
def asks (l : ManagerLock) : List (Step κ) := [.writeByte l.ownFlag 1, .write l.turn 0]

/-- The steps of an operation under the lock, by what has been seen in the wait for it. -/
def bracket (l : ManagerLock) (op : Operation κ) (seen : List (Step κ)) : List (Step κ) :=
  l.asks ++ (seen ++ if seen.any l.admits then [.inner op, .writeByte l.ownFlag 0]
    else [.writeByte l.ownFlag 0, .inner op])

theorem Observes.allows_bracket (h : Observes (s.after l.asks) L) (op : Operation κ) : s.Allows (l.bracket op L) := by
  refine Site.allows_append.mpr ⟨⟨trivial, trivial, trivial⟩, Site.allows_append.mpr ⟨h.allowed, ?_⟩⟩
  split <;> exact ⟨trivial, trivial, trivial⟩

/-- How an operation goes for which the lock is asked: the wait for it ends, or it goes on for as long as it can. -/
inductive Brackets (budget : PollBudget) (s : Site l around) (op : Operation κ) :
    Except Fault Unit × Site l around → Prop
  | ends {o : Except PollTimeout Unit} {m : Nat} {seen : List (Step κ)} : Observes (s.after l.asks) seen →
      WaitEnds budget (found l.look budget (s.after l.asks)) (shown l.look budget (s.after l.asks)) o m →
      (seen.any l.admits = true ↔ o = .ok ()) → Brackets budget s op (.ok (), s.after (l.bracket op seen))
  | waits {t : Site l around} : Open l.look budget (s.after l.asks) (around.patience + 1) →
      Brackets budget s op (.error .hung, t)

theorem guarded_brackets {change : Nat → Run (Site l around) Unit} {core : Nat}
    (hchange : change core = update (·.take (.inner op))) (s : Site l around) :
    Brackets budget s op (l.guarded budget change core s) := by
  have hasks : ∀ f : Except PollTimeout Unit → Run (Site l around) (Except PollTimeout Unit),
      (do write8 l.ownFlag 1; write32 l.turn 0; f (← pollUntil budget l.mayEnter)) s =
        (pollUntil budget l.mayEnter >>= f) (s.after l.asks) := fun _ => rfl
  rcases wait_observes (s.after l.asks) budget with ⟨o, m, seen, hwait, hobserves, hends, hseen⟩ | ⟨t, hwait, hopen⟩
  · suffices hrun : l.guarded budget change core s = (.ok (), s.after (l.bracket op seen)) by
      rw [hrun]
      exact .ends hobserves hends hseen
    cases o with
    | ok _ =>
      have hacquire : l.acquire budget s = (.ok (.ok ()), (s.after l.asks).after seen) :=
        (hasks _).trans (bind_of_ok hwait)
      rw [guarded, bind_of_ok hacquire]
      dsimp only
      rw [hchange, bracket, hseen.mpr rfl, Site.after_append, Site.after_append]
      rfl
    | error e =>
      have hnone : seen.any l.admits = false := Bool.eq_false_iff.mpr fun h => nomatch hseen.mp h
      have hacquire : l.acquire budget s =
          (.ok (.error e), ((s.after l.asks).after seen).take (.writeByte l.ownFlag 0)) :=
        (hasks _).trans (bind_of_ok hwait)
      rw [guarded, bind_of_ok hacquire]
      dsimp only
      rw [hchange, bracket, hnone, Site.after_append, Site.after_append]
      rfl
  · have hacquire : l.acquire budget s = (.error .hung, t) := by
      refine (hasks _).trans ?_
      rw [bind_apply, hwait]
    rw [guarded, bind_apply, hacquire]
    exact .waits hopen

theorem on_brackets (s : Site l around) (h : op.changesInterface = true) :
    Brackets budget s op (op.on (Site.gic.synced l budget) s) := by
  cases op with
  | enableInterface core => exact guarded_brackets rfl s
  | disableInterface core => exact guarded_brackets rfl s
  | _ => cases h

/-- No other operation knows of the lock. -/
theorem on_plain (s : Site l around) (h : op.changesInterface = false) :
    op.on (Site.gic.synced l budget) s = (.ok (), s.take (.inner op)) := by
  cases op with
  | enableInterface | disableInterface => cases h
  | _ => rfl

/-! ### What the steps write -/

def Step.inner? : Step κ → Option (Operation κ)
  | .inner op => some op
  | _ => none

def Step.write? : Step κ → Option (Nat × UInt32)
  | .writeByte a b => some (a, b.toUInt32)
  | .write a w => some (a, w)
  | _ => none

/-- The steps of operations one after the other, each under the lock if it changes an interface. -/
inductive Courses (l : ManagerLock) : List (Operation κ) → List (Step κ) → Prop
  | nil : Courses l [] []
  | guarded {op : Operation κ} {ops : List (Operation κ)} {seen L : List (Step κ)} : op.changesInterface = true →
      (∀ x ∈ seen, l.Looks x) → Courses l ops L → Courses l (op :: ops) (l.bracket op seen ++ L)
  | plain {op : Operation κ} {ops : List (Operation κ)} {L : List (Step κ)} : op.changesInterface = false →
      Courses l ops L → Courses l (op :: ops) (.inner op :: L)

theorem Looks.inner? {x : Step κ} (h : l.Looks x) : x.inner? = none := by
  cases x with
  | inner => cases h
  | _ => rfl

theorem Looks.write? {x : Step κ} (h : l.Looks x) : x.write? = none := by
  cases x with
  | writeByte | write => cases h
  | _ => rfl

theorem inner?_bracket (h : ∀ x ∈ L, l.Looks x) : (l.bracket op L).filterMap Step.inner? = [op] := by
  have hseen : L.filterMap Step.inner? = [] := List.filterMap_eq_nil_iff.mpr fun x hx => (h x hx).inner?
  rw [bracket, List.filterMap_append, List.filterMap_append, hseen]
  split <;> rfl

theorem write?_bracket (h : ∀ x ∈ L, l.Looks x) :
    (l.bracket op L).filterMap Step.write? = [(l.ownFlag, 1), (l.turn, 0), (l.ownFlag, 0)] := by
  have hseen : L.filterMap Step.write? = [] := List.filterMap_eq_nil_iff.mpr fun x hx => (h x hx).write?
  rw [bracket, List.filterMap_append, List.filterMap_append, hseen]
  split <;> rfl

namespace Courses
variable {ops : List (Operation κ)}

/-- Each operation is carried out once, and in order. -/
theorem inner? (h : Courses l ops L) : L.filterMap Step.inner? = ops := by
  induction h with
  | nil => rfl
  | guarded _ hseen _ ih => rw [List.filterMap_append, inner?_bracket hseen, ih]; rfl
  | plain _ _ ih => exact congrArg (List.cons _) ih

theorem write? (h : Courses l ops L) : L.filterMap Step.write? = ops.flatMap fun op =>
    if op.changesInterface then [(l.ownFlag, 1), (l.turn, 0), (l.ownFlag, 0)] else [] := by
  induction h with
  | nil => rfl
  | guarded hop hseen _ ih => rw [List.filterMap_append, write?_bracket hseen, ih, List.flatMap_cons, if_pos hop]
  | plain hop _ ih => rw [List.filterMap_cons_none rfl, ih, List.flatMap_cons, hop]; rfl

end Courses

/-! ### The flags -/

theorem wordOf_lt {a b : Nat} (h : a < b) : Bench.RegisterFile.wordOf a ≠ b := by
  rw [Bench.RegisterFile.wordOf]
  omega

/-- The manager leaves the processor's flag alone. -/
theorem getByte_presented (s : Site l around) : s.presented.getByte l.ownFlag = s.registers.getByte l.ownFlag := by
  have hturn : ∀ (f : Bench.RegisterFile) (w : UInt32), (f.set l.turn w).getByte l.ownFlag = f.getByte l.ownFlag :=
    fun _ _ => Bench.RegisterFile.getByte_set_of_ne (wordOf_lt (by simp only [ownFlag, turn]; omega))
  have hflag : ∀ (f : Bench.RegisterFile) (b : UInt8),
      (f.setByte l.managerFlag b).getByte l.ownFlag = f.getByte l.ownFlag :=
    fun _ _ => Bench.RegisterFile.getByte_setByte_of_ne (by simp [ownFlag, managerFlag])
  rw [Site.presented]
  cases around.turn s.steps <;> cases around.flag s.steps <;> simp only [Option.elim, hturn, hflag]

theorem ownFlag_inner (s : Site l around) (op : Operation κ) :
    (s.take (.inner op)).registers.getByte l.ownFlag = s.registers.getByte l.ownFlag := getByte_presented s

/-- After an operation under the lock the processor does not ask for it. -/
theorem ownFlag_bracket (s : Site l around) (op : Operation κ) (seen : List (Step κ)) :
    (s.after (l.bracket op seen)).registers.getByte l.ownFlag = 0 := by
  have hrelease : ∀ t : Site l around, (t.take (.writeByte l.ownFlag 0)).registers.getByte l.ownFlag = 0 :=
    fun _ => Bench.RegisterFile.getByte_setByte_self
  rw [bracket, Site.after_append, Site.after_append]
  split
  · exact hrelease _
  · exact (ownFlag_inner _ op).trans (hrelease _)

theorem Courses.ownFlag {ops : List (Operation κ)} (h : Courses l ops L) (s : Site l around) :
    (s.after L).registers.getByte l.ownFlag =
      if ops.any (·.changesInterface) then 0 else s.registers.getByte l.ownFlag := by
  induction h generalizing s with
  | nil => rfl
  | @guarded op _ seen _ hop _ _ ih =>
    rw [Site.after_append, ih, ownFlag_bracket, ite_self, List.any_cons, hop]
    rfl
  | @plain op _ L hop _ ih =>
    have hfirst : s.after (.inner op :: L) = (s.take (.inner op)).after L := rfl
    rw [hfirst, ih, ownFlag_inner, List.any_cons, hop, Bool.false_or]

/-- The step writes nothing but the processor's flag and the turn. -/
def Confined (l : ManagerLock) : Step κ → Prop
  | .writeByte a _ => a = l.ownFlag
  | .write a _ => a = l.turn
  | _ => True

theorem Looks.confined {x : Step κ} (h : l.Looks x) : l.Confined x := by
  cases x with
  | writeByte | write => cases h
  | _ => trivial

theorem Courses.confined {ops : List (Operation κ)} (h : Courses l ops L) : ∀ x ∈ L, l.Confined x := by
  induction h with
  | nil => exact nofun
  | @guarded op _ seen _ _ hseen _ ih =>
    refine List.forall_mem_append.mpr ⟨List.forall_mem_append.mpr ⟨?_, ?_⟩, ih⟩
    · exact List.forall_mem_cons.mpr ⟨rfl, List.forall_mem_singleton.mpr rfl⟩
    · refine List.forall_mem_append.mpr ⟨fun x hx => (hseen x hx).confined, ?_⟩
      split
      · exact List.forall_mem_cons.mpr ⟨trivial, List.forall_mem_singleton.mpr rfl⟩
      · exact List.forall_mem_cons.mpr ⟨rfl, List.forall_mem_singleton.mpr trivial⟩
  | plain _ _ ih => exact List.forall_mem_cons.mpr ⟨trivial, ih⟩

/-- Whatever the registers are, such a step leaves the manager's flag as it is, though it shares a word with the
    processor's. -/
theorem Confined.managerFlag {x : Step κ} (h : l.Confined x) (f : Bench.RegisterFile) :
    (x.effect f).getByte l.managerFlag = f.getByte l.managerFlag := by
  cases x with
  | writeByte =>
    cases h
    exact Bench.RegisterFile.getByte_setByte_of_ne (by simp [ManagerLock.managerFlag, ManagerLock.ownFlag])
  | write =>
    cases h
    exact Bench.RegisterFile.getByte_set_of_ne
      (wordOf_lt (by simp only [ManagerLock.managerFlag, ManagerLock.turn]; omega))
  | _ => rfl

theorem forM_courses : ∀ {ops : List (Operation κ)} {s t : Site l around},
    ops.forM (·.on (Site.gic.synced l budget)) s = (.ok ⟨⟩, t) → ∃ L, t = s.after L ∧ Courses l ops L ∧ s.Allows L
  | [], s, t, h => by
    cases h
    exact ⟨[], rfl, .nil, trivial⟩
  | op :: ops, s, t, h => by
    change (op.on (Site.gic.synced l budget) >>= fun _ => ops.forM (·.on (Site.gic.synced l budget))) s = _ at h
    rw [bind_apply] at h
    rcases hop : op.changesInterface with _ | _
    · rw [on_plain s hop] at h
      obtain ⟨L, rfl, hcourses, hallowed⟩ := forM_courses h
      exact ⟨.inner op :: L, rfl, .plain hop hcourses, trivial, hallowed⟩
    · have hbrackets : Brackets budget s op (op.on (Site.gic.synced l budget) s) := on_brackets s hop
      generalize op.on (Site.gic.synced l budget) s = r at h hbrackets
      cases hbrackets with
      | waits => cases h
      | @ends _ _ seen hobserves _ _ =>
        obtain ⟨L, rfl, hcourses, hallowed⟩ := forM_courses h
        refine ⟨l.bracket op seen ++ L, Site.after_append.symm, .guarded hop hobserves.looks hcourses, ?_⟩
        exact Site.allows_append.mpr ⟨hobserves.allows_bracket op, hallowed⟩

end Operations

/-! ### Main statement -/

/-- Whatever the manager writes to its flag and to the turn at whatever time, and whatever the clock shows: an
    operation that changes the interface of a core asks for the lock, gives the turn away and waits, for as long as
    its budget allows. Once that wait has ended the operation is carried out, and once only: between asking and
    releasing the lock if something was seen that lets the processor in, and else after the request has been
    withdrawn. Every other operation is carried out alone.

    So however many operations follow each other, each is carried out once and in order, all that is written are the
    flag and the turn for each change of an interface, the manager's flag is never changed, and in the end the
    processor does not ask for the lock any more. -/
theorem synced_brackets {κ : Type} (l : ManagerLock) (around : Surroundings κ) (budget : PollBudget)
    (s : Site l around) :
    (∀ op : Operation κ, op.changesInterface = true →
      (∃ o m seen, op.on (Site.gic.synced l budget) s = (.ok (), s.after (l.bracket op seen)) ∧
        s.Allows (l.bracket op seen) ∧ (∀ x ∈ seen, l.Looks x) ∧
        WaitEnds budget (found l.look budget (s.after l.asks)) (shown l.look budget (s.after l.asks)) o m ∧
        (seen.any l.admits = true ↔ o = .ok ())) ∨
      ∃ t, op.on (Site.gic.synced l budget) s = (.error .hung, t) ∧
        Open l.look budget (s.after l.asks) (around.patience + 1)) ∧
    (∀ op : Operation κ, op.changesInterface = false →
      op.on (Site.gic.synced l budget) s = (.ok (), s.after [.inner op])) ∧
    ∀ (ops : List (Operation κ)) (t : Site l around), ops.forM (·.on (Site.gic.synced l budget)) s = (.ok ⟨⟩, t) →
      ∃ L, t = s.after L ∧ Courses l ops L ∧ s.Allows L ∧ L.filterMap Step.inner? = ops ∧
        L.filterMap Step.write? = (ops.flatMap fun op =>
          if op.changesInterface then [(l.ownFlag, 1), (l.turn, 0), (l.ownFlag, 0)] else []) ∧
        (∀ x ∈ L, ∀ f, (x.effect f).getByte l.managerFlag = f.getByte l.managerFlag) ∧
        t.registers.getByte l.ownFlag =
          if ops.any (·.changesInterface) then 0 else s.registers.getByte l.ownFlag := by
  refine ⟨fun op hop => ?_, fun op hop => on_plain s hop, fun ops t h => ?_⟩
  · have hbrackets : Brackets budget s op (op.on (Site.gic.synced l budget) s) := on_brackets s hop
    generalize op.on (Site.gic.synced l budget) s = r at hbrackets
    cases hbrackets with
    | ends hobserves hends hseen =>
      exact .inl ⟨_, _, _, rfl, hobserves.allows_bracket op, hobserves.looks, hends, hseen⟩
    | waits hopen => exact .inr ⟨_, rfl, hopen⟩
  · obtain ⟨L, rfl, hcourses, hallowed⟩ := forM_courses h
    exact ⟨L, rfl, hcourses, hallowed, hcourses.inner?, hcourses.write?,
      fun x hx f => (hcourses.confined x hx).managerFlag f, hcourses.ownFlag s⟩

/-- The manager asks all the time and never gives its turn away. -/
def insisting : Surroundings Unit where
  flag _ := some 1
  turn _ := some 0
  clock steps := .ofNat (1000 * steps.length)
  saved _ k := k
  enables _ _ := 0
  patience := 10

theorem insisting_admits {l : ManagerLock} {L : List (Step Unit)} : ∀ {s : Site l insisting}, s.Allows L →
    L.any l.admits = false := by
  induction L with
  | nil => exact fun _ => rfl
  | cons x L ih =>
    intro s h
    obtain ⟨hyields, hallowed⟩ := h
    have hflag : s.presented.getByte l.managerFlag = 1 :=
      (Bench.RegisterFile.getByte_set_of_ne (wordOf_lt (by simp only [managerFlag, turn]; omega))).trans
        Bench.RegisterFile.getByte_setByte_self
    have hturn : s.presented.get l.turn = 0 := Bench.RegisterFile.get_set_self
    rw [List.any_cons, ih hallowed, Bool.or_false]
    cases x with
    | readByte a b =>
      cases hyields
      rw [admits, Bool.and_eq_false_imp]
      intro ha
      rw [eq_of_beq ha, hflag]
      rfl
    | read a w =>
      cases hyields
      rw [admits, Bool.and_eq_false_imp]
      intro ha
      rw [eq_of_beq ha, hturn]
      rfl
    | _ => rfl

/-- An interface is disabled all the same, after the request has been withdrawn. -/
theorem synced_brackets_contended : ∃ seen t,
    (Operation.disableInterface 1).on (Site.gic.synced ⟨0x13f8⟩ (.within 0)) (⟨{}, []⟩ : Site ⟨0x13f8⟩ insisting) =
      (.ok (), t) ∧
    t.steps = [.writeByte 0x13f9 1, .write 0x13fc 0] ++ (seen ++ [.writeByte 0x13f9 0, .inner (.disableInterface 1)]) ∧
    t.registers.getByte 0x13f9 = 0 := by
  obtain ⟨hguarded, -, hsequence⟩ := synced_brackets ⟨0x13f8⟩ insisting (.within 0) ⟨{}, []⟩
  rcases hguarded (.disableInterface 1) rfl with ⟨o, m, seen, hrun, hallowed, -, -, -⟩ | ⟨t, -, hopen⟩
  · have hseen : seen.any (admits ⟨0x13f8⟩) = false :=
      insisting_admits (Site.allows_append.mp (Site.allows_append.mp hallowed).2).1
    obtain ⟨L, -, -, -, -, -, -, hflag⟩ := hsequence [.disableInterface 1] _ (bind_of_ok hrun)
    refine ⟨seen, _, hrun, ?_, hflag⟩
    rw [Site.steps_after, bracket, hseen]
    rfl
  · -- The budget is used up as soon as the clock has been read twice.
    exact absurd ⟨by decide, 0, rfl, Nat.zero_le _⟩ (hopen.short 1 (by decide))

end PowerFirmware.ManagerLock
