import PowerFirmware.Proofs.Does
import PowerFirmware.Proofs.Polling

/-! Waits for a register, by their events. Main statements: a wait in any environment makes the looks and the
readings of the clock that its budget has it make, whatever these yield (`doesOr_wait`); it looks and reads
the clock, and the last look decides how it ends (`Does.pollUntil`). -/

namespace PowerFirmware
open Run

variable {κ : Type} {env : Environment κ} {a : Nat} {test : UInt32 → Bool} {budget : PollBudget}
variable {ws : Nat → UInt32} {ts : Nat → UInt64} {L M : List (Event κ)} {o : Except PollTimeout Unit}

namespace Run
variable {w : UInt32} {limit : Option UInt64} {n : Nat}

/-- How a wait for a register goes: looks that fail and readings of the clock, and a last look that
    decides. -/
inductive Polled (a : Nat) (test : UInt32 → Bool) : List (Event κ) → Except PollTimeout Unit → Prop
  | seen {w : UInt32} : test w = true → Polled a test [.read a w] (.ok ())
  | gaveUp {w : UInt32} {t : PollTimeout} : test w = false → Polled a test [.read a w] (.error t)
  | look {w : UInt32} {L : List (Event κ)} {o : Except PollTimeout Unit} :
      test w = false → Polled a test L o → Polled a test (.read a w :: L) o
  | tick {t : UInt64} {L : List (Event κ)} {o : Except PollTimeout Unit} :
      Polled a test L o → Polled a test (.tick t :: L) o

/-- Nothing happens but looks at a register and readings of the clock. -/
def Watches (a : Nat) (L : List (Event κ)) : Prop := ∀ e ∈ L, (∃ w, e = .read a w) ∨ ∃ t, e = .tick t

theorem Watches.look (h : Watches a L) : Watches a (.read a w :: L) :=
  List.forall_mem_cons.mpr ⟨.inl ⟨w, rfl⟩, h⟩

theorem Watches.tick {t : UInt64} (h : Watches a L) : Watches a (.tick t :: L) :=
  List.forall_mem_cons.mpr ⟨.inr ⟨t, rfl⟩, h⟩

theorem Polled.watches (h : Polled a test L o) : Watches a L := by
  induction h with
  | seen | gaveUp => exact fun e he => .inl ⟨_, List.mem_singleton.mp he⟩
  | look _ _ ih => exact ih.look
  | tick _ ih => exact ih.tick

/-- No look of a wait that gives up has found anything. -/
theorem Polled.unseen {t : PollTimeout} {w : UInt32} (h : Polled a test L (.error t)) (hw : .read a w ∈ L) :
    test w = false := by
  generalize ho : (.error t : Except PollTimeout Unit) = o at h
  induction h with
  | seen => cases ho
  | gaveUp hmissed =>
    cases List.mem_singleton.mp hw
    exact hmissed
  | look hmissed _ ih =>
    rcases List.mem_cons.mp hw with heq | hw
    · cases heq
      exact hmissed
    · exact ih hw ho
  | tick _ ih =>
    rcases List.mem_cons.mp hw with heq | hw
    · cases heq
    · exact ih hw ho

theorem Polled.exists_seen (h : Polled a test L (.ok ())) : ∃ w, .read a w ∈ L ∧ test w = true := by
  generalize ho : (.ok () : Except PollTimeout Unit) = o at h
  induction h with
  | seen hseen => exact ⟨_, List.mem_singleton_self _, hseen⟩
  | gaveUp => cases ho
  | look _ _ ih =>
    obtain ⟨w, hw, hseen⟩ := ih ho
    exact ⟨w, List.mem_cons_of_mem _ hw, hseen⟩
  | tick _ ih =>
    obtain ⟨w, hw, hseen⟩ := ih ho
    exact ⟨w, List.mem_cons_of_mem _ hw, hseen⟩

/-- There has been a look in as many rounds as given, and if there is a limit the clock was short of it. -/
def Short (limit : Option UInt64) (start : UInt64) (rounds : Nat) (L : List (Event κ)) : Prop :=
  rounds ≤ L.countP Event.isRead ∧ ∀ most, limit = some most →
    rounds ≤ L.countP Event.isTick ∧ ∀ t, .tick t ∈ L → elapsed start t < most

/-- A wait without end: its first look fails, and then it watches for as many rounds as given. -/
def Missed (a : Nat) (test : UInt32 → Bool) (limit : Option UInt64) (rounds : Nat) (L : List (Event κ)) : Prop :=
  ∃ w start M, L = .read a w :: .tick start :: M ∧ test w = false ∧ Short limit start rounds M ∧ Watches a M

theorem Missed.watches (h : Missed a test limit n L) : Watches a L := by
  obtain ⟨w, start, M, rfl, -, -, hM⟩ := h
  exact hM.tick.look

theorem Missed.endless (h : Missed a test env.budget.limit? env.patience L) : env.Endless L := by
  obtain ⟨w, start, M, rfl, -, hM, -⟩ := h
  exact ⟨[.read a w], start, M, rfl, hM⟩

end Run

/-! ### What the budget allows for -/

/-- The first looks at a register and the readings of the clock after them. -/
def failedLooks (budget : PollBudget) (a : Nat) (ws : Nat → UInt32) (ts : Nat → UInt64) (m : Nat) : List (Event κ) :=
  (List.range m).flatMap fun i => .read a (ws i) :: if budget.readsClock i then [.tick (ts i)] else []

theorem failedLooks_succ {m : Nat} : (failedLooks budget a ws ts (m + 1) : List (Event κ)) =
    failedLooks budget a ws ts m ++ .read a (ws m) :: if budget.readsClock m then [.tick (ts m)] else [] := by
  rw [failedLooks, List.range_succ, List.flatMap_append, List.flatMap_singleton]
  rfl

/-- A wait for a register that ends: the words that it finds and the times that it is shown make it go on
    for as long as it does, and end as it does. -/
inductive Waited (budget : PollBudget) (a : Nat) (test : UInt32 → Bool) :
    List (Event κ) → Except PollTimeout Unit → Prop
  | intro {ws : Nat → UInt32} {ts : Nat → UInt64} {m : Nat} {o : Except PollTimeout Unit} :
      WaitEnds budget (fun i => test (ws i)) ts o m →
      Waited budget a test (failedLooks budget a ws ts m ++ [.read a (ws m)]) o

/-- A wait for a register that has not ended after so many looks. -/
def Waiting (budget : PollBudget) (a : Nat) (test : UInt32 → Bool) (looks : Nat) (L : List (Event κ)) : Prop :=
  ∃ ws ts, L = failedLooks budget a ws ts looks ∧ (∀ i < looks, test (ws i) = false) ∧
    ∀ k < looks, ¬budget.SpentAt ts k

theorem watches_failedLooks {m : Nat} : Watches a (failedLooks budget a ws ts m : List (Event κ)) := by
  intro e he
  obtain ⟨i, -, he⟩ := List.mem_flatMap.mp he
  rcases List.mem_cons.mp he with rfl | he
  · exact .inl ⟨_, rfl⟩
  · split at he
    · exact .inr ⟨_, List.mem_singleton.mp he⟩
    · cases he

theorem polled_failedLooks : ∀ {m : Nat} {M : List (Event κ)}, (∀ i < m, test (ws i) = false) → Polled a test M o →
    Polled a test (failedLooks budget a ws ts m ++ M) o
  | 0, _, _, hM => hM
  | m + 1, M, h, hM => by
    rw [failedLooks_succ, List.append_assoc]
    refine polled_failedLooks (fun i hi => h i (Nat.lt_succ_of_lt hi)) (.look (h m (Nat.lt_succ_self m)) ?_)
    split
    · exact .tick hM
    · exact hM

theorem Waited.polled (h : Waited budget a test L o) : Polled a test L o := by
  cases h with
  | intro h =>
    cases h with
    | found hfound hbefore _ => exact polled_failedLooks hbefore (.seen hfound)
    | gaveUp _ _ hmissed =>
      exact polled_failedLooks (fun i hi => hmissed i (Nat.le_of_lt hi)) (.gaveUp (hmissed _ (Nat.le_refl _)))

theorem Waited.watches (h : Waited budget a test L o) : Watches a L := h.polled.watches

theorem read_mem_failedLooks {m : Nat} {w : UInt32} (h : .read a w ∈ (failedLooks budget a ws ts m : List (Event κ))) :
    ∃ i < m, w = ws i := by
  obtain ⟨i, hi, h⟩ := List.mem_flatMap.mp h
  rcases List.mem_cons.mp h with heq | h
  · exact ⟨i, List.mem_range.mp hi, (Event.read.inj heq).2⟩
  · split at h
    · cases List.mem_singleton.mp h
    · cases h

/-- No look of a wait that has not ended has found anything. -/
theorem Waiting.unseen {looks : Nat} {w : UInt32} (h : Waiting budget a test looks L) (hw : .read a w ∈ L) :
    test w = false := by
  obtain ⟨ws, ts, rfl, hmissed, -⟩ := h
  obtain ⟨i, hi, rfl⟩ := read_mem_failedLooks hw
  exact hmissed i hi

theorem Waiting.watches {looks : Nat} (h : Waiting budget a test looks L) : Watches a L := by
  obtain ⟨ws, ts, rfl, -⟩ := h
  exact watches_failedLooks

/-! ### In an environment -/

/-- A look at a register, as an access of the history. -/
def lookAt (a : Nat) (test : UInt32 → Bool) (past : History env) : Bool × History env :=
  (test (env.load past.events a), past.add [.read a (env.load past.events a)])

section Looking
variable {past : History env}

/-- The word that a look finds, if all looks before it fail. -/
def wordSeen (a : Nat) (test : UInt32 → Bool) (budget : PollBudget) (past : History env) (i : Nat) : UInt32 :=
  env.load (beforeLook (lookAt a test) budget past i).events a

theorem beforeLook_lookAt (i : Nat) : beforeLook (lookAt a test) budget past i =
    past.add (failedLooks budget a (wordSeen a test budget past) (shown (lookAt a test) budget past) i) := by
  induction i with
  | zero => exact past.add_nil.symm
  | succ i ih =>
    have hlook : (lookAt a test (beforeLook (lookAt a test) budget past i)).2 =
        (beforeLook (lookAt a test) budget past i).add [.read a (wordSeen a test budget past i)] := rfl
    have htick : (Machine.tick (lookAt a test (beforeLook (lookAt a test) budget past i)).2).2 =
        (lookAt a test (beforeLook (lookAt a test) budget past i)).2.add
          [.tick (shown (lookAt a test) budget past i)] := rfl
    rw [failedLooks_succ, ← History.add_add, ← ih, beforeLook]
    split
    · rw [htick, hlook, History.add_add]
      rfl
    · exact hlook

/-- What a wait looks at and reads is what the environment yields. -/
theorem allows_failedLooks (i : Nat) : env.Allows past.events
    (failedLooks budget a (wordSeen a test budget past) (shown (lookAt a test) budget past) i) := by
  induction i with
  | zero => trivial
  | succ i ih =>
    have hbefore : (beforeLook (lookAt a test) budget past i).events = _ :=
      congrArg History.events (beforeLook_lookAt i)
    rw [failedLooks_succ, Environment.allows_append]
    refine ⟨ih, ?_⟩
    rw [History.events_add] at hbefore
    rw [← hbefore]
    refine ⟨rfl, ?_⟩
    split
    · exact ⟨rfl, trivial⟩
    · trivial

theorem access_lookAt : (do return test (← read32 a) : Run (History env) Bool) = access (lookAt a test) := rfl

end Looking

/-- A wait ends as its budget has it, or goes on for all the rounds that there are. -/
theorem doesOr_wait (test : UInt32 → Bool) {F : List (Event κ) → Prop}
    {Φ : Except PollTimeout Unit → List (Event κ) → Prop}
    (h : ∀ o L, Waited budget a test L o → Φ o L) (hF : ∀ L, Waiting budget a test (env.patience + 1) L → F L) :
    DoesOr (E := env) F (pollUntil budget (do return test (← read32 a))) Φ := by
  intro past
  have hruns : WaitRuns (lookAt a test) budget past (env.patience + 1)
      (pollUntil budget (access (lookAt a test)) past) := pollUntil_runs
  rw [access_lookAt]
  generalize pollUntil budget (access (lookAt a test)) past = r at hruns ⊢
  cases hruns with
  | @ends o m hends =>
    have hends : WaitEnds budget (fun i => test (wordSeen a test budget past i)) (shown (lookAt a test) budget past)
      o m := hends
    have hlast : afterWait o (lookAt a test (beforeLook (lookAt a test) budget past m)).2 =
        (beforeLook (lookAt a test) budget past m).add [.read a (wordSeen a test budget past m)] := by
      cases o <;> rfl
    have hload : env.load (past.events ++ failedLooks budget a (wordSeen a test budget past)
        (shown (lookAt a test) budget past) m) a = wordSeen a test budget past m := by
      rw [wordSeen, beforeLook_lookAt, History.events_add]
    refine ⟨_, ?_, ?_, h _ _ (.intro hends)⟩
    · rw [hlast, beforeLook_lookAt, History.add_add]
    · exact Environment.allows_append.mpr ⟨allows_failedLooks m, hload.symm, trivial⟩
  | hangs hopen =>
    exact ⟨_, beforeLook_lookAt _, allows_failedLooks _, rfl, hF _ ⟨_, _, rfl, hopen.missed, hopen.short⟩⟩

/-! ### The last look decides -/

/-- The looks after the first one, and the readings of the clock after these. -/
theorem failedLooks_eq {n : Nat} : (failedLooks budget a ws ts (n + 1) : List (Event κ)) =
    .read a (ws 0) :: .tick (ts 0) :: (List.range n).flatMap fun i =>
      .read a (ws (i + 1)) :: if budget.readsClock (i + 1) then [.tick (ts (i + 1))] else [] := by
  have hclock : budget.readsClock 0 = true := by
    cases budget <;> rfl
  rw [failedLooks, List.range_succ_eq_map, List.flatMap_cons, List.flatMap_map, hclock]
  rfl

theorem le_countP_flatMap {p : Event κ → Bool} {f : Nat → List (Event κ)} (h : ∀ i, 0 < (f i).countP p) :
    ∀ n, n ≤ ((List.range n).flatMap f).countP p
  | 0 => Nat.zero_le _
  | n + 1 => by
    have hone := h n
    have hrest := le_countP_flatMap h n
    rw [List.range_succ, List.flatMap_append, List.flatMap_singleton, List.countP_append]
    omega

theorem Waiting.missed {n : Nat} (h : Waiting budget a test (n + 1) L) : Missed a test budget.limit? n L := by
  have hwatches := h.watches
  obtain ⟨ws, ts, rfl, hmissed, hshort⟩ := h
  rw [failedLooks_eq] at hwatches ⊢
  have hlater := (List.forall_mem_cons.mp (List.forall_mem_cons.mp hwatches).2).2
  refine ⟨_, _, _, rfl, hmissed 0 (Nat.succ_pos n), ⟨le_countP_flatMap (fun i => ?_) n, fun most hmost =>
    ⟨le_countP_flatMap (fun i => ?_) n, fun t ht => ?_⟩⟩, hlater⟩
  · exact List.countP_pos_iff.mpr ⟨_, List.mem_cons_self, rfl⟩
  · have hclock : budget.readsClock (i + 1) = true := by
      cases budget with
      | unbounded => cases hmost
      | within ns => rfl
    rw [hclock]
    exact List.countP_pos_iff.mpr ⟨_, List.mem_cons_of_mem _ List.mem_cons_self, rfl⟩
  · obtain ⟨i, hi, ht⟩ := List.mem_flatMap.mp ht
    have hi := List.mem_range.mp hi
    obtain rfl : t = ts (i + 1) := by
      rcases List.mem_cons.mp ht with hread | ht
      · cases hread
      · split at ht
        · exact Event.tick.inj (List.mem_singleton.mp ht)
        · cases ht
    refine UInt64.not_le.mp fun hle => hshort (i + 1) (Nat.succ_lt_succ hi) ?_
    exact (spentAt_iff (Nat.succ_pos i)).mpr ⟨most, hmost, hle⟩

namespace Run

theorem DoesOr.pollUntil {F : List (Event κ) → Prop} {Φ : Except PollTimeout Unit → List (Event κ) → Prop}
    (h : ∀ o L, Polled a test L o → Φ o L) (hF : ∀ L, Missed a test budget.limit? env.patience L → F L) :
    DoesOr (E := env) F (pollUntil budget (do return test (← read32 a))) Φ :=
  doesOr_wait test (fun o L hL => h o L hL.polled) fun L hL => hF L hL.missed

theorem Does.pollUntil {Φ : Except PollTimeout Unit → List (Event κ) → Prop} (h : ∀ o L, Polled a test L o → Φ o L) :
    Does (E := env) (pollUntil env.budget (do return test (← read32 a))) Φ :=
  DoesOr.pollUntil h fun _ hL => hL.endless

end Run
end PowerFirmware
