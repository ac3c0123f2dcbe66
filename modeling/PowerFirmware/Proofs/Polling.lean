import Mathlib.Order.Bounds.Basic
import Mathlib.Algebra.Order.Floor.Div
import Mathlib.GroupTheory.GroupAction.Ring
import PowerFirmware.Poll

/-! How long a wait goes on. Main statement: a wait makes exactly the looks and the readings of the clock
that its budget allows for, up to the first look that finds the condition or the first reading that finds
the budget used up, and one look more (`pollUntil_exact`).

What the looks find and the clock shows are two sequences, of which a wait sees the first parts. -/

namespace PowerFirmware
open Run

namespace PollBudget
variable {budget : PollBudget} {shows : Nat → UInt64} {k : Nat}

/-- Whether the clock is read after a look that failed. Without a limit it is read only once. -/
def readsClock : PollBudget → Nat → Bool
  | unbounded, i => i == 0
  | within _, _ => true

/-- The reading with this number finds the budget used up. A limit is no larger than the clock can show,
    and no time has passed for a clock that has gone back. -/
def SpentAt (budget : PollBudget) (shows : Nat → UInt64) (k : Nat) : Prop :=
  1 ≤ k ∧ ∃ ns, budget = within ns ∧ min ns (UInt64.size - 1) ≤ (shows k).toNat - (shows 0).toNat

theorem not_spentAt_unbounded : ¬unbounded.SpentAt shows k := by
  rintro ⟨-, ns, h, -⟩
  cases h

end PollBudget

theorem toNat_elapsed {start present : UInt64} : (elapsed start present).toNat = present.toNat - start.toNat := by
  unfold elapsed
  split
  · rename_i h
    exact UInt64.toNat_sub_of_le _ _ h
  · rename_i h
    have := UInt64.not_le.mp h
    rw [UInt64.lt_iff_toNat_lt] at this
    show 0 = _
    omega

/-- How a wait ends, and how many looks come before the last one. -/
inductive WaitEnds (budget : PollBudget) (finds : Nat → Bool) (shows : Nat → UInt64) :
    Except PollTimeout Unit → Nat → Prop
  | found {m : Nat} : finds m = true → (∀ i < m, finds i = false) → (∀ k, budget.SpentAt shows k → m ≤ k + 1) →
      WaitEnds budget finds shows (.ok ()) m
  | gaveUp {k : Nat} : budget.SpentAt shows k → (∀ i, budget.SpentAt shows i → k ≤ i) →
      (∀ i ≤ k + 1, finds i = false) → WaitEnds budget finds shows (.error ⟨elapsed (shows 0) (shows k)⟩) (k + 1)

namespace WaitEnds
variable {budget : PollBudget} {finds finds' : Nat → Bool} {shows shows' : Nat → UInt64} {m m' : Nat}
variable {o o' : Except PollTimeout Unit}

/-- There is only one way to end. -/
theorem unique (h : WaitEnds budget finds shows o m) (h' : WaitEnds budget finds shows o' m') : o = o' ∧ m = m' := by
  cases h with
  | found hfound hbefore hspent =>
    cases h' with
    | found hfound' hbefore' _ =>
      refine ⟨rfl, Nat.le_antisymm (Nat.not_lt.mp fun hlt => ?_) (Nat.not_lt.mp fun hlt => ?_)⟩
      · rw [hbefore _ hlt] at hfound'
        cases hfound'
      · rw [hbefore' _ hlt] at hfound
        cases hfound
    | gaveUp hspent' _ hmissed =>
      rw [hmissed m (hspent _ hspent')] at hfound
      cases hfound
  | gaveUp hspent hfirst hmissed =>
    cases h' with
    | found hfound' _ hspent' =>
      rw [hmissed _ (hspent' _ hspent)] at hfound'
      cases hfound'
    | gaveUp hspent' hfirst' _ =>
      obtain rfl := Nat.le_antisymm (hfirst _ hspent') (hfirst' _ hspent)
      exact ⟨rfl, rfl⟩

/-- What the clock shows does not matter where it is not read. -/
theorem congr (h : WaitEnds budget finds shows o m) (hfinds : ∀ i, finds' i = finds i)
    (hshows : ∀ ns, budget = .within ns → ∀ i, shows' i = shows i) : WaitEnds budget finds' shows' o m := by
  obtain rfl : finds' = finds := funext hfinds
  cases budget with
  | unbounded =>
    cases h with
    | found hfound hbefore _ => exact .found hfound hbefore fun _ hk => absurd hk PollBudget.not_spentAt_unbounded
    | gaveUp hspent _ _ => exact absurd hspent PollBudget.not_spentAt_unbounded
  | within ns =>
    obtain rfl : shows' = shows := funext (hshows ns rfl)
    exact h

end WaitEnds

/-! ### One round -/

section Rounds
variable {σ : Type} [Machine σ] {done : Run σ Bool} {start present most : UInt64} {limit : Option UInt64} {n : Nat}
variable {s t u v : σ}

theorem pollRounds_found (h : done s = (.ok true, t)) : pollRounds limit start done (n + 1) s = (.ok (.ok ()), t) :=
  bind_of_ok h

theorem pollRounds_unlimited (h : done s = (.ok false, t)) :
    pollRounds none start done (n + 1) s = pollRounds none start done n t :=
  bind_of_ok h

/-- What follows the reading of the clock in a round. -/
theorem pollRounds_read (h : done s = (.ok false, t)) (hread : now t = (.ok present, u)) :
    pollRounds (some most) start done (n + 1) s =
      (if most ≤ elapsed start present then do
        if ← done then return .ok ()
        log .trace s!"poll gave up after {elapsed start present} ns"
        return .error ⟨elapsed start present⟩
      else pollRounds (some most) start done n) u :=
  (bind_of_ok h).trans (bind_of_ok hread)

/-- A wait that has given up says so. -/
def afterWait : Except PollTimeout Unit → σ → σ
  | .ok _, t => t
  | .error e, t => Machine.note .trace s!"poll gave up after {e.waited} ns" t

theorem pollRounds_short (h : done s = (.ok false, t)) (hread : now t = (.ok present, u))
    (hshort : ¬most ≤ elapsed start present) :
    pollRounds (some most) start done (n + 1) s = pollRounds (some most) start done n u := by
  rw [pollRounds_read h hread, if_neg hshort]

/-- Once the budget is used up, one look more decides. -/
theorem pollRounds_spent {b : Bool} {o : Except PollTimeout Unit} (h : done s = (.ok false, t))
    (hread : now t = (.ok present, u)) (hspent : most ≤ elapsed start present) (hlast : done u = (.ok b, v))
    (ho : o = if b then .ok () else .error ⟨elapsed start present⟩) :
    pollRounds (some most) start done (n + 1) s = (.ok o, afterWait o v) := by
  rw [pollRounds_read h hread, if_pos hspent, bind_of_ok hlast, ho]
  cases b <;> rfl

end Rounds

/-! ### The course of a wait -/

section Course
variable {σ : Type} [Machine σ] {look : σ → Bool × σ} {budget : PollBudget} {s : σ}

/-- The state before a look, if all looks before it fail. -/
def beforeLook (look : σ → Bool × σ) (budget : PollBudget) (s : σ) : Nat → σ
  | 0 => s
  | i + 1 =>
    let t := (look (beforeLook look budget s i)).2
    if budget.readsClock i then (Machine.tick t).2 else t

/-- What a look finds, if all looks before it fail. -/
def found (look : σ → Bool × σ) (budget : PollBudget) (s : σ) (i : Nat) : Bool :=
  (look (beforeLook look budget s i)).1

/-- What the clock shows after a look, if it fails like all looks before it. -/
def shown (look : σ → Bool × σ) (budget : PollBudget) (s : σ) (i : Nat) : UInt64 :=
  (Machine.tick (look (beforeLook look budget s i)).2).1

theorem spentAt_iff {shows : Nat → UInt64} {k : Nat} (hk : 1 ≤ k) : budget.SpentAt shows k ↔
    ∃ most, budget.limit? = some most ∧ most ≤ elapsed (shows 0) (shows k) := by
  cases budget with
  | unbounded => exact ⟨fun h => absurd h PollBudget.not_spentAt_unbounded, fun ⟨_, h, _⟩ => by cases h⟩
  | within ns =>
    have hfits : min ns (UInt64.size - 1) < UInt64.size := Nat.lt_of_le_of_lt (Nat.min_le_right _ _) (by decide)
    have hmost : UInt64.ofNat (min ns (UInt64.size - 1)) ≤ elapsed (shows 0) (shows k) ↔
        min ns (UInt64.size - 1) ≤ (shows k).toNat - (shows 0).toNat := by
      rw [UInt64.le_iff_toNat_le, UInt64.toNat_ofNat_of_lt' hfits, toNat_elapsed]
    constructor
    · rintro ⟨-, ns', heq, hns⟩
      cases heq
      exact ⟨_, rfl, hmost.mpr hns⟩
    · rintro ⟨_, heq, hle⟩
      cases heq
      exact ⟨hk, ns, rfl, hmost.mp hle⟩

/-- No look before the one with this number has found anything, and no reading the budget used up. -/
structure Open (look : σ → Bool × σ) (budget : PollBudget) (s : σ) (j : Nat) : Prop where
  missed : ∀ i < j, found look budget s i = false
  short : ∀ k < j, ¬budget.SpentAt (shown look budget s) k

theorem Open.succ {j : Nat} (h : Open look budget s j) (hmissed : found look budget s j = false)
    (hshort : ¬budget.SpentAt (shown look budget s) j) : Open look budget s (j + 1) where
  missed i hi := (Nat.lt_succ_iff_lt_or_eq.mp hi).elim (h.missed i) fun heq => heq ▸ hmissed
  short k hk := (Nat.lt_succ_iff_lt_or_eq.mp hk).elim (h.short k) fun heq => heq ▸ hshort

/-- What a wait comes to that goes on for some rounds at most: it ends, or it is still open. -/
inductive WaitRuns (look : σ → Bool × σ) (budget : PollBudget) (s : σ) (rounds : Nat) :
    Except Fault (Except PollTimeout Unit) × σ → Prop
  | ends {o : Except PollTimeout Unit} {m : Nat} : WaitEnds budget (found look budget s) (shown look budget s) o m →
      WaitRuns look budget s rounds (.ok o, afterWait o (look (beforeLook look budget s m)).2)
  | hangs : Open look budget s rounds → WaitRuns look budget s rounds (.error .hung, beforeLook look budget s rounds)

theorem Open.le_of_spent {j k : Nat} (h : Open look budget s j) (hk : budget.SpentAt (shown look budget s) k) : j ≤ k :=
  Nat.not_lt.mp fun hlt => h.short k hlt hk

/-- The round in which the budget is found used up is the last one. -/
theorem pollRounds_runs_spent {ns n j : Nat} (h : Open look (.within ns) s j)
    (hmissed : found look (.within ns) s j = false)
    (hs : (PollBudget.within ns).SpentAt (shown look (.within ns) s) j) : WaitRuns look (.within ns) s (j + (n + 1))
      (pollRounds (PollBudget.within ns).limit? (shown look (.within ns) s 0) (access look) (n + 1)
        (beforeLook look (.within ns) s j)) := by
  obtain ⟨most, hlimit, hmost⟩ := (spentAt_iff hs.1).mp hs
  have hlook : access look (beforeLook look (.within ns) s j) =
      (.ok false, (look (beforeLook look (.within ns) s j)).2) := by
    rw [← hmissed]
    rfl
  have hread : now (look (beforeLook look (.within ns) s j)).2 =
      (.ok (shown look (.within ns) s j), beforeLook look (.within ns) s (j + 1)) := rfl
  have hlast : access look (beforeLook look (.within ns) s (j + 1)) =
      (.ok (found look (.within ns) s (j + 1)), (look (beforeLook look (.within ns) s (j + 1))).2) := rfl
  have missed : ∀ i < j + 1, found look (.within ns) s i = false := fun i hi =>
    (Nat.lt_succ_iff_lt_or_eq.mp hi).elim (h.missed i) fun heq => heq ▸ hmissed
  rw [hlimit, pollRounds_spent hlook hread hmost hlast rfl]
  rcases hfinal : found look (.within ns) s (j + 1) with _ | _
  · refine .ends (.gaveUp hs (fun k hk => h.le_of_spent hk) fun i hi => ?_)
    exact (Nat.le_iff_lt_or_eq.mp hi).elim (missed i) fun heq => heq ▸ hfinal
  · exact .ends (.found hfinal missed fun k hk => Nat.succ_le_succ (h.le_of_spent hk))

theorem pollRounds_runs (n : Nat) {j : Nat} (hj : 1 ≤ j) (h : Open look budget s j) : WaitRuns look budget s (j + n)
    (pollRounds budget.limit? (shown look budget s 0) (access look) n (beforeLook look budget s j)) := by
  induction n generalizing j with
  | zero => exact .hangs h
  | succ n ih =>
    have hlook : access look (beforeLook look budget s j) =
        (.ok (found look budget s j), (look (beforeLook look budget s j)).2) := rfl
    rcases hfound : found look budget s j with _ | _
    · rw [hfound] at hlook
      have next := fun hshort => ih (by omega) (h.succ hfound hshort)
      rw [Nat.add_right_comm j 1 n] at next
      cases budget with
      | unbounded =>
        have hclock : PollBudget.unbounded.readsClock j = false := beq_eq_false_iff_ne.mpr (by omega)
        have hnext : beforeLook look .unbounded s (j + 1) = (look (beforeLook look .unbounded s j)).2 := by
          rw [beforeLook, hclock]
          rfl
        rw [← hnext] at hlook
        exact (pollRounds_unlimited hlook) ▸ next PollBudget.not_spentAt_unbounded
      | within ns =>
        by_cases hs : (PollBudget.within ns).SpentAt (shown look (.within ns) s) j
        · exact pollRounds_runs_spent h hfound hs
        · have hread : now (look (beforeLook look (.within ns) s j)).2 =
              (.ok (shown look (.within ns) s j), beforeLook look (.within ns) s (j + 1)) := rfl
          obtain ⟨most, hlimit⟩ : ∃ most, (PollBudget.within ns).limit? = some most := ⟨_, rfl⟩
          have hshort : ¬most ≤ elapsed (shown look (.within ns) s 0) (shown look (.within ns) s j) := fun hmost =>
            hs ((spentAt_iff hj).mpr ⟨most, hlimit, hmost⟩)
          rw [hlimit, pollRounds_short hlook hread hshort, ← hlimit]
          exact next hs
    · rw [hfound] at hlook
      rw [pollRounds_found hlook]
      exact .ends (.found hfound h.missed fun k hk => Nat.le_succ_of_le (h.le_of_spent hk))

theorem pollUntil_runs : WaitRuns look budget s (Machine.patience (beforeLook look budget s 1) + 1)
    (pollUntil budget (access look) s) := by
  have hlook : access look s = (.ok (found look budget s 0), (look s).2) := rfl
  rcases hfound : found look budget s 0 with _ | _
  · have hopen : Open look budget s 1 := Open.succ ⟨nofun, nofun⟩ hfound fun hs => absurd hs.1 (by decide)
    have hnext : beforeLook look budget s 1 = (Machine.tick (look s).2).2 := by
      cases budget <;> rfl
    have hread : now (look s).2 = (.ok (shown look budget s 0), beforeLook look budget s 1) := by
      rw [hnext]
      rfl
    have hpatience : patience (beforeLook look budget s 1) =
        (.ok (Machine.patience (beforeLook look budget s 1)), beforeLook look budget s 1) := rfl
    rw [hfound] at hlook
    have hrounds : pollUntil budget (access look) s = pollRounds budget.limit? (shown look budget s 0) (access look)
        (Machine.patience (beforeLook look budget s 1)) (beforeLook look budget s 1) := by
      rw [pollUntil, bind_of_ok hlook]
      refine (bind_of_ok hread).trans ?_
      exact bind_of_ok hpatience
    rw [hrounds, Nat.add_comm]
    exact pollRounds_runs _ (Nat.le_refl 1) hopen
  · rw [hfound] at hlook
    rw [pollUntil, bind_of_ok hlook]
    exact .ends (.found hfound (fun i hi => absurd hi (Nat.not_lt_zero i)) fun k _ => Nat.zero_le _)

end Course

/-! ### Waits on trial -/

/-- What a wait asks for. -/
inductive Query
  | look
  | reading
  deriving DecidableEq, Repr

namespace PollBudget

/-- A look that fails, and the reading of the clock after it if there is one. -/
def round (budget : PollBudget) (i : Nat) : List Query := .look :: if budget.readsClock i then [.reading] else []

/-- All that is asked for by a wait with so many looks before the last one. -/
def course (budget : PollBudget) (m : Nat) : List Query := (List.range m).flatMap budget.round ++ [.look]

variable {budget : PollBudget} {m : Nat}

theorem count_look_rounds : ((List.range m).flatMap budget.round).count .look = m := by
  induction m with
  | zero => rfl
  | succ m ih =>
    have hround : (budget.round m).count .look = 1 := by
      rw [round]
      split <;> rfl
    rw [List.range_succ, List.flatMap_append, List.count_append, ih, List.flatMap_singleton, hround]

theorem count_reading_rounds {ns : Nat} : ((List.range m).flatMap (within ns).round).count .reading = m := by
  induction m with
  | zero => rfl
  | succ m ih => rw [List.range_succ, List.flatMap_append, List.count_append, ih, List.flatMap_singleton]; rfl

theorem count_look_course : (budget.course m).count .look = m + 1 := by
  rw [course, List.count_append, count_look_rounds]
  rfl

theorem count_reading_course {ns : Nat} : ((within ns).course m).count .reading = m := by
  rw [course, List.count_append, count_reading_rounds]
  rfl

end PollBudget

/-- A machine to try a wait on: what its looks find and its clock shows, one after the other, for how many
    rounds it goes on, and what has been asked for so far. -/
structure Trial where
  finds : Nat → Bool
  shows : Nat → UInt64
  patience : Nat
  asked : List Query := []

namespace Trial

def ask (t : Trial) (q : Query) : Trial := { t with asked := t.asked ++ [q] }

/-- A trial has a clock and no registers. -/
instance : Machine Trial where
  load _ t := (0, t)
  store _ _ t := t
  loadByte _ t := (0, t)
  storeByte _ _ t := t
  tick t := (t.shows (t.asked.count .reading), t.ask .reading)
  note _ _ t := t
  patience t := t.patience

/-- The condition that is waited for. -/
def look (t : Trial) : Bool × Trial := (t.finds (t.asked.count .look), t.ask .look)

variable {budget : PollBudget} {finds : Nat → Bool} {shows : Nat → UInt64} {patience m : Nat}
variable {o : Except PollTimeout Unit} {asked : List Query}

theorem beforeLook_eq (i : Nat) : beforeLook look budget ⟨finds, shows, patience, []⟩ i =
    ⟨finds, shows, patience, (List.range i).flatMap budget.round⟩ := by
  induction i with
  | zero => rfl
  | succ i ih =>
    rw [beforeLook, ih, List.range_succ, List.flatMap_append, List.flatMap_singleton, PollBudget.round]
    split
    · simp only [look, ask, Machine.tick, List.append_assoc, List.singleton_append]
    · rfl

theorem found_eq : found look budget ⟨finds, shows, patience, []⟩ = finds := by
  funext i
  rw [found, beforeLook_eq, look, PollBudget.count_look_rounds]

theorem shown_eq {ns : Nat} : shown look (.within ns) ⟨finds, shows, patience, []⟩ = shows := by
  funext i
  have hcount : (((List.range i).flatMap (PollBudget.within ns).round) ++ [Query.look]).count .reading = i := by
    rw [List.count_append, PollBudget.count_reading_rounds]
    rfl
  rw [shown, beforeLook_eq]
  exact congrArg shows hcount

/-- The wait ends so, having asked for this, if only the machine goes on for long enough. -/
def Returns (budget : PollBudget) (finds : Nat → Bool) (shows : Nat → UInt64) (o : Except PollTimeout Unit)
    (asked : List Query) : Prop :=
  ∃ patience, pollUntil budget (access look) ⟨finds, shows, patience, []⟩ = (.ok o, ⟨finds, shows, patience, asked⟩)

theorem waitEnds_iff : WaitEnds budget (found look budget ⟨finds, shows, patience, []⟩)
    (shown look budget ⟨finds, shows, patience, []⟩) o m ↔ WaitEnds budget finds shows o m := by
  rw [found_eq]
  constructor
  all_goals
    refine fun h => h.congr (fun _ => rfl) ?_
    rintro ns rfl i
    rw [shown_eq]

theorem afterWait_eq {t : Trial} : afterWait o t = t := by
  cases o <;> rfl

theorem look_beforeLook : (look (beforeLook look budget ⟨finds, shows, patience, []⟩ m)).2 =
    ⟨finds, shows, patience, budget.course m⟩ := by
  rw [beforeLook_eq]
  rfl

theorem runs (finds : Nat → Bool) (shows : Nat → UInt64) (patience : Nat) (budget : PollBudget) :
    WaitRuns look budget ⟨finds, shows, patience, []⟩ (patience + 1)
      (pollUntil budget (access look) ⟨finds, shows, patience, []⟩) := by
  have hruns : WaitRuns look budget ⟨finds, shows, patience, []⟩
      (Machine.patience (beforeLook look budget ⟨finds, shows, patience, []⟩ 1) + 1)
      (pollUntil budget (access look) ⟨finds, shows, patience, []⟩) := pollUntil_runs
  rwa [beforeLook_eq] at hruns

/-- A wait ends as it has to if the machine goes on for as many rounds as that takes. -/
theorem pollUntil_of_ends (h : WaitEnds budget finds shows o m) (hm : m ≤ patience) :
    pollUntil budget (access look) ⟨finds, shows, patience, []⟩ =
      (.ok o, ⟨finds, shows, patience, budget.course m⟩) := by
  have hruns := runs finds shows patience budget
  generalize pollUntil budget (access look) _ = r at hruns
  cases hruns with
  | ends h' =>
    obtain ⟨rfl, rfl⟩ := (waitEnds_iff.mp h').unique h
    rw [afterWait_eq, look_beforeLook]
  | hangs hopen =>
    have hlt : m < patience + 1 := Nat.lt_succ_of_le hm
    have hends : WaitEnds budget (found look budget ⟨finds, shows, patience, []⟩)
        (shown look budget ⟨finds, shows, patience, []⟩) o m := waitEnds_iff.mpr h
    cases hends with
    | found hfound =>
      rw [hopen.missed _ hlt] at hfound
      cases hfound
    | gaveUp hspent => exact absurd hspent (hopen.short _ (Nat.lt_of_succ_lt hlt))

theorem returns_iff : Returns budget finds shows o asked ↔
    ∃ m, WaitEnds budget finds shows o m ∧ asked = budget.course m := by
  constructor
  · rintro ⟨patience, heq⟩
    have hruns := runs finds shows patience budget
    rw [heq] at hruns
    generalize hr : (Except.ok o, Trial.mk finds shows patience asked) = r at hruns
    cases hruns with
    | ends h =>
      rw [afterWait_eq, look_beforeLook] at hr
      cases hr
      exact ⟨_, waitEnds_iff.mp h, rfl⟩
    | hangs => cases hr
  · rintro ⟨m, h, rfl⟩
    exact ⟨m, pollUntil_of_ends h (Nat.le_refl m)⟩

/-- A wait has an end as soon as its budget is used up. -/
theorem exists_ends {k : Nat} (h : budget.SpentAt shows k) : ∃ o m, WaitEnds budget finds shows o m ∧ m ≤ k + 1 := by
  classical
  have hspent : ∃ k, budget.SpentAt shows k := ⟨k, h⟩
  have hfirst : ∀ i, budget.SpentAt shows i → Nat.find hspent ≤ i := fun i hi => Nat.find_min' hspent hi
  by_cases hfound : ∃ m ≤ Nat.find hspent + 1, finds m = true
  · have hsome : ∃ m, finds m = true := hfound.imp fun _ hm => hm.2
    obtain ⟨m, hm, hfinds⟩ := hfound
    have hle : Nat.find hsome ≤ Nat.find hspent + 1 := Nat.le_trans (Nat.find_min' hsome hfinds) hm
    refine ⟨.ok (), _, .found (Nat.find_spec hsome) (fun i hi => ?_) fun i hi => ?_, ?_⟩
    · exact Bool.eq_false_iff.mpr (Nat.find_min hsome hi)
    · exact Nat.le_trans hle (Nat.succ_le_succ (hfirst i hi))
    · exact Nat.le_trans hle (Nat.succ_le_succ (hfirst k h))
  · refine ⟨_, _, .gaveUp (Nat.find_spec hspent) hfirst fun i hi => ?_, Nat.succ_le_succ (hfirst k h)⟩
    exact Bool.eq_false_iff.mpr fun hfinds => hfound ⟨i, hi, hfinds⟩

/-- A clock that goes on by so much at every reading has used up any budget in time. -/
theorem spentAt_of_step {ns step : Nat} (hstep : 0 < step)
    (hclock : ∀ i < max 1 (min ns (UInt64.size - 1) ⌈/⌉ step), (shows i).toNat + step ≤ (shows (i + 1)).toNat) :
    (PollBudget.within ns).SpentAt shows (max 1 (min ns (UInt64.size - 1) ⌈/⌉ step)) := by
  have hsteps : ∀ i ≤ max 1 (min ns (UInt64.size - 1) ⌈/⌉ step), (shows 0).toNat + i * step ≤ (shows i).toNat := by
    intro i
    induction i with
    | zero => simp
    | succ i ih =>
      intro hi
      have := ih (Nat.le_of_succ_le hi)
      have := hclock i hi
      rw [Nat.succ_mul]
      omega
  have hlimit : min ns (UInt64.size - 1) ≤ max 1 (min ns (UInt64.size - 1) ⌈/⌉ step) * step :=
    Nat.le_trans (by rw [Nat.mul_comm]; exact (ceilDiv_le_iff_le_mul hstep).mp (Nat.le_refl _))
      (Nat.mul_le_mul_right step (Nat.le_max_right _ _))
  refine ⟨Nat.le_max_left _ _, ns, rfl, ?_⟩
  have := hsteps _ (Nat.le_refl _)
  omega

theorem returns_ok_iff : Returns budget finds shows (.ok ()) asked ↔
    ∃ m, IsLeast {m | finds m = true} m ∧ (∀ k, IsLeast {k | budget.SpentAt shows k} k → m ≤ k + 1) ∧
      asked = budget.course m := by
  classical
  rw [returns_iff]
  constructor
  · rintro ⟨m, h, rfl⟩
    cases h with
    | found hfound hbefore hspent =>
      refine ⟨m, ⟨hfound, fun i hi => Nat.not_lt.mp fun hlt => ?_⟩, fun k hk => hspent k hk.1, rfl⟩
      rw [Set.mem_ofPred_eq, hbefore i hlt] at hi
      cases hi
  · rintro ⟨m, ⟨hfound, hfirst⟩, hspent, rfl⟩
    refine ⟨m, .found hfound (fun i hi => ?_) fun k hk => ?_, rfl⟩
    · exact Bool.eq_false_iff.mpr fun hfinds => absurd hi (Nat.not_lt.mpr (hfirst hfinds))
    · have hex : ∃ k, budget.SpentAt shows k := ⟨k, hk⟩
      have hleast : IsLeast {k | budget.SpentAt shows k} (Nat.find hex) :=
        ⟨Nat.find_spec hex, fun i hi => Nat.find_min' hex hi⟩
      exact Nat.le_trans (hspent _ hleast) (Nat.succ_le_succ (Nat.find_min' hex hk))

theorem returns_error_iff {t : PollTimeout} : Returns budget finds shows (.error t) asked ↔
    ∃ k, IsLeast {k | budget.SpentAt shows k} k ∧ (∀ m ≤ k + 1, finds m = false) ∧
      t.waited.toNat = (shows k).toNat - (shows 0).toNat ∧ asked = budget.course (k + 1) := by
  rw [returns_iff]
  constructor
  · rintro ⟨m, h, rfl⟩
    cases h with
    | gaveUp hspent hfirst hmissed => exact ⟨_, ⟨hspent, fun i hi => hfirst i hi⟩, hmissed, toNat_elapsed, rfl⟩
  · rintro ⟨k, ⟨hspent, hfirst⟩, hmissed, hwaited, rfl⟩
    obtain ⟨waited⟩ := t
    obtain rfl : waited = elapsed (shows 0) (shows k) := UInt64.toNat_inj.mp (hwaited.trans toNat_elapsed.symm)
    exact ⟨k + 1, .gaveUp hspent (fun i hi => hfirst hi) hmissed, rfl⟩

/-- A wait that ends at all ends so however long the machine goes on, as long as that is enough. -/
theorem Returns.answers (h : Returns budget finds shows o asked) (hpatience : asked.count .look ≤ patience) :
    pollUntil budget (access look) ⟨finds, shows, patience, []⟩ = (.ok o, ⟨finds, shows, patience, asked⟩) := by
  obtain ⟨m, hends, rfl⟩ := returns_iff.mp h
  rw [PollBudget.count_look_course] at hpatience
  exact pollUntil_of_ends hends (Nat.le_of_succ_le hpatience)

end Trial

open Trial

/-- A wait succeeds with the first look that finds the condition, if the first reading that finds the budget
    used up does not come more than one look before it, and otherwise gives up at that reading. By then it
    has made as many looks and readings of the clock as this takes and no others, the last of them a look.

    A condition that holds at once reads no clock, and without a limit nothing times out. Under a limit, a
    clock that goes on by `step` at every reading is read once more than the limit has room for steps. -/
theorem pollUntil_exact (budget : PollBudget) (finds : Nat → Bool) (shows : Nat → UInt64) :
    (∀ asked, Returns budget finds shows (.ok ()) asked ↔
      ∃ m, IsLeast {m | finds m = true} m ∧ (∀ k, IsLeast {k | budget.SpentAt shows k} k → m ≤ k + 1) ∧
        asked = budget.course m) ∧
    (∀ t asked, Returns budget finds shows (.error t) asked ↔
      ∃ k, IsLeast {k | budget.SpentAt shows k} k ∧ (∀ m ≤ k + 1, finds m = false) ∧
        t.waited.toNat = (shows k).toNat - (shows 0).toNat ∧ asked = budget.course (k + 1)) ∧
    (∀ o asked, Returns budget finds shows o asked → ∀ patience ≥ asked.count .look,
      pollUntil budget (access look) ⟨finds, shows, patience, []⟩ = (.ok o, ⟨finds, shows, patience, asked⟩)) ∧
    (∀ m, (budget.course m).count .look = m + 1 ∧ (budget.course m).getLast? = some .look ∧
      (budget ≠ .unbounded → (budget.course m).count .reading = m)) ∧
    (finds 0 = true → Returns budget finds shows (.ok ()) [.look]) ∧
    (budget = .unbounded → ∀ t asked, ¬Returns budget finds shows (.error t) asked) ∧
    ∀ ns step, budget = .within ns → 0 < step →
      (∀ i < max 1 (min ns (UInt64.size - 1) ⌈/⌉ step), (shows i).toNat + step ≤ (shows (i + 1)).toNat) →
      ∃ o asked, Returns budget finds shows o asked ∧
        asked.count .reading ≤ max 1 (min ns (UInt64.size - 1) ⌈/⌉ step) + 1 := by
  refine ⟨fun _ => returns_ok_iff, fun _ _ => returns_error_iff, fun _ _ h _ hpatience => h.answers hpatience,
    fun m => ⟨PollBudget.count_look_course, List.getLast?_concat, fun hlimit => ?_⟩, fun hfinds => ?_, ?_, ?_⟩
  · cases budget with
    | unbounded => exact absurd rfl hlimit
    | within ns => exact PollBudget.count_reading_course
  · exact returns_iff.mpr ⟨0, .found hfinds (fun i hi => absurd hi (Nat.not_lt_zero i)) fun k _ => Nat.zero_le _, rfl⟩
  · rintro rfl t asked h
    obtain ⟨k, hk, -⟩ := returns_error_iff.mp h
    exact PollBudget.not_spentAt_unbounded hk.1
  · rintro ns step rfl hstep hclock
    obtain ⟨o, m, hends, hm⟩ : ∃ o m, WaitEnds (.within ns) finds shows o m ∧ _ :=
      exists_ends (spentAt_of_step hstep hclock)
    exact ⟨o, _, returns_iff.mpr ⟨m, hends, rfl⟩, PollBudget.count_reading_course.trans_le hm⟩

/-- A clock that goes on by a microsecond at every reading. -/
def steadyClock (i : Nat) : UInt64 := UInt64.ofNat (1000 * (i + 1))

/-- Two microseconds are used up at the second reading after the first, and the look after it is the last. -/
theorem pollUntil_exact_steady :
    (∀ i < max 1 (min 2000 (UInt64.size - 1) ⌈/⌉ 1000), (steadyClock i).toNat + 1000 ≤ (steadyClock (i + 1)).toNat) ∧
    (∃ o asked, Returns (.within 2000) (· == 3) steadyClock o asked ∧ asked.count .reading ≤ 3) ∧
    Returns (.within 2000) (· == 3) steadyClock (.ok ()) ((PollBudget.within 2000).course 3) := by
  obtain ⟨-, -, -, -, -, -, hends⟩ := pollUntil_exact (.within 2000) (· == 3) steadyClock
  have hclock : ∀ i < max 1 (min 2000 (UInt64.size - 1) ⌈/⌉ 1000),
      (steadyClock i).toNat + 1000 ≤ (steadyClock (i + 1)).toNat := by decide
  exact ⟨hclock, hends 2000 1000 rfl (by decide) hclock, 3, rfl⟩

end PowerFirmware
