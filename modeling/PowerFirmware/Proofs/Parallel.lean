import PowerFirmware.Proofs.Answers
import PowerFirmware.Proofs.Records

/-! The same run in two environments, of which the second has a System Manager that accepts everything.
Main statement: where the first goes on as the second does until a request is refused, so does a run that is
put together of such runs (`Follows.bind`). -/

namespace PowerFirmware
open Run WakeupPolicy

variable {κ α β ι : Type} {env env' : Environment κ} {L L' M M' : List (Event κ)} {x y : Exchange}
variable {cmd : Scmi.Command} {e : Scmi.Error}

/-! ### Histories alike -/

/-- The same event, or the same request accepted both times. -/
inductive Event.Alike : Event κ → Event κ → Prop
  | same {e : Event κ} : Alike e e
  | accepted {x y : Exchange} : x.request = y.request → x.IsAccepted → y.IsAccepted → Alike (.manager x) (.manager y)

def Alike (L L' : List (Event κ)) : Prop := List.Forall₂ Event.Alike L L'

theorem Alike.refl (L : List (Event κ)) : Alike L L := List.forall₂_same.mpr fun _ _ => .same

theorem Alike.append (h : Alike L L') (h' : Alike M M') : Alike (L ++ M) (L' ++ M') := List.rel_append h h'

/-- What was put to the System Manager, as it travelled. -/
def requests (L : List (Event κ)) : List Request := (exchanges L).map (·.request)

@[simp] theorem requests_append : requests (L ++ M) = requests L ++ requests M := by
  rw [requests, exchanges_append, List.map_append]
  rfl

theorem requests_one (h : x.request = y.request) :
    requests [(.manager x : Event κ)] = requests [(.manager y : Event κ)] :=
  congrArg (fun q => [q]) h

theorem Alike.requests (h : Alike L L') : requests L = requests L' := by
  induction h with
  | nil => rfl
  | @cons e e' L L' he _ ih =>
    have hfirst : PowerFirmware.requests [e] = PowerFirmware.requests [e'] := by
      cases he with
      | same => rfl
      | accepted hrequest => exact requests_one hrequest
    rw [← List.singleton_append, requests_append, hfirst, ih, ← requests_append]
    rfl

/-- The second environment yields what the first does after histories that are alike. -/
structure Environment.Beside (env env' : Environment κ) : Prop where
  core : env'.core = env.core
  load : ∀ {L L' : List (Event κ)}, Alike L L' → ∀ a, env'.load L' a = env.load L a
  saveGic : ∀ {L L' : List (Event κ)}, Alike L L' → ∀ k, env'.saveGic L' k = env.saveGic L k
  enableMask : ∀ {L L' : List (Event κ)}, Alike L L' → ∀ bank, env'.enableMask L' bank = env.enableMask L bank

/-! ### Runs that do not ask the System Manager -/

namespace Run

/-- After histories that are alike both runs give one answer, which is as `P` says, and add the same events,
    none of them an exchange. -/
def Agree {E F : Environment κ} (P : α → Prop) (x : Run (History E) α) (x' : Run (History F) α) : Prop :=
  ∀ h h', Alike h.events h'.events → ∃ a L, x h = (.ok a, h.add L) ∧ x' h' = (.ok a, h'.add L) ∧ P a ∧
    ∀ e ∈ L, e.exchange? = none

namespace Agree
variable {P : α → Prop} {Q : β → Prop} {a : Nat} {w : UInt32}

theorem pure {a : α} (h : P a) : Agree (E := env) (F := env') P (Pure.pure a) (Pure.pure a) := fun t t' _ =>
  ⟨a, [], by rw [t.add_nil]; rfl, by rw [t'.add_nil]; rfl, h, fun _ he => absurd he List.not_mem_nil⟩

theorem bind {x : Run (History env) α} {x' : Run (History env') α} {f : α → Run (History env) β}
    {f' : α → Run (History env') β} (hx : Agree P x x') (hf : ∀ a, P a → Agree Q (f a) (f' a)) :
    Agree Q (x >>= f) (x' >>= f') := by
  intro h h' halike
  obtain ⟨a, L, hxh, hxh', ha, hL⟩ := hx h h' halike
  obtain ⟨b, M, hfh, hfh', hb, hM⟩ := hf a ha (h.add L) (h'.add L) (halike.append (.refl L))
  refine ⟨b, L ++ M, ?_, ?_, hb, fun e he => ?_⟩
  · rw [← History.add_add, ← hfh]
    exact bind_of_ok hxh
  · rw [← History.add_add, ← hfh']
    exact bind_of_ok hxh'
  · exact (List.mem_append.mp he).elim (hL e) (hM e)

theorem did {d : Event κ} (h : d.exchange? = none) :
    Agree (E := env) (F := env') (fun _ => True) (update (·.add [d])) (update (·.add [d])) := fun _ _ _ =>
  ⟨(), [d], rfl, rfl, trivial, fun _ he => by rw [List.mem_singleton.mp he, h]⟩

theorem log {level : Level} {message : String} :
    Agree (E := env) (F := env') (fun _ => True) (log level message) (log level message) := fun t t' _ =>
  ⟨(), [], by rw [t.add_nil]; rfl, by rw [t'.add_nil]; rfl, trivial, fun _ he => absurd he List.not_mem_nil⟩

theorem mapM {f : ι → Run (History env) α} {f' : ι → Run (History env') α} :
    ∀ {is : List ι}, (∀ i ∈ is, Agree (fun _ => True) (f i) (f' i)) →
      Agree (fun as => as.length = is.length) (is.mapM f) (is.mapM f')
  | [], _ => by
    rw [List.mapM_nil, List.mapM_nil]
    exact .pure rfl
  | i :: is, h => by
    rw [List.mapM_cons, List.mapM_cons]
    refine .bind (h i List.mem_cons_self) fun _ _ => .bind (mapM fun j hj => h j (List.mem_cons_of_mem i hj)) ?_
    exact fun _ hlength => .pure (congrArg Nat.succ hlength)

theorem forM {f : ι → Run (History env) PUnit} {f' : ι → Run (History env') PUnit} :
    ∀ {is : List ι}, (∀ i ∈ is, Agree (fun _ => True) (f i) (f' i)) →
      Agree (fun _ => True) (is.forM f) (is.forM f')
  | [], _ => .pure trivial
  | i :: _, h => .bind (h i List.mem_cons_self) fun _ _ => forM fun j hj => h j (List.mem_cons_of_mem i hj)

end Agree
end Run

/-! ### Accesses and saving -/

section Saving
variable (hbeside : env.Beside env')
include hbeside

theorem agree_read {a : Nat} : Agree (E := env) (F := env') (fun _ => True) (read32 a) (read32 a) := fun t _ halike =>
  ⟨env.load t.events a, [.read a (env.load t.events a)], rfl, by rw [← hbeside.load halike]; rfl, trivial, fun _ he => by
    rw [List.mem_singleton.mp he]; rfl⟩

theorem agree_saveGic {k : κ} : Agree (fun _ => True) (env.gic.save k) (env'.gic.save k) := fun t _ halike =>
  ⟨env.saveGic t.events k, [.saveGic (env.saveGic t.events k)], rfl, by rw [← hbeside.saveGic halike]; rfl, trivial,
    fun _ he => by rw [List.mem_singleton.mp he]; rfl⟩

theorem agree_enableMask {bank : Nat} :
    Agree (fun _ => True) (env.gic.enableMask bank) (env'.gic.enableMask bank) := fun t _ halike =>
  ⟨env.enableMask t.events bank, [.enableMask bank (env.enableMask t.events bank)], rfl, by
    rw [← hbeside.enableMask halike]; rfl, trivial, fun _ he => by rw [List.mem_singleton.mp he]; rfl⟩

theorem agree_readWords : ∀ {count a : Nat},
    Agree (E := env) (F := env') (fun _ => True) (readWords a count) (readWords a count)
  | 0, _ => .pure trivial
  | _ + 1, _ => .bind (agree_read hbeside) fun _ _ => .bind agree_readWords fun _ _ => .pure trivial

theorem agree_saveBank {bank : Layout.GpioBank} :
    Agree (E := env) (F := env') (fun _ => True) (GpioImage.save bank) (GpioImage.save bank) := by
  refine .bind (.mapM fun i _ => .bind (agree_read hbeside) fun w _ => ?_) fun _ _ =>
    .bind (agree_readWords hbeside) fun _ _ => .bind (.forM fun _ _ => .did rfl) fun _ _ => .pure trivial
  dsimp only
  split
  · exact .bind (.did rfl) fun _ _ => .pure trivial
  · exact .pure trivial

omit hbeside in
/-- A part of a run that is left out unless asked for. -/
theorem agree_part {P : α → Prop} {Q : β → Prop} {x : Run (History env) α} {x' : Run (History env') α} {a : α}
    {f : α → Run (History env) β} {f' : α → Run (History env') β} {b : Bool} (hx : Agree P x x')
    (hf : ∀ a, Agree Q (f a) (f' a)) :
    Agree Q (if b then x >>= f else pure a >>= f) (if b then x' >>= f' else pure a >>= f') := by
  split
  · exact .bind hx fun a _ => hf a
  · exact .bind (P := fun _ => True) (.pure trivial) fun a _ => hf a

theorem agree_save {set : ContextSet} {s : Snapshot κ} :
    Agree (fun _ => True) (Snapshot.save env.gic set s) (Snapshot.save env'.gic set s) :=
  agree_part (agree_saveGic hbeside) fun _ => agree_part (.mapM fun _ _ => agree_read hbeside) fun _ =>
    agree_part (.mapM fun _ _ => agree_saveBank hbeside) fun _ =>
    agree_part (.mapM fun _ _ => .bind (agree_read hbeside) fun _ _ => .bind (agree_read hbeside) fun _ _ =>
      .pure trivial) fun _ => .bind .log fun _ _ => .pure trivial

theorem agree_capture {p : WakeupPolicy} : Agree (fun x => x.1.length = wakeBanks ∧ x.2 = p.mark x.1)
    (p.capture env.gic) (p.capture env'.gic) := by
  refine .bind (.mapM fun _ _ => .bind (agree_enableMask hbeside) fun _ _ => .pure trivial) fun masks hlength => .pure ?_
  exact ⟨by simpa using hlength, rfl⟩

end Saving

/-! ### Hooks -/

/-- All requests but the last were accepted, and that one failed so. -/
def StopsAt (e : Scmi.Error) (L : List (Event κ)) : Prop :=
  ∃ M x, exchanges L = M ++ [x] ∧ (∀ y ∈ M, y.IsAccepted) ∧ x.verdict? = some (.error e)

theorem StopsAt.append (hL : AllAccepted L) (h : StopsAt e M) : StopsAt e (L ++ M) := by
  obtain ⟨N, x, hM, hN, hx⟩ := h
  refine ⟨exchanges L ++ N, x, by rw [exchanges_append, hM, List.append_assoc], fun y hy => ?_, hx⟩
  exact (List.mem_append.mp hy).elim (hL y) (hN y)

theorem StopsAt.not_allAccepted (h : StopsAt e L) : ¬AllAccepted L := by
  intro hall
  obtain ⟨M, x, hL, -, hx⟩ := h
  have hx' : x.IsAccepted := hall x (by rw [hL]; exact List.mem_append_right _ List.mem_cons_self)
  rw [Exchange.IsAccepted, hx] at hx'
  cases hx'

/-- How the first of two runs ends beside the second, which gave an answer: alike and with everything
    accepted, or at the first request that was not accepted. -/
inductive EndsBeside (a : α) (c : Controller κ) (L' : List (Event κ)) :
    Except PlatformError α → Controller κ → List (Event κ) → Prop
  | alike {L : List (Event κ)} : Alike L L' → AllAccepted L → EndsBeside a c L' (.ok a) c L
  | stopped {e : Scmi.Error} {d : Controller κ} {L : List (Event κ)} : StopsAt e L → requests L <+: requests L' →
      EndsBeside a c L' (.error (.scmi e)) d L

theorem EndsBeside.append {a : α} {c d : Controller κ} {r : Except PlatformError α} (h : EndsBeside a c M' r d M)
    (hL : Alike L L') (hall : AllAccepted L) : EndsBeside a c (L' ++ M') r d (L ++ M) := by
  cases h with
  | alike hM hall' => exact .alike (hL.append hM) (allAccepted_append.mpr ⟨hall, hall'⟩)
  | stopped hstops hsent =>
    refine .stopped (hstops.append hall) ?_
    rw [requests_append, requests_append, hL.requests]
    exact (List.prefix_append_right_inj _).mpr hsent

/-- From one controller and after histories that are alike the second run succeeds, and the first goes on
    like it until a request is not accepted. -/
def Follows {E F : Environment κ} (x : Hook (History E) κ α) (x' : Hook (History F) κ α) : Prop :=
  ∀ c h h', c.wakeup.cleared = table → Alike h.events h'.events → ∃ r d L a d' L', x c h = (.ok (r, d), h.add L) ∧
    x' c h' = (.ok (.ok a, d'), h'.add L') ∧ d'.wakeup.cleared = table ∧ EndsBeside a d' L' r d L

namespace Follows

theorem pure {a : α} : Follows (Pure.pure a : Hook (History env) κ α) (Pure.pure a : Hook (History env') κ α) :=
  fun c h h' hc _ => ⟨.ok a, c, [], a, c, [], by rw [h.add_nil]; rfl, by rw [h'.add_nil]; rfl, hc,
    .alike .nil fun _ hx => absurd hx List.not_mem_nil⟩

/-- If the first of the runs stops in its first part, the second goes on alone. -/
theorem bind {x : Hook (History env) κ α} {x' : Hook (History env') κ α} {f : α → Hook (History env) κ β}
    {f' : α → Hook (History env') κ β} (hx : Follows x x') (hf : ∀ a, Follows (f a) (f' a)) :
    Follows (x >>= f) (x' >>= f') := by
  intro c h h' hc halike
  obtain ⟨r, d, L, a, d', L', hxh, hxh', hd', hends⟩ := hx c h h' hc halike
  cases hends with
  | alike hL hall =>
    obtain ⟨r', e, M, b, e', M', hfh, hfh', he', hends⟩ := hf a d (h.add L) (h'.add L') hd' (halike.append hL)
    refine ⟨r', e, L ++ M, b, e', L' ++ M', ?_, ?_, he', hends.append hL hall⟩
    · rw [← History.add_add, ← hfh]
      exact bind_of_success hxh
    · rw [← History.add_add, ← hfh']
      exact bind_of_success hxh'
  | @stopped e d L hstops hsent =>
    obtain ⟨-, -, -, b, e', M', -, hfh', he', -⟩ := hf a d' ⟨(h'.add L').events⟩ (h'.add L') hd' (.refl _)
    refine ⟨.error (.scmi e), d, L, b, e', L' ++ M', bind_of_failure hxh, ?_, he', .stopped hstops ?_⟩
    · rw [← History.add_add, ← hfh']
      exact bind_of_success hxh'
    · rw [requests_append]
      exact hsent.trans (List.prefix_append _ _)

/-- What goes on by the controller. -/
theorem get {f : Controller κ → Hook (History env) κ α} {f' : Controller κ → Hook (History env') κ α}
    (hf : ∀ c, c.wakeup.cleared = table → Follows (f c) (f' c)) : Follows (get >>= f) (get >>= f') :=
  fun c h h' hc halike => hf c hc c h h' hc halike

theorem modify {g : Controller κ → Controller κ} (hg : ∀ c, c.wakeup.cleared = table → (g c).wakeup.cleared = table) :
    Follows (E := env) (F := env') (modify g : Hook (History env) κ PUnit) (modify g : Hook (History env') κ PUnit) :=
  fun c h h' hc _ => ⟨.ok (), g c, [], (), g c, [], by rw [h.add_nil]; rfl, by rw [h'.add_nil]; rfl, hg c hc,
    .alike .nil fun _ hx => absurd hx List.not_mem_nil⟩

theorem run {P : α → Prop} {x : Run (History env) α} {x' : Run (History env') α}
    {f : α → Hook (History env) κ β} {f' : α → Hook (History env') κ β} (hx : Agree P x x')
    (hf : ∀ a, P a → Follows (f a) (f' a)) :
    Follows ((liftM x : Hook (History env) κ α) >>= f) ((liftM x' : Hook (History env') κ α) >>= f') := by
  intro c h h' hc halike
  obtain ⟨a, L, hxh, hxh', ha, hL⟩ := hx h h' halike
  have hall : AllAccepted L := fun y hy => by rw [exchanges_eq_nil hL] at hy; cases hy
  obtain ⟨r, d, M, b, d', M', hfh, hfh', hd', hends⟩ := hf a ha c (h.add L) (h'.add L) hc (halike.append (.refl L))
  refine ⟨r, d, L ++ M, b, d', L ++ M', ?_, ?_, hd', hends.append (.refl L) hall⟩
  · rw [← History.add_add, ← hfh]
    exact bind_of_success (liftM_of_ok hxh)
  · rw [← History.add_add, ← hfh']
    exact bind_of_success (liftM_of_ok hxh')

theorem last {P : α → Prop} {x : Run (History env) α} {x' : Run (History env') α} (hx : Agree P x x') :
    Follows (liftM x : Hook (History env) κ α) (liftM x' : Hook (History env') κ α) := by
  intro c h h' hc halike
  obtain ⟨a, L, hxh, hxh', -, hL⟩ := hx h h' halike
  have hall : AllAccepted L := fun y hy => by rw [exchanges_eq_nil hL] at hy; cases hy
  exact ⟨.ok a, c, L, a, c, L, liftM_of_ok hxh, liftM_of_ok hxh', hc, .alike (.refl L) hall⟩

variable {region : DmaRegion (History env)} {region' : DmaRegion (History env')}

theorem send (haccepts : env'.AcceptsAll) (hfits : cmd.fits = true) (hreply : cmd.replyWords = 0) :
    Follows ((env.platform region).send cmd) ((env'.platform region').send cmd) := by
  intro c h h' hc _
  obtain ⟨⟨r, d⟩, L, heq, -, hL, hd⟩ := Does.answers acts_send (concludes_send c) h
  obtain ⟨⟨r', d'⟩, L', heq', allowed, hL', hd'⟩ := Does.answers acts_send (concludes_send c) h'
  simp only at hL hL' hd hd'
  -- Either way one token is used up, so the controllers stay the same.
  rw [hL.client_one hfits] at hd
  rw [hL'.client_one hfits, ← hd] at hd'
  subst hd'
  obtain rfl := hL'.accepted_all haccepts allowed fun cmd' hcmd => by
    rw [List.mem_singleton.mp hcmd]
    exact ⟨hfits, hreply⟩
  obtain ⟨x, rfl, hx, rfl⟩ := hL.one hfits
  obtain ⟨y, rfl, hy, hok⟩ := hL'.one hfits
  have haccepted : Scmi.verdict cmd y.outcome = .ok () := by
    generalize Scmi.verdict cmd y.outcome = o at hok
    cases o with
    | ok _ => rfl
    | error _ => cases hok
  refine ⟨_, d', _, (), d', _, heq, heq', by rw [hd]; exact hc, ?_⟩
  rcases hverdict : Scmi.verdict cmd x.outcome with e | _
  · refine .stopped ⟨[], x, rfl, fun _ hz => absurd hz List.not_mem_nil, ?_⟩ ?_
    · rw [verdict?_request hx, hverdict]
    · exact requests_one (hx.trans hy.symm) ▸ List.prefix_rfl
  · have hfirst : x.IsAccepted := by rw [Exchange.IsAccepted, verdict?_request hx, hverdict]
    have hsecond : y.IsAccepted := by rw [Exchange.IsAccepted, verdict?_request hy, haccepted]
    exact .alike (.cons (.accepted (hx.trans hy.symm) hfirst hsecond) .nil) fun z hz => by
      rw [List.mem_singleton.mp hz]
      exact hfirst

end Follows
end PowerFirmware
