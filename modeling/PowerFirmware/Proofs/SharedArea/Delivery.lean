import PowerFirmware.Proofs.SharedArea.Sending

/-! Calls of the agent in a world with a platform. Main statement: whatever the platform does and
whichever waits end in vain, the agent writes a message only while the area is free, at most one
doorbell is unanswered and its request stands untouched, and a call that succeeds delivers the reply to
its own doorbell (`transact_ownership_and_delivery`). -/

namespace PowerFirmware
namespace SharedMemory
open Cells Run World

variable {c : SharedMemory} {k n : Nat} {q : Request} {ring : Ring} {r : Reply} {buffer : Vector UInt32 n}
variable {S : Scene → Prop} {F : World c → Prop}

/-- What a call returned is the reply: its header and status, and its payload laid over the front of
    the buffer. -/
structure Delivered (r : Reply) (buffer : Vector UInt32 n) (response : Response) (words : Vector UInt32 n) :
    Prop where
  header : response.header = r.header
  status : r.words.head? = some response.status
  length : response.length = min n r.payload.length
  words : words = overlay r.payload buffer

/-! ### Taking the response -/

theorem triple_readWords (hS : Stable c S) : ∀ {ws : List UInt32} {a count : Nat},
    (∀ s, S s → Stand (adjacent a ws) s.memory) → count ≤ ws.length →
    Triple (Held (c := c) ring S) (readWords a count) (fun us w => us = ws.take count ∧ w.Held ring S) F
  | _, _, 0, _, _ => Triple.pure fun _ h => ⟨by simp, h⟩
  | [], _, _ + 1, _, hcount => absurd hcount (by simp)
  | v :: ws, a, count + 1, hws, hcount => by
    have hhead : ∀ s, S s → s.memory a = v := fun s hs => (stand_cons.mp (hws s hs)).1
    have htail : ∀ s, S s → Stand (adjacent (a + 4) ws) s.memory := fun s hs => (stand_cons.mp (hws s hs)).2
    refine Triple.bind (triple_read_cell hS hhead) fun u => Triple.of_imp fun hu => ?_
    refine Triple.bind (triple_readWords hS htail (Nat.le_of_succ_le_succ hcount)) fun us => Triple.of_imp fun hus => ?_
    exact Triple.pure fun _ h => ⟨by rw [hu, hus, List.take_succ_cons], h⟩

theorem overlay_take (words : List UInt32) (buffer : Vector UInt32 n) :
    overlay (words.take (min n words.length)) buffer = overlay words buffer := by
  apply Vector.toList_inj.mp
  rw [toList_overlay, toList_overlay, List.take_take, List.length_take, Nat.min_eq_left (Nat.min_le_right _ _)]
  have hbuffer : buffer.toList.length = n := buffer.length_toList
  rcases Nat.le_total n words.length with hle | hle
  · rw [Nat.min_eq_left hle, Nat.min_self, List.drop_of_length_le (by omega), List.drop_of_length_le (by omega)]
  · rw [Nat.min_eq_right hle, Nat.min_eq_right hle, List.take_of_length_le (Nat.le_refl _), List.take_of_length_le hle]

/-- An answered area is taken as it stands, and stays as it stands. -/
theorem triple_collect : Triple (Held (c := c) ring (Answered c ring r)) (c.collect buffer)
    (fun d w => w.Held ring (Answered c ring r) ∧ ∀ response, d.1 = .ok response → Delivered r buffer response d.2) F := by
  have hcells : ∀ s, Answered c ring r s → Stand ((c.status, r.channelStatus) :: c.replyCells r) s.memory :=
    fun _ h => h.quiet.stand
  simp only [replyCells, stand_cons] at hcells
  have hS : Stable c (Answered c ring r) := stable_answered
  refine Triple.bind (triple_read_cell hS fun s hs => (hcells s hs).1) fun v => Triple.of_imp fun hv => ?_
  split
  · exact Triple.pure fun _ h => ⟨h, fun _ heq => by cases heq⟩
  · refine Triple.bind (triple_read_cell hS fun s hs => (hcells s hs).2.1) fun l => Triple.of_imp fun hl => ?_
    dsimp only
    subst hl
    split
    · exact Triple.pure fun _ h => ⟨h, fun _ heq => by cases heq⟩
    · rename_i hwords
      have hcovers := r.covers
      obtain ⟨v, ws, hws⟩ := List.exists_cons_of_length_pos (show 0 < r.words.length by omega)
      have hlength : min (r.length.toNat / 4) (1 + maxWords) - 2 ≤ ws.length := by
        simp only [hws, List.length_cons] at hcovers
        omega
      have hpayload : r.payload = ws.take (min (r.length.toNat / 4) (1 + maxWords) - 2) := by
        rw [Reply.payload, hws, List.drop_succ_cons, List.drop_zero]
      have hcount : r.payload.length = min (r.length.toNat / 4) (1 + maxWords) - 2 := by
        rw [hpayload, List.length_take, Nat.min_eq_left hlength]
      simp only [hws, adjacent, stand_cons] at hcells
      refine Triple.bind (triple_read_cell hS fun s hs => (hcells s hs).2.2.1) fun h => Triple.of_imp fun hh => ?_
      refine Triple.bind (triple_read_cell hS fun s hs => (hcells s hs).2.2.2.1) fun u => Triple.of_imp fun hu => ?_
      refine Triple.bind (triple_readWords hS (fun s hs => (hcells s hs).2.2.2.2)
        (Nat.le_trans (Nat.min_le_right _ _) hlength)) fun us =>
          Triple.of_imp fun hus => Triple.pure fun _ hw => ⟨hw, ?_⟩
      rintro response ⟨⟩
      refine ⟨hh, by rw [hws, hu, List.head?_cons], by rw [hcount], ?_⟩
      have htake : us = r.payload.take (min n r.payload.length) := by
        rw [hus, hcount, hpayload, List.take_take, Nat.min_eq_left (Nat.min_le_right _ _)]
      rw [htake]
      exact overlay_take r.payload buffer

/-! ### Whole calls -/

/-- The one answer to a call is the given reply. -/
def Scene.AnsweredBy (s : Scene) (ring : Ring) (r : Reply) : Prop :=
  s.answers.filter (·.1.call = ring.call) = [(ring, r)]

theorem Answered.answeredBy {s : Scene} (h : Answered c ring r s) : s.AnsweredBy ring r := by
  obtain ⟨earlier, heq, hlt⟩ := h.answered
  have hnone : earlier.filter (·.1.call = ring.call) = [] := by
    refine List.filter_eq_nil_iff.mpr fun x hx => ?_
    have := hlt x hx
    simp only [decide_eq_true_eq]
    omega
  rw [Scene.AnsweredBy, heq, List.filter_append, hnone, List.nil_append]
  simp

theorem triple_transact (hdoor : ¬c.InArea c.doorbell) :
    Triple (Held (c := c) ⟨k, q⟩ (Settled c k)) (c.transact q buffer)
      (fun d w => w.Held ⟨k, q⟩ (Settled c (k + 1)) ∧ ∀ response, d.1 = .ok response →
        ∃ r, w.scene.AnsweredBy ⟨k, q⟩ r ∧ Delivered r buffer response d.2) Stuck := by
  unfold transact
  split
  · exact Triple.pure fun _ h => ⟨h.imp fun _ hs => hs.mono, fun _ heq => by cases heq⟩
  · rename_i hargs
    have hq : q.args.length ≤ maxWords := Nat.le_of_not_lt hargs
    refine Triple.bind (Triple.pollUntil (waits_isFree stable_settled)) fun waited => ?_
    cases waited with
    | error t =>
      refine Triple.bind triple_log fun _ => Triple.pure fun _ h => ?_
      exact ⟨h.imp fun _ hs => hs.mono, fun _ heq => by cases heq⟩
    | ok _ =>
      refine Triple.bind ((triple_send hdoor hq).pre fun _ h => h.imp fun _ hs => hs.1.agents_of_free hs.2) fun _ => ?_
      refine Triple.bind (Triple.pollUntil (waits_isFree stable_rung)) fun waited => ?_
      cases waited with
      | error t =>
        refine Triple.bind triple_log fun _ => Triple.pure fun _ h => ?_
        exact ⟨h.imp fun _ hs => hs.settled (Nat.lt_succ_self k), fun _ heq => by cases heq⟩
      | ok _ =>
        -- The wait found the area free after the doorbell, so what stands in it is the reply.
        refine Triple.pre (P := fun w => ∃ r, w.Held ⟨k, q⟩ (Answered c ⟨k, q⟩ r)) (Triple.of_forall fun r => ?_)
          fun w h => ?_
        · exact triple_collect.post fun d w h => ⟨h.1.imp fun _ hs => hs.settled (Nat.lt_succ_self k),
            fun response hd => ⟨r, h.1.scene.answeredBy, h.2 response hd⟩⟩
        · obtain ⟨r, hr⟩ := h.scene.1.answered_of_free h.scene.2
          exact ⟨r, h.ring, h.past, hr⟩

/-- Between two calls every past scene is sound, and the area is the agent's or an earlier call's. -/
theorem Reachable.held {w : World c} (hdoor : ¬c.InArea c.doorbell) (h : Reachable c w) :
    w.Held w.ring (Settled c (w.ring.call + 1)) := by
  induction h with
  | start h =>
    refine ⟨rfl, fun x hx => by simp [h.new] at hx, .agents ⟨⟨h.silent, h.idle, stand_nil, ?_⟩, h.free, ?_⟩⟩
    · exact fun _ ha => absurd ha List.not_mem_nil
    · exact fun x hx => by simp [h.fresh] at hx
  | @call w t n q buffer d _ heq ih =>
    have hbegin : (w.begin q).Held ⟨w.ring.call + 1, q⟩ (Settled c (w.ring.call + 1)) := ⟨rfl, ih.past, ih.scene⟩
    have ht := ((triple_transact hdoor).ok hbegin heq).1
    exact ⟨rfl, ht.past, by rw [ht.ring]; exact ht.scene⟩

/-- Whatever calls came before and however they ended, in every scene of the next call the agent writes
    a message only while the area is free, and at most one doorbell is unanswered, with the request
    that rang it untouched in the area. If the call succeeds it delivers the only reply to its own
    doorbell. -/
theorem transact_ownership_and_delivery {w t : World c} {outcome : Except Fault (Delivery n)}
    (hdoor : ¬c.InArea c.doorbell) (hw : Reachable c w) (hcall : c.transact q buffer (w.begin q) = (outcome, t)) :
    (∀ x ∈ t.past, Sound c x) ∧ t.scene.Orderly c ∧
      ∀ response words, outcome = .ok (.ok response, words) →
        ∃ reply, t.scene.AnsweredBy ⟨w.ring.call + 1, q⟩ reply ∧ Delivered reply buffer response words := by
  have held := hw.held hdoor
  have hbegin : (w.begin q).Held ⟨w.ring.call + 1, q⟩ (Settled c (w.ring.call + 1)) := ⟨rfl, held.past, held.scene⟩
  cases outcome with
  | error e =>
    have h := (triple_transact hdoor).error hbegin hcall
    exact ⟨h.1, h.2, fun _ _ heq => by cases heq⟩
  | ok d =>
    have h := (triple_transact hdoor).ok hbegin hcall
    refine ⟨h.1.past, stable_settled.orderly _ h.1.scene, ?_⟩
    rintro response words ⟨⟩
    exact h.2 response rfl

/-- The moves that answer a doorbell at once. -/
def Reply.moves (c : SharedMemory) (r : Reply) : List Move :=
  .begin :: (c.replyCells r).map (fun x => .put x.1 x.2) ++ [.release r]

def lateArea : SharedMemory := { area := 0x1000, doorbell := 0x8114, budget := .within 0 }

/-- A platform that answers the first doorbell when the call that rang it has already given up, and the
    second one in time. -/
def lateReplies : World lateArea where
  scene :=
    { memory := fun a => if a = 0x1004 then 1 else 0, unanswered := [], answering := false, answers := [] }
  ring := ⟨0, ⟨0, []⟩⟩
  script
    | 13 => Reply.moves lateArea ⟨1, 12, 0xa, [0, 11], by decide, by decide, by decide⟩
    | 20 => Reply.moves lateArea ⟨1, 12, 0xb, [0, 22], by decide, by decide, by decide⟩
    | _ => []
  clock _ := 0
  patience := 1

def lateFirst : Except Fault (Delivery 1) × World lateArea :=
  lateArea.transact ⟨0xa, [5]⟩ #v[0] (lateReplies.begin ⟨0xa, [5]⟩)

def lateSecond : Except Fault (Delivery 1) × World lateArea :=
  lateArea.transact ⟨0xb, []⟩ #v[0] (lateFirst.2.begin ⟨0xb, []⟩)

/-- The first call times out, and the second one is not given the late reply to the first. -/
theorem transact_ownership_and_delivery_late :
    lateFirst.1 = .ok (.error (.timeout ⟨0⟩), #v[0]) ∧ lateSecond.1 = .ok (.ok ⟨0xb, 0, 1⟩, #v[22]) ∧
      (∀ x ∈ lateSecond.2.past, Sound lateArea x) ∧
      ∃ reply, lateSecond.2.scene.AnsweredBy ⟨2, ⟨0xb, []⟩⟩ reply ∧
        Delivered reply (#v[0] : Vector UInt32 1) ⟨0xb, 0, 1⟩ #v[22] := by
  have hstart : lateReplies.IsStart := ⟨show (1 : UInt32) &&& 1 ≠ 0 by decide, rfl, rfl, rfl, rfl⟩
  have hfirst : lateFirst.1 = .ok (.error (.timeout ⟨0⟩), #v[0]) := rfl
  have hsecond : lateSecond.1 = .ok (.ok ⟨0xb, 0, 1⟩, #v[22]) := by rfl
  have reached : Reachable lateArea lateFirst.2 := .call (.start hstart) (Prod.ext hfirst rfl)
  have h := transact_ownership_and_delivery (by decide) reached (Prod.ext hsecond rfl)
  exact ⟨hfirst, hsecond, h.1, h.2.2 _ _ rfl⟩

end SharedMemory
end PowerFirmware
