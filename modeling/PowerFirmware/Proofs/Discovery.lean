import PowerFirmware.Monitor
import PowerFirmware.Proofs.Acceptance

/-! How the monitor finds the agents of the auxiliary cores. Main statement: it asks for every agent that is
reported to exist, whatever becomes of the requests before, and takes under each name the first agent that
describes itself by it; what it has found, or not found, stays (`resolve_discovers`). -/

namespace PowerFirmware
open Run

namespace Scmi.AgentInfo
variable {info : AgentInfo} {name : String}

/-- The bytes of the name up to the first zero, or all of them, are those of the text. -/
def GoesBy (info : AgentInfo) (name : String) : Prop :=
  info.rawName.takeWhile (· != 0) = name.toUTF8.data.toList

/-- Bytes that are no text read as the empty name, and no other text reads as the same bytes. -/
theorem name_eq_iff (hname : name ≠ "") : info.name = name ↔ info.GoesBy name := by
  rw [AgentInfo.name, GoesBy, String.fromUTF8?]
  constructor
  · intro h
    split at h
    · subst h
      rfl
    · exact absurd h.symm hname
  · intro h
    have hbytes : (⟨(info.rawName.takeWhile (· != 0)).toArray⟩ : ByteArray) = name.toUTF8 := by
      rw [h]
    simp only [hbytes, String.toUTF8_eq_toByteArray, dif_pos name.isValidUTF8]
    rfl

end Scmi.AgentInfo

variable {κ : Type} {env : Environment κ} {region : DmaRegion (History env)} {a b : Scmi.Client} {L : List (Event κ)}

/-- The exchange asks for an agent, and its reply describes one. Which of them it describes is the System
    Manager's affair. -/
def Exchange.Describes (x : Exchange) (info : Scmi.AgentInfo) : Prop :=
  ∃ id, x.command? = some (.discoverAgent id) ∧ Scmi.Takes (.discoverAgent id) x (.ok info)

theorem Exchange.Describes.unique {x : Exchange} {info info' : Scmi.AgentInfo} (h : x.Describes info)
    (h' : x.Describes info') : info = info' := by
  obtain ⟨id, hid, htakes⟩ := h
  obtain ⟨id', hid', htakes'⟩ := h'
  cases hid.symm.trans hid'
  cases htakes with
  | accepted _ _ _ _ hsays =>
    cases htakes' with
    | accepted _ _ _ _ hsays' => exact hsays.unique hsays'

namespace AgentTable
variable {t t' t'' : AgentTable} {info : Scmi.AgentInfo} {name : String} {i : Nat} {x : Exchange} {xs ys : List Exchange}

/-! ### The table -/

theorem slot_of_lt (h : i < 3) : t.slot i = t.slots[i] := by
  simp [slot, h]

theorem slot_of_not_lt (h : ¬i < 3) : t.slot i = .absent := by
  simp [slot, h]

theorem nodup_agentNames : agentNames.Nodup := by decide

theorem lt_of_name (h : agentNames[i]? = some name) : i < 3 := (List.getElem?_eq_some_iff.mp h).1

theorem name_ne_empty (h : agentNames[i]? = some name) : name ≠ "" := by
  rintro rfl
  exact absurd (List.mem_of_getElem? h) (by decide)

theorem ext_slot (h : ∀ i < 3, t.slot i = t'.slot i) : t = t' := by
  obtain ⟨slots⟩ := t
  obtain ⟨slots'⟩ := t'
  refine congrArg AgentTable.mk (Vector.ext fun i hi => ?_)
  have hslot := h i hi
  rwa [slot_of_lt hi, slot_of_lt hi] at hslot

theorem slot_record (h : agentNames[i]? = some name) : (t.record info).slot i =
    if info.name = name ∧ t.slot i = .unresolved then .resolved info.id else t.slot i := by
  have hi := lt_of_name h
  rw [record]
  split
  · rename_i j hj
    obtain ⟨hlt, hname, -⟩ := List.idxOf?_eq_some_iff.mp hj
    -- No two cores share a name, so an agent is noted in the slot of its name only.
    have hwhich : i = j ↔ info.name = name := by
      rw [← List.getElem?_inj (l := agentNames) hi nodup_agentNames, h, List.getElem?_eq_getElem hlt, hname,
        Option.some_inj, eq_comm]
    rw [slot_of_lt hi, slot_of_lt hi, Vector.getElem_mapIdx]
    simp only [Bool.and_eq_true, beq_iff_eq, hwhich]
  · rename_i hnone
    refine (if_neg ?_).symm
    rintro ⟨rfl, -⟩
    exact List.idxOf?_eq_none_iff.mp hnone (List.mem_of_getElem? h)

theorem slot_settle (h : i < 3) : t.settle.slot i = if t.slot i = .unresolved then .absent else t.slot i := by
  rw [slot_of_lt h, slot_of_lt h, settle, Vector.getElem_map]
  simp only [beq_iff_eq]

/-! ### What a table learns from replies -/

/-- The first of the replies that describes an agent of this name, if one does. -/
inductive Finds (name : String) : List Exchange → Option UInt32 → Prop
  | nowhere : Finds name [] none
  | here {x : Exchange} {xs : List Exchange} {info : Scmi.AgentInfo} : x.Describes info → info.GoesBy name →
      Finds name (x :: xs) (some info.id)
  | later {x : Exchange} {xs : List Exchange} {found : Option UInt32} :
      (∀ info, x.Describes info → ¬info.GoesBy name) → Finds name xs found → Finds name (x :: xs) found

/-- What was known of an auxiliary core stays, and of the others it is known which agent is found under their
    name. What is not found is left as `missing`. -/
structure Learns (missing : AgentSlot) (xs : List Exchange) (t t' : AgentTable) : Prop where
  kept : ∀ i, t.slot i ≠ .unresolved → t'.slot i = t.slot i
  found : ∀ i name, agentNames[i]? = some name → t.slot i = .unresolved →
    ∃ found, Finds name xs found ∧ t'.slot i = found.elim missing .resolved

theorem kept_record (hi : t.slot i ≠ .unresolved) : (t.record info).slot i = t.slot i := by
  by_cases hlt : i < 3
  · rw [slot_record (List.getElem?_eq_getElem hlt), if_neg fun h => hi h.2]
  · rw [slot_of_not_lt hlt, slot_of_not_lt hlt]

theorem kept_settle (hi : t.slot i ≠ .unresolved) : t.settle.slot i = t.slot i := by
  by_cases hlt : i < 3
  · rw [slot_settle hlt, if_neg hi]
  · rw [slot_of_not_lt hlt, slot_of_not_lt hlt]

namespace Learns

theorem nothing : Learns .unresolved [] t t :=
  ⟨fun _ _ => rfl, fun _ _ _ hi => ⟨none, .nowhere, hi⟩⟩

/-- A reply that describes no agent teaches nothing. -/
theorem skip (hx : ∀ info, ¬x.Describes info) (h : Learns .unresolved xs t t') : Learns .unresolved (x :: xs) t t' := by
  refine ⟨h.kept, fun i name hname hi => ?_⟩
  obtain ⟨found, hfound, hslot⟩ := h.found i name hname hi
  exact ⟨found, .later (fun info hinfo => absurd hinfo (hx info)) hfound, hslot⟩

theorem record (hx : x.Describes info) (h : Learns .unresolved xs (t.record info) t') :
    Learns .unresolved (x :: xs) t t' := by
  refine ⟨fun i hi => ?_, fun i name hname hi => ?_⟩
  · rw [h.kept i (by rwa [kept_record hi]), kept_record hi]
  · have hslot : (t.record info).slot i = _ := slot_record hname
    by_cases hnamed : info.name = name
    · rw [if_pos ⟨hnamed, hi⟩] at hslot
      refine ⟨some info.id, .here hx ((Scmi.AgentInfo.name_eq_iff (name_ne_empty hname)).mp hnamed), ?_⟩
      rw [h.kept i (by rw [hslot]; nofun), hslot]
      rfl
    · -- The reply describes no other agent, so under this name the search goes on in the later ones.
      rw [if_neg fun h => hnamed h.1, hi] at hslot
      obtain ⟨found, hfound, hslot'⟩ := h.found i name hname hslot
      refine ⟨found, .later (fun info' hinfo' hgoes => hnamed ?_) hfound, hslot'⟩
      rw [hinfo'.unique hx] at hgoes
      exact (Scmi.AgentInfo.name_eq_iff (name_ne_empty hname)).mpr hgoes

theorem settle (h : Learns .unresolved xs t t') : Learns .absent xs t t'.settle := by
  refine ⟨fun i hi => ?_, fun i name hname hi => ?_⟩
  · rw [kept_settle (by rwa [h.kept i hi]), h.kept i hi]
  · obtain ⟨found, hfound, hslot⟩ := h.found i name hname hi
    refine ⟨found, hfound, ?_⟩
    rw [slot_settle (lt_of_name hname), hslot]
    cases found <;> rfl

end Learns

/-! ### Resolving -/

/-- How agents are resolved: the number of agents is not known, and the table stays as it is, or each of them
    is asked for once, in order, and the table learns from the replies. -/
inductive Resolves (t : AgentTable) : List Exchange → Except Scmi.Error Unit → AgentTable → Prop
  | uncounted {x : Exchange} {e : Scmi.Error} : x.command? = some .baseAttributes →
      Scmi.Takes .baseAttributes x (.error e) → Resolves t [x] (.error e) t
  | counted {x : Exchange} {xs : List Exchange} {v : Scmi.BaseAttributes} {t' : AgentTable} :
      x.command? = some .baseAttributes → Scmi.Takes .baseAttributes x (.ok v) →
      xs.map Exchange.command? = (List.range v.agents.toNat).map (fun id => some (.discoverAgent (.ofNat id))) →
      Learns .absent xs t t' → Resolves t (x :: xs) (.ok ()) t'

/-- An operation whose request is short makes one exchange and takes what it came to. -/
theorem acts_exchange (region : DmaRegion (History env)) (op : Scmi.Operation) (hfits : op.command.fits = true) :
    Acts (op.ask (env.platform region).manager) a fun o _ L => ∃ x, L = [.manager x] ∧
      x.command? = some op.command ∧ ∀ o', Scmi.Takes op x o' ↔ o' = o := by
  refine (acts_ask region op).imp ?_
  intro o b L hasked
  cases hasked with
  | tooLong hlong =>
    rw [hfits] at hlong
    cases hlong
  | exchanged _ hx => exact ⟨_, rfl, command?_request hx, fun _ => Scmi.takes_iff hx⟩

theorem does_discoverAgent (region : DmaRegion (History env)) (agent : UInt32) :
    Does ((Scmi.Client.discoverAgent (env.platform region).manager agent).run.run a) fun r L => ∃ x, L = [.manager x] ∧
      x.command? = some (.discoverAgent agent) ∧ ∀ info, x.Describes info ↔ r.1 = .ok info := by
  refine Does.imp (acts_exchange region (.discoverAgent agent) rfl) ?_
  rintro ⟨o, b⟩ L ⟨x, rfl, hcmd, htakes⟩
  refine ⟨x, rfl, hcmd, fun info => ⟨?_, fun ho => ⟨agent, hcmd, (htakes _).mpr ho.symm⟩⟩⟩
  rintro ⟨agent', hcmd', hinfo⟩
  cases hcmd.symm.trans hcmd'
  exact ((htakes _).mp hinfo).symm

theorem does_survey : ∀ {ids : List Nat} {t : AgentTable} {a : Scmi.Client},
    Does ((survey (env.platform region).manager ids t).run a) fun r L => ∃ xs, L = xs.map .manager ∧
      xs.map Exchange.command? = ids.map (fun id => some (.discoverAgent (.ofNat id))) ∧ Learns .unresolved xs t r.1
  | [], _, _ => .pure ⟨[], rfl, rfl, .nothing⟩
  | id :: ids, t, a => by
    refine .bind ((does_discoverAgent region (.ofNat id)).imp ?_)
    rintro ⟨o, b⟩ L ⟨x, rfl, hcmd, hdescribes⟩
    cases o with
    | ok info =>
      refine does_survey.imp ?_
      rintro r L ⟨xs, rfl, hcmds, hlearns⟩
      refine ⟨x :: xs, rfl, by rw [List.map_cons, hcmd, hcmds, List.map_cons], ?_⟩
      exact .record ((hdescribes info).mpr rfl) hlearns
    | error e =>
      refine .bind (.lift (.log (does_survey.imp ?_)))
      rintro r L ⟨xs, rfl, hcmds, hlearns⟩
      refine ⟨x :: xs, rfl, by rw [List.map_cons, hcmd, hcmds, List.map_cons], ?_⟩
      refine .skip (fun info hinfo => ?_) hlearns
      cases (hdescribes info).mp hinfo

theorem does_resolve (region : DmaRegion (History env)) :
    Does ((t.resolve (env.platform region).manager).run a) fun r L => ∃ xs, L = xs.map .manager ∧
      Resolves t xs r.1.1 r.1.2 := by
  refine .bind (Does.imp (acts_exchange region .baseAttributes rfl) ?_)
  rintro ⟨o, b⟩ L ⟨x, rfl, hcmd, htakes⟩
  have hx := (htakes o).mpr rfl
  cases o with
  | error e => exact .pure ⟨[x], rfl, .uncounted hcmd hx⟩
  | ok v =>
    refine .bind (does_survey.imp ?_)
    rintro ⟨t', c⟩ L ⟨xs, rfl, hcmds, hlearns⟩
    refine .bind (.forM_idle (fun _ _ h => .lift (.log h)) (.pure ⟨x :: xs, ?_, .counted hcmd hx hcmds hlearns.settle⟩))
    simp

theorem answers_survey : ∀ {ids : List Nat} {t : AgentTable} {a : Scmi.Client},
    Answers ((survey (env.platform region).manager ids t).run a)
  | [], _, _ => .pure
  | id :: ids, t, a => by
    refine .bind (concludes_ask region (.discoverAgent (.ofNat id)) a) ?_
    rintro ⟨_ | info, b⟩
    · exact .bind (.lift (c := b) .update) fun _ => answers_survey
    · exact answers_survey

theorem answers_resolve (region : DmaRegion (History env)) :
    Answers ((t.resolve (env.platform region).manager).run a) := by
  refine .bind (concludes_ask region .baseAttributes a) ?_
  rintro ⟨_ | v, b⟩
  · exact .pure
  · exact .bind answers_survey fun r => .bind (.forM_state fun _ _ => .lift .update) fun _ => .pure

namespace Resolves
variable {o : Except Scmi.Error Unit}

theorem kept (h : Resolves t xs o t') (hi : t.slot i ≠ .unresolved) : t'.slot i = t.slot i := by
  cases h with
  | uncounted => rfl
  | counted _ _ _ hlearns => exact hlearns.kept i hi

theorem settled (h : Resolves t xs (.ok ()) t') (hi : i < 3) : t'.slot i ≠ .unresolved := by
  cases h with
  | counted _ _ _ hlearns =>
    by_cases hslot : t.slot i = .unresolved
    · obtain ⟨found, -, hfound⟩ := hlearns.found i _ (List.getElem?_eq_getElem hi) hslot
      rw [hfound]
      cases found <;> nofun
    · rw [hlearns.kept i hslot]
      exact hslot

/-- Nothing is left to learn after all has been found or settled. -/
theorem again {o' : Except Scmi.Error Unit} (h : Resolves t xs (.ok ()) t') (h' : Resolves t' ys o' t'') : t'' = t' :=
  ext_slot fun _ hi => h'.kept (h.settled hi)

end Resolves

/-- Resolving the agents answers, whatever the System Manager replies. If it does not tell how many agents it
    has, that is how resolving fails, and the table stays as it is. Else each of them is asked for once and in
    order, whatever becomes of the requests before, and resolving succeeds: a core of which nothing was known
    gets the number in the first reply that describes an agent of its name, or is known to have none. What was
    known of a core stays, so that once resolving has succeeded, no later resolving changes the table. -/
theorem resolve_discovers (region : DmaRegion (History env)) (t : AgentTable) (a : Scmi.Client) (past : History env) :
    ∃ xs o t' b, (t.resolve (env.platform region).manager).run a past =
        (.ok ((o, t'), b), past.add (xs.map .manager)) ∧ Resolves t xs o t' ∧
      (∀ i, t.slot i ≠ .unresolved → t'.slot i = t.slot i) ∧
      (o = .ok () → ∀ c later, ∃ ys o' d, (t'.resolve (env.platform region).manager).run c later =
        (.ok ((o', t'), d), later.add (List.map .manager ys))) := by
  obtain ⟨⟨⟨o, t'⟩, b⟩, L, hrun, -, xs, rfl, hresolves⟩ :=
    (does_resolve (t := t) (a := a) region).answers (answers_resolve region) past
  refine ⟨xs, o, t', b, hrun, hresolves, fun i hi => hresolves.kept hi, ?_⟩
  rintro rfl c later
  obtain ⟨⟨⟨o', t''⟩, d⟩, L, hrun', -, ys, rfl, hagain⟩ :=
    (does_resolve (t := t') (a := c) region).answers (answers_resolve region) later
  obtain rfl := hresolves.again hagain
  exact ⟨ys, o', d, hrun'⟩

end AgentTable
end PowerFirmware
