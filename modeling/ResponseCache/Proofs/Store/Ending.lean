import ResponseCache.Proofs.Store.Resolution
import ResponseCache.Proofs.Store.Slots

namespace ResponseCache.Store

/-- The store with this entry as the live one of its key, after a decision of that kind. -/
def applied (s : Store) (key : Key) (entry : Entry) (isNew : Bool) (kind : Decision.Kind) : Store :=
  let s := s.install key entry isNew
  { s with monitor := s.monitor.count (·.countDecision kind) }

section
variable (s : Store) (key : Key) (entry : Entry) (isNew : Bool) (kind : Decision.Kind)

@[simp] theorem applied_slots : (s.applied key entry isNew kind).slots = s.slots.insert key (some entry) := by
  cases isNew <;> rfl

@[simp] theorem applied_mint : (s.applied key entry isNew kind).mint = s.mint := by
  cases isNew <;> rfl

@[simp] theorem applied_journal : (s.applied key entry isNew kind).journal = s.journal := by
  cases isNew <;> rfl

@[simp] theorem live?_applied (key' : Key) :
    (s.applied key entry isNew kind).live? key' = if key = key' then some entry else s.live? key' := by
  unfold live?
  rw [applied_slots, Table.get?_insert]
  by_cases hk : key = key'
  · rw [if_pos hk, if_pos hk]
    rfl
  · rw [if_neg hk, if_neg hk]

/-- Of the slots only what an insertion leaves of them counts. -/
theorem applied_of_slots {slots : Table Key (Option Entry)}
    (h : s.slots.insert key (some entry) = slots.insert key (some entry)) :
    s.applied key entry isNew kind = { s with slots }.applied key entry isNew kind := by
  cases isNew <;> simp only [applied, install, h, if_true, if_false, Bool.false_eq_true, setCount]

end

/-- How a decision about a key ends. -/
inductive Ending (s : Store) (streams : Streams) (now : Moment) (key : Key)
    (decide : Option Entry → Except Error Decision) : Except Error Reconciliation → Store → Prop
  | undecided (e : Error) (hd : decide (s.live? key) = .error e) : Ending s streams now key decide (.error e) s
  | unresolved (decision : Decision) (e : Error) (mint : Mint) (hd : decide (s.live? key) = .ok decision)
      (h : Resolution streams now key s.mint (s.live? key) decision (.error e) mint) :
      Ending s streams now key decide (.error e) { s with mint }
  | stands (decision : Decision) (entry : Entry) (hd : decide (s.live? key) = .ok decision)
      (hlive : s.live? key = some entry) (h : Stands streams entry decision) :
      Ending s streams now key decide (.ok ⟨entry, decision.kind, entry.identity, false⟩)
        { s with monitor := s.monitor.count (·.countDecision decision.kind) }
  | unshipped (decision : Decision) (entry : Entry) (mint : Mint) (e : Error)
      (hd : decide (s.live? key) = .ok decision)
      (h : Revision streams now key s.mint (s.live? key) decision entry mint)
      (hs : Shipment { s with mint } streams now entry (.error e)) :
      Ending s streams now key decide (.error e) { s with mint }
  | revised (decision : Decision) (entry : Entry) (mint : Mint) (s' : Store)
      (hd : decide (s.live? key) = .ok decision)
      (h : Revision streams now key s.mint (s.live? key) decision entry mint)
      (hs : Shipment { s with mint } streams now entry (.ok s')) :
      Ending s streams now key decide (.ok ⟨entry, decision.kind, ResponseCache.identityOf (s.live? key), true⟩)
        (s'.applied key entry (ResponseCache.identityOf (s.live? key)).isAbsent decision.kind)

section
variable (streams : Streams) (now : Moment) (key : Key) (decide : Option Entry → Except Error Decision)

theorem ending_inSlot (s : Store) : Ending s streams now key decide
    (s.reconcileInSlot streams now key decide).1 (s.reconcileInSlot streams now key decide).2 := by
  unfold reconcileInSlot
  cases hd : decide (s.live? key) with
  | error e =>
    simp only [hd]
    exact .undecided e hd
  | ok decision =>
    have hres := resolution streams now key (s.live? key) s.mint decision
    generalize hr : resolve streams now key (s.live? key) s.mint decision = resolved at hres
    obtain ⟨answer, mint⟩ := resolved
    simp only [hd, hr]
    cases hres with
    | stands entry hcurrent h =>
      have hid : ResponseCache.identityOf (s.live? key) = entry.identity := by rw [hcurrent]; rfl
      simp only [hid]
      exact .stands decision entry hd hcurrent h
    | revised entry mint h =>
      have hship := shipment { s with mint } streams now entry
      cases hs : ship { s with mint } streams now entry with
      | error e =>
        simp only [hs]
        exact .unshipped decision entry mint e hd h (hs ▸ hship)
      | ok s' =>
        simp only [hs]
        exact .revised decision entry mint s' hd h (hs ▸ hship)
    | unready e he => exact .unresolved decision e s.mint hd (.unready e he)
    | missing hcurrent hkind => exact .unresolved decision _ s.mint hd (.missing hcurrent hkind)
    | exhausted hkind hmint hsealed => exact .unresolved decision _ s.mint hd (.exhausted hkind hmint hsealed)
    | collision identity mint hkind hmint hold =>
      exact .unresolved decision _ mint hd (.collision identity mint hkind hmint hold)

/-- How a decision ends in a store without vacant slots. -/
theorem ending {s : Store} (hs : s.Tidy) : Ending s streams now key decide
    (s.reconcileWith streams now key decide).1 (s.reconcileWith streams now key decide).2 := by
  have hin := ending_inSlot streams now key decide (s.openSlot key)
  have hlive : (s.openSlot key).live? key = s.live? key := s.live?_openSlot key key
  have hopen : s.openSlot key = { s with slots := (s.openSlot key).slots } := by
    unfold openSlot
    split <;> rfl
  have hrelease (s' : Store) (h : s'.slots = (s.openSlot key).slots) :
      s'.releaseSlot key = { s' with slots := s.slots } := releaseSlot_of_openSlot hs key h
  have hinsert (entry : Option Entry) := s.insert_of_openSlot key entry
  -- In the opened slot the decision ends in one of the cases; putting the slots back turns it into the same case here.
  unfold reconcileWith
  generalize (s.openSlot key).reconcileInSlot streams now key decide = result at hin
  obtain ⟨answer, s'⟩ := result
  generalize (s.openSlot key).slots = slots at hopen hrelease hinsert
  rw [hopen] at hin hlive
  simp only at hin ⊢
  cases hin with
  | undecided e hd =>
    rw [hrelease _ (by rfl)]
    exact .undecided e (hlive ▸ hd)
  | unresolved decision e mint hd h =>
    rw [hrelease { s with slots, mint } rfl]
    exact .unresolved decision e mint (hlive ▸ hd) (hlive ▸ h)
  | stands decision entry hd hentry h =>
    rw [hrelease { s with slots, monitor := s.monitor.count (·.countDecision decision.kind) } rfl]
    exact .stands decision entry (hlive ▸ hd) (hlive ▸ hentry) h
  | unshipped decision entry mint e hd h hship =>
    rw [hrelease { s with slots, mint } rfl]
    exact .unshipped decision entry mint e (hlive ▸ hd) (hlive ▸ h) (hship.error_of_slots s.slots)
  | revised decision entry mint s' hd h hship =>
    -- This slot is filled, so it stays; what was in it before does not show.
    rw [hlive] at h ⊢
    have hslots : s'.slots = slots := by
      cases hship <;> rfl
    have hnew : (s'.applied key entry (ResponseCache.identityOf (s.live? key)).isAbsent decision.kind).live? key =
        some entry := by
      rw [live?_applied, if_pos rfl]
    rw [releaseSlot_of_live hnew]
    rw [applied_of_slots s' key entry _ _ (hslots ▸ hinsert (some entry))]
    exact .revised decision entry mint { s' with slots := s.slots } (hlive ▸ hd) h (hship.of_slots s.slots)

end

/-- An entry that a decision makes stands under the key of the decision. -/
theorem Revision.key_eq {streams : Streams} {now : Moment} {key : Key} {mint mint' : Mint} {current : Option Entry}
    {decision : Decision} {entry : Entry} (h : Revision streams now key mint current decision entry mint')
    (hcurrent : ∀ old, current = some old → old.key = key) : entry.key = key := by
  cases h with
  | attach old a hsealed hnew => exact hcurrent old rfl
  | clear old hsome => exact hcurrent old rfl
  | replace current primary alternative identity mint' hprimary halternative hmint hnew => rfl

theorem Shipment.slots_eq {s s' : Store} {streams : Streams} {now : Moment} {entry : Entry}
    (h : Shipment s streams now entry (.ok s')) : s'.slots = s.slots := by
  cases h <;> rfl

theorem Shipment.mint_eq {s s' : Store} {streams : Streams} {now : Moment} {entry : Entry}
    (h : Shipment s streams now entry (.ok s')) : s'.mint = s.mint := by
  cases h <;> rfl

section
variable {s s' : Store} {streams : Streams} {now : Moment} {key : Key}
  {decide : Option Entry → Except Error Decision}

/-- A refused decision leaves every live entry as it was. -/
theorem Ending.live?_error {e : Error} (h : Ending s streams now key decide (.error e) s') (key' : Key) :
    s'.live? key' = s.live? key' := by
  cases h <;> rfl

/-- After a decision that is not refused, its answer is the live entry of its key, and no other key is touched. -/
theorem Ending.live?_ok {r : Reconciliation} (h : Ending s streams now key decide (.ok r) s') (key' : Key) :
    s'.live? key' = if key = key' then some r.entry else s.live? key' := by
  cases h with
  | stands decision entry hd hlive h =>
    by_cases hk : key = key'
    · rw [if_pos hk, ← hk]
      exact hlive
    · rw [if_neg hk]
      rfl
  | revised decision entry mint s' hd h hs =>
    have hslots : s'.live? key' = s.live? key' := by rw [live?, live?, hs.slots_eq]
    rw [live?_applied, hslots]

theorem Ending.error_eq {e : Error} (h : Ending s streams now key decide (.error e) s') : ∃ mint, s' = { s with mint } := by
  cases h with
  | undecided e hd => exact ⟨s.mint, rfl⟩
  | unresolved decision e mint hd h => exact ⟨mint, rfl⟩
  | unshipped decision entry mint e hd h hs => exact ⟨mint, rfl⟩

/-- A decision submits the record of the entry that it made live, and nothing when it left the live entry as it was. -/
theorem Ending.journal_ok {r : Reconciliation} {j : Journal} (hj : s.journal = some j)
    (h : Ending s streams now key decide (.ok r) s') :
    (r.changed = false ∧ s.live? key = some r.entry ∧ s'.journal = some j) ∨
    (r.changed = true ∧ ∃ record, Record.ofEntry streams r.entry = .ok record ∧
      s'.journal = some (j.push now.tick (.store record))) := by
  cases h with
  | stands decision entry hd hlive h => exact .inl ⟨rfl, hlive, hj⟩
  | revised decision entry mint s' hd h hship =>
    cases hship with
    | unkept hnone => exact absurd (hj.symm.trans hnone) (by simp)
    | taken j' record notices hj' hr hopen =>
      have hsame : j' = j := Option.some.inj (hj'.symm.trans hj)
      subst hsame
      exact .inr ⟨rfl, record, hr, applied_journal ..⟩

theorem Ending.tidy {answer : Except Error Reconciliation} (hs : s.Tidy)
    (h : Ending s streams now key decide answer s') : s'.Tidy := by
  cases h with
  | undecided e hd => exact hs
  | unresolved decision e mint hd h => exact hs.of_slots rfl
  | stands decision entry hd hlive h => exact hs.of_slots rfl
  | unshipped decision entry mint e hd h hship => exact hs.of_slots rfl
  | revised decision entry mint s' hd h hship =>
    have hkey : entry.key = key := h.key_eq (hs.keyed key)
    refine hs.insert hkey ?_
    rw [applied_slots, hship.slots_eq]

theorem Ending.of_undecided {answer : Except Error Reconciliation} {e : Error}
    (h : Ending s streams now key decide answer s') (hd : decide (s.live? key) = .error e) :
    answer = .error e ∧ s' = s := by
  cases h with
  | undecided e' hdecide => exact ⟨congrArg Except.error (Except.error.inj (hdecide.symm.trans hd)), rfl⟩
  | unresolved decision e' mint hdecide h => exact absurd (hdecide.symm.trans hd) (by simp)
  | stands decision entry hdecide hlive h => exact absurd (hdecide.symm.trans hd) (by simp)
  | unshipped decision entry mint e' hdecide h hship => exact absurd (hdecide.symm.trans hd) (by simp)
  | revised decision entry mint s' hdecide h hship => exact absurd (hdecide.symm.trans hd) (by simp)

theorem Stands.kind_ne {decision : Decision} {entry : Entry} (h : Stands streams entry decision) : decision.kind ≠ .replace := by
  cases h <;> simp [Decision.kind]

/-- A decision under which the entry stands has all that it needs. -/
theorem Stands.not_refused {decision : Decision} {mint mint' : Mint} {entry : Entry} {e : Error}
    (h : Stands streams entry decision) : ¬Resolution streams now key mint (some entry) decision (.error e) mint' := by
  intro hres
  cases hres with
  | unready e he =>
    refine he.not_sealed fun id hid => ?_
    cases h with
    | attach a hsealed hsame =>
      rw [List.mem_singleton.mp hid]
      exact hsealed
    | keep | clear => exact absurd hid List.not_mem_nil
  | missing hcurrent hkind => exact absurd hcurrent (by simp)
  | exhausted hkind hmint hsealed => exact h.kind_ne hkind
  | collision identity mint' hkind hmint hold => exact h.kind_ne hkind

/-- A decision under which the entry stands makes no other entry of it. -/
theorem Stands.not_revised {decision : Decision} {mint mint' : Mint} {entry entry' : Entry}
    (h : Stands streams entry decision) : ¬Revision streams now key mint (some entry) decision entry' mint' := by
  intro hrevision
  cases h with
  | keep => cases hrevision
  | attach a hsealed hsame =>
    cases hrevision with
    | attach _ _ _ hnew => exact hnew hsame
  | clear hnone =>
    cases hrevision with
    | clear _ hsome => exact hsome hnone

/-- A decision under which the live entry stands goes well, and leaves everything but the monitor alone. -/
theorem Ending.of_stands {decision : Decision} {answer : Except Error Reconciliation} {entry : Entry}
    (h : Ending s streams now key decide answer s') (hd : decide (s.live? key) = .ok decision)
    (hlive : s.live? key = some entry) (hstands : Stands streams entry decision) :
    answer = .ok ⟨entry, decision.kind, entry.identity, false⟩ ∧
      s' = { s with monitor := s.monitor.count (·.countDecision decision.kind) } := by
  cases h with
  | undecided e hd' => exact absurd (hd'.symm.trans hd) (by simp)
  | unresolved decision' e mint hd' h =>
    obtain rfl : decision' = decision := Except.ok.inj (hd'.symm.trans hd)
    exact absurd (hlive ▸ h) hstands.not_refused
  | stands decision' entry' hd' hlive' h =>
    obtain rfl : decision' = decision := Except.ok.inj (hd'.symm.trans hd)
    obtain rfl : entry' = entry := Option.some.inj (hlive'.symm.trans hlive)
    exact ⟨rfl, rfl⟩
  | unshipped decision' entry' mint e hd' h hship =>
    obtain rfl : decision' = decision := Except.ok.inj (hd'.symm.trans hd)
    exact absurd (hlive ▸ h) hstands.not_revised
  | revised decision' entry' mint s' hd' h hship =>
    obtain rfl : decision' = decision := Except.ok.inj (hd'.symm.trans hd)
    exact absurd (hlive ▸ h) hstands.not_revised

/-- To attach an alternative that goes well leaves identity and primary. -/
theorem Ending.attached {r : Reconciliation} {a : Alternative} (h : Ending s streams now key decide (.ok r) s')
    (hd : decide (s.live? key) = .ok (.attach a)) : ∃ old, s.live? key = some old ∧ streams.Sealed a.stream ∧
      r.entry.identity = old.identity ∧ r.entry.primary = old.primary ∧ r.entry.alternative = some a := by
  cases h with
  | stands decision entry hdecide hlive h =>
    rw [Except.ok.inj (hdecide.symm.trans hd)] at h
    cases h with
    | attach a hsealed hsame => exact ⟨entry, hlive, hsealed, rfl, rfl, hsame⟩
  | revised decision entry mint s' hdecide h hship =>
    rw [Except.ok.inj (hdecide.symm.trans hd)] at h
    generalize s.live? key = current at h
    cases h with
    | attach old a hsealed hnew => exact ⟨old, rfl, hsealed, rfl, rfl, rfl⟩

/-- A replacement that goes well makes a new generation of what it was given, under the identity from the mint. -/
theorem Ending.replaced {r : Reconciliation} {primary : StreamId} {alternative : Option Alternative}
    (h : Ending s streams now key decide (.ok r) s') (hd : decide (s.live? key) = .ok (.replace primary alternative)) :
    ∃ identity, s.mint.mint? = some (identity, s'.mint) ∧ ¬identity ≤ ResponseCache.identityOf (s.live? key) ∧
      r.entry = .fresh key identity primary alternative now.date := by
  cases h with
  | stands decision entry hdecide hlive h =>
    rw [Except.ok.inj (hdecide.symm.trans hd)] at h
    cases h
  | revised decision entry mint s' hdecide h hship =>
    rw [Except.ok.inj (hdecide.symm.trans hd)] at h
    rw [applied_mint, hship.mint_eq]
    generalize s.live? key = current at h ⊢
    cases h with
    | replace current _ _ identity mint' hprimary halternative hmint hnew => exact ⟨identity, hmint, hnew, rfl⟩

end

end ResponseCache.Store
