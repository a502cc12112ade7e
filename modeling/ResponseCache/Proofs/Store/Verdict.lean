import ResponseCache.Proofs.Fresh
/-!
Verdicts. What a decision comes to is settled by the live entry of its key, the streams and the mint. A journal has its say
only afterwards and only about a change: it takes the change in, or turns it away because it is closed. Nothing else that a
store does reaches its journal.
-/
namespace ResponseCache.Store

/-- The answer of a journal that takes nothing more in. -/
def closedError : Error := .persistence "flush coordinator is shut down"

instance (s : Store) : Decidable s.IsOpen :=
  decidable_of_iff (s.journal.all (·.accepting) = true) <| by
    unfold IsOpen
    cases s.journal <;> simp

/-- What a decision comes to, and the mint afterwards, before anything is submitted. -/
def verdict (streams : Streams) (now : Moment) (key : Key) (current : Option Entry) (mint : Mint)
    (decide : Option Entry → Except Error Decision) : Except Error Reconciliation × Mint :=
  match decide current with
  | .error e => (.error e, mint)
  | .ok decision =>
    let resolved := resolve streams now key current mint decision
    (resolved.1.map fun (entry, changed) =>
      ⟨entry, decision.kind, ResponseCache.identityOf current, changed⟩, resolved.2)

/-- The verdict is to change the live entry. -/
def Alters (answer : Except Error Reconciliation) : Prop := ∃ r, answer = .ok r ∧ r.changed = true

/-- What is answered where nothing more is taken in: a change is turned away, and all else goes as ever. -/
def turnAway : Except Error Reconciliation → Except Error Reconciliation
  | .error e => .error e
  | .ok r => if r.changed then .error closedError else .ok r

variable {s s' : Store} {streams : Streams} {now : Moment} {key : Key} {mint : Mint} {current : Option Entry}
  {decide : Option Entry → Except Error Decision}

theorem turnAway_of_alters {answer : Except Error Reconciliation} (h : Alters answer) :
    turnAway answer = .error closedError := by
  obtain ⟨r, rfl, hchanged⟩ := h
  exact if_pos hchanged

theorem turnAway_of_not_alters {answer : Except Error Reconciliation} (h : ¬Alters answer) : turnAway answer = answer := by
  cases answer with
  | error e => rfl
  | ok r => exact if_neg fun hchanged => h ⟨r, rfl, hchanged⟩

theorem verdict_of_undecided {e : Error} (hd : decide current = .error e) :
    verdict streams now key current mint decide = (.error e, mint) := by
  simp only [verdict, hd]

theorem verdict_of_decided {decision : Decision} (hd : decide current = .ok decision) :
    verdict streams now key current mint decide =
      ((resolve streams now key current mint decision).1.map fun (entry, changed) =>
        ⟨entry, decision.kind, ResponseCache.identityOf current, changed⟩,
        (resolve streams now key current mint decision).2) := by
  simp only [verdict, hd]

/-- An entry that a decision makes is never the one that it was made of. -/
theorem Revision.ne_current {mint' : Mint} {decision : Decision} {entry : Entry}
    (h : Revision streams now key mint current decision entry mint') : current ≠ some entry := by
  cases h with
  | attach old a hsealed hnew =>
    intro heq
    have hrevision := congrArg Entry.revision (Option.some.inj heq)
    simp [Entry.withAlternative] at hrevision
  | clear old hsome =>
    intro heq
    have hrevision := congrArg Entry.revision (Option.some.inj heq)
    simp [Entry.withAlternative] at hrevision
  | replace current primary alternative identity mint' hprimary halternative hmint hnew =>
    rintro rfl
    exact hnew (UInt64.le_refl identity.raw)

theorem Stands.resolve_eq {decision : Decision} {entry : Entry} (h : Stands streams entry decision) :
    resolve streams now key (some entry) mint decision = (.ok (entry, false), mint) := by
  cases h with
  | keep => rfl
  | attach a hsealed hsame =>
    have hready := (streams.ensureSealed_eq_ok_iff a.stream).mpr hsealed
    simp [resolve, hready, require, bind, Except.bind, pure, Except.pure, hsame]
  | clear hnone => simp [resolve, require, bind, Except.bind, pure, Except.pure, hnone]

theorem Revision.resolve_eq {mint' : Mint} {decision : Decision} {entry : Entry}
    (h : Revision streams now key mint current decision entry mint') :
    resolve streams now key current mint decision = (.ok (entry, true), mint') := by
  cases h with
  | attach old a hsealed hnew =>
    have hready := (streams.ensureSealed_eq_ok_iff a.stream).mpr hsealed
    simp [resolve, hready, require, bind, Except.bind, pure, Except.pure, hnew]
  | clear old hsome => simp [resolve, require, bind, Except.bind, pure, Except.pure, hsome]
  | replace current primary alternative identity mint' hprimary halternative hmint hnew =>
    have hready := (streams.ensureSealed_eq_ok_iff primary).mpr hprimary
    have hready' (a : Alternative) (ha : alternative = some a) : streams.ensureSealed a.stream = .ok () :=
      (streams.ensureSealed_eq_ok_iff a.stream).mpr (halternative a ha)
    rw [resolve_replace_of_sealed streams now key current mint primary alternative hready hready']
    simp only [hmint, hnew, if_false]

theorem verdict_of_stands {decision : Decision} {entry : Entry} (hd : decide (some entry) = .ok decision)
    (h : Stands streams entry decision) : verdict streams now key (some entry) mint decide =
      (.ok ⟨entry, decision.kind, entry.identity, false⟩, mint) := by
  rw [verdict_of_decided hd, h.resolve_eq]
  rfl

/-- The verdicts that are to change the live entry, by their decision. -/
theorem alters_iff : Alters (verdict streams now key current mint decide).1 ↔
    ∃ decision entry mint', decide current = .ok decision ∧ Revision streams now key mint current decision entry mint' := by
  constructor
  · rintro ⟨r, hr, hchanged⟩
    cases hd : decide current with
    | error e =>
      rw [verdict_of_undecided hd] at hr
      exact absurd hr (by simp)
    | ok decision =>
      have hres := resolution streams now key current mint decision
      rw [verdict_of_decided hd] at hr
      generalize resolve streams now key current mint decision = resolved at hres hr
      obtain ⟨answer, mint'⟩ := resolved
      cases hres with
      | revised entry _ h => exact ⟨decision, entry, mint', rfl, h⟩
      | stands entry hcurrent h =>
        cases hr
        exact absurd hchanged (by simp)
      | unready | missing | exhausted | collision => exact absurd hr (by simp [Except.map])
  · rintro ⟨decision, entry, mint', hd, h⟩
    rw [verdict_of_decided hd, h.resolve_eq]
    exact ⟨_, rfl, rfl⟩

/-- No verdict blames the persistence, unless the client decides so itself. -/
theorem verdict_ne_persistence {reason : String} (hd : decide current ≠ .error (.persistence reason)) :
    (verdict streams now key current mint decide).1 ≠ .error (.persistence reason) := by
  cases hdecided : decide current with
  | error e =>
    rw [verdict_of_undecided hdecided]
    exact fun h => hd (hdecided.trans (congrArg Except.error (Except.error.inj h)))
  | ok decision =>
    have hres := resolution streams now key current mint decision
    rw [verdict_of_decided hdecided]
    generalize resolve streams now key current mint decision = resolved at hres
    obtain ⟨answer, mint'⟩ := resolved
    cases hres with
    | unready e he => rcases he.error_eq with rfl | rfl <;> simp [Except.map]
    | stands | revised | missing | exhausted | collision => simp [Except.map]

theorem ship_of_isOpen (now : Moment) {entry : Entry} (hopen : s.IsOpen) (hsealed : entry.Sealed streams) :
    ∃ s', s.ship streams now entry = .ok s' ∧ s'.mint = s.mint := by
  have hship := s.shipment streams now entry
  cases hanswer : s.ship streams now entry with
  | error e =>
    rw [hanswer] at hship
    obtain ⟨-, j, hj, hclosed⟩ := hship.refused_of_sealed hsealed
    exact absurd (hclosed.symm.trans (hopen j hj)) (by simp)
  | ok s' =>
    rw [hanswer] at hship
    exact ⟨s', rfl, hship.mint_eq⟩

theorem ship_of_not_isOpen (now : Moment) {entry : Entry} (hclosed : ¬s.IsOpen) (hsealed : entry.Sealed streams) :
    s.ship streams now entry = .error closedError := by
  have hship := s.shipment streams now entry
  cases hanswer : s.ship streams now entry with
  | error e =>
    rw [hanswer] at hship
    exact congrArg Except.error (hship.refused_of_sealed hsealed).1
  | ok s' =>
    rw [hanswer] at hship
    refine absurd ?_ hclosed
    intro j hj
    cases hship with
    | unkept hnone => exact absurd (hnone.symm.trans hj) (by simp)
    | taken j' record notices hj' hr hopen => exact Option.some.inj (hj'.symm.trans hj) ▸ hopen

theorem reconcileInSlot_eq (hsealed : ∀ old, s.live? key = some old → old.Sealed streams) (now : Moment)
    (decide : Option Entry → Except Error Decision) :
    (s.reconcileInSlot streams now key decide).1 =
        (if s.IsOpen then (verdict streams now key (s.live? key) s.mint decide).1
          else turnAway (verdict streams now key (s.live? key) s.mint decide).1) ∧
      (s.reconcileInSlot streams now key decide).2.mint = (verdict streams now key (s.live? key) s.mint decide).2 := by
  unfold reconcileInSlot
  cases hd : decide (s.live? key) with
  | error e =>
    rw [verdict_of_undecided hd]
    simp only [hd]
    exact ⟨by simp [turnAway], trivial⟩
  | ok decision =>
    have hres := resolution streams now key (s.live? key) s.mint decision
    rw [verdict_of_decided hd]
    generalize hr : resolve streams now key (s.live? key) s.mint decision = resolved at hres
    obtain ⟨answer, mint⟩ := resolved
    simp only [hd, hr]
    cases hres with
    | stands entry hcurrent h => exact ⟨by simp [turnAway, Except.map], rfl⟩
    | revised entry mint h =>
      -- The entry is sealed, so the journal has the only say.
      have hsealed := h.sealed hsealed
      have hsame : IsOpen { s with mint } ↔ s.IsOpen := Iff.rfl
      by_cases hopen : s.IsOpen
      · obtain ⟨s', hship, hmint⟩ := ship_of_isOpen now (hsame.mpr hopen) hsealed
        have hinstall (isNew : Bool) : (s'.install key entry isNew).mint = s'.mint := by cases isNew <;> rfl
        simp only [hship, if_pos hopen]
        exact ⟨rfl, (hinstall _).trans hmint⟩
      · have hship := ship_of_not_isOpen now (fun h => hopen (hsame.mp h)) hsealed
        simp only [hship, if_neg hopen]
        exact ⟨rfl, trivial⟩
    | unready | missing | exhausted | collision => exact ⟨by simp [turnAway, Except.map], rfl⟩

/-- In a store with sound entries a decision comes to its verdict, unless it is to change something and nothing more is taken
in. The mint goes on in either case. -/
theorem Living.reconcileWith_eq (hs : s.Living streams) (now : Moment) (key : Key)
    (decide : Option Entry → Except Error Decision) :
    (s.reconcileWith streams now key decide).1 =
        (if s.IsOpen then (verdict streams now key (s.live? key) s.mint decide).1
          else turnAway (verdict streams now key (s.live? key) s.mint decide).1) ∧
      (s.reconcileWith streams now key decide).2.mint = (verdict streams now key (s.live? key) s.mint decide).2 := by
  have hlive : (s.openSlot key).live? key = s.live? key := s.live?_openSlot key key
  have hslot : (s.openSlot key).mint = s.mint ∧ (s.openSlot key).journal = s.journal := by
    unfold openSlot
    split <;> exact ⟨rfl, rfl⟩
  have hopen : (s.openSlot key).IsOpen ↔ s.IsOpen := by rw [IsOpen, IsOpen, hslot.2]
  have hin := reconcileInSlot_eq (s := s.openSlot key) (hlive ▸ hs.sealed key) now decide
  have hrelease (t : Store) : (t.releaseSlot key).mint = t.mint := by
    unfold releaseSlot
    split <;> rfl
  simp only [hlive, hslot.1, hopen] at hin
  unfold reconcileWith
  exact ⟨hin.1, (hrelease _).trans hin.2⟩

theorem Ending.live?_of_unchanged {r : Reconciliation} (h : Ending s streams now key decide (.ok r) s')
    (hr : r.changed = false) (key' : Key) : s'.live? key' = s.live? key' := by
  cases h with
  | stands decision entry hd hlive h => rfl
  | revised => exact absurd hr (by simp)

/-- While changes are taken in, the live entries change just when the verdict is to change one. -/
theorem Living.live?_changes_iff (hs : s.Living streams) (hopen : s.IsOpen) (now : Moment) (key : Key)
    (decide : Option Entry → Except Error Decision) :
    (∃ k, (s.reconcileWith streams now key decide).2.live? k ≠ s.live? k) ↔
      Alters (verdict streams now key (s.live? key) s.mint decide).1 := by
  have hanswer := (hs.reconcileWith_eq now key decide).1
  have hend := ending streams now key decide hs.sound.tidy
  rw [if_pos hopen] at hanswer
  rw [hanswer] at hend
  generalize (s.reconcileWith streams now key decide).2 = s' at hend
  constructor
  · rintro ⟨k, hk⟩
    by_contra hnot
    cases hverdict : (verdict streams now key (s.live? key) s.mint decide).1 with
    | error e => exact hk ((hverdict ▸ hend).live?_error k)
    | ok r =>
      have hr : r.changed = false := Bool.eq_false_iff.mpr fun hchanged => hnot ⟨r, hverdict, hchanged⟩
      exact hk ((hverdict ▸ hend).live?_of_unchanged hr k)
  · intro halters
    obtain ⟨decision, entry, mint', hd, hrevision⟩ := alters_iff.mp halters
    rw [verdict_of_decided hd, hrevision.resolve_eq] at hend
    have hlive := (hend.live?_ok key).trans (if_pos rfl)
    exact ⟨key, fun hsame => hrevision.ne_current (hsame.symm.trans hlive)⟩

/-- What was taken in shows that changes are taken in. -/
theorem Submission.isOpen_of_ok {change : Change} (h : Submission s now change (.ok s')) : s.IsOpen := by
  intro j hj
  cases h with
  | unkept hnone => exact absurd (hnone.symm.trans hj) (by simp)
  | taken j' notices hj' hopen => exact Option.some.inj (hj'.symm.trans hj) ▸ hopen

theorem evict_fst (hs : s.Tidy) (now : Moment) (key : Key) : (s.evict now key).1 =
    match s.live? key with
    | none => .ok none
    | some entry => if s.IsOpen then .ok (some entry.identity) else .error closedError := by
  have hev := eviction hs now key
  generalize s.evict now key = result at hev
  obtain ⟨answer, s'⟩ := result
  cases hev with
  | nothing hlive => simp only [hlive]
  | refused entry e hlive hsub =>
    simp only [hlive, if_neg hsub.not_isOpen]
    cases hsub with
    | refused j hj hclosed => rfl
  | removed entry s' hlive hsub =>
    simp only [hlive, if_pos hsub.isOpen_of_ok]

theorem evict_fst_of_isOpen (hs : s.Tidy) (hopen : s.IsOpen) (now : Moment) (key : Key) :
    (s.evict now key).1 = .ok ((s.live? key).map Entry.identity) := by
  rw [evict_fst hs now key]
  cases s.live? key <;> simp [hopen]

theorem evictAll_of_not_isOpen (hs : s.Tidy) (hclosed : ¬s.IsOpen) (now : Moment) :
    (s.evictAll now).1 = if s.keys = [] then .ok 0 else .error closedError := by
  unfold evictAll
  cases hkeys : s.keys with
  | nil => rfl
  | cons key rest =>
    -- The first key is live, so its eviction is refused, and with it all others.
    obtain ⟨entry, hlive⟩ := (mem_keys_iff hs key).mp (hkeys ▸ List.mem_cons_self)
    have hfirst := evict_fst hs now key
    simp only [hlive, if_neg hclosed] at hfirst
    unfold evictEach
    generalize s.evict now key = result at hfirst
    obtain ⟨answer, s'⟩ := result
    rw [show answer = .error closedError from hfirst]
    rfl

theorem exists_evictAll_of_isOpen (hs : s.Tidy) (hopen : s.IsOpen) (now : Moment) :
    ∃ n, (s.evictAll now).1 = .ok n := by
  cases hanswer : (s.evictAll now).1 with
  | ok n => exact ⟨n, rfl⟩
  | error e => exact absurd hopen (evictEach_error now s.keys 0 s hs hanswer).2

theorem keys_eq_nil_iff (hs : s.Tidy) : s.keys = [] ↔ ∀ key, s.live? key = none := by
  rw [List.eq_nil_iff_forall_not_mem]
  refine forall_congr' fun key => ?_
  rw [mem_keys_iff hs, Option.eq_none_iff_forall_ne_some, not_exists]

/-- At most one change is submitted between the two stores, at that time. -/
def Fed (now : Moment) (s s' : Store) : Prop :=
  s'.journal = s.journal ∨ ∃ j change, s.journal = some j ∧ s'.journal = some (j.push now.tick change)

/-- The journal stays, and takes in after it what it took in before. -/
theorem Fed.exists_journal (h : Fed now s s') {j : Journal} (hj : s.journal = some j) :
    ∃ j', s'.journal = some j' ∧ j'.accepting = j.accepting := by
  rcases h with hsame | ⟨i, change, hi, hpush⟩
  · exact ⟨j, hsame.trans hj, rfl⟩
  · obtain rfl := Option.some.inj (hi.symm.trans hj)
    exact ⟨_, hpush, rfl⟩

theorem Fed.isOpen (h : Fed now s s') (hopen : s.IsOpen) : s'.IsOpen := by
  intro j hj
  rcases h with hsame | ⟨i, change, hi, hpush⟩
  · exact hopen j (hsame.symm.trans hj)
  · rw [← Option.some.inj (hpush.symm.trans hj)]
    exact hopen i hi

theorem Ending.fed {answer : Except Error Reconciliation} (h : Ending s streams now key decide answer s') :
    Fed now s s' := by
  cases h with
  | undecided | unresolved | stands | unshipped => exact .inl rfl
  | revised decision entry mint s' hd h hship =>
    unfold Fed
    rw [applied_journal]
    cases hship with
    | unkept hnone => exact .inl rfl
    | taken j record notices hj hr hopen => exact .inr ⟨j, _, hj, rfl⟩

theorem Eviction.fed {answer : Except Error (Option Identity)} (h : Eviction s now key answer s') : Fed now s s' := by
  cases h with
  | nothing | refused => exact .inl rfl
  | removed entry s' hlive hsub =>
    cases hsub with
    | unkept hnone => exact .inl rfl
    | taken j notices hj hopen => exact .inr ⟨j, _, hj, rfl⟩

end ResponseCache.Store
