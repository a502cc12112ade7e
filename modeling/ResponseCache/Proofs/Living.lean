import ResponseCache.Proofs.Refusal

namespace ResponseCache

theorem Identity.isAbsent_iff (i : Identity) : i.isAbsent = true ↔ i = absent := by
  obtain ⟨raw⟩ := i
  simp [isAbsent, absent]

theorem Mint.Past.ne_absent {m m' : Mint} {i : Identity} (hm : m.Past .absent) (h : m.mint? = some (i, m')) :
    i ≠ .absent := by
  have hlt := (Identity.lt_iff _ _).mp (hm.lt h)
  rintro rfl
  omega

namespace Store

structure Living (streams : Streams) (s : Store) : Prop where
  sound : s.Sound
  sealed : ∀ key entry, s.live? key = some entry → entry.Sealed streams
  present : ∀ key entry, s.live? key = some entry → entry.identity ≠ .absent
  counted : s.count = s.keys.length

theorem length_keys_eq {s s' : Store} (hs : s.Tidy) (hs' : s'.Tidy)
    (h : ∀ key, (s'.live? key).isSome = (s.live? key).isSome) : s'.keys.length = s.keys.length := by
  refine List.Perm.length_eq ?_
  rw [List.perm_ext_iff_of_nodup (nodup_keys hs') (nodup_keys hs)]
  intro key
  rw [mem_keys_iff hs', mem_keys_iff hs, ← Option.isSome_iff_exists, ← Option.isSome_iff_exists, h key]

theorem length_keys_succ {s s' : Store} (hs : s.Tidy) (hs' : s'.Tidy) (key : Key) (hnew : s.live? key = none)
    (h : ∀ key', (s'.live? key').isSome = true ↔ key' = key ∨ (s.live? key').isSome = true) :
    s'.keys.length = s.keys.length + 1 := by
  have hnot : key ∉ s.keys := by
    rw [mem_keys_iff hs, hnew]
    simp
  have hperm : s'.keys.Perm (key :: s.keys) := by
    rw [List.perm_ext_iff_of_nodup (nodup_keys hs') (List.nodup_cons.mpr ⟨hnot, nodup_keys hs⟩)]
    intro key'
    rw [List.mem_cons, mem_keys_iff hs', mem_keys_iff hs, ← Option.isSome_iff_exists, ← Option.isSome_iff_exists, h key']
  exact hperm.length_eq

/-- An entry that becomes live adds its key, unless the key was live already. -/
theorem length_keys_of_live {s s' : Store} (hs : s.Tidy) (hs' : s'.Tidy) {key : Key} {entry : Entry}
    (h : ∀ key', s'.live? key' = if key = key' then some entry else s.live? key') :
    s'.keys.length = s.keys.length + (s.live? key).isNone.toNat := by
  cases hlive : s.live? key with
  | none =>
    refine length_keys_succ hs hs' key hlive ?_
    intro key'
    rw [h key']
    by_cases hk : key = key'
    · simp [hk]
    · have hk' : ¬key' = key := fun h => hk h.symm
      simp [hk, hk']
  | some old =>
    -- The key was live before, so the same keys are live.
    refine length_keys_eq hs hs' ?_
    intro key'
    rw [h key']
    by_cases hk : key = key'
    · simp [← hk, hlive]
    · rw [if_neg hk]

section
variable {s s' : Store} {streams streams' : Streams} {now : Moment} {key : Key}

theorem Living.of_eq (h : s.Living streams) (hslots : s'.slots = s.slots) (hsound : s'.Sound)
    (hcount : s'.count = s.count) : s'.Living streams := by
  have hlive (key : Key) : s'.live? key = s.live? key := by rw [live?, live?, hslots]
  refine ⟨hsound, ?_, ?_, ?_⟩
  · exact fun key entry hentry => h.sealed key entry (hlive key ▸ hentry)
  · exact fun key entry hentry => h.present key entry (hlive key ▸ hentry)
  · rw [hcount, h.counted, keys, keys, hslots]

theorem Living.of_keeps (h : s.Living streams) (hk : streams.Keeps streams') : s.Living streams' :=
  ⟨h.sound, fun key entry hentry => (h.sealed key entry hentry).of_keeps hk, h.present, h.counted⟩

/-- An entry that is sealed, has an identity and is counted may become live. -/
theorem Living.install (h : s.Living streams) (hk : streams.Keeps streams') (hsound : s'.Sound) (key : Key) {entry : Entry}
    (hlive : ∀ key', s'.live? key' = if key = key' then some entry else s.live? key') (hsealed : entry.Sealed streams')
    (hpresent : entry.identity ≠ .absent) (hcount : s'.count = s.count + (s.live? key).isNone.toNat) :
    s'.Living streams' := by
  refine ⟨hsound, ?_, ?_, ?_⟩
  · intro key' e he
    rw [hlive] at he
    split at he
    · exact Option.some.inj he ▸ hsealed
    · exact (h.sealed key' e he).of_keeps hk
  · intro key' e he
    rw [hlive] at he
    split at he
    · exact Option.some.inj he ▸ hpresent
    · exact h.present key' e he
  · rw [hcount, h.counted, length_keys_of_live h.sound.tidy hsound.tidy hlive]

theorem identityOf_of_live {entry : Entry} (h : s.live? key = some entry) : s.identityOf key = entry.identity := by
  rw [identityOf, h]
  rfl

theorem Living.isAbsent_identityOf (h : s.Living streams) (key : Key) :
    (ResponseCache.identityOf (s.live? key)).isAbsent = (s.live? key).isNone := by
  cases hlive : s.live? key with
  | none => rfl
  | some entry =>
    have hpresent : ¬entry.identity.isAbsent = true :=
      fun ha => h.present key entry hlive (entry.identity.isAbsent_iff.mp ha)
    simpa [ResponseCache.identityOf] using hpresent

theorem Revision.sealed {mint mint' : Mint} {current : Option Entry} {decision : Decision} {entry : Entry}
    (h : Revision streams now key mint current decision entry mint')
    (hcurrent : ∀ old, current = some old → old.Sealed streams) : entry.Sealed streams := by
  cases h with
  | attach old a hsealed hnew =>
    refine ⟨(hcurrent old rfl).primary, ?_⟩
    intro a' ha'
    exact Option.some.inj ha' ▸ hsealed
  | clear old hsome => exact ⟨(hcurrent old rfl).primary, fun a ha => absurd ha (by simp [Entry.withAlternative])⟩
  | replace current primary alternative identity mint' hprimary halternative hmint hnew =>
    exact ⟨hprimary, halternative⟩

theorem Revision.present {mint mint' : Mint} {current : Option Entry} {decision : Decision} {entry : Entry}
    (h : Revision streams now key mint current decision entry mint') (hmint : mint.Past .absent)
    (hcurrent : ∀ old, current = some old → old.identity ≠ .absent) : entry.identity ≠ .absent := by
  cases h with
  | attach old a hsealed hnew => exact hcurrent old rfl
  | clear old hsome => exact hcurrent old rfl
  | replace current primary alternative identity mint' hprimary halternative hgiven hnew =>
    exact hmint.ne_absent hgiven

theorem Shipment.count_eq {entry : Entry} (h : Shipment s streams now entry (.ok s')) : s'.count = s.count := by
  cases h <;> rfl

theorem count_applied (s : Store) (key : Key) (entry : Entry) (isNew : Bool) (kind : Decision.Kind) :
    (s.applied key entry isNew kind).count = s.count + isNew.toNat := by
  cases isNew <;> rfl

theorem Ending.living {decide : Option Entry → Except Error Decision} {answer : Except Error Reconciliation}
    (h : Ending s streams now key decide answer s') (hs : s.Living streams) : s'.Living streams := by
  have hsound : s'.Sound := h.sound hs.sound
  cases h with
  | undecided e hd => exact hs
  | unresolved decision e mint hd h => exact hs.of_eq rfl hsound rfl
  | stands decision entry hd hlive h => exact hs.of_eq rfl hsound rfl
  | unshipped decision entry mint e hd h hship => exact hs.of_eq rfl hsound rfl
  | revised decision entry mint s' hd h hship =>
    refine hs.install (.refl streams) hsound key ?_ (h.sealed (hs.sealed key))
      (h.present hs.sound.minted.absent (hs.present key)) ?_
    · intro key'
      rw [live?_applied, live?, hship.slots_eq]
      rfl
    · -- The store counts the entry as new when it saw no identity before, which tells that there was none.
      rw [count_applied, hship.count_eq, hs.isAbsent_identityOf]

theorem Eviction.living {answer : Except Error (Option Identity)} (h : Eviction s now key answer s')
    (hs : s.Living streams) : s'.Living streams := by
  have hsound : s'.Sound := h.sound hs.sound
  have hlive := fun removed (he : answer = .ok removed) => Eviction.live?_ok (he ▸ h)
  cases h with
  | nothing hlive => exact hs
  | refused entry e hlive hsub => exact hs
  | removed entry s' hold hsub =>
    have hgone := hlive _ rfl
    have hcount : s'.count = s.count := by cases hsub <;> rfl
    -- Seen from the end, the evicted key is one more key that was live before.
    have hlength : s.keys.length = (s'.evicted key).keys.length + 1 := by
      refine length_keys_succ hsound.tidy hs.sound.tidy key (by rw [hgone, if_pos rfl]) ?_
      intro key'
      rw [hgone key']
      by_cases hk : key = key'
      · simp [← hk, hold]
      · have hk' : ¬key' = key := fun h => hk h.symm
        simp [hk, hk']
    refine ⟨hsound, ?_, ?_, ?_⟩
    · intro key' e he
      rw [hgone] at he
      split at he
      · exact absurd he (by simp)
      · exact hs.sealed key' e he
    · intro key' e he
      rw [hgone] at he
      split at he
      · exact absurd he (by simp)
      · exact hs.present key' e he
    · show s'.count - 1 = _
      rw [hcount, hs.counted]
      omega

theorem Restoring.living {record : Record} {isNew : Bool} (h : Restoring s now record streams isNew streams' s')
    (hs : s.Living streams) : s'.Living streams' := by
  have hsound : s'.Sound := h.sound hs.sound
  have hkeeps : streams.Keeps streams' := h.keeps
  have hlive := h.live?
  cases h with
  | skipped habsent => exact hs.of_eq rfl hsound rfl
  | passed entry hpresent hold => exact Living.of_keeps (hs.of_eq rfl hsound rfl) hkeeps
  | installed hpresent hvacant =>
    simp only [true_and] at hlive
    obtain ⟨-, hidentity, hsealed⟩ := Record.of_ofEntry (record.ofEntry_toEntry streams now.date)
    refine hs.install hkeeps hsound record.key hlive hsealed ?_ ?_
    · rw [← hidentity, ne_eq, ← Identity.isAbsent_iff, hpresent]
      simp
    · rw [hvacant]
      rfl

end

/-- A decision goes well when the streams that it brings have content, there is an entry unless it replaces, there is an
identity if it replaces, and the journal is open. -/
theorem Ending.exists_ok {s s' : Store} {streams : Streams} {now : Moment} {key : Key}
    {decide : Option Entry → Except Error Decision} {answer : Except Error Reconciliation} {decision : Decision}
    (h : Ending s streams now key decide answer s') (hs : s.Living streams) (hopen : s.IsOpen)
    (hd : decide (s.live? key) = .ok decision) (hsealed : ∀ id ∈ decision.streams, streams.Sealed id)
    (hlive : decision.kind ≠ .replace → s.live? key ≠ none) (hmint : decision.kind = .replace → s.mint.mint? ≠ none) :
    ∃ r, answer = .ok r := by
  cases h with
  | undecided e hdecide => exact absurd (hdecide.symm.trans hd) (by simp)
  | unresolved decision' e mint hdecide h =>
    rw [Except.ok.inj (hdecide.symm.trans hd)] at h
    cases h with
    | unready e he => exact absurd hsealed he.not_sealed
    | missing hcurrent hkind => exact absurd hcurrent (hlive hkind)
    | exhausted hkind hnone _ => exact absurd hnone (hmint hkind)
    | collision identity mint hkind hgiven hold =>
      -- The mint of a sound store is past the live entry.
      have hlt := (Identity.lt_iff _ _).mp ((hs.sound.minted.identityOf key).lt hgiven)
      have hle := (Identity.le_iff _ _).mp hold
      omega
  | stands decision' entry hdecide hcurrent h => exact ⟨_, rfl⟩
  | unshipped decision' entry mint e hdecide h hship =>
    -- A revision is sealed, so only a closed journal turns its record away.
    obtain ⟨-, j, hj, hclosed⟩ := hship.refused_of_sealed (h.sealed (hs.sealed key))
    exact absurd (hclosed.symm.trans (hopen j hj)) (by simp)
  | revised decision' entry mint s' hdecide h hship => exact ⟨_, rfl⟩

theorem Living.fresh {s : Store} (streams : Streams) (hslots : s.slots = {}) (hmint : s.mint = {}) (hcount : s.count = 0) :
    s.Living streams := by
  have hnone (key : Key) : s.live? key = none := by
    rw [live?, hslots]
    rfl
  refine ⟨.fresh hslots hmint, ?_, ?_, ?_⟩
  · exact fun key entry hentry => absurd ((hnone key).symm.trans hentry) (by simp)
  · exact fun key entry hentry => absurd ((hnone key).symm.trans hentry) (by simp)
  · rw [hcount, keys, hslots]
    rfl

end Store

namespace System

theorem alwaysKept_living : AlwaysKept fun streams _ s => s.Living streams where
  alike := by
    rintro _ _ s _ ⟨monitor, rfl⟩ hs
    exact hs.of_eq rfl (hs.sound.of_eq rfl rfl) rfl
  streams := fun hk hs => hs.of_keeps hk
  decide := fun now key decide hs => (Store.ending _ now key decide hs.sound.tidy).living hs
  evict := fun now key hs => (Store.eviction hs.sound.tidy now key).living hs
  work := fun _ _ hs => hs.of_eq rfl (hs.sound.of_eq rfl rfl) rfl
  collect := fun _ _ _ hs => hs.of_eq rfl (hs.sound.of_eq rfl rfl) rfl
  close := fun _ hs => hs.of_eq rfl (hs.sound.of_eq rfl rfl) rfl
  cancel := fun _ hs => hs.of_eq rfl (hs.sound.of_eq rfl rfl) rfl
  restore := fun now record hs => (Store.restoring now record _ _).living hs
  submit := by
    intro _ _ s s' now change hsubmit hs
    have hsub := hsubmit ▸ s.submission now change
    have hcount : s'.count = s.count := by cases hsub <;> rfl
    exact hs.of_eq hsub.slots_eq (hs.sound.of_eq hsub.slots_eq hsub.mint_eq) hcount
  disturb := fun _ hs => hs

theorem living_start (config : Config) (persistent : Bool) (origin : Origin) (publisher : Publisher) (backend : Backend) :
    (start config persistent origin publisher backend).store.Living
      (start config persistent origin publisher backend).streams :=
  .fresh {} rfl rfl rfl

theorem living_step {y : System} (hy : y.store.Living y.streams) (m : Move) : (y.step m).store.Living (y.step m).streams :=
  alwaysKept_living.step m hy

theorem living_run {y : System} (hy : y.store.Living y.streams) (moves : List Move) :
    (y.run moves).store.Living (y.run moves).streams :=
  alwaysKept_living.run moves hy

end System
end ResponseCache
