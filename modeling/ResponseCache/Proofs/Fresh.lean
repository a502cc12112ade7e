import ResponseCache.Proofs.Chronicle

namespace ResponseCache

namespace Mint
variable {m m' m'' : Mint} {i : Identity}

/-- The second mint is the first one, or has gone on from it. -/
def Onward (m m' : Mint) : Prop := m.next.toNat ≤ m'.next.toNat

theorem Onward.refl (m : Mint) : m.Onward m := Nat.le_refl _

theorem Onward.trans (h : m.Onward m') (h' : m'.Onward m'') : m.Onward m'' := Nat.le_trans h h'

theorem onward_of_mint? (h : m.mint? = some (i, m')) : m.Onward m' := by
  obtain ⟨-, hnext⟩ := of_mint? h
  unfold Onward
  omega

theorem onward_advancePast (m : Mint) (seen : Identity) : m.Onward (m.advancePast seen) := by
  unfold Onward
  rw [toNat_next_advancePast]
  omega

theorem Onward.past (h : m.Onward m') (hi : m.Past i) : m'.Past i := by
  have hlt : m'.next.toNat < 18446744073709551616 := m'.next.toNat_lt
  unfold Onward at h
  rw [past_iff] at hi ⊢
  omega

theorem Onward.eq_or_past (h : m.Onward m') : m' = m ∨ m'.Past ⟨m.next⟩ := by
  obtain ⟨next⟩ := m
  obtain ⟨next'⟩ := m'
  have hle : next.toNat ≤ next'.toNat := h
  rw [past_iff]
  by_cases heq : next'.toNat = next.toNat
  · exact .inl (congrArg Mint.mk (UInt64.toNat_inj.mp heq))
  · have hlt : next.toNat < next'.toNat := by omega
    exact .inr (.inl hlt)

theorem Onward.eq_of_exhausted (h : m.Onward m') (hm : m.mint? = none) : m' = m := by
  have hmax := (mint?_eq_none_iff m).mp hm
  have hlt : m'.next.toNat < 18446744073709551616 := m'.next.toNat_lt
  unfold Onward at h
  have heq : m'.next.toNat = m.next.toNat := by omega
  exact congrArg Mint.mk (UInt64.toNat_inj.mp heq)

end Mint

namespace Store
variable {s s' : Store} {streams streams' : Streams} {now : Moment} {key : Key}

theorem Revision.onward {mint mint' : Mint} {current : Option Entry} {decision : Decision} {entry : Entry}
    (h : Revision streams now key mint current decision entry mint') : mint.Onward mint' := by
  cases h with
  | attach old a hsealed hnew => exact .refl mint
  | clear old hsome => exact .refl mint
  | replace current primary alternative identity mint' hprimary halternative hmint hnew =>
    exact Mint.onward_of_mint? hmint

theorem Resolution.onward {mint mint' : Mint} {current : Option Entry} {decision : Decision}
    {answer : Except Error (Entry × Bool)} (h : Resolution streams now key mint current decision answer mint') :
    mint.Onward mint' := by
  cases h with
  | revised entry mint' h => exact h.onward
  | collision identity mint' hkind hmint hold => exact Mint.onward_of_mint? hmint
  | stands | unready | missing | exhausted => exact .refl mint

theorem Ending.onward {decide : Option Entry → Except Error Decision} {answer : Except Error Reconciliation}
    (h : Ending s streams now key decide answer s') : s.mint.Onward s'.mint := by
  cases h with
  | undecided e hd => exact .refl s.mint
  | unresolved decision e mint hd h => exact h.onward
  | stands decision entry hd hlive h => exact .refl s.mint
  | unshipped decision entry mint e hd h hship => exact h.onward
  | revised decision entry mint s' hd h hship =>
    rw [applied_mint, hship.mint_eq]
    exact h.onward

theorem Eviction.onward {answer : Except Error (Option Identity)} (h : Eviction s now key answer s') :
    s.mint.Onward s'.mint := by
  cases h with
  | nothing hlive => exact .refl s.mint
  | refused entry e hlive hsub => exact .refl s.mint
  | removed entry s' hlive hsub =>
    show s.mint.Onward s'.mint
    rw [hsub.mint_eq]
    exact .refl s.mint

theorem Restoring.onward {record : Record} {isNew : Bool} (h : Restoring s now record streams isNew streams' s') :
    s.mint.Onward s'.mint := by
  cases h with
  | skipped habsent => exact .refl s.mint
  | passed entry hpresent hlive => exact s.mint.onward_advancePast record.identity
  | installed hpresent hlive => exact s.mint.onward_advancePast record.identity

/-- After a record was read the mint is past its identity, be it installed or not. -/
theorem Restoring.past {record : Record} {isNew : Bool} (h : Restoring s now record streams isNew streams' s')
    (hs : s.mint.Past .absent) : s'.mint.Past record.identity := by
  cases h with
  | skipped habsent =>
    rw [(Identity.isAbsent_iff _).mp habsent]
    exact hs
  | passed entry hpresent hlive => exact s.mint.past_advancePast record.identity
  | installed hpresent hlive => exact s.mint.past_advancePast record.identity

theorem deeds_eq_singleton {c : Call} {d : Deed} (hd : d ∈ s.deeds c) : s.deeds c = [d] := by
  rcases of_mem_deeds hd with ⟨k, decide, r, -, -, hdeeds⟩ | ⟨hdeeds, -⟩
  · rw [hdeeds] at hd ⊢
    exact Deed.ofAnswer_eq_singleton hd
  · exact hdeeds

theorem mint?_of_replaced (hs : s.Tidy) {c : Call} {identity : Identity} {primary : StreamId}
    {alternative : Option Alternative} (hd : .replaced key identity primary alternative ∈ s.deeds c) :
    s.mint.mint? = some (identity, (s.perform c).2.mint) := by
  rcases of_mem_deeds hd with ⟨k, decide, r, hr, hanswer, hdeeds⟩ | ⟨-, ⟨k, h⟩ | h⟩
  · rw [hdeeds] at hd
    obtain ⟨-, primary', alternative', hdecided⟩ := Deed.of_mem_ofAnswer hd rfl
    rw [hdecided, Deed.ofAnswer, List.mem_singleton, Deed.replaced.injEq] at hd
    have hend := ending c.streams c.now k decide hs
    rw [hanswer] at hend
    obtain ⟨identity', hmint, -, hentry⟩ := hend.replaced hdecided
    have hid : identity = identity' := by rw [hd.2.1, hentry, Entry.fresh]
    rw [perform_of_decide? hr, hid]
    exact hmint
  · exact absurd h (by simp)
  · exact absurd h (by simp)

/-- In a store with sound entries a collision is reported only by a client that decides so itself. -/
theorem Ending.undecided_of_collision {decide : Option Entry → Except Error Decision} {k : String}
    {previous minted : Identity} (hs : s.Living streams)
    (h : Ending s streams now key decide (.error (.identityCollision k previous minted)) s') :
    decide (s.live? key) = .error (.identityCollision k previous minted) := by
  cases h with
  | undecided e hd => exact hd
  | unresolved decision e mint hd h =>
    -- The mint is past the live entry, so what it gives out cannot be at most that identity.
    cases h with
    | unready e he => rcases he.error_eq with h | h <;> cases h
    | collision identity mint' hkind hmint hold =>
      have hlt := (Identity.lt_iff _ _).mp ((hs.sound.minted.identityOf key).lt hmint)
      have hle := (Identity.le_iff _ _).mp hold
      omega
  | unshipped decision entry mint e hd h hship =>
    exact absurd (hship.refused_of_sealed (h.sealed (hs.sealed key))).1 (by simp)

/-- Without an identity left a replacement is refused and leaves the store as it is. One of its streams has no content, which
is told, or all have and it is the identity that is missing. -/
theorem Ending.of_exhausted {decide : Option Entry → Except Error Decision} {answer : Except Error Reconciliation}
    {primary : StreamId} {alternative : Option Alternative} (hmint : s.mint.mint? = none)
    (hd : decide (s.live? key) = .ok (.replace primary alternative)) (h : Ending s streams now key decide answer s') :
    s' = s ∧ ((∃ e, streams.Refuses (Decision.replace primary alternative).streams e ∧ answer = .error e) ∨
      (∀ id ∈ (Decision.replace primary alternative).streams, streams.Sealed id) ∧
        answer = .error (.internal "identity space exhausted")) := by
  -- A revision by a replacement would have taken an identity from the mint.
  have hnone (decision : Decision) (hdecide : decide (s.live? key) = .ok decision) (entry : Entry) (mint : Mint)
      (h : Revision streams now key s.mint (s.live? key) decision entry mint) : False := by
    rw [Except.ok.inj (hdecide.symm.trans hd)] at h
    generalize s.live? key = current at h
    cases h with
    | replace _ _ _ identity mint hprimary halternative hgiven hnew =>
      exact absurd (hmint.symm.trans hgiven) (by simp)
  cases h with
  | undecided e hdecide => exact absurd (hdecide.symm.trans hd) (by simp)
  | unresolved decision e mint hdecide h =>
    rw [Except.ok.inj (hdecide.symm.trans hd)] at h
    cases h with
    | unready e he => exact ⟨rfl, .inl ⟨e, he, rfl⟩⟩
    | missing hcurrent hkind => exact absurd rfl hkind
    | exhausted hkind hnone hsealed => exact ⟨rfl, .inr ⟨hsealed, rfl⟩⟩
    | collision identity mint hkind hgiven hold => exact absurd (hmint.symm.trans hgiven) (by simp)
  | stands decision entry hdecide hlive h =>
    rw [Except.ok.inj (hdecide.symm.trans hd)] at h
    cases h
  | unshipped decision entry mint e hdecide h hship => exact (hnone decision hdecide entry mint h).elim
  | revised decision entry mint s' hdecide h hship => exact (hnone decision hdecide entry mint h).elim

end Store

namespace System

theorem alwaysKept_onward (mint : Mint) : AlwaysKept fun _ _ s => s.Tidy ∧ mint.Onward s.mint where
  alike := by
    rintro _ _ s _ ⟨monitor, rfl⟩ ⟨hs, h⟩
    exact ⟨hs.of_slots rfl, h⟩
  streams := fun _ h => h
  decide := by
    rintro streams _ s now key decide ⟨hs, h⟩
    have hend := Store.ending streams now key decide hs
    exact ⟨hend.tidy hs, h.trans hend.onward⟩
  evict := by
    rintro _ _ s now key ⟨hs, h⟩
    have hev := Store.eviction hs now key
    exact ⟨hev.tidy hs, h.trans hev.onward⟩
  work := fun _ _ ⟨hs, h⟩ => ⟨hs.of_slots rfl, h⟩
  collect := fun _ _ _ ⟨hs, h⟩ => ⟨hs.of_slots rfl, h⟩
  close := fun _ ⟨hs, h⟩ => ⟨hs.of_slots rfl, h⟩
  cancel := fun _ ⟨hs, h⟩ => ⟨hs.of_slots rfl, h⟩
  restore := by
    rintro streams _ s now record ⟨hs, h⟩
    have hres := Store.restoring now record streams s
    exact ⟨hres.tidy hs, h.trans hres.onward⟩
  submit := by
    rintro _ _ s s' now change hsubmit ⟨hs, h⟩
    have hsub := hsubmit ▸ s.submission now change
    exact ⟨hs.of_slots hsub.slots_eq, hsub.mint_eq ▸ h⟩
  disturb := fun _ h => h

theorem onward_step {y : System} (hy : y.store.Tidy) (m : Move) : y.store.mint.Onward (y.step m).store.mint :=
  ((alwaysKept_onward y.store.mint).step m ⟨hy, .refl _⟩).2

theorem onward_run {y : System} (hy : y.store.Tidy) (moves : List Move) :
    y.store.mint.Onward (y.run moves).store.mint :=
  ((alwaysKept_onward y.store.mint).run moves ⟨hy, .refl _⟩).2

/-- The identity that the mint gave out under a move: the one it stood at, if it has gone on. A mint that is moved past the
identities of records gives out none. -/
def minted (y : System) : Move → Option Identity
  | .restore _ _ => none
  | m => if (y.step m).store.mint = y.store.mint then none else some ⟨y.store.mint.next⟩

/-- The identities of the records that a move reads. -/
def Move.read : Move → List Identity
  | .restore _ records => records.map (·.identity)
  | _ => []

/-- All identities that were minted or read in a run. -/
def identities (y : System) : List Move → List Identity
  | [] => []
  | m :: rest => (y.minted m).toList ++ m.read ++ (y.step m).identities rest

theorem past_restore (now : Moment) (records : List Record) : ∀ (streams : Streams) (s : Store), s.mint.Past .absent →
    s.Tidy → ∀ i ∈ records.map (·.identity), (s.restore now records streams).2.2.mint.Past i := by
  -- Each record moves the mint past its identity, and the mint only goes on under the records behind it.
  induction records with
  | nil => exact fun _ _ _ _ i hi => absurd hi List.not_mem_nil
  | cons record rest ih =>
    intro streams s habsent hs i hi
    have hone := Store.restoring now record streams s
    have hrest := ih (s.restoreOne now record streams).2.1 (s.restoreOne now record streams).2.2
      (hone.onward.past habsent) (hone.tidy hs)
    have honward : (s.restoreOne now record streams).2.2.mint.Onward (s.restore now (record :: rest) streams).2.2.mint :=
      ((alwaysKept_onward _).restoreAll now rest _ {} _ ⟨hone.tidy hs, .refl _⟩).2
    rcases List.mem_cons.mp hi with rfl | hmem
    · exact honward.past (hone.past habsent)
    · exact hrest i hmem

theorem of_minted {y : System} {m : Move} {i : Identity} (hi : y.minted m = some i) :
    (y.step m).store.mint ≠ y.store.mint ∧ i = ⟨y.store.mint.next⟩ := by
  unfold minted at hi
  split at hi
  · exact absurd hi (by simp)
  · split at hi
    · exact absurd hi (by simp)
    · rename_i hne
      exact ⟨hne, (Option.some.inj hi).symm⟩

theorem past_of_minted {y : System} (hy : y.store.Tidy) {m : Move} {i : Identity} (hi : y.minted m = some i) :
    (y.step m).store.mint.Past i := by
  obtain ⟨hne, rfl⟩ := of_minted hi
  rcases (onward_step hy m).eq_or_past with heq | hpast
  · exact absurd heq hne
  · exact hpast

theorem lt_of_minted {y : System} (hy : y.store.Tidy) {m : Move} {i k : Identity} (hk : y.store.mint.Past k)
    (hi : y.minted m = some i) : k < i := by
  obtain ⟨hne, rfl⟩ := of_minted hi
  rcases hk with hlt | hnone
  · exact hlt
  · exact absurd ((onward_step hy m).eq_of_exhausted hnone) hne

theorem past_of_read {y : System} (hy : y.store.Sound) {m : Move} {i : Identity} (hi : i ∈ m.read) :
    (y.step m).store.mint.Past i := by
  cases m with
  | restore now records => exact past_restore now records y.streams y.store hy.minted.absent hy.tidy i hi
  | _ => exact absurd hi List.not_mem_nil

/-- After a run the mint is past all identities of the run. -/
theorem past_of_mem_identities (moves : List Move) : ∀ {y : System}, y.store.Sound → ∀ i ∈ y.identities moves,
    (y.run moves).store.mint.Past i := by
  induction moves with
  | nil => exact fun _ i hi => absurd hi List.not_mem_nil
  | cons m rest ih =>
    intro y hy i hi
    have hstep : (y.step m).store.Sound := alwaysKept_sound.step m hy
    have honward : (y.step m).store.mint.Onward (y.run (m :: rest)).store.mint := onward_run hstep.tidy rest
    -- What the first move minted or read stays behind the mint under the rest of the run.
    rw [identities, List.mem_append, List.mem_append] at hi
    rcases hi with (hminted | hread) | hlater
    · exact honward.past (past_of_minted hy.tidy (Option.mem_toList.mp hminted))
    · exact honward.past (past_of_read hy hread)
    · exact ih hstep i hlater

theorem mint?_of_deed {y : System} (hy : y.store.Tidy) {m : Move} {key : Key} {identity : Identity} {primary : StreamId}
    {alternative : Option Alternative} (hd : .replaced key identity primary alternative ∈ y.deeds m) :
    y.store.mint.mint? = some (identity, (y.step m).store.mint) := by
  unfold deeds at hd
  split at hd
  · rename_i s c hcall
    obtain ⟨⟨monitor, rfl⟩, monitor', hafter⟩ := alike_of_call? hcall
    have hs : Store.Tidy { y.store with monitor } := hy.of_slots rfl
    rw [hafter]
    exact Store.mint?_of_replaced hs hd
  · exact absurd hd List.not_mem_nil

theorem deeds_eq_singleton {y : System} {m : Move} {d : Deed} (hd : d ∈ y.deeds m) : y.deeds m = [d] := by
  unfold deeds at hd ⊢
  split at hd
  · exact Store.deeds_eq_singleton hd
  · exact absurd hd List.not_mem_nil

theorem not_restores_of_mem_deeds {y : System} {m : Move} {d : Deed} (hd : d ∈ y.deeds m) : ¬m.Restores := by
  intro hm
  cases m with
  | restore now records => exact absurd hd (by simp [deeds, call?])
  | _ => exact hm

theorem minted_of_mint? {y : System} {m : Move} (hm : ¬m.Restores) {i : Identity}
    (h : y.store.mint.mint? = some (i, (y.step m).store.mint)) : y.minted m = some i := by
  obtain ⟨hraw, hnext⟩ := Mint.of_mint? h
  have hne : (y.step m).store.mint ≠ y.store.mint := by
    intro heq
    rw [heq] at hnext
    omega
  have hi : (⟨y.store.mint.next⟩ : Identity) = i := by
    rw [← hraw]
  cases m with
  | restore now records => exact absurd trivial hm
  | _ => simp only [minted, hne, if_false, hi]

/-- Every replacement that succeeds gets an identity that is present and larger than all that were minted or read in the
run before. So no decision fails for an identity that is not new, unless the client itself decides so. When the mint has
nothing left it stays so, it never comes round to zero, and every replacement is refused without a trace: for want of an
identity if all its streams have content, else for want of content, by the error that the first stream without it gives. -/
theorem identities_only_grow (config : Config) (persistent : Bool) (origin : Origin) (publisher : Publisher)
    (backend : Backend) (moves : List Move) :
    let start := start config persistent origin publisher backend
    let y := start.run moves
    (∀ m key identity primary alternative, .replaced key identity primary alternative ∈ y.deeds m →
      y.minted m = some identity ∧ identity ≠ .absent ∧ (∀ i ∈ start.identities moves, i < identity) ∧
      ((y.step m).store.live? key).map Entry.generation = some ⟨identity, primary, alternative⟩) ∧
    (∀ now key k previous minted,
      (∀ decision, (y.store.reconcile y.streams now key decision).1 ≠ .error (.identityCollision k previous minted)) ∧
      ∀ decide, (y.store.reconcileWith y.streams now key decide).1 = .error (.identityCollision k previous minted) →
        decide (y.store.live? key) = .error (.identityCollision k previous minted)) ∧
    (y.store.mint.mint? = none → ∀ later, let z := y.run later
      z.store.mint = y.store.mint ∧ z.store.mint.next ≠ 0 ∧
      ∀ now key decide primary alternative, decide (z.store.live? key) = .ok (.replace primary alternative) →
        let result := z.store.reconcileWith z.streams now key decide
        result.2 = z.store ∧
        ((∀ id ∈ (Decision.replace primary alternative).streams, z.streams.Sealed id) →
          result.1 = .error (.internal "identity space exhausted")) ∧
        ((∃ id ∈ (Decision.replace primary alternative).streams, ¬z.streams.Sealed id) →
          ∃ before id after e, (Decision.replace primary alternative).streams = before ++ id :: after ∧
            (∀ i ∈ before, z.streams.Sealed i) ∧ z.streams.ensureSealed id = .error e ∧
            (e = .streamNotReady ∨ e = .streamAborted) ∧ result.1 = .error e)) := by
  intro start y
  have hstart : start.store.Living start.streams := living_start config persistent origin publisher backend
  have hy : y.store.Living y.streams := living_run hstart moves
  refine ⟨?_, ?_, ?_⟩
  · intro m key identity primary alternative hd
    have hmint := mint?_of_deed hy.sound.tidy hd
    refine ⟨minted_of_mint? (not_restores_of_mem_deeds hd) hmint, hy.sound.minted.absent.ne_absent hmint, ?_, ?_⟩
    · intro i hi
      exact (past_of_mem_identities moves hstart.sound i hi).lt hmint
    · rw [generation_step hy.sound.tidy (not_restores_of_mem_deeds hd), deeds_eq_singleton hd, List.foldl_cons,
        List.foldl_nil, Deed.remember_replaced]
  · intro now key k previous minted
    have hdecided (decide : Option Entry → Except Error Decision)
        (he : (y.store.reconcileWith y.streams now key decide).1 = .error (.identityCollision k previous minted)) :
        decide (y.store.live? key) = .error (.identityCollision k previous minted) := by
      have hend := Store.ending y.streams now key decide hy.sound.tidy
      rw [he] at hend
      exact hend.undecided_of_collision hy
    refine ⟨?_, hdecided⟩
    -- A decision that is given beforehand is no error.
    intro decision he
    exact absurd (hdecided (fun _ => .ok decision) he) (by simp)
  · intro hmint later z
    have hz : z.store.Living z.streams := living_run hy later
    -- The mint stands at the last identity, and it only goes on.
    have hsame : z.store.mint = y.store.mint := (onward_run hy.sound.tidy later).eq_of_exhausted hmint
    have hnext : z.store.mint.next.toNat = 18446744073709551615 := (Mint.mint?_eq_none_iff _).mp (hsame ▸ hmint)
    refine ⟨hsame, ?_, ?_⟩
    · intro hzero
      rw [hzero] at hnext
      exact absurd hnext (by decide)
    · intro now key decide primary alternative hd result
      have hend := Store.ending z.streams now key decide hz.sound.tidy
      obtain ⟨hstore, ⟨e, hrefuses, hanswer⟩ | ⟨hsealed, hanswer⟩⟩ := hend.of_exhausted (hsame ▸ hmint) hd
      · refine ⟨hstore, fun hsealed => absurd hsealed hrefuses.not_sealed, fun _ => ?_⟩
        obtain ⟨before, id, after, hids, hbefore, he⟩ := hrefuses
        exact ⟨before, id, after, e, hids, hbefore, he, Streams.error_of_ensureSealed he, hanswer⟩
      · exact ⟨hstore, fun _ => hanswer, fun ⟨id, hid, hnot⟩ => absurd (hsealed id hid) hnot⟩

/-- A record with the last identity leaves none to mint, and still a replacement by a stream that is being written is refused
for want of content. -/
theorem unsealed_replacement_without_identities : ∃ y : System,
    y = (start {} false {} .nobody {}).run [
      .restore ⟨0⟩ [⟨.ofUri "a", ⟨0xffffffffffffffff⟩, "text/plain", [], none, ⟨0, 0⟩⟩],
      .openStream { contentType := "text/plain" }] ∧
    y.store.mint.mint? = none ∧
    (y.store.reconcile y.streams ⟨0⟩ (.ofUri "b") (.replace 1 none)).1 = .error .streamNotReady ∧
    (y.store.reconcile y.streams ⟨0⟩ (.ofUri "b") (.replace 1 none)).1 ≠
      .error (.internal "identity space exhausted") := by
  have hunready : ∀ y : System, (y.store.reconcile y.streams ⟨0⟩ (.ofUri "b") (.replace 1 none)).1 = .error .streamNotReady →
      (y.store.reconcile y.streams ⟨0⟩ (.ofUri "b") (.replace 1 none)).1 ≠
        .error (.internal "identity space exhausted") := by
    intro y h he
    exact absurd (h.symm.trans he) (by simp)
  exact ⟨_, rfl, rfl, rfl, hunready _ rfl⟩

end System
end ResponseCache
