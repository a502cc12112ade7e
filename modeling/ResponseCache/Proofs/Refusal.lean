import ResponseCache.Proofs.Encoding
import ResponseCache.Proofs.Store.Sound
import ResponseCache.Proofs.System

namespace ResponseCache

namespace Store
variable {s s' : Store} {streams : Streams} {now : Moment} {key : Key}

/-- A replacement got an identity, leaving this mint behind, and was then refused by the journal. -/
def ReplacementRefused (s : Store) (decision : Except Error Decision) (e : Error) (mint : Mint) : Prop :=
  ∃ primary alternative identity j, decision = .ok (.replace primary alternative) ∧
    s.mint.mint? = some (identity, mint) ∧ s.journal = some j ∧ j.accepting = false ∧
    e = .persistence "flush coordinator is shut down"

theorem Ending.refused {decide : Option Entry → Except Error Decision} {e : Error} (hs : s.Sound)
    (h : Ending s streams now key decide (.error e) s') :
    ∃ mint, s' = { s with mint } ∧ (mint = s.mint ∨ s.ReplacementRefused (decide (s.live? key)) e mint) := by
  cases h with
  | undecided e hd => exact ⟨s.mint, rfl, .inl rfl⟩
  | unresolved decision e mint hd h =>
    cases h with
    | unready e he => exact ⟨s.mint, rfl, .inl rfl⟩
    | missing hcurrent hkind => exact ⟨s.mint, rfl, .inl rfl⟩
    | exhausted hkind hmint hsealed => exact ⟨s.mint, rfl, .inl rfl⟩
    | collision identity mint hkind hmint hold =>
      -- The mint of a sound store is past the live entry.
      have hlt := (Identity.lt_iff _ _).mp ((hs.minted.identityOf key).lt hmint)
      have hle := (Identity.le_iff _ _).mp hold
      omega
  | unshipped decision entry mint e hd h hship =>
    generalize s.live? key = current at hd h ⊢
    cases h with
    | attach old a hsealed hnew => exact ⟨s.mint, rfl, .inl rfl⟩
    | clear old hsome => exact ⟨s.mint, rfl, .inl rfl⟩
    | replace current primary alternative identity mint hprimary halternative hmint hnew =>
      have hsealed : (Entry.fresh key identity primary alternative now.date).Sealed streams := ⟨hprimary, halternative⟩
      obtain ⟨he, j, hj, hclosed⟩ := hship.refused_of_sealed hsealed
      exact ⟨mint, rfl, .inr ⟨primary, alternative, identity, j, hd, hmint, hj, hclosed, he⟩⟩

/-- A call that is refused leaves the store as it was, but for the mint when the journal refused a replacement. -/
theorem perform_error {c : Call} {e : Error} (hs : s.Sound) (he : (s.perform c).1 = .error e) :
    ∃ mint, (s.perform c).2 = { s with mint } ∧
      (mint = s.mint ∨ ∃ key decide, c.request.decide? = some (key, decide) ∧
        s.ReplacementRefused (decide (s.live? key)) e mint) := by
  cases hr : c.request.decide? with
  | some p =>
    obtain ⟨key, decide⟩ := p
    rw [perform_of_decide? hr] at he ⊢
    have hending := ending c.streams c.now key decide hs.tidy
    generalize s.reconcileWith c.streams c.now key decide = result at hending he ⊢
    obtain ⟨answer, s'⟩ := result
    cases answer with
    | ok r => exact absurd he (by simp [Except.map])
    | error e' =>
      simp only [Except.map, Except.error.injEq] at he
      obtain ⟨mint, hsame, hmint⟩ := hending.refused hs
      refine ⟨mint, hsame, ?_⟩
      rcases hmint with hold | hrefused
      · exact .inl hold
      · exact .inr ⟨key, decide, rfl, he ▸ hrefused⟩
  | none =>
    obtain ⟨request, streams, now⟩ := c
    -- An eviction needs no identity, and to look something up is never refused.
    refine ⟨s.mint, ?_, .inl rfl⟩
    cases request with
    | lookup key => simp [perform] at he
    | evict key =>
      have hev := eviction hs.tidy now key
      simp only [perform] at he ⊢
      generalize s.evict now key = result at hev he ⊢
      obtain ⟨answer, s'⟩ := result
      cases answer with
      | ok removed => simp [Except.map] at he
      | error e' => exact hev.isOpen_of_error.2
    | evictAll =>
      simp only [perform] at he ⊢
      cases hall : (s.evictAll now).1 with
      | ok n => simp [hall, Except.map] at he
      | error e' => exact (evictEach_error now s.keys 0 s hs.tidy hall).1
    | reconcile key decision | reconcileWith key decide | attach key expected alternative | clear key =>
      simp [Request.decide?] at hr

end Store

namespace System

/-- In every state that a system can come to, its store is sound. -/
theorem alwaysKept_sound : AlwaysKept fun _ _ s => s.Sound where
  alike := by
    rintro _ _ s _ ⟨monitor, rfl⟩ hs
    exact hs.of_eq rfl rfl
  streams := fun _ hs => hs
  decide := fun now key decide hs => (Store.ending _ now key decide hs.tidy).sound hs
  evict := fun now key hs => (Store.eviction hs.tidy now key).sound hs
  work := fun _ _ hs => hs.of_eq rfl rfl
  collect := fun _ _ _ hs => hs.of_eq rfl rfl
  close := fun _ hs => hs.of_eq rfl rfl
  cancel := fun _ hs => hs.of_eq rfl rfl
  restore := fun now record hs => (Store.restoring now record _ _).sound hs
  submit := by
    intro _ _ s s' now change hsubmit hs
    have hsub := hsubmit ▸ s.submission now change
    exact hs.of_eq hsub.slots_eq hsub.mint_eq
  disturb := fun _ hs => hs

theorem sound_run (config : Config) (persistent : Bool) (origin : Origin) (publisher : Publisher) (backend : Backend)
    (moves : List Move) : ((start config persistent origin publisher backend).run moves).store.Sound :=
  alwaysKept_sound.run moves (.fresh rfl rfl)

/-- A call that the store of a system refuses leaves everything as it was. Only the mint may have moved, and only when the
journal refused a replacement. -/
theorem refused_call_changes_nothing (config : Config) (persistent : Bool) (origin : Origin) (publisher : Publisher)
    (backend : Backend) (moves : List Move) {y : System}
    (hy : y = (start config persistent origin publisher backend).run moves) (now : Moment) (request : Request) {e : Error}
    (he : (y.store.perform ⟨request, y.streams, now⟩).1 = .error e) :
    ∃ mint, y.step (.ask now request) = y.setStore { y.store with mint } ∧
      (mint = y.store.mint ∨ ∃ key decide, request.decide? = some (key, decide) ∧
        y.store.ReplacementRefused (decide (y.store.live? key)) e mint) := by
  have hsound : y.store.Sound := hy ▸ sound_run config persistent origin publisher backend moves
  obtain ⟨mint, hsame, hmint⟩ := Store.perform_error hsound he
  exact ⟨mint, congrArg y.setStore hsame, hmint⟩

/-- A replacement that comes after the journal was closed. -/
theorem replacement_after_close : ∃ y : System,
    y = (start {} true {} .nobody {}).run [.openStream (.ofContent "text/plain" []), .close] ∧
    (y.store.perform ⟨.reconcile (.ofUri "/") (.replace 0 none), y.streams, ⟨0⟩⟩).1 =
      .error (.persistence "flush coordinator is shut down") ∧
    ∃ mint, y.step (.ask ⟨0⟩ (.reconcile (.ofUri "/") (.replace 0 none))) = y.setStore { y.store with mint } ∧
      (mint = y.store.mint ∨ ∃ key decide,
        (Request.reconcile (.ofUri "/") (.replace 0 none)).decide? = some (key, decide) ∧
        y.store.ReplacementRefused (decide (y.store.live? key)) (.persistence "flush coordinator is shut down") mint) := by
  rw [Key.ofUri_root]
  exact ⟨_, rfl, rfl, refused_call_changes_nothing {} true {} .nobody {} [.openStream (.ofContent "text/plain" []), .close]
    rfl ⟨0⟩ (.reconcile _ (.replace 0 none)) rfl⟩

end System
end ResponseCache
