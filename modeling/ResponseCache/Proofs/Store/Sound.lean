import ResponseCache.Proofs.Store.Ending
import ResponseCache.Proofs.Store.Eviction
import ResponseCache.Proofs.Store.Restoring

namespace ResponseCache.Store

/-- The mint gives out only identities that are larger than those of the live entries. -/
structure Minted (s : Store) : Prop where
  absent : s.mint.Past .absent
  live : ∀ key entry, s.live? key = some entry → s.mint.Past entry.identity

structure Sound (s : Store) : Prop where
  tidy : s.Tidy
  minted : s.Minted

theorem Minted.identityOf {s : Store} (h : s.Minted) (key : Key) :
    s.mint.Past (ResponseCache.identityOf (s.live? key)) := by
  cases hlive : s.live? key with
  | none => exact h.absent
  | some entry => exact h.live key entry hlive

/-- The mint goes on, and what becomes live is behind it. -/
theorem Minted.of_live {s s' : Store} (h : s.Minted) (hmint : ∀ i, s.mint.Past i → s'.mint.Past i)
    (hlive : ∀ key entry, s'.live? key = some entry → s.live? key = some entry ∨ s'.mint.Past entry.identity) :
    s'.Minted := by
  refine ⟨hmint _ h.absent, ?_⟩
  intro key entry hentry
  rcases hlive key entry hentry with hold | hpast
  · exact hmint _ (h.live key entry hold)
  · exact hpast

theorem Minted.of_mint {s s' : Store} (h : s.Minted) (hmint : ∀ i, s.mint.Past i → s'.mint.Past i)
    (hslots : s'.slots = s.slots) : s'.Minted := by
  refine h.of_live hmint ?_
  intro key entry hentry
  rw [Store.live?, hslots] at hentry
  exact .inl hentry

section
variable {streams : Streams} {now : Moment} {key : Key} {mint mint' : Mint} {current : Option Entry} {decision : Decision}

theorem Revision.past {entry : Entry} (h : Revision streams now key mint current decision entry mint') {i : Identity}
    (hi : mint.Past i) : mint'.Past i := by
  cases h with
  | attach old a hsealed hnew => exact hi
  | clear old hsome => exact hi
  | replace current primary alternative identity mint' hprimary halternative hmint hnew => exact hi.of_mint? hmint

theorem Revision.past_identity {entry : Entry} (h : Revision streams now key mint current decision entry mint')
    (hcurrent : mint.Past (ResponseCache.identityOf current)) : mint'.Past entry.identity := by
  cases h with
  | attach old a hsealed hnew => exact hcurrent
  | clear old hsome => exact hcurrent
  | replace current primary alternative identity mint' hprimary halternative hmint hnew =>
    exact Mint.past_self_of_mint? hmint

theorem Resolution.past {answer : Except Error (Entry × Bool)}
    (h : Resolution streams now key mint current decision answer mint') {i : Identity} (hi : mint.Past i) :
    mint'.Past i := by
  cases h with
  | stands entry hcurrent h => exact hi
  | revised entry mint' h => exact h.past hi
  | unready e he => exact hi
  | missing hcurrent hkind => exact hi
  | exhausted hkind hmint hsealed => exact hi
  | collision identity mint' hkind hmint hold => exact hi.of_mint? hmint

end

theorem Submission.mint_eq {s s' : Store} {now : Moment} {change : Change} (h : Submission s now change (.ok s')) :
    s'.mint = s.mint := by
  cases h <;> rfl

section
variable {s s' : Store} {streams : Streams} {now : Moment} {key : Key}

theorem Ending.minted {decide : Option Entry → Except Error Decision} {answer : Except Error Reconciliation}
    (h : Ending s streams now key decide answer s') (hs : s.Minted) : s'.Minted := by
  cases h with
  | undecided e hd => exact hs
  | unresolved decision e mint hd h => exact hs.of_mint (fun i hi => h.past hi) rfl
  | stands decision entry hd hlive h => exact hs.of_mint (fun i hi => hi) rfl
  | unshipped decision entry mint e hd h hship => exact hs.of_mint (fun i hi => h.past hi) rfl
  | revised decision entry mint s' hd h hship =>
    -- Of the live entries only the one of this key is new, and the mint was past the one from before.
    have hmint : s'.mint = mint := hship.mint_eq
    refine hs.of_live ?_ ?_
    · intro i hi
      rw [applied_mint, hmint]
      exact h.past hi
    · intro key' entry' hentry
      rw [live?_applied, Store.live?, hship.slots_eq] at hentry
      by_cases hk : key = key'
      · rw [if_pos hk, Option.some.injEq] at hentry
        refine .inr ?_
        rw [applied_mint, hmint, ← hentry]
        exact h.past_identity (hs.identityOf key)
      · rw [if_neg hk] at hentry
        exact .inl hentry

theorem Eviction.minted {answer : Except Error (Option Identity)} (h : Eviction s now key answer s') (hs : s.Minted) :
    s'.Minted := by
  cases h with
  | nothing hlive => exact hs
  | refused entry e hlive hsub => exact hs
  | removed entry s' hlive hsub =>
    refine hs.of_live ?_ ?_
    · intro i hi
      show s'.mint.Past i
      rw [hsub.mint_eq]
      exact hi
    · intro key' entry' hentry
      rw [live?_evicted, Store.live?, hsub.slots_eq] at hentry
      by_cases hk : key = key'
      · rw [if_pos hk] at hentry
        exact absurd hentry (by simp)
      · rw [if_neg hk] at hentry
        exact .inl hentry

theorem Restoring.minted {record : Record} {isNew : Bool} {streams' : Streams}
    (h : Restoring s now record streams isNew streams' s') (hs : s.Minted) : s'.Minted := by
  cases h with
  | skipped habsent => exact hs.of_mint (fun i hi => hi) rfl
  | passed entry hpresent hlive => exact hs.of_mint (fun i hi => hi.advancePast record.identity) rfl
  | installed hpresent hlive =>
    refine hs.of_live (fun i hi => hi.advancePast record.identity) ?_
    intro key' entry' hentry
    have hinstalled : Restoring s now record streams _ _ _ := .installed hpresent hlive
    rw [hinstalled.live? key'] at hentry
    by_cases hk : record.key = key'
    · rw [if_pos ⟨rfl, hk⟩, Option.some.injEq] at hentry
      have hidentity := (Record.of_ofEntry (record.ofEntry_toEntry streams now.date)).2.1
      rw [← hentry, ← hidentity]
      exact .inr (s.mint.past_advancePast record.identity)
    · rw [if_neg (fun h => hk h.2)] at hentry
      exact .inl hentry

theorem Ending.sound {decide : Option Entry → Except Error Decision} {answer : Except Error Reconciliation}
    (h : Ending s streams now key decide answer s') (hs : s.Sound) : s'.Sound :=
  ⟨h.tidy hs.tidy, h.minted hs.minted⟩

theorem Eviction.sound {answer : Except Error (Option Identity)} (h : Eviction s now key answer s') (hs : s.Sound) :
    s'.Sound :=
  ⟨h.tidy hs.tidy, h.minted hs.minted⟩

theorem Restoring.sound {record : Record} {isNew : Bool} {streams' : Streams}
    (h : Restoring s now record streams isNew streams' s') (hs : s.Sound) : s'.Sound :=
  ⟨h.tidy hs.tidy, h.minted hs.minted⟩

theorem Sound.of_eq (hs : s.Sound) (hslots : s'.slots = s.slots) (hmint : s'.mint = s.mint) : s'.Sound :=
  ⟨hs.tidy.of_slots hslots, hs.minted.of_mint (fun _ hi => hmint ▸ hi) hslots⟩

/-- A store without slots whose mint is new. -/
theorem Sound.fresh (hslots : s.slots = {}) (hmint : s.mint = {}) : s.Sound := by
  have htidy : s.Tidy := .empty hslots
  refine ⟨htidy, ?_, ?_⟩
  · rw [hmint]
    exact .inl (by decide)
  · intro key entry hentry
    rw [live?_eq_some_iff, hslots] at hentry
    exact absurd hentry (by simp [Table.get?, Table.find])

end

end ResponseCache.Store
