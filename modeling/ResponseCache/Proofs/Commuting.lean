import ResponseCache.Proofs.Store.Course
/-!
Requests about different keys commute. Their courses meet in the mint, the counters and the journal only: the mint matters to
replacements alone, what is counted adds up in any order, and the journal gets the two changes in the other order.
-/
namespace ResponseCache

/-- The decision that the request makes here is a replacement. -/
def Request.Replaces (r : Request) (current : Option Entry) : Prop :=
  ∃ key decide primary alternative, r.decide? = some (key, decide) ∧ decide current = .ok (.replace primary alternative)

/-- It is a replacement, and the content is there, so that it takes an identity from the mint. -/
def Request.Mints (r : Request) (streams : Streams) (current : Option Entry) : Prop :=
  ∃ key decide primary alternative, r.decide? = some (key, decide) ∧ decide current = .ok (.replace primary alternative) ∧
    streams.ensureSealed primary = .ok () ∧ ∀ a, alternative = some a → streams.ensureSealed a.stream = .ok ()

/-- The second course is the first one with other identities. -/
structure Course.Renamed (σ : Identity → Identity) (c c' : Course) : Prop where
  reply : c'.reply = c.reply.map (Reply.rename σ)
  entry : c'.entry = c.entry.map (Entry.rename σ)
  change : c'.change = c.change.map (Change.rename σ)
  mark : c'.mark = c.mark

section
variable {streams : Streams} {now : Moment} {key : Key} {isOpen : Bool} {current : Option Entry} {mint mint' : Mint}
  {r : Request} {σ : Identity → Identity} {primary : StreamId} {alternative : Option Alternative} {i j : Identity}

/-- A decision that takes no identity has no regard to the mint. -/
theorem Store.resolve_steady {decision : Decision}
    (h : ¬∃ primary alternative, decision = .replace primary alternative ∧ streams.ensureSealed primary = .ok () ∧
      ∀ a, alternative = some a → streams.ensureSealed a.stream = .ok ()) (now : Moment) (key : Key)
    (current : Option Entry) (mint mint' : Mint) : Store.resolve streams now key current mint decision =
      ((Store.resolve streams now key current mint' decision).1, mint) := by
  cases decision with
  | keep => rfl
  | clear => rfl
  | attach a => rfl
  | replace primary alternative =>
    cases hp : streams.ensureSealed primary with
    | error e => simp only [Store.resolve, hp, bind, Except.bind]
    | ok u =>
      cases alternative with
      | none => exact absurd ⟨primary, none, rfl, hp, by simp⟩ h
      | some a =>
        cases ha : streams.ensureSealed a.stream with
        | error e => simp only [Store.resolve, hp, ha, bind, Except.bind]
        | ok v => exact absurd ⟨primary, some a, rfl, hp, by rintro _ ⟨⟩; exact ha⟩ h

theorem Course.ofAnswer_mint (streams : Streams) (current : Option Entry) (mint mint' : Mint)
    (answer : Except Error Reconciliation) :
    ofAnswer streams current mint answer = { ofAnswer streams current mint' answer with mint } := by
  cases answer <;> rfl

/-- The course of a request that takes no identity is the same with every mint. -/
theorem Request.course_steady (h : ¬r.Mints streams current) (now : Moment) (key : Key) (isOpen : Bool)
    (mint mint' : Mint) :
    r.course streams now key isOpen current mint = { r.course streams now key isOpen current mint' with mint } := by
  unfold course
  cases hd : r.decide? with
  | none =>
    simp only
    split
    · cases current with
      | none => rfl
      | some entry => cases isOpen <;> rfl
    · rfl
  | some p =>
    obtain ⟨key', decide⟩ := p
    have hverdict : Store.verdict streams now key current mint decide =
        ((Store.verdict streams now key current mint' decide).1, mint) := by
      unfold Store.verdict
      cases hdecided : decide current with
      | error e => rfl
      | ok decision =>
        have hsteady : ¬∃ primary alternative, decision = .replace primary alternative ∧
            streams.ensureSealed primary = .ok () ∧ ∀ a, alternative = some a → streams.ensureSealed a.stream = .ok () :=
          fun ⟨primary, alternative, hdecision, hsealed⟩ =>
            h ⟨key', decide, primary, alternative, hd, hdecided.trans (congrArg Except.ok hdecision), hsealed⟩
        simp only [Store.resolve_steady hsteady now key current mint mint']
    simp only [Course.ofDecision, hverdict]
    exact Course.ofAnswer_mint ..

/-- The course of a replacement under that identity. -/
def Course.ofReplacement (streams : Streams) (now : Moment) (key : Key) (isOpen : Bool) (current : Option Entry)
    (primary : StreamId) (alternative : Option Alternative) (i : Identity) (mint : Mint) : Course :=
  let made : Except Error Reconciliation :=
    .ok ⟨.fresh key i primary alternative now.date, .replace, identityOf current, true⟩
  ofAnswer streams current mint (if isOpen then made else Store.turnAway made)

/-- A request that takes an identity replaces what is there under it. -/
theorem Request.Mints.course_eq (h : r.Mints streams current) (now : Moment) (key : Key) (isOpen : Bool) :
    ∃ primary alternative,
    (∀ i, (Entry.fresh key i primary alternative now.date).Sealed streams) ∧
    ∀ {mint i mint'}, mint.mint? = some (i, mint') → identityOf current < i →
      r.course streams now key isOpen current mint =
        .ofReplacement streams now key isOpen current primary alternative i mint' := by
  obtain ⟨key', decide, primary, alternative, hd, hdecided, hprimary, halternative⟩ := h
  refine ⟨primary, alternative, fun i => ⟨?_, fun a ha => ?_⟩, ?_⟩
  · exact (streams.ensureSealed_eq_ok_iff primary).mp hprimary
  · exact (streams.ensureSealed_eq_ok_iff a.stream).mp (halternative a ha)
  · intro mint i mint' hmint hlt
    have hnew : ¬i ≤ identityOf current := by
      rw [Identity.le_iff]
      rw [Identity.lt_iff] at hlt
      omega
    have hresolve := Store.resolve_replace_of_sealed streams now key current mint primary alternative hprimary halternative
    simp only [hmint, if_neg hnew] at hresolve
    unfold course
    simp only [hd, Course.ofDecision, Store.verdict_of_decided hdecided, hresolve]
    rfl

/-- Under another identity a replacement takes the same course but for the identity. -/
theorem Course.renamed_ofReplacement (hprevious : σ (identityOf current) = identityOf current) (mint mint' : Mint) :
    Renamed σ (ofReplacement streams now key true current primary alternative i mint)
      (ofReplacement streams now key true current primary alternative (σ i) mint') := by
  have hentry : Entry.fresh key (σ i) primary alternative now.date =
      (Entry.fresh key i primary alternative now.date).rename σ := rfl
  refine ⟨?_, rfl, ?_, rfl⟩
  · show Except.ok (Reply.reconciled ⟨_, _, identityOf current, _⟩) = _
    rw [← hprevious]
    rfl
  · show (Record.ofEntry streams _).toOption.map Change.store = ((Record.ofEntry streams _).toOption.map _).map _
    rw [hentry, Record.ofEntry_rename]
    cases Record.ofEntry streams (Entry.fresh key i primary alternative now.date) <;> rfl

theorem Course.isSome_change_ofReplacement
    (hsealed : (Entry.fresh key i primary alternative now.date).Sealed streams) :
    (ofReplacement streams now key true current primary alternative i mint).change.isSome = true := by
  obtain ⟨record, hrecord⟩ := Record.exists_ofEntry hsealed
  show ((Record.ofEntry streams _).toOption.map Change.store).isSome = true
  rw [hrecord]
  rfl

/-- Where nothing is taken in, nothing is submitted. -/
theorem Request.change_of_closed (r : Request) (streams : Streams) (now : Moment) (key : Key) (current : Option Entry)
    (mint : Mint) : (r.course streams now key false current mint).change = none := by
  unfold course
  split
  · rename_i decide _
    simp only [Course.ofDecision, Bool.false_eq_true, if_false]
    cases (Store.verdict streams now key current mint decide).1 with
    | error e => rfl
    | ok reconciliation => cases hchanged : reconciliation.changed <;> simp [Store.turnAway, Course.ofAnswer, hchanged]
  · split
    · cases current <;> rfl
    · rfl

/-- What is submitted is the record of the entry that becomes live, or the removal of the key. -/
theorem Request.change_eq {change : Change} (h : (r.course streams now key isOpen current mint).change = some change) :
    change = .remove key ∨ ∃ entry record, (r.course streams now key isOpen current mint).entry = some entry ∧
      Record.ofEntry streams entry = .ok record ∧ change = .store record := by
  unfold course at h ⊢
  split at h
  · refine .inr ?_
    unfold Course.ofDecision Course.ofAnswer at h ⊢
    simp only at h ⊢
    split at h
    · exact absurd h (by simp)
    · rename_i reconciliation hanswer
      simp only at h ⊢
      split at h
      · cases hrecord : Record.ofEntry streams reconciliation.entry with
        | error e => simp [hrecord, Except.toOption] at h
        | ok record =>
          refine ⟨_, record, rfl, hrecord, ?_⟩
          simpa [hrecord, Except.toOption, eq_comm] using h
      · exact absurd h (by simp)
  · refine .inl ?_
    split at h
    · cases current with
      | none => exact absurd h (by simp [Course.ofEviction])
      | some entry =>
        cases isOpen with
        | false => exact absurd h (by simp [Course.ofEviction])
        | true => exact (Option.some.inj h).symm
    · exact absurd h (by simp [Course.ofLookup])

end

/-- The next two identities that the mint gives out are exchanged. -/
def Mint.Exchanges (m : Mint) (σ : Identity → Identity) : Prop :=
  ∃ i m' j m'', m.mint? = some (i, m') ∧ m'.mint? = some (j, m'') ∧ σ = Identity.exchange i j

/-- Exchanging what a mint gives out leaves all identities that it is past. -/
theorem Mint.Exchanges.fixed {m : Mint} {σ : Identity → Identity} (h : m.Exchanges σ) {k : Identity} (hk : m.Past k) :
    σ k = k := by
  obtain ⟨i, m', j, m'', hi, hj, rfl⟩ := h
  have hlt := (Identity.lt_iff k i).mp (hk.lt hi)
  have hlt' := (Identity.lt_iff k j).mp ((hk.of_mint? hi).lt hj)
  refine Identity.exchange_of_ne ?_ ?_
  · rintro rfl
    omega
  · rintro rfl
    omega

theorem Course.renamed_id (c : Course) (mint : Mint) : Renamed id c { c with mint } := by
  refine ⟨?_, ?_, ?_, rfl⟩
  · rw [Reply.rename_id]
    cases c.reply <;> rfl
  · rw [Entry.rename_id, Option.map_id, id]
  · rw [Change.rename_id, Option.map_id, id]

/-- In which order two requests take their courses shows at most in the identities that they take, and there only when both
are replacements and what they make is taken in. -/
theorem courses_cross (streams : Streams) (now₁ now₂ : Moment) (k₁ k₂ : Key) (isOpen : Bool) {current₁ current₂ : Option Entry}
    {mint : Mint} {r₁ r₂ : Request} (h₁ : mint.Past (identityOf current₁)) (h₂ : mint.Past (identityOf current₂))
    (htokens : r₁.Replaces current₁ → r₂.Replaces current₂ → ∃ σ, mint.Exchanges σ) :
    let a := r₁.course streams now₁ k₁ isOpen current₁ mint
    let b := r₂.course streams now₂ k₂ isOpen current₂ mint
    let a' := r₁.course streams now₁ k₁ isOpen current₁ b.mint
    let b' := r₂.course streams now₂ k₂ isOpen current₂ a.mint
    ∃ σ, (σ = id ∨ r₁.Replaces current₁ ∧ r₂.Replaces current₂ ∧ mint.Exchanges σ ∧ isOpen = true ∧
        a.change.isSome = true ∧ b'.change.isSome = true) ∧
      a.Renamed σ a' ∧ b'.Renamed σ b ∧ a'.mint = b'.mint := by
  intro a b a' b'
  by_cases hmints₁ : r₁.Mints streams current₁
  · by_cases hmints₂ : r₂.Mints streams current₂
    · have hreplaces₁ : r₁.Replaces current₁ := by
        obtain ⟨key, decide, primary, alternative, hd, hdecided, -⟩ := hmints₁
        exact ⟨key, decide, primary, alternative, hd, hdecided⟩
      have hreplaces₂ : r₂.Replaces current₂ := by
        obtain ⟨key, decide, primary, alternative, hd, hdecided, -⟩ := hmints₂
        exact ⟨key, decide, primary, alternative, hd, hdecided⟩
      obtain ⟨σ, hσ⟩ := htokens hreplaces₁ hreplaces₂
      have hfixed₁ := hσ.fixed h₁
      have hfixed₂ := hσ.fixed h₂
      obtain ⟨i, m, j, m', hi, hj, hexchange⟩ := id hσ
      obtain ⟨p₁, q₁, hsealed₁, hcourse₁⟩ := hmints₁.course_eq now₁ k₁ isOpen
      obtain ⟨p₂, q₂, hsealed₂, hcourse₂⟩ := hmints₂.course_eq now₂ k₂ isOpen
      -- Whichever request comes first takes the first of the two identities.
      have ha : a = .ofReplacement streams now₁ k₁ isOpen current₁ p₁ q₁ i m := hcourse₁ hi (h₁.lt hi)
      have hb : b = .ofReplacement streams now₂ k₂ isOpen current₂ p₂ q₂ i m := hcourse₂ hi (h₂.lt hi)
      have hmint (key : Key) (now : Moment) (current : Option Entry) (p : StreamId) (q : Option Alternative) :
          (Course.ofReplacement streams now key isOpen current p q i m).mint = m := by cases isOpen <;> rfl
      have ha' : a' = .ofReplacement streams now₁ k₁ isOpen current₁ p₁ q₁ j m' := by
        show r₁.course streams now₁ k₁ isOpen current₁ b.mint = _
        rw [hb, hmint]
        exact hcourse₁ hj ((h₁.of_mint? hi).lt hj)
      have hb' : b' = .ofReplacement streams now₂ k₂ isOpen current₂ p₂ q₂ j m' := by
        show r₂.course streams now₂ k₂ isOpen current₂ a.mint = _
        rw [ha, hmint]
        exact hcourse₂ hj ((h₂.of_mint? hi).lt hj)
      rw [ha, hb, ha', hb']
      cases isOpen with
      | false => exact ⟨id, .inl rfl, Course.renamed_id _ m', Course.renamed_id _ m, rfl⟩
      | true =>
        have hi' : σ i = j := hexchange ▸ Identity.exchange_left i j
        have hj' : σ j = i := hexchange ▸ Identity.exchange_right i j
        refine ⟨σ, .inr ⟨hreplaces₁, hreplaces₂, hσ, rfl, ?_, ?_⟩, ?_, ?_, rfl⟩
        · exact Course.isSome_change_ofReplacement (hsealed₁ i)
        · exact Course.isSome_change_ofReplacement (hsealed₂ j)
        · exact hi' ▸ Course.renamed_ofReplacement hfixed₁ m m'
        · exact hj' ▸ Course.renamed_ofReplacement hfixed₂ m' m
    · have hb : b.mint = mint := congrArg Course.mint (Request.course_steady hmints₂ now₂ k₂ isOpen mint mint)
      have ha' : a' = a := by rw [← show r₁.course streams now₁ k₁ isOpen current₁ b.mint = a' from rfl, hb]
      have hb' : b = { b' with mint } := Request.course_steady hmints₂ now₂ k₂ isOpen mint a.mint
      have hmint : b'.mint = a.mint := (congrArg Course.mint (Request.course_steady hmints₂ now₂ k₂ isOpen a.mint mint)).trans rfl
      exact ⟨id, .inl rfl, ha' ▸ Course.renamed_id a a.mint, hb' ▸ Course.renamed_id b' mint, ha' ▸ hmint.symm⟩
  · have ha : a.mint = mint := congrArg Course.mint (Request.course_steady hmints₁ now₁ k₁ isOpen mint mint)
    have hb' : b' = b := by rw [← show r₂.course streams now₂ k₂ isOpen current₂ a.mint = b' from rfl, ha]
    have ha' : a' = { a with mint := b.mint } := Request.course_steady hmints₁ now₁ k₁ isOpen b.mint mint
    exact ⟨id, .inl rfl, ha' ▸ Course.renamed_id a b.mint, hb' ▸ Course.renamed_id b' b'.mint, ha' ▸ hb' ▸ rfl⟩

namespace Store

/-- Two stores differ at most in the identities of their live entries, and in what waits to be written. -/
structure Crossed (σ : Identity → Identity) (s s' : Store) : Prop where
  live : ∀ key, s'.live? key = (s.live? key).map (Entry.rename σ)
  count : s'.count = s.count
  mint : s'.mint = s.mint
  counters : s'.monitor.counters = s.monitor.counters

variable {s s₁ s₂ s₁₂ s₂₁ : Store} {streams : Streams} {now₁ now₂ : Moment} {k₁ k₂ : Key} {σ : Identity → Identity}
  {a a' b b' : Course}

theorem Living.perform {c : Call} (hs : s.Living c.streams) : (s.perform c).2.Living c.streams := by
  refine perform_keeps (P := Living c.streams) c ?_ ?_ ?_ s hs
  · exact fun s monitor hs => hs.of_eq rfl (hs.sound.of_eq rfl rfl) rfl
  · exact fun s key decide hs => (ending c.streams c.now key decide hs.sound.tidy).living hs
  · exact fun s key hs => (eviction hs.sound.tidy c.now key).living hs

theorem Follows.isOpen_iff (h : s.Follows now₁ k₁ a s₁) : s₁.IsOpen ↔ s.IsOpen := by
  unfold IsOpen
  rw [h.journal]
  cases s.journal with
  | none => simp
  | some j => simp [Journal.pushAll_eq]

/-- What a request submits is about its key. -/
theorem Follows.key_eq {r : Request} {isOpen : Bool} {current : Option Entry} {mint : Mint}
    (h : s.Follows now₁ k₁ (r.course streams now₁ k₁ isOpen current mint) s₁) (hs₁ : s₁.Tidy) (change : Change)
    (hchange : (r.course streams now₁ k₁ isOpen current mint).change = some change) : change.key = k₁ := by
  rcases Request.change_eq hchange with rfl | ⟨entry, record, hentry, hrecord, rfl⟩
  · rfl
  · have hlive : s₁.live? k₁ = some entry := (h.live k₁).trans ((if_pos rfl).trans hentry)
    exact (Record.of_ofEntry hrecord).1.trans (hs₁.keyed k₁ entry hlive)

/-- Two courses with different keys, taken in either order, lead to the same but for the identities. -/
theorem Follows.crossed (hne : k₁ ≠ k₂) (h₁ : s.Follows now₁ k₁ a s₁) (h₁₂ : s₁.Follows now₂ k₂ b' s₁₂)
    (h₂ : s.Follows now₂ k₂ b s₂) (h₂₁ : s₂.Follows now₁ k₁ a' s₂₁) (ha : a.Renamed σ a') (hb : b'.Renamed σ b)
    (hmint : a'.mint = b'.mint) (hfixed : ∀ key entry, s.live? key = some entry → σ entry.identity = entry.identity)
    (hs₁₂ : s₁₂.Living streams) (hs₂₁ : s₂₁.Living streams) : Crossed σ s₁₂ s₂₁ := by
  have hlive : ∀ key, s₂₁.live? key = (s₁₂.live? key).map (Entry.rename σ) := by
    intro key
    rw [h₂₁.live, h₂.live, h₁₂.live, h₁.live]
    by_cases hk₁ : k₁ = key
    · have hk₂ : ¬k₂ = key := fun hk₂ => hne (hk₁.trans hk₂.symm)
      rw [if_pos hk₁, if_neg hk₂, if_pos hk₁, ha.entry]
    · rw [if_neg hk₁, if_neg hk₁]
      by_cases hk₂ : k₂ = key
      · rw [if_pos hk₂, if_pos hk₂, hb.entry]
      · rw [if_neg hk₂, if_neg hk₂]
        cases hentry : s.live? key with
        | none => rfl
        | some entry => rw [Option.map_some, Entry.rename_of_fixed (hfixed key entry hentry)]
  have hcount : s₂₁.count = s₁₂.count := by
    rw [hs₂₁.counted, hs₁₂.counted]
    exact length_keys_eq hs₁₂.sound.tidy hs₂₁.sound.tidy fun key => by rw [hlive, Option.isSome_map]
  refine ⟨hlive, hcount, by rw [h₂₁.mint, h₁₂.mint, hmint], ?_⟩
  rw [h₂₁.counters, h₂.counters, h₁₂.counters, h₁.counters, Counters.mark_setEntries, Counters.mark_setEntries, hcount,
    ha.mark, hb.mark, Counters.mark_comm]
  rfl

/-- What one course submits comes behind what the other one submitted. -/
theorem Follows.journal_trans (h₁ : s.Follows now₁ k₁ a s₁) (h₁₂ : s₁.Follows now₂ k₂ b s₁₂) :
    s₁₂.journal = s.journal.map (·.pushAll ((a.change.toList.map fun change => (now₁.tick, change)) ++
      b.change.toList.map fun change => (now₂.tick, change))) := by
  rw [h₁₂.journal, h₁.journal, Option.map_map]
  exact congrArg (Option.map · s.journal) (funext fun j => (j.pushAll_append _ _).symm)

end Store

/-- The changes, submitted at that time. -/
def Moment.stamp (now : Moment) (change : Option Change) : List (Nat × Change) :=
  change.toList.map fun change => (now.tick, change)

/-- A backend that gets two changes of different keys in either order becomes the same but for the identities, and so does one
that gets at most one of them, if the identities are the same. -/
theorem Backend.Weighed.agrees_stamps {b : Backend} (hb : b.Weighed) (hwilling : b.failing = 0) {k₁ k₂ : Key} (hne : k₁ ≠ k₂)
    {σ : Identity → Identity} {c₁ c₂ : Option Change} (h₁ : ∀ change, c₁ = some change → change.key = k₁)
    (h₂ : ∀ change, c₂ = some change → change.key = k₂) (hσ : σ = id ∨ c₁.isSome = true ∧ c₂.isSome = true)
    (now₁ now₂ : Moment) :
    Agrees σ [k₁, k₂] (b.run ((now₁.stamp c₁ ++ now₂.stamp c₂).map fun op => .change op.2))
      (b.run ((now₂.stamp (c₂.map (Change.rename σ)) ++ now₁.stamp (c₁.map (Change.rename σ))).map fun op => .change op.2)) := by
  cases c₁ with
  | none =>
    obtain rfl : σ = id := hσ.resolve_right fun h => absurd h.1 (by simp)
    rw [Change.rename_id, Option.map_id]
    simp only [Moment.stamp, Option.toList_none, List.map_nil, List.nil_append, List.append_nil, id]
    exact .refl _ _
  | some change₁ =>
    cases c₂ with
    | none =>
      obtain rfl : σ = id := hσ.resolve_right fun h => absurd h.2 (by simp)
      rw [Change.rename_id, Option.map_id]
      simp only [Moment.stamp, Option.toList_none, List.map_nil, List.nil_append, List.append_nil, id]
      exact .refl _ _
    | some change₂ =>
      rw [← h₁ change₁ rfl, ← h₂ change₂ rfl] at hne ⊢
      exact hb.agrees hwilling σ hne

/-- The same, for what a journal makes of a backend that gets the two changes behind all that waits. -/
theorem Backend.Weighed.agrees_drain {b : Backend} (hb : b.Weighed) (hwilling : b.failing = 0) {i : Journal} {k₁ k₂ : Key}
    (hne : k₁ ≠ k₂) {σ : Identity → Identity} {c₁ c₂ : Option Change} (h₁ : ∀ change, c₁ = some change → change.key = k₁)
    (h₂ : ∀ change, c₂ = some change → change.key = k₂) (hσ : σ = id ∨ c₁.isSome = true ∧ c₂.isSome = true)
    (hcancelled : i.cancelled = true → c₁ = none ∧ c₂ = none) (now₁ now₂ : Moment) :
    Agrees σ [k₁, k₂] ((i.pushAll (now₁.stamp c₁ ++ now₂.stamp c₂)).drain b)
      ((i.pushAll (now₂.stamp (c₂.map (Change.rename σ)) ++ now₁.stamp (c₁.map (Change.rename σ)))).drain b) := by
  cases hkept : i.cancelled with
  | true =>
    obtain ⟨rfl, rfl⟩ := hcancelled hkept
    obtain rfl : σ = id := hσ.resolve_right fun h => absurd h.1 (by simp)
    exact .refl _ _
  | false =>
    have hwilling' : (i.drain b).failing = 0 := by
      have hrun := failing_run (i.bound.map (·.change)) hwilling
      rwa [List.map_map] at hrun
    rw [Journal.drain_pushAll _ _ hkept, Journal.drain_pushAll _ _ hkept]
    exact (hb.run _).agrees_stamps hwilling' hne h₁ h₂ hσ now₁ now₂

namespace System

/-- Whatever happens to the backend from outside leaves it weighed. -/
def Move.Weighs : Move → Prop
  | .disturb backend => backend.Weighed
  | _ => True

theorem kept_weighed : Kept fun _ backend _ => backend.Weighed where
  alike := fun _ h => h
  streams := fun _ h => h
  decide := fun _ _ _ h => h
  evict := fun _ _ h => h
  work := by
    intro _ backend s j p step hj hstage h
    cases hstage with
    | applied item due answer backend' hhand happly =>
      have hmade := h.apply item.change
      rw [happly] at hmade
      exact hmade
    | failed item due e backend' monitor hhand happly =>
      have hmade := h.apply item.change
      rw [happly] at hmade
      exact hmade
    | idle | started | dropped | filed | published => exact h
  collect := fun _ _ _ h => h
  close := fun _ h => h

theorem weighed_step {y : System} (hy : y.backend.Weighed) {m : Move} (hm : m.Weighs) : (y.step m).backend.Weighed := by
  cases m with
  | disturb backend => exact hm
  | cancel => exact has_mapJournal (P := fun _ backend _ => backend.Weighed) (fun _ _ => hy) hy
  | restore now records => exact hy
  | submit now change => exact hy
  | ask | fetch | inquire | receive | conclude | finish | clear | evict | script | openStream | writeStream |
    sealStream | releaseStream | work | flush | close => exact kept_weighed.step trivial hy

theorem weighed_run (moves : List Move) : ∀ {y : System}, y.backend.Weighed → (∀ m ∈ moves, m.Weighs) →
    (y.run moves).backend.Weighed := by
  induction moves with
  | nil => exact fun hy _ => hy
  | cons m rest ih =>
    intro y hy hm
    exact ih (weighed_step hy (hm m List.mem_cons_self)) fun m' hm' => hm m' (List.mem_cons_of_mem m hm')

/-- A journal that is cancelled takes nothing in. -/
def Firm (s : Store) : Prop := s.Tidy ∧ ∀ j, s.journal = some j → j.cancelled = true → j.accepting = false

theorem firm_of_fed {s s' : Store} {now : Moment} (h : Firm s) (htidy : s'.Tidy) (hfed : s.Fed now s') : Firm s' := by
  refine ⟨htidy, fun j hj hcancelled => ?_⟩
  rcases hfed with hsame | ⟨i, change, hi, hpush⟩
  · exact h.2 j (hsame.symm.trans hj) hcancelled
  · obtain rfl := Option.some.inj (hpush.symm.trans hj)
    exact h.2 i hi hcancelled

theorem alwaysKept_firm : AlwaysKept fun _ _ s => Firm s where
  alike := by
    rintro _ _ s _ ⟨monitor, rfl⟩ h
    exact ⟨h.1.of_slots rfl, h.2⟩
  streams := fun _ h => h
  decide := fun now key decide h =>
    have hend := Store.ending _ now key decide h.1
    firm_of_fed h (hend.tidy h.1) hend.fed
  evict := fun now key h =>
    have hev := Store.eviction h.1 now key
    firm_of_fed h (hev.tidy h.1) hev.fed
  work := by
    intro _ _ s j p step hj hstage h
    refine ⟨h.1.of_slots rfl, ?_⟩
    rintro _ ⟨⟩
    have hbefore := h.2 j hj
    cases hstage <;> exact hbefore
  collect := by
    intro _ _ s j b hj _ h
    refine ⟨h.1.of_slots rfl, ?_⟩
    rintro _ ⟨⟩
    exact h.2 j hj
  close := by
    intro _ _ s j hj h
    refine ⟨h.1.of_slots rfl, ?_⟩
    rintro _ ⟨⟩ -
    rfl
  cancel := by
    intro _ _ s j hj h
    refine ⟨h.1.of_slots rfl, ?_⟩
    rintro _ ⟨⟩ -
    rfl
  restore := by
    intro streams _ s now record h
    have hrestoring := Store.restoring now record streams s
    refine ⟨hrestoring.tidy h.1, fun j hj => h.2 j ?_⟩
    rw [← hj]
    generalize s.restoreOne now record streams = result at hrestoring
    obtain ⟨isNew, streams', s'⟩ := result
    cases hrestoring <;> rfl
  submit := by
    intro _ _ s s' now change hsubmit h
    have hsub := hsubmit ▸ s.submission now change
    refine ⟨h.1.of_slots hsub.slots_eq, ?_⟩
    cases hsub with
    | unkept hj => exact h.2
    | taken j notices hj hopen =>
      rintro _ ⟨⟩ hcancelled
      exact h.2 j hj hcancelled
  disturb := fun _ h => h

/-- Requests about different keys commute. In every state that a system can reach, two requests about different keys, made one
after the other, are answered the same in either order, and leave the same live entries, number of entries, mint and
counters; of two replacements each has the identity in one order that the other one has in the other. The journal gets the
same changes, in the order of the requests; and once a backend that does not fail has made all of them, it is the same. -/
theorem different_keys_commute (config : Config) (persistent : Bool) (origin : Origin) (publisher : Publisher)
    (backend : Backend) (moves : List Move) (now₁ now₂ : Moment) (r₁ r₂ : Request) {k₁ k₂ : Key}
    (h₁ : r₁.key? = some k₁) (h₂ : r₂.key? = some k₂) (hne : k₁ ≠ k₂) :
    let y := (start config persistent origin publisher backend).run moves
    let s := y.store
    let c₁ : Call := ⟨r₁, y.streams, now₁⟩
    let c₂ : Call := ⟨r₂, y.streams, now₂⟩
    let s₁ := (s.perform c₁).2
    let s₂ := (s.perform c₂).2
    let s₁₂ := (s₁.perform c₂).2
    let s₂₁ := (s₂.perform c₁).2
    (r₁.Replaces (s.live? k₁) → r₂.Replaces (s.live? k₂) → ∃ σ, s.mint.Exchanges σ) →
    ∃ σ, (σ = id ∨ r₁.Replaces (s.live? k₁) ∧ r₂.Replaces (s.live? k₂) ∧ s.mint.Exchanges σ) ∧
      (s₂.perform c₁).1 = (s.perform c₁).1.map (Reply.rename σ) ∧
      (s.perform c₂).1 = (s₁.perform c₂).1.map (Reply.rename σ) ∧
      s₁₂.Crossed σ s₂₁ ∧
      (∃ op₁ op₂ : Option Change, s₁₂.journal = s.journal.map (·.pushAll (now₁.stamp op₁ ++ now₂.stamp op₂)) ∧
        s₂₁.journal = s.journal.map
          (·.pushAll (now₂.stamp (op₂.map (Change.rename σ)) ++ now₁.stamp (op₁.map (Change.rename σ))))) ∧
      ∀ j j' monitor monitor', s₁₂.journal = some j → s₂₁.journal = some j' →
        backend.Weighed → (∀ m ∈ moves, m.Weighs) → y.backend.failing = 0 →
        let p : Pipeline := ⟨j, y.backend, monitor⟩
        let p' : Pipeline := ⟨j', y.backend, monitor'⟩
        (∃ steps, (p.work steps).journal.isIdle = true) ∧ (∃ steps, (p'.work steps).journal.isIdle = true) ∧
        ∀ steps steps', (p.work steps).journal.isIdle = true → (p'.work steps').journal.isIdle = true →
          (p.work steps).backend.Agrees σ [k₁, k₂] (p'.work steps').backend := by
  intro y s c₁ c₂ s₁ s₂ s₁₂ s₂₁ htokens
  have hstart := living_start config persistent origin publisher backend
  have hs : s.Living y.streams := living_run hstart moves
  have hgauge : s.monitor.counters.entries = s.count := (accounts_run moves hstart).gauge rfl
  have hs₁ : s₁.Living y.streams := Store.Living.perform (c := c₁) hs
  have hs₂ : s₂.Living y.streams := Store.Living.perform (c := c₂) hs
  have hs₁₂ : s₁₂.Living y.streams := Store.Living.perform (c := c₂) hs₁
  have hs₂₁ : s₂₁.Living y.streams := Store.Living.perform (c := c₁) hs₂
  have hgauge₁ : s₁.monitor.counters.entries = s₁.count := (Store.Living.accounts_perform (c := c₁) hs).gauge hgauge
  have hgauge₂ : s₂.monitor.counters.entries = s₂.count := (Store.Living.accounts_perform (c := c₂) hs).gauge hgauge
  obtain ⟨hreply₁, hfollows₁⟩ := hs.perform_follows hgauge now₁ h₁
  obtain ⟨hreply₂, hfollows₂⟩ := hs.perform_follows hgauge now₂ h₂
  obtain ⟨hreply₁₂, hfollows₁₂⟩ := hs₁.perform_follows hgauge₁ now₂ h₂
  obtain ⟨hreply₂₁, hfollows₂₁⟩ := hs₂.perform_follows hgauge₂ now₁ h₁
  -- The second request finds its key as it was, and changes taken in as before; only the mint may have gone on.
  have hopen₁ : decide s₁.IsOpen = decide s.IsOpen := decide_eq_decide.mpr hfollows₁.isOpen_iff
  have hopen₂ : decide s₂.IsOpen = decide s.IsOpen := decide_eq_decide.mpr hfollows₂.isOpen_iff
  have hlive₁ : s₁.live? k₂ = s.live? k₂ := (hfollows₁.live k₂).trans (if_neg hne)
  have hlive₂ : s₂.live? k₁ = s.live? k₁ := (hfollows₂.live k₁).trans (if_neg hne.symm)
  rw [hopen₁, hlive₁, hfollows₁.mint] at hreply₁₂ hfollows₁₂
  rw [hopen₂, hlive₂, hfollows₂.mint] at hreply₂₁ hfollows₂₁
  obtain ⟨σ, hσ, ha, hb, hmint⟩ := courses_cross y.streams now₁ now₂ k₁ k₂ s.IsOpen (hs.sound.minted.identityOf k₁)
    (hs.sound.minted.identityOf k₂) htokens
  have hkey₁ := hfollows₁.key_eq hs₁.sound.tidy
  have hkey₂ := hfollows₁₂.key_eq hs₁₂.sound.tidy
  have hjournal := hfollows₁.journal_trans hfollows₁₂
  have hjournal' := hfollows₂.journal_trans hfollows₂₁
  rw [ha.change, hb.change] at hjournal'
  have hfixed : ∀ key entry, s.live? key = some entry → σ entry.identity = entry.identity := by
    intro key entry hentry
    rcases hσ with rfl | ⟨-, -, hexchanges, -⟩
    · rfl
    · exact hexchanges.fixed (hs.sound.minted.live key entry hentry)
  refine ⟨σ, hσ.imp_right fun h => ⟨h.1, h.2.1, h.2.2.1⟩, ?_, ?_,
    hfollows₁.crossed hne hfollows₁₂ hfollows₂ hfollows₂₁ ha hb hmint hfixed hs₁₂ hs₂₁, ⟨_, _, hjournal, hjournal'⟩, ?_⟩
  · rw [hreply₂₁, hreply₁, ha.reply]
  · rw [hreply₂, hreply₁₂, hb.reply]
  · intro j j' monitor monitor' hj hj' hbackend hmoves hwilling p p'
    refine ⟨p.exists_isIdle, p'.exists_isIdle, fun steps steps' hidle hidle' => ?_⟩
    rw [Pipeline.backend_of_isIdle steps hidle, Pipeline.backend_of_isIdle steps' hidle']
    rw [hj] at hjournal
    rw [hj'] at hjournal'
    cases hi : s.journal with
    | none => exact absurd (hjournal.trans (by rw [hi])) (by simp)
    | some i =>
      rw [hi, Option.map_some, Option.some.injEq] at hjournal hjournal'
      have hweighed : y.backend.Weighed := weighed_run moves hbackend hmoves
      have hfirm : Firm s := alwaysKept_firm.run moves ⟨hstart.sound.tidy, by
        cases persistent <;> rintro _ ⟨⟩ ⟨⟩⟩
      rw [show p.journal = _ from hjournal, show p'.journal = _ from hjournal']
      refine hweighed.agrees_drain hwilling hne hkey₁ hkey₂ (hσ.imp_right fun h => h.2.2.2.2) ?_ now₁ now₂
      -- A journal that is cancelled got neither change.
      intro hcancelled
      have hnot : ¬s.IsOpen := fun hopen => absurd ((hopen i hi).symm.trans (hfirm.2 i hi hcancelled)) (by simp)
      rw [decide_eq_false hnot]
      exact ⟨Request.change_of_closed .., Request.change_of_closed ..⟩

/-- Two first entries, made in either order, are numbered in that order. -/
theorem replacements_exchange_identities : ∃ y : System,
    y = (start {} true {} .nobody {}).run [.openStream (.ofContent "text/plain" [120])] ∧
    ∃ σ, y.store.mint.Exchanges σ ∧
      let c₁ : Call := ⟨.reconcile (.ofUri "/a") (.replace 0 none), y.streams, ⟨0⟩⟩
      let c₂ : Call := ⟨.reconcile (.ofUri "/b") (.replace 0 none), y.streams, ⟨0⟩⟩
      (y.store.run [c₁, c₂]).Crossed σ (y.store.run [c₂, c₁]) := by
  refine ⟨_, rfl, ?_⟩
  have hne : Key.ofUri "/a" ≠ Key.ofUri "/b" := by
    rw [Key.ofUri_a, Key.ofUri_b]
    decide
  obtain ⟨σ, hσ, -, -, hcrossed, -⟩ := different_keys_commute {} true {} .nobody {}
    [.openStream (.ofContent "text/plain" [120])] ⟨0⟩ ⟨0⟩ (.reconcile (.ofUri "/a") (.replace 0 none))
    (.reconcile (.ofUri "/b") (.replace 0 none)) rfl rfl hne
    (fun _ _ => ⟨Identity.exchange ⟨1⟩ ⟨2⟩, ⟨1⟩, ⟨2⟩, ⟨2⟩, ⟨3⟩, rfl, rfl, rfl⟩)
  refine ⟨σ, ?_, hcrossed⟩
  rcases hσ with rfl | ⟨-, -, hexchanges⟩
  · -- The first key gets the first identity in one order, and the second in the other.
    have hlive := congrArg (Option.map Entry.identity) (hcrossed.live (.ofUri "/a"))
    rw [Key.ofUri_a, Key.ofUri_b] at hlive
    exact absurd hlive (by decide)
  · exact hexchanges

end System
end ResponseCache
