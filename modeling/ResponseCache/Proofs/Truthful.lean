import ResponseCache.Proofs.Fetch
import ResponseCache.Proofs.Store.Parallel
/-!
What the answer to a decision says of the store. It names what was live before and what is live now, and whether that is
another snapshot; with a journal, a snapshot goes there just when it is another one. A decision that was applied is settled:
made once more, it finds what it wants and leaves it alone. Only a replacement is never settled.

A supplied alternative is compared with the one that is there twice, by the validator and by the store, and both come to the
same.
-/
namespace ResponseCache

theorem Journal.push_ne (j : Journal) (now : Nat) (change : Change) : j.push now change ≠ j := by
  intro h
  have hlast : j.lastSeq + 1 = j.lastSeq := congrArg Journal.lastSeq h
  omega

/-- The journal without the times at which its changes were submitted. -/
def Journal.unclocked (j : Journal) : Journal := { j with queue := j.queue.map fun item => { item with submittedAt := 0 } }

theorem Journal.unclocked_push (j : Journal) (now now' : Nat) (change : Change) :
    (j.push now change).unclocked = (j.push now' change).unclocked := by
  simp only [unclocked, push, List.map_append, List.map_cons, List.map_nil]

/-- The snapshot without the time of its last change. -/
def Entry.undated (e : Entry) : Entry := { e with updatedAt := Moment.date ⟨0⟩ }

/-- What a decision came to, whatever it was called and whenever it was made. -/
def Reconciliation.outcome (r : Reconciliation) : Entry × Identity × Bool := (r.entry.undated, r.previous, r.changed)

namespace Store

/-- What the answer says of the decision is what the decision did between the two stores. -/
structure Truthful (streams : Streams) (now : Moment) (key : Key) (s s' : Store) (r : Reconciliation) : Prop where
  previous : r.previous = s.identityOf key
  shown : (s'.lookup key).1 = some r.entry
  others : ∀ key', key' ≠ key → s'.live? key' = s.live? key'
  changed : r.changed = true ↔ s'.live? key ≠ s.live? key
  created : r.created = true ↔ s.live? key = none
  queued : ∀ j, s.journal = some j →
    (r.changed = true ↔ ∃ record, Record.ofEntry streams r.entry = .ok record ∧
      s'.journal = some (j.push now.tick (.store record))) ∧
    (r.changed = false ↔ s'.journal = some j)

/-- The decision, made again at that time, finds the entry as it wants it, unless it replaces. A replacement, of whatever
content, gives the entry a larger identity. -/
structure Settled (streams : Streams) (now : Moment) (key : Key) (decision : Decision) (s : Store) (entry : Entry) : Prop where
  kept : decision.kind ≠ .replace →
    (s.reconcile streams now key decision).1 = .ok ⟨entry, decision.kind, entry.identity, false⟩
  unmoved : decision.kind ≠ .replace → ∀ key', (s.reconcile streams now key decision).2.live? key' = s.live? key'
  unqueued : decision.kind ≠ .replace → (s.reconcile streams now key decision).2.journal = s.journal
  renewed : ∀ again r, Decision.kind again = .replace → (s.reconcile streams now key again).1 = .ok r →
    entry.identity < r.entry.identity

section
variable {s s' : Store} {streams : Streams} {now : Moment} {key : Key} {decide : Option Entry → Except Error Decision}
  {decision : Decision} {r : Reconciliation}

theorem Ending.previous_eq (h : Ending s streams now key decide (.ok r) s') : r.previous = s.identityOf key := by
  cases h with
  | stands decision entry hd hlive h => exact (identityOf_of_live hlive).symm
  | revised decision entry mint s' hd h hship => rfl

theorem Ending.kind_eq (h : Ending s streams now key decide (.ok r) s') (hd : decide (s.live? key) = .ok decision) :
    r.kind = decision.kind := by
  cases h with
  | stands decision' entry hd' hlive h => exact congrArg Decision.kind (Except.ok.inj (hd'.symm.trans hd))
  | revised decision' entry mint s' hd' h hship => exact congrArg Decision.kind (Except.ok.inj (hd'.symm.trans hd))

theorem Ending.changed_iff (h : Ending s streams now key decide (.ok r) s') :
    r.changed = true ↔ s'.live? key ≠ s.live? key := by
  constructor
  · intro hchanged hsame
    have hnow : s'.live? key = some r.entry := (h.live?_ok key).trans (if_pos rfl)
    cases h with
    | stands => exact absurd hchanged (by simp)
    | revised decision entry mint s' hd h hship => exact h.ne_current (hsame.symm.trans hnow)
  · intro hother
    by_contra hunchanged
    exact hother (h.live?_of_unchanged (Bool.eq_false_iff.mpr hunchanged) key)

/-- Only a replacement goes well without a live entry. -/
theorem Ending.kind_of_vacant (h : Ending s streams now key decide (.ok r) s') (hvacant : s.live? key = none) :
    r.kind = .replace := by
  cases h with
  | stands decision entry hd hlive h => exact absurd (hvacant.symm.trans hlive) (by simp)
  | revised decision entry mint s' hd h hship =>
    rw [hvacant] at h
    cases h
    rfl

theorem Ending.created_iff (h : Ending s streams now key decide (.ok r) s') (hs : s.Living streams) :
    r.created = true ↔ s.live? key = none := by
  have habsent : r.previous.isAbsent = (s.live? key).isNone := by
    rw [h.previous_eq]
    exact hs.isAbsent_identityOf key
  rw [Reconciliation.created, habsent, Bool.and_eq_true, Option.isNone_iff_eq_none, decide_eq_true_iff]
  exact ⟨fun hcreated => hcreated.1, fun hvacant => ⟨hvacant, h.kind_of_vacant hvacant⟩⟩

theorem Ending.queued_iff (h : Ending s streams now key decide (.ok r) s') {j : Journal} (hj : s.journal = some j) :
    (r.changed = true ↔ ∃ record, Record.ofEntry streams r.entry = .ok record ∧
        s'.journal = some (j.push now.tick (.store record))) ∧
      (r.changed = false ↔ s'.journal = some j) := by
  -- A journal that took a change in is another one, so the two cases exclude each other.
  have hpush (record : Record) : some (j.push now.tick (.store record)) ≠ some j :=
    fun hsame => j.push_ne now.tick (.store record) (Option.some.inj hsame)
  rcases h.journal_ok hj with ⟨hunchanged, -, hsame⟩ | ⟨hchanged, record, hrecord, hpushed⟩
  · refine ⟨?_, iff_of_true hunchanged hsame⟩
    rw [hunchanged]
    refine iff_of_false (by simp) ?_
    rintro ⟨record, -, hpushed⟩
    exact hpush record (hpushed.symm.trans hsame)
  · refine ⟨iff_of_true hchanged ⟨record, hrecord, hpushed⟩, ?_⟩
    rw [hchanged]
    exact iff_of_false (by simp) fun hsame => hpush record (hpushed.symm.trans hsame)

theorem Ending.truthful (h : Ending s streams now key decide (.ok r) s') (hs : s.Living streams) :
    Truthful streams now key s s' r where
  previous := h.previous_eq
  shown := by rw [lookup_fst, h.live?_ok, if_pos rfl]
  others key' hk := by rw [h.live?_ok, if_neg (Ne.symm hk)]
  changed := h.changed_iff
  created := h.created_iff hs
  queued _ hj := h.queued_iff hj

/-- The entry that a decision leaves behind stands under that decision, unless it was a replacement. -/
theorem Ending.stands_after (h : Ending s streams now key decide (.ok r) s') (hd : decide (s.live? key) = .ok decision)
    (hkind : decision.kind ≠ .replace) : Stands streams r.entry decision := by
  cases h with
  | stands decision' entry hd' hlive h => exact Except.ok.inj (hd'.symm.trans hd) ▸ h
  | revised decision' entry mint s' hd' h hship =>
    obtain rfl : decision' = decision := Except.ok.inj (hd'.symm.trans hd)
    generalize s.live? key = current at h
    cases h with
    | attach old a hsealed hnew => exact .attach a hsealed rfl
    | clear old hsome => exact .clear rfl
    | replace => exact absurd rfl hkind

theorem Ending.settled (h : Ending s streams now key decide (.ok r) s') (hd : decide (s.live? key) = .ok decision)
    (hs : s.Living streams) (now' : Moment) : Settled streams now' key decision s' r.entry := by
  have hs' : s'.Living streams := h.living hs
  have hlive : s'.live? key = some r.entry := (h.live?_ok key).trans (if_pos rfl)
  -- The second decision is one about a store in which the entry already is as the first one made it.
  have hstays (hkind : decision.kind ≠ .replace) :=
    (ending streams now' key (fun _ => .ok decision) hs'.sound.tidy).of_stands rfl hlive (h.stands_after hd hkind)
  refine ⟨fun hkind => (hstays hkind).1, fun hkind key' => ?_, fun hkind => ?_, ?_⟩
  · rw [reconcile, (hstays hkind).2]
    rfl
  · rw [reconcile, (hstays hkind).2]
  · intro again r' hkind hr'
    have hagain := ending streams now' key (fun _ => .ok again) hs'.sound.tidy
    rw [show (s'.reconcileWith streams now' key fun _ => .ok again).1 = .ok r' from hr'] at hagain
    cases again with
    | replace primary alternative =>
      -- The mint has gone past the identity that is live by now.
      obtain ⟨identity, hmint, -, hentry⟩ := hagain.replaced rfl
      rw [hentry]
      exact (hs'.sound.minted.live key r.entry hlive).lt hmint
    | keep | attach | clear => exact absurd hkind (by simp [Decision.kind])

/-- The record of an entry is silent about its last change. -/
theorem ofEntry_undated (streams : Streams) (entry : Entry) :
    Record.ofEntry streams entry.undated = Record.ofEntry streams entry := rfl

/-- Decisions about one store that come to the same leave the same snapshots and the same queue, up to their times. -/
theorem Ending.agree {t t' : Store} {now' : Moment} {decide' : Option Entry → Except Error Decision}
    {answer answer' : Except Error Reconciliation} (h : Ending s streams now key decide answer t)
    (h' : Ending s streams now' key decide' answer' t')
    (hsame : answer.map Reconciliation.outcome = answer'.map Reconciliation.outcome) :
    (∀ key', (t.live? key').map Entry.undated = (t'.live? key').map Entry.undated) ∧
      t.journal.map Journal.unclocked = t'.journal.map Journal.unclocked := by
  rcases map_eq_map_cases hsame with ⟨e, rfl, rfl⟩ | ⟨r, r', rfl, rfl, hr⟩
  · obtain ⟨mint, rfl⟩ := h.error_eq
    obtain ⟨mint', rfl⟩ := h'.error_eq
    exact ⟨fun _ => rfl, rfl⟩
  · have hentry : r.entry.undated = r'.entry.undated := congrArg Prod.fst hr
    have hchanged : r.changed = r'.changed := congrArg (fun o => o.2.2) hr
    -- An answer fixes the entry, and the entry but for its date fixes the record that is queued.
    constructor
    · intro key'
      rw [h.live?_ok, h'.live?_ok]
      by_cases hk : key = key'
      · rw [if_pos hk, if_pos hk, Option.map_some, Option.map_some, hentry]
      · rw [if_neg hk, if_neg hk]
    · cases hj : s.journal with
      | none =>
        have hnone {now₁ : Moment} {u : Store} (hfed : Fed now₁ s u) : u.journal = none := by
          rcases hfed with hkept | ⟨j, change, hsome, -⟩
          · exact hkept.trans hj
          · exact absurd (hj.symm.trans hsome) (by simp)
        rw [hnone h.fed, hnone h'.fed]
      | some j =>
        have hqueued := h.queued_iff hj
        have hqueued' := h'.queued_iff hj
        cases hc : r.changed with
        | false => rw [hqueued.2.mp hc, hqueued'.2.mp (hchanged ▸ hc)]
        | true =>
          obtain ⟨record, hrecord, hpushed⟩ := hqueued.1.mp hc
          obtain ⟨record', hrecord', hpushed'⟩ := hqueued'.1.mp (hchanged ▸ hc)
          have hrecords : record = record' := by
            rw [← ofEntry_undated, hentry, ofEntry_undated] at hrecord
            exact Except.ok.inj (hrecord.symm.trans hrecord')
          rw [hpushed, hpushed', hrecords, Option.map_some, Option.map_some, Journal.unclocked_push j now.tick now'.tick]

theorem turnAway_outcome {answer answer' : Except Error Reconciliation}
    (h : answer.map Reconciliation.outcome = answer'.map Reconciliation.outcome) :
    (turnAway answer).map Reconciliation.outcome = (turnAway answer').map Reconciliation.outcome := by
  rcases map_eq_map_cases h with ⟨e, rfl, rfl⟩ | ⟨r, r', rfl, rfl, hr⟩
  · rfl
  · have hchanged : r.changed = r'.changed := congrArg (fun o => o.2.2) hr
    simp only [turnAway, hchanged]
    split
    · rfl
    · exact h

/-- The validator keeps an entry just where the store would find the alternative there. -/
theorem verdict_supply (key : Key) (mint : Mint) {entry : Entry} (hsealed : entry.Sealed streams) (now now' : Moment)
    (a : Alternative) :
    (verdict streams now key (some entry) mint fun current => Decision.decide key current .notModified (.supply a)).1.map
        Reconciliation.outcome =
      (verdict streams now' key (some entry) mint fun _ => .ok (.attach a)).1.map Reconciliation.outcome := by
  -- The validator looks for the alternative before it decides, the store after it was told to attach.
  by_cases hsame : entry.alternative = some a
  · have hkeep : Decision.decide key (some entry) .notModified (.supply a) = .ok .keep := by simp [Decision.decide, hsame]
    have hattached : Stands streams entry (.attach a) := .attach a (hsealed.alternative a hsame) hsame
    rw [verdict_of_stands hkeep .keep, verdict_of_stands rfl hattached]
    rfl
  · have hattach : Decision.decide key (some entry) .notModified (.supply a) = .ok (.attach a) := by
      simp [Decision.decide, hsame]
    have hattached : (fun _ => .ok (.attach a) : Option Entry → Except Error Decision) (some entry) = .ok (.attach a) := rfl
    rw [verdict_of_decided hattach, verdict_of_decided hattached]
    simp only [resolve]
    cases streams.ensureSealed a.stream with
    | error e => rfl
    | ok ready =>
      simp only [require, bind, Except.bind, pure, Except.pure, if_neg hsame]
      rfl

theorem Living.supply_outcome (hs : s.Living streams) {entry : Entry} (hlive : s.live? key = some entry) (now now' : Moment)
    (a : Alternative) :
    (s.reconcileWith streams now key fun current => Decision.decide key current .notModified (.supply a)).1.map
        Reconciliation.outcome =
      (s.reconcile streams now' key (.attach a)).1.map Reconciliation.outcome := by
  have hverdict := verdict_supply key s.mint (hs.sealed key entry hlive) now now' a
  unfold reconcile
  rw [(hs.reconcileWith_eq now key _).1, (hs.reconcileWith_eq now' key _).1, hlive]
  split
  · exact hverdict
  · exact turnAway_outcome hverdict

end
end Store

open Store in
/-- For every decision that goes well, in every state that can be reached: the answer tells what happened, and the decision
is settled at any later moment. A confirmed copy with a supplied alternative comes to the same as attaching it. -/
theorem reconcile_truthful_and_settled (config : Config) (persistent : Bool) (origin : Origin) (publisher : Publisher)
    (backend : Backend) (moves : List System.Move) (now now' : Moment) (key : Key) :
    let y := (System.start config persistent origin publisher backend).run moves
    (∀ (decision : Decision) (r : Reconciliation) (s : Store), y.store.reconcile y.streams now key decision = (.ok r, s) →
      Truthful y.streams now key y.store s r ∧ r.kind = decision.kind ∧ Settled y.streams now' key decision s r.entry) ∧
    ∀ (entry : Entry) (a : Alternative), y.store.live? key = some entry →
      let supplied := y.store.reconcileWith y.streams now key fun current =>
        Decision.decide key current .notModified (.supply a)
      let attached := y.store.reconcile y.streams now' key (.attach a)
      supplied.1.map Reconciliation.outcome = attached.1.map Reconciliation.outcome ∧
        (∀ key', (supplied.2.live? key').map Entry.undated = (attached.2.live? key').map Entry.undated) ∧
        supplied.2.journal.map Journal.unclocked = attached.2.journal.map Journal.unclocked := by
  intro y
  have hy : y.store.Living y.streams :=
    System.living_run (System.living_start config persistent origin publisher backend) moves
  constructor
  · intro decision r s hreconcile
    have hend := ending y.streams now key (fun _ => .ok decision) hy.sound.tidy
    rw [show y.store.reconcileWith y.streams now key (fun _ => .ok decision) = (.ok r, s) from hreconcile] at hend
    exact ⟨hend.truthful hy, hend.kind_eq rfl, hend.settled rfl hy now'⟩
  · intro entry a hlive
    have houtcome := hy.supply_outcome hlive now now' a
    exact ⟨houtcome, (ending y.streams now key _ hy.sound.tidy).agree
      (ending y.streams now' key _ hy.sound.tidy) houtcome⟩

/-- An alternative that is attached beside a primary is another snapshot, sends one record on its way and is settled. -/
theorem attached_alternative_settles : ∃ (y : System) (r : Reconciliation) (s : Store),
    y = (System.start {} true {} .nobody {}).run [.openStream (.ofContent "text/plain" [120]),
      .openStream (.ofContent "text/html" [60]), .ask ⟨0⟩ (.reconcile (.ofUri "/a") (.replace 0 none))] ∧
    y.store.reconcile y.streams ⟨1⟩ (.ofUri "/a") (.attach ⟨"html", 1⟩) = (.ok r, s) ∧
    r.changed = true ∧ Store.Truthful y.streams ⟨1⟩ (.ofUri "/a") y.store s r ∧
    Store.Settled y.streams ⟨2⟩ (.ofUri "/a") (.attach ⟨"html", 1⟩) s r.entry := by
  have hall := (reconcile_truthful_and_settled {} true {} .nobody {}
    [.openStream (.ofContent "text/plain" [120]), .openStream (.ofContent "text/html" [60]),
      .ask ⟨0⟩ (.reconcile (.ofUri "/a") (.replace 0 none))] ⟨1⟩ ⟨2⟩ (.ofUri "/a")).1 (.attach ⟨"html", 1⟩)
  rw [Key.ofUri_a] at hall ⊢
  refine ⟨_, _, _, rfl, rfl, rfl, ?_⟩
  obtain ⟨htruthful, -, hsettled⟩ := hall _ _ rfl
  exact ⟨htruthful, hsettled⟩

end ResponseCache
