import ResponseCache.Proofs.Journal.Watch
/-!
What becomes of the changes of a journal. One step of the writer settles at most the first change that waits, and files a
failure before its number is committed; a flush takes only failures up to its barrier. So no failure is lost on the way.
-/
namespace ResponseCache.Watch

namespace Valid
variable {w : Watch}

theorem of_passes (h : w.Valid) {p : Pipeline} (hn : p.journal.Numbered) (hp : w.pipeline.Passes p) :
    Valid { w with pipeline := p } where
  numbered := hn
  seqs := by
    show w.submitted.map (·.seq) = List.range' 1 p.journal.lastSeq
    rw [hp.lastSeq]
    exact h.seqs
  fate := by
    intro item hitem
    show item ∈ p.journal.awaiting ∨ _
    rw [hp.awaiting]
    exact h.fate item hitem
  sorted := h.sorted
  behind := by
    intro f hf
    show f.seq + p.journal.awaiting.length ≤ p.journal.lastSeq
    rw [hp.awaiting, hp.lastSeq]
    exact h.behind f hf
  reported := h.reported
  unreported := h.unreported.trans hp.failures.symm
  woken := fun f hf hwoken => Nat.le_trans (h.woken f hf hwoken) hp.committed

/-- The failures so far have smaller numbers than the change that is settled next. -/
theorem lt_of_settles (h : w.Valid) {p : Pipeline} {item : Queued} {accepted : Option Queued} {failure : Option Failure}
    (hs : w.pipeline.Settles p item accepted failure) : ∀ f ∈ w.failed, f.seq < item.seq := by
  intro f hf
  obtain ⟨hitem, hcount⟩ := h.numbered.head (hs.underway.trans hs.awaiting)
  have hle := h.behind f hf
  have hlength : w.journal.awaiting.length = p.journal.awaiting.length + 1 := congrArg List.length hs.awaiting
  omega

theorem of_settles (h : w.Valid) {p : Pipeline} {item : Queued} {accepted : Option Queued} {failure : Option Failure}
    (hn : p.journal.Numbered) (hs : w.pipeline.Settles p item accepted failure) :
    Valid { w with pipeline := p, applied := w.applied ++ accepted.toList, failed := w.failed ++ failure.toList } where
  numbered := hn
  seqs := by
    show w.submitted.map (·.seq) = List.range' 1 p.journal.lastSeq
    rw [hs.lastSeq]
    exact h.seqs
  fate := by
    intro item' hitem'
    show item' ∈ p.journal.awaiting ∨ item' ∈ w.applied ++ accepted.toList ∨ ∃ f ∈ w.failed ++ failure.toList, _
    rcases h.fate item' hitem' with hwaits | happlied | ⟨f, hf, hseq⟩
    · have hmem : item' ∈ item :: p.journal.awaiting := hs.awaiting ▸ hwaits
      rcases List.mem_cons.mp hmem with rfl | hrest
      · rcases hs.fate with haccepted | ⟨f, hf⟩
        · exact .inr (.inl (by simp [haccepted]))
        · exact .inr (.inr ⟨f, by simp [hf], hs.seq f hf⟩)
      · exact .inl hrest
    · exact .inr (.inl (List.mem_append_left _ happlied))
    · exact .inr (.inr ⟨f, List.mem_append_left _ hf, hseq⟩)
  sorted := by
    show (w.failed ++ failure.toList).Pairwise _
    rw [List.pairwise_append]
    refine ⟨h.sorted, by cases failure <;> simp, ?_⟩
    intro f hf g hg
    rw [hs.seq g (Option.mem_toList.mp hg)]
    exact h.lt_of_settles hs f hf
  behind := by
    intro f hf
    show f.seq + p.journal.awaiting.length ≤ p.journal.lastSeq
    obtain ⟨hitem, hcount⟩ := h.numbered.head (hs.underway.trans hs.awaiting)
    have hlast : p.journal.lastSeq = w.journal.lastSeq := hs.lastSeq
    rcases List.mem_append.mp hf with hold | hnew
    · have hlt := h.lt_of_settles hs f hold
      omega
    · have heq := hs.seq f (Option.mem_toList.mp hnew)
      omega
  reported := fun f hf => List.mem_append_left _ (h.reported f hf)
  unreported := by
    show (w.failed ++ failure.toList).filter (fun f => f ∉ w.reported) =
      p.journal.failures ++ p.journal.hand.unfiled?.toList
    -- What fails now has a new number, so no flush has reported it.
    have hstays : failure.toList.filter (fun f => f ∉ w.reported) = failure.toList := by
      rw [List.filter_eq_self]
      intro f hf
      have hseq := hs.seq f (Option.mem_toList.mp hf)
      have hnew : f ∉ w.reported := by
        intro hreported
        have hlt := h.lt_of_settles hs f (h.reported f hreported)
        omega
      simpa using hnew
    have hold : w.failed.filter (fun f => f ∉ w.reported) = w.journal.failures := by
      rw [h.unreported, journal, hs.unfiled, Option.toList_none, List.append_nil]
    rw [List.filter_append, hold, hstays, hs.failures, hs.hand, journal]
  woken := by
    intro f hf hwoken
    show f.barrier.target ≤ p.journal.committed
    rw [hs.committed]
    exact h.woken f hf hwoken

theorem write (h : w.Valid) (step : WriterStep) : (w.step (.write step)).Valid := by
  have hstage := w.pipeline.stage step
  have hn := hstage.numbered h.numbered
  rcases hstage.passes_or_settles h.numbered with ⟨haccepted, hfailure, hpasses⟩ | ⟨item, hsettles⟩
  · simp only [Watch.step, haccepted, hfailure, Option.toList_none, List.append_nil]
    exact h.of_passes hn hpasses
  · exact h.of_settles hn hsettles

theorem take (h : w.Valid) (now : Nat) (change : Change) : (w.take now change).Valid := by
  have hawaiting := w.journal.awaiting_push now change
  have hseqs : w.submitted.map Queued.seq ++ [w.journal.lastSeq + 1] = List.range' 1 (w.journal.lastSeq + 1) := by
    rw [h.seqs, List.range'_concat, Nat.one_mul, Nat.add_comm]
  refine ⟨h.numbered.push now change, ?_, ?_, h.sorted, ?_, h.reported, h.unreported, h.woken⟩
  · show (w.submitted ++ [_]).map Queued.seq = _
    rw [List.map_append]
    exact hseqs
  · intro item hitem
    show item ∈ (w.journal.push now change).awaiting ∨ _
    rw [hawaiting]
    rcases List.mem_append.mp hitem with hold | hnew
    · rcases h.fate item hold with hwaits | hsettled
      · exact .inl (List.mem_append_left _ hwaits)
      · exact .inr hsettled
    · exact .inl (List.mem_append_right _ hnew)
  · intro f hf
    have hle := h.behind f hf
    show f.seq + (w.journal.push now change).awaiting.length ≤ w.journal.lastSeq + 1
    rw [hawaiting, List.length_append, List.length_singleton]
    omega

theorem begin (h : w.Valid) (b : Barrier) : Valid { w with flushes := w.flushes ++ [⟨b, .waiting⟩] } := by
  have hreported : Watch.reported { w with flushes := w.flushes ++ [⟨b, .waiting⟩] } = w.reported := by
    simp [Watch.reported, Flush.taken]
  refine ⟨h.numbered, h.seqs, h.fate, h.sorted, h.behind, ?_, ?_, ?_⟩
  · rw [hreported]
    exact h.reported
  · rw [hreported]
    exact h.unreported
  · intro f hf hwoken
    rcases List.mem_append.mp hf with hold | hnew
    · exact h.woken f hold hwoken
    · rw [List.mem_singleton] at hnew
      rw [hnew] at hwoken
      exact absurd hwoken (by simp)

/-- A flush goes on and takes nothing. -/
theorem proceed (h : w.Valid) {i : Nat} {f : Flush} (hf : w.flushes[i]? = some f) (hold : f.taken = []) (b : Barrier)
    {progress : Progress} (hnew : (⟨b, progress⟩ : Flush).taken = [])
    (hwoken : progress = .woken → b.target ≤ w.journal.committed) : (w.setProgress i b progress).Valid := by
  have hreported (x : Failure) : x ∈ (w.setProgress i b progress).reported ↔ x ∈ w.reported := by
    rw [mem_reported_setProgress hf hold, hnew]
    simp
  refine ⟨h.numbered, h.seqs, h.fate, h.sorted, h.behind, ?_, ?_, ?_⟩
  · intro x hx
    exact h.reported x ((hreported x).mp hx)
  · simp only [hreported]
    exact h.unreported
  · intro g hg hg'
    rcases List.mem_or_eq_of_mem_set hg with hmem | heq
    · exact h.woken g hmem hg'
    · rw [heq] at hg' ⊢
      exact hwoken hg'

/-- A failure in the writer's hand is not in front of anything that is committed. -/
theorem committed_lt_of_unfiled (h : w.Valid) {f : Failure} (hf : w.journal.hand.unfiled? = some f) :
    w.journal.committed < f.seq := by
  cases hhand : w.journal.hand with
  | settled item failure =>
    have hitem : item ∈ w.journal.underway := by simp [Journal.underway, hhand, Hand.item?]
    have hlt := h.numbered.committed_lt hitem
    cases failure with
    | none => simp [hhand, Hand.unfiled?] at hf
    | some reason =>
      simp only [hhand, Hand.unfiled?, Option.some.injEq] at hf
      exact hf ▸ hlt
  | empty | working item due | filed item => simp [hhand, Hand.unfiled?] at hf

/-- The failures in front of a barrier that is reached are all in the list of the journal, unless they are reported. -/
theorem filter_failed (h : w.Valid) {n : Nat} (hn : n ≤ w.journal.committed) :
    w.failed.filter (fun f => f.seq ≤ n ∧ f ∉ w.reported) = w.journal.failures.filter fun f => f.seq ≤ n := by
  have hsplit : w.failed.filter (fun f => f.seq ≤ n ∧ f ∉ w.reported) =
      (w.failed.filter fun f => f ∉ w.reported).filter fun f => f.seq ≤ n := by
    rw [List.filter_filter]
    simp only [Bool.decide_and]
  have hunfiled : w.journal.hand.unfiled?.toList.filter (fun f => f.seq ≤ n) = [] := by
    rw [List.filter_eq_nil_iff]
    intro f hf
    have hlt := h.committed_lt_of_unfiled (Option.mem_toList.mp hf)
    simp only [decide_eq_true_eq]
    omega
  rw [hsplit, h.unreported, List.filter_append, hunfiled, List.append_nil]

/-- What a flush takes out of the journal. -/
theorem taken_collect (w : Watch) (b : Barrier) :
    w.journal.failures.filter (fun f => f ∉ (w.journal.collect b).2.failures) =
      w.journal.failures.filter fun f => f.seq ≤ b.target := by
  apply List.filter_congr
  intro f hf
  simp [Journal.collect, hf]

theorem collect (h : w.Valid) {i : Nat} {b : Barrier} (hf : w.flushes[i]? = some ⟨b, .woken⟩)
    (answer : Except Error Unit) : (w.complete i b answer (w.journal.collect b).2).Valid := by
  have hreached : b.target ≤ w.journal.committed := h.woken _ (List.mem_of_getElem? hf) rfl
  have htaken := taken_collect w b
  have hcovered := h.filter_failed hreached
  unfold complete
  rw [htaken, ← hcovered]
  -- What is taken is named, so that the conditions below do not unfold it.
  obtain ⟨taken, htakes⟩ : ∃ taken, taken = w.failed.filter fun f => f.seq ≤ b.target ∧ f ∉ w.reported := ⟨_, rfl⟩
  obtain ⟨w', hw'⟩ : ∃ w', w' = (w.setJournal (w.journal.collect b).2).setProgress i b (.returned answer taken) :=
    ⟨_, rfl⟩
  rw [← htakes, ← hw']
  have hreported (x : Failure) : x ∈ w'.reported ↔ x ∈ w.reported ∨ x ∈ taken := by
    rw [hw']
    exact mem_reported_setProgress (w := w.setJournal (w.journal.collect b).2) hf rfl b _ x
  have hleft : w.failed.filter (fun f => f ∉ w'.reported) =
      (w.failed.filter fun f => f ∉ w.reported).filter fun f => !(f.seq ≤ b.target) := by
    rw [List.filter_filter]
    apply List.filter_congr
    intro f hmem
    simp only [hreported, htakes, List.mem_filter, hmem, true_and, decide_eq_true_eq]
    by_cases hle : f.seq ≤ b.target <;> by_cases hold : f ∈ w.reported <;> simp [hle, hold]
  have hunfiled : w.journal.hand.unfiled?.toList.filter (fun f => !(f.seq ≤ b.target)) =
      w.journal.hand.unfiled?.toList := by
    rw [List.filter_eq_self]
    intro f hmem
    have hlt := h.committed_lt_of_unfiled (Option.mem_toList.mp hmem)
    simp only [Bool.not_eq_true', decide_eq_false_iff_not]
    omega
  rw [h.unreported, List.filter_append, hunfiled] at hleft
  subst hw'
  refine ⟨h.numbered.of_underway rfl rfl rfl, h.seqs, h.fate, h.sorted, h.behind, ?_, ?_, ?_⟩
  · intro x hx
    rcases (hreported x).mp hx with hold | hnew
    · exact h.reported x hold
    · rw [htakes] at hnew
      exact (List.mem_filter.mp hnew).1
  · exact hleft
  · intro g hg hwoken
    rcases List.mem_or_eq_of_mem_set hg with hmem | heq
    · exact h.woken g hmem hwoken
    · rw [heq] at hwoken
      exact absurd hwoken (by simp)

theorem giveUp (h : w.Valid) {i : Nat} {b : Barrier} (hf : w.flushes[i]? = some ⟨b, .waiting⟩)
    (answer : Except Error Unit) : (w.complete i b answer w.journal).Valid := by
  have hnone : w.journal.failures.filter (fun f => f ∉ w.journal.failures) = [] := by
    rw [List.filter_eq_nil_iff]
    intro f hmem
    simpa using hmem
  unfold complete
  rw [hnone]
  exact h.proceed hf rfl b rfl (by simp)

/-- Whatever happens, nothing gets lost. -/
theorem step (h : w.Valid) (m : Move) : (w.step m).Valid := by
  have hcomes := w.comes m
  generalize w.step m = w' at hcomes ⊢
  cases hcomes with
  | nothing => exact h
  | submitted now change => exact h.take now change
  | written step => exact h.write step
  | disturbed backend => exact h.of_passes h.numbered ⟨rfl, Nat.le_refl _, rfl, rfl⟩
  | closed => exact h.of_passes (h.numbered.of_underway rfl rfl rfl) ⟨rfl, Nat.le_refl _, rfl, rfl⟩
  | cancelled => exact h.of_passes (h.numbered.of_underway rfl rfl rfl) ⟨rfl, Nat.le_refl _, rfl, rfl⟩
  | begun now => exact h.begin (w.journal.barrier now)
  | woken i b hf hreached => exact h.proceed hf rfl b rfl fun _ => by simpa [Journal.reached] using hreached
  | collected i b hf => exact h.collect hf _
  | givenUp i now b patience hf => exact h.giveUp hf _

theorem run (moves : List Move) : ∀ {w : Watch}, w.Valid → (w.run moves).Valid := by
  induction moves with
  | nil => exact fun h => h
  | cons m rest ih => exact fun h => ih (h.step m)

end Valid

end ResponseCache.Watch
