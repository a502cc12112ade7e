import ResponseCache.Proofs.Encoding
import ResponseCache.Proofs.Journal.Fate

namespace ResponseCache.Watch

/-- Where a flush is after a move: where it was, or woken, or it has returned. -/
theorem flush_step (w : Watch) (m : Move) {i : Nat} {b : Barrier} {progress : Progress}
    (hf : w.flushes[i]? = some ⟨b, progress⟩) :
    (w.step m).flushes[i]? = some ⟨b, progress⟩ ∨
    (w.step m).flushes[i]? = some ⟨b, .woken⟩ ∨
    (progress = .woken ∧ w.step m = w.complete i b (w.journal.collect b).1 (w.journal.collect b).2) ∨
    (∃ patience, progress = .waiting ∧ w.step m = w.complete i b (.error (.flushTimeout patience)) w.journal) := by
  have hcomes := w.comes m
  generalize w.step m = w' at hcomes ⊢
  cases hcomes with
  | nothing | submitted | written | disturbed | closed | cancelled => exact .inl hf
  | begun now =>
    have hlt : i < w.flushes.length := (List.getElem?_eq_some_iff.mp hf).choose
    exact .inl ((List.getElem?_append_left hlt).trans hf)
  -- The other moves are about one flush, which is this one or is not.
  | woken j b' hf' =>
    by_cases hij : j = i
    · subst hij
      rw [hf, Option.some.injEq, Flush.mk.injEq] at hf'
      rw [← hf'.1, getElem?_setProgress hf, if_pos rfl]
      exact .inr (.inl rfl)
    · rw [getElem?_setProgress hf', if_neg hij]
      exact .inl hf
  | collected j b' hf' =>
    by_cases hij : j = i
    · subst hij
      rw [hf, Option.some.injEq, Flush.mk.injEq] at hf'
      rw [← hf'.1]
      exact .inr (.inr (.inl ⟨hf'.2, rfl⟩))
    · refine .inl ?_
      rw [getElem?_complete hf', if_neg hij]
      exact hf
  | givenUp j now b' patience hf' =>
    by_cases hij : j = i
    · subst hij
      rw [hf, Option.some.injEq, Flush.mk.injEq] at hf'
      rw [← hf'.1]
      exact .inr (.inr (.inr ⟨patience, hf'.2, rfl⟩))
    · refine .inl ?_
      rw [getElem?_complete hf', if_neg hij]
      exact hf

/-- A flush keeps its barrier. -/
theorem flush_run (moves : List Move) : ∀ {w : Watch} {i : Nat} {b : Barrier} {progress : Progress},
    w.flushes[i]? = some ⟨b, progress⟩ → ∃ progress', (w.run moves).flushes[i]? = some ⟨b, progress'⟩ := by
  induction moves with
  | nil => exact fun {_ _ _ progress} hf => ⟨progress, hf⟩
  | cons m rest ih =>
    intro w i b progress hf
    rcases flush_step w m hf with h | h | ⟨-, h⟩ | ⟨patience, -, h⟩
    · exact ih h
    · exact ih h
    · have hnext := getElem?_complete hf b (w.journal.collect b).1 (w.journal.collect b).2 i
      rw [← h, if_pos rfl] at hnext
      exact ih hnext
    · have hnext := getElem?_complete hf b (.error (.flushTimeout patience)) w.journal i
      rw [← h, if_pos rfl] at hnext
      exact ih hnext

/-- A flush returns in the move from one watch to the next. -/
structure Returns (w w' : Watch) (i : Nat) (answer : Except Error Unit) (taken : List Failure) : Prop where
  before : ∀ f, w.flushes[i]? = some f → ∀ answer taken, f.progress ≠ .returned answer taken
  after : ∃ b, w'.flushes[i]? = some ⟨b, .returned answer taken⟩

/-- How a flush accounts for the changes up to a number when it returns in the move from one watch to the next. -/
structure Accounts (w w' : Watch) (target : Nat) (answer : Except Error Unit) (taken : List Failure) : Prop where
  committed : target ≤ w'.journal.committed
  seqs : w'.submitted.map (·.seq) = List.range' 1 w'.journal.lastSeq
  /-- Each of them is with the backend, or its failure is reported, now or before. -/
  fate : ∀ item ∈ w'.submitted, item.seq ≤ target →
    item ∈ w'.applied ∨ ∃ f ∈ w'.failed, f.seq = item.seq ∧ (f ∈ taken ∨ f ∈ w.reported)
  /-- It takes their failures, as far as these are not reported yet, and no others. -/
  takes : taken = w'.failed.filter fun f => f.seq ≤ target ∧ f ∉ w.reported
  answers : answer = match taken with
    | [] => .ok ()
    | first :: _ => .error (.flushFailed taken.length first.reason)
  least : ∀ first rest, taken = first :: rest → ∀ f ∈ rest, first.seq < f.seq

theorem Valid.accounts {w : Watch} (h : w.Valid) {i : Nat} {b : Barrier} (hf : w.flushes[i]? = some ⟨b, .woken⟩) :
    Accounts w (w.complete i b (w.journal.collect b).1 (w.journal.collect b).2) b.target (w.journal.collect b).1
      (w.journal.failures.filter fun f => f ∉ (w.journal.collect b).2.failures) := by
  have hreached : b.target ≤ w.journal.committed := h.woken _ (List.mem_of_getElem? hf) rfl
  have htaken := Valid.taken_collect w b
  have hcovered := h.filter_failed hreached
  refine ⟨hreached, h.seqs, ?_, htaken.trans hcovered.symm, ?_, ?_⟩
  · intro item hitem hle
    rw [htaken, ← hcovered]
    rcases h.fate item hitem with hwaits | happlied | ⟨f, hfailed, hseq⟩
    -- What still waits has a number behind the committed one.
    · have hlt := h.numbered.committed_lt (Journal.mem_underway_of_mem_awaiting hwaits)
      omega
    · exact .inl happlied
    · refine .inr ⟨f, hfailed, hseq, ?_⟩
      by_cases hold : f ∈ w.reported
      · exact .inr hold
      · refine .inl (List.mem_filter.mpr ⟨hfailed, ?_⟩)
        simp only [hold, not_false_eq_true, and_true, decide_eq_true_eq]
        omega
  · rw [htaken]
    rfl
  · intro first rest hlist f hmem
    have hsorted := h.sorted.filter fun f => f.seq ≤ b.target ∧ f ∉ w.reported
    rw [hcovered, ← htaken, hlist, List.pairwise_cons] at hsorted
    exact hsorted.1 f hmem

/-- A flush whose barrier is reached accounts for all that was submitted when it began. A flush that gives up reports
nothing and leaves the journal as it is. -/
theorem flush_barrier (patience : Option Span) (warnAbove : Nat) (backend : Backend) (monitor : Monitor)
    (before between : List Move) (now : Nat) (last : Move) {w₀ w w' : Watch} {answer : Except Error Unit}
    {taken : List Failure} (h₀ : w₀ = (start patience warnAbove backend monitor).run before)
    (hw : w = w₀.run (.begin now :: between)) (hw' : w' = w.step last)
    (hreturns : Returns w w' w₀.flushes.length answer taken) :
    Accounts w w' w₀.journal.lastSeq answer taken ∨
    (∃ limit, answer = .error (.flushTimeout limit)) ∧ taken = [] ∧ w'.journal = w.journal := by
  have hvalid₀ : w₀.Valid := h₀ ▸ (valid_start patience warnAbove backend monitor).run before
  have hvalid : w.Valid := hw ▸ hvalid₀.run (.begin now :: between)
  have hbegin : (w₀.step (.begin now)).flushes[w₀.flushes.length]? = some ⟨w₀.journal.barrier now, .waiting⟩ :=
    List.getElem?_concat_length
  obtain ⟨progress, hf⟩ : ∃ progress, w.flushes[w₀.flushes.length]? = some ⟨w₀.journal.barrier now, progress⟩ :=
    hw ▸ flush_run between hbegin
  -- The flush returns in the last move, so there it collects what it was woken for, or it gives up.
  obtain ⟨b, hafter⟩ := hreturns.after
  rw [hw'] at hafter
  rcases flush_step w last hf with h | h | ⟨hwoken, h⟩ | ⟨limit, hwaiting, h⟩
  · rw [hafter, Option.some.injEq, Flush.mk.injEq] at h
    exact absurd h.2.symm (hreturns.before _ hf answer taken)
  · rw [hafter, Option.some.injEq, Flush.mk.injEq] at h
    exact absurd h.2 (by simp)
  · rw [h, getElem?_complete hf, if_pos rfl, Option.some.injEq, Flush.mk.injEq, Progress.returned.injEq] at hafter
    obtain ⟨-, hanswer, htaken⟩ := hafter
    subst hwoken
    rw [hw', h, ← hanswer, ← htaken]
    exact .inl (hvalid.accounts hf)
  · rw [h, getElem?_complete hf, if_pos rfl, Option.some.injEq, Flush.mk.injEq, Progress.returned.injEq] at hafter
    obtain ⟨-, hanswer, htaken⟩ := hafter
    refine .inr ⟨⟨limit, hanswer.symm⟩, ?_, by rw [hw', h]; rfl⟩
    rw [← htaken, List.filter_eq_nil_iff]
    intro f hmem
    simpa using hmem

/-- Of two changes the backend refuses the first. The flush between them reports that, and does not wait for the second. -/
theorem flush_between_two_changes : ∃ w₀ w w' : Watch,
    w₀ = (start none 0 { failing := 1 } {}).run [.submit 0 (.remove (.ofUri "/"))] ∧
    w = w₀.run (.begin 0 :: [.submit 1 (.remove (.ofUri "/")), .write .take, .write .apply, .write .file,
      .write .publish, .wake 0]) ∧
    w' = w.step (.collect 0) ∧ w'.journal.pending = 1 ∧
    Accounts w w' 1 (.error (.flushFailed 1 "/: Persistence error: injected remove failure for /"))
      [⟨1, "/: Persistence error: injected remove failure for /"⟩] := by
  rw [Key.ofUri_root]
  refine ⟨_, _, _, rfl, rfl, rfl, rfl, ?_⟩
  refine (flush_barrier none 0 { failing := 1 } {} [.submit 0 (.remove _)]
    [.submit 1 (.remove _), .write .take, .write .apply, .write .file, .write .publish, .wake 0] 0
    (.collect 0) rfl rfl rfl ⟨?_, ⟨_, rfl⟩⟩).resolve_right ?_
  · intro f hf answer taken hreturned
    cases hf
    cases hreturned
  · rintro ⟨⟨limit, h⟩, -⟩
    cases h

end ResponseCache.Watch
