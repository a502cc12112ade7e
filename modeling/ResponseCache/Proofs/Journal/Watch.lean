import ResponseCache.Proofs.Journal.Writer
/-!
Flushes that overlap. A flush sets its barrier, is woken when it finds the barrier reached, and collects the failures later;
or it gives up. In between anything may happen: other flushes, submissions, single steps of the writer, trouble of the
backend. The watch keeps a record of all that was submitted, and of what became of it.
-/
namespace ResponseCache

/-- How far a flush is. -/
inductive Progress
  | waiting
  /-- It found its barrier reached, and collects the failures next. -/
  | woken
  /-- It has returned, and these failures left the journal with it. -/
  | returned (answer : Except Error Unit) (taken : List Failure)

structure Flush where
  barrier : Barrier
  progress : Progress := .waiting

/-- The failures that a flush took with it. -/
def Flush.taken (f : Flush) : List Failure :=
  match f.progress with
  | .returned _ taken => taken
  | .waiting | .woken => []

/-- A pipeline, the flushes that were begun on it, and a record of what became of the changes. -/
structure Watch where
  pipeline : Pipeline
  flushes : List Flush := []
  submitted : List Queued := []
  /-- The changes that the backend has accepted. -/
  applied : List Queued := []
  /-- The failures that came up, filed or not, reported or not. -/
  failed : List Failure := []

namespace Watch

/-- What may happen next. Flushes go by their numbers. -/
inductive Move
  | submit (now : Nat) (change : Change)
  | write (step : WriterStep)
  /-- Whatever happens to the backend from outside. -/
  | disturb (backend : Backend)
  | close
  | cancel
  | begin (now : Nat)
  | wake (i : Nat)
  | collect (i : Nat)
  | giveUp (i now : Nat)

/-- A new journal over a backend. -/
def start (patience : Option Span) (warnAbove : Nat) (backend : Backend) (monitor : Monitor) : Watch :=
  { pipeline := ⟨{ patience, warnAbove }, backend, monitor⟩ }

def journal (w : Watch) : Journal := w.pipeline.journal

def setJournal (w : Watch) (journal : Journal) : Watch := { w with pipeline := { w.pipeline with journal } }

/-- The failures that flushes have returned. -/
def reported (w : Watch) : List Failure := w.flushes.flatMap (·.taken)

def setProgress (w : Watch) (i : Nat) (b : Barrier) (progress : Progress) : Watch :=
  { w with flushes := w.flushes.set i ⟨b, progress⟩ }

/-- A flush returns and leaves that journal behind. What the journal has lost, the flush has taken. -/
def complete (w : Watch) (i : Nat) (b : Barrier) (answer : Except Error Unit) (journal : Journal) : Watch :=
  (w.setJournal journal).setProgress i b
    (.returned answer (w.journal.failures.filter fun f => f ∉ journal.failures))

def step (w : Watch) : Move → Watch
  | .submit now change =>
    match w.journal.submit now change with
    | .error _ => w
    | .ok journal =>
      { w.setJournal journal with submitted := w.submitted ++ [⟨journal.lastSeq, change, now⟩] }
  | .write step =>
    { w with
      pipeline := w.pipeline.step step
      applied := w.applied ++ (w.pipeline.accepted? step).toList
      failed := w.failed ++ (w.pipeline.failure? step).toList }
  | .disturb backend => { w with pipeline := { w.pipeline with backend } }
  | .close => w.setJournal w.journal.close
  | .cancel => w.setJournal w.journal.cancel
  | .begin now => { w with flushes := w.flushes ++ [⟨w.journal.barrier now, .waiting⟩] }
  | .wake i =>
    match w.flushes[i]? with
    | some ⟨b, .waiting⟩ => if w.journal.reached b then w.setProgress i b .woken else w
    | _ => w
  | .collect i =>
    match w.flushes[i]? with
    | some ⟨b, .woken⟩ => w.complete i b (w.journal.collect b).1 (w.journal.collect b).2
    | _ => w
  | .giveUp i now =>
    match w.flushes[i]?, w.journal.patience with
    | some ⟨b, .waiting⟩, some patience =>
      if (w.journal.deadline? b).any (· ≤ now) then w.complete i b (.error (.flushTimeout patience)) w.journal else w
    | _, _ => w

def run (w : Watch) (moves : List Move) : Watch := moves.foldl step w

/-- The journal takes a change in. -/
def take (w : Watch) (now : Nat) (change : Change) : Watch :=
  { w.setJournal (w.journal.push now change) with
    submitted := w.submitted ++ [⟨w.journal.lastSeq + 1, change, now⟩] }

/-- What a move comes to: what it is for, or nothing. -/
inductive Comes (w : Watch) : Move → Watch → Prop
  | nothing (m : Move) (hm : ∀ step, m ≠ .write step) : Comes w m w
  | submitted (now : Nat) (change : Change) : Comes w (.submit now change) (w.take now change)
  | written (step : WriterStep) : Comes w (.write step) (w.step (.write step))
  | disturbed (backend : Backend) : Comes w (.disturb backend) { w with pipeline := { w.pipeline with backend } }
  | closed : Comes w .close (w.setJournal w.journal.close)
  | cancelled : Comes w .cancel (w.setJournal w.journal.cancel)
  | begun (now : Nat) : Comes w (.begin now) { w with flushes := w.flushes ++ [⟨w.journal.barrier now, .waiting⟩] }
  | woken (i : Nat) (b : Barrier) (hf : w.flushes[i]? = some ⟨b, .waiting⟩) (hreached : w.journal.reached b = true) :
      Comes w (.wake i) (w.setProgress i b .woken)
  | collected (i : Nat) (b : Barrier) (hf : w.flushes[i]? = some ⟨b, .woken⟩) :
      Comes w (.collect i) (w.complete i b (w.journal.collect b).1 (w.journal.collect b).2)
  | givenUp (i now : Nat) (b : Barrier) (patience : Span) (hf : w.flushes[i]? = some ⟨b, .waiting⟩) :
      Comes w (.giveUp i now) (w.complete i b (.error (.flushTimeout patience)) w.journal)

theorem comes (w : Watch) (m : Move) : w.Comes m (w.step m) := by
  -- A move whose guard does not hold comes to nothing.
  have hnothing (m : Move) (hm : ∀ step, m ≠ .write step) : w.Comes m w := .nothing m hm
  cases m with
  | submit now change =>
    cases haccepting : w.journal.accepting with
    | false =>
      simp only [step, Journal.submit_of_not_accepting haccepting]
      exact hnothing _ (by simp)
    | true =>
      simp only [step, Journal.submit_of_accepting haccepting]
      exact .submitted now change
  | write step => exact .written step
  | disturb backend => exact .disturbed backend
  | close => exact .closed
  | cancel => exact .cancelled
  | begin now => exact .begun now
  | wake i =>
    simp only [step]
    split
    · rename_i b hf
      split
      · rename_i hreached
        exact .woken i b hf hreached
      · exact hnothing _ (by simp)
    · exact hnothing _ (by simp)
  | collect i =>
    simp only [step]
    split
    · rename_i b hf
      exact .collected i b hf
    · exact hnothing _ (by simp)
  | giveUp i now =>
    simp only [step]
    split
    · rename_i b patience hf hpatience
      split
      · exact .givenUp i now b patience hf
      · exact hnothing _ (by simp)
    · exact hnothing _ (by simp)

/-- Every change is on its way, accepted or failed; the failures are in the order of the numbers, and those not reported are
in the journal, in its list or in the writer's hand. -/
structure Valid (w : Watch) : Prop where
  numbered : w.journal.Numbered
  seqs : w.submitted.map (·.seq) = List.range' 1 w.journal.lastSeq
  fate : ∀ item ∈ w.submitted, item ∈ w.journal.awaiting ∨ item ∈ w.applied ∨ ∃ f ∈ w.failed, f.seq = item.seq
  sorted : w.failed.Pairwise fun f g => f.seq < g.seq
  behind : ∀ f ∈ w.failed, f.seq + w.journal.awaiting.length ≤ w.journal.lastSeq
  reported : ∀ f ∈ w.reported, f ∈ w.failed
  unreported : w.failed.filter (fun f => f ∉ w.reported) = w.journal.failures ++ w.journal.hand.unfiled?.toList
  woken : ∀ f ∈ w.flushes, f.progress = .woken → f.barrier.target ≤ w.journal.committed

theorem valid_start (patience : Option Span) (warnAbove : Nat) (backend : Backend) (monitor : Monitor) :
    (start patience warnAbove backend monitor).Valid where
  numbered := Journal.numbered_of_fresh rfl rfl rfl
  seqs := rfl
  fate := by simp [start]
  sorted := List.Pairwise.nil
  behind := by simp [start]
  reported := by simp [start, Watch.reported]
  unreported := by simp [start, journal, Hand.unfiled?]
  woken := by simp [start]

theorem mem_reported (w : Watch) (x : Failure) :
    x ∈ w.reported ↔ ∃ (i : Nat) (f : Flush), w.flushes[i]? = some f ∧ x ∈ f.taken := by
  unfold reported
  rw [List.mem_flatMap]
  constructor
  · rintro ⟨f, hf, hx⟩
    obtain ⟨i, hi⟩ := List.mem_iff_getElem?.mp hf
    exact ⟨i, f, hi, hx⟩
  · rintro ⟨i, f, hi, hx⟩
    exact ⟨f, List.mem_iff_getElem?.mpr ⟨i, hi⟩, hx⟩

theorem getElem?_setProgress {w : Watch} {i : Nat} {f : Flush} (hf : w.flushes[i]? = some f) (b : Barrier)
    (progress : Progress) (j : Nat) :
    (w.setProgress i b progress).flushes[j]? = if i = j then some ⟨b, progress⟩ else w.flushes[j]? := by
  have hlt : i < w.flushes.length := (List.getElem?_eq_some_iff.mp hf).choose
  unfold setProgress
  by_cases hij : i = j
  · rw [if_pos hij, ← hij]
    exact List.getElem?_set_self hlt
  · rw [if_neg hij]
    exact List.getElem?_set_ne hij

theorem getElem?_complete {w : Watch} {i : Nat} {f : Flush} (hf : w.flushes[i]? = some f) (b : Barrier)
    (answer : Except Error Unit) (journal : Journal) (j : Nat) :
    (w.complete i b answer journal).flushes[j]? =
      if i = j then some ⟨b, .returned answer (w.journal.failures.filter fun f => f ∉ journal.failures)⟩
      else w.flushes[j]? :=
  getElem?_setProgress (w := w.setJournal journal) hf b _ j

/-- A flush that has not returned has taken nothing; what is reported when it goes on is what it takes then. -/
theorem mem_reported_setProgress {w : Watch} {i : Nat} {f : Flush} (hf : w.flushes[i]? = some f) (hnone : f.taken = [])
    (b : Barrier) (progress : Progress) (x : Failure) :
    x ∈ (w.setProgress i b progress).reported ↔ x ∈ w.reported ∨ x ∈ (⟨b, progress⟩ : Flush).taken := by
  rw [mem_reported, mem_reported]
  constructor
  · rintro ⟨j, g, hg, hx⟩
    rw [getElem?_setProgress hf] at hg
    split at hg
    · rw [Option.some.injEq] at hg
      exact .inr (hg ▸ hx)
    · exact .inl ⟨j, g, hg, hx⟩
  · rintro (⟨j, g, hg, hx⟩ | hx)
    · refine ⟨j, g, ?_, hx⟩
      rw [getElem?_setProgress hf]
      split
      · rename_i hij
        rw [← hij, hf, Option.some.injEq] at hg
        rw [← hg, hnone] at hx
        exact absurd hx List.not_mem_nil
      · exact hg
    · exact ⟨i, _, by rw [getElem?_setProgress hf, if_pos rfl], hx⟩

end Watch
end ResponseCache
