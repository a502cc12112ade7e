import ResponseCache.Proofs.Journal.Trace
/-!
What lies ahead of a writer. As long as nobody tells the backend to fail and nobody stops the writer, the changes that it has
settle when the backend will be done with each of them and which of them it will refuse. What is submitted behind them has no
part in that, and neither has when the writer gets its turns.
-/
namespace ResponseCache

/-- The failure that the writer files when the backend refuses a change. -/
def Queued.refused (item : Queued) : Failure := ⟨item.seq, item.change.refusal⟩

namespace Backend
variable {b b' : Backend} {change : Change}

theorem failing_of_accepted {answer : Bool} (h : b.apply change = (.ok answer, b')) :
    b.failing = 0 ∧ b'.failing = 0 ∧ b'.latency = b.latency := by
  unfold apply at h
  split at h
  · cases h
  · rename_i hwilling
    have hnone : b.failing = 0 := by omega
    cases change <;> cases h <;> exact ⟨hnone, hnone, rfl⟩

/-- A refusal uses up one of the failures that the backend was told of. -/
theorem failing_of_refused {e : Error} (h : b.apply change = (.error e, b')) :
    b.failing = b'.failing + 1 ∧ b'.latency = b.latency ∧
      change.key.display ++ ": " ++ e.message = change.refusal := by
  unfold apply at h
  split at h
  · rename_i hfailing
    cases h
    exact ⟨(Nat.sub_add_cancel hfailing).symm, rfl, rfl⟩
  · cases change <;> cases h

end Backend

namespace Journal

/-- The failures that no flush has taken, and then those to come: the backend refuses the first changes that it gets. -/
def foreseen (j : Journal) (b : Backend) : List Failure := j.unreported ++ (j.awaiting.take b.failing).map (·.refused)

/-- When the backend is done with changes that it gets one after the other, not before it is free. -/
def busyUntil (latency : Span) (freeAt : Nat) (items : List Queued) : Nat :=
  items.foldl (fun free item => max free item.submittedAt + latency.nanos) freeAt

/-- When the backend is done with the changes up to that number, as long as some of them are still before it. -/
def doneAt (j : Journal) (latency : Span) (target : Nat) : Nat :=
  busyUntil latency (j.due?.getD j.freeAt) (j.queue.filter fun item => item.seq ≤ target)

/-- The first moment from now on at which all changes up to that number are committed. -/
def moment (j : Journal) (latency : Span) (target now : Nat) : Nat :=
  if target ≤ j.committed then now else max now (j.doneAt latency target)

theorem le_busyUntil (latency : Span) (items : List Queued) : ∀ freeAt, freeAt ≤ busyUntil latency freeAt items := by
  induction items with
  | nil => exact fun freeAt => Nat.le_refl freeAt
  | cons item rest ih =>
    intro freeAt
    calc freeAt ≤ max freeAt item.submittedAt + latency.nanos := by omega
      _ ≤ busyUntil latency (max freeAt item.submittedAt + latency.nanos) rest := ih _

variable {j : Journal} {latency : Span} {target : Nat}

/-- The change in hand comes first. -/
theorem due_le_doneAt {item : Queued} {due : Nat} (h : j.hand = .working item due) : due ≤ j.doneAt latency target := by
  have hdue : j.due?.getD j.freeAt = due := by simp [due?, h]
  unfold doneAt
  rw [hdue]
  exact le_busyUntil latency _ due

/-- What is submitted later waits behind. -/
theorem doneAt_push (htarget : target ≤ j.lastSeq) (now : Nat) (change : Change) :
    (j.push now change).doneAt latency target = j.doneAt latency target := by
  have hbehind : ¬j.lastSeq + 1 ≤ target := by omega
  simp [doneAt, push, due?, hbehind]

/-- The change that the writer takes is the first that it has to bring to its end. -/
theorem doneAt_take {item : Queued} {rest : List Queued} (hhand : j.hand = .empty) (hqueue : j.queue = item :: rest)
    (hkept : j.cancelled = false) (htarget : item.seq ≤ target) :
    (j.take latency).doneAt latency target = j.doneAt latency target := by
  simp [doneAt, busyUntil, take, due?, hhand, hqueue, hkept, htarget]

theorem le_moment (now : Nat) : now ≤ j.moment latency target now := by
  unfold moment
  split <;> omega

theorem moment_of_committed (h : target ≤ j.committed) (now : Nat) : j.moment latency target now = now := if_pos h

/-- Until the moment has come, it stays where it is. -/
theorem moment_of_le {now later : Nat} (hle : now ≤ later) (hahead : later ≤ j.moment latency target now) :
    j.moment latency target later = j.moment latency target now := by
  unfold moment at hahead ⊢
  split <;> split at hahead <;> omega

theorem due_le_moment {item : Queued} {due : Nat} (hhand : j.hand = .working item due) (h : ¬target ≤ j.committed)
    (now : Nat) : due ≤ j.moment latency target now := by
  have hfirst : due ≤ j.doneAt latency target := due_le_doneAt hhand
  rw [moment, if_neg h]
  omega

end Journal

namespace Pipeline
variable {p p' p'' : Pipeline}

def foreseen (p : Pipeline) : List Failure := p.journal.foreseen p.backend

def moment (p : Pipeline) (target now : Nat) : Nat := p.journal.moment p.backend.latency target now

/-- A step of the writer files what was foreseen. -/
theorem Stage.foreseen {step : WriterStep} (h : Stage p step p') (hkept : p.journal.cancelled = false) :
    p'.foreseen = p.foreseen := by
  unfold Pipeline.foreseen
  cases h with
  | idle => rfl
  | started item rest due hhand hqueue =>
    simp [Journal.foreseen, Journal.unreported, Journal.awaiting, hhand, hqueue]
  | dropped item rest hhand hqueue hcancelled => exact absurd hcancelled (by simp [hkept])
  | applied item due answer backend hhand happly =>
    obtain ⟨hnone, hnone', -⟩ := Backend.failing_of_accepted happly
    simp [Journal.foreseen, Journal.unreported, hhand, hnone, hnone']
  | failed item due e backend monitor hhand happly =>
    obtain ⟨hone, -, hreason⟩ := Backend.failing_of_refused happly
    simp [Journal.foreseen, Journal.unreported, Journal.awaiting, hhand, hone, hreason, Queued.refused]
  | filed item failure monitor hhand => simp [Journal.foreseen, Journal.unreported, Journal.awaiting, hhand]
  | published item hhand => simp [Journal.foreseen, Journal.unreported, Journal.awaiting, hhand]

/-- The writer has gone on from one pipeline to the other, and perhaps further changes were submitted. Only of these further
failures are foreseen. -/
structure Continues (p p' : Pipeline) : Prop where
  patience : p'.journal.patience = p.journal.patience
  lastSeq : p.journal.lastSeq ≤ p'.journal.lastSeq
  committed : p.journal.committed ≤ p'.journal.committed
  foreseen : ∃ more, p'.foreseen = p.foreseen ++ more ∧ ∀ f ∈ more, p.journal.lastSeq < f.seq ∧ f.seq ≤ p'.journal.lastSeq

namespace Continues

theorem refl (p : Pipeline) : p.Continues p :=
  ⟨rfl, Nat.le_refl _, Nat.le_refl _, [], (List.append_nil _).symm, by simp⟩

theorem trans (h : p.Continues p') (h' : p'.Continues p'') : p.Continues p'' := by
  obtain ⟨more, hmore, hbehind⟩ := h.foreseen
  obtain ⟨more', hmore', hbehind'⟩ := h'.foreseen
  refine ⟨h'.patience.trans h.patience, Nat.le_trans h.lastSeq h'.lastSeq, Nat.le_trans h.committed h'.committed,
    more ++ more', ?_, ?_⟩
  · rw [hmore', hmore, List.append_assoc]
  · intro f hf
    rcases List.mem_append.mp hf with hold | hnew
    · exact ⟨(hbehind f hold).1, Nat.le_trans (hbehind f hold).2 h'.lastSeq⟩
    · exact ⟨Nat.lt_of_le_of_lt h.lastSeq (hbehind' f hnew).1, (hbehind' f hnew).2⟩

/-- A further change may be refused as well, but not one before it that is not refused anyway. -/
theorem push (p : Pipeline) (now : Nat) (change : Change) (monitor : Monitor) :
    p.Continues ⟨p.journal.push now change, p.backend, monitor⟩ := by
  refine ⟨rfl, Nat.le_succ _, Nat.le_refl _,
    (List.take (p.backend.failing - p.journal.awaiting.length) [⟨p.journal.lastSeq + 1, change, now⟩]).map Queued.refused,
    ?_, ?_⟩
  · simp only [Pipeline.foreseen, Journal.foreseen, Journal.awaiting_push, List.take_append, List.map_append,
      ← List.append_assoc]
    rfl
  · intro f hf
    obtain ⟨item, hitem, rfl⟩ := List.mem_map.mp hf
    rw [List.mem_singleton.mp (List.mem_of_mem_take hitem)]
    exact ⟨Nat.lt_succ_self _, Nat.le_refl _⟩

theorem of_stage {step : WriterStep} (h : Stage p step p') (hn : p.journal.Numbered)
    (hkept : p.journal.cancelled = false) : p.Continues p' := by
  have hforeseen := h.foreseen hkept
  refine ⟨?_, Nat.le_of_eq h.intake.2.1.symm, ?_, [], by rw [hforeseen, List.append_nil], by simp⟩
  · cases h <;> rfl
  · rcases h.passes_or_settles hn with ⟨-, -, hpasses⟩ | ⟨item, hsettles⟩
    · exact hpasses.committed
    · exact Nat.le_of_eq hsettles.committed.symm

end Continues

/-- The numbers of a writer are in order, and nobody has told it to drop changes. -/
structure Runs (p : Pipeline) : Prop where
  numbered : p.journal.Numbered
  kept : p.journal.cancelled = false

namespace Runs

theorem work (steps : List WriterStep) : ∀ {p : Pipeline}, p.Runs → (p.work steps).Runs ∧ p.Continues (p.work steps) := by
  induction steps with
  | nil => exact fun h => ⟨h, .refl _⟩
  | cons step rest ih =>
    intro p h
    have hstage := p.stage step
    obtain ⟨hruns, hrest⟩ := ih ⟨hstage.numbered h.numbered, (p.step_keeps step).2.trans h.kept⟩
    exact ⟨hruns, (Continues.of_stage hstage h.numbered h.kept).trans hrest⟩

theorem of_work (h : p.Runs) (hwork : ∃ steps, p' = p.work steps) : p'.Runs ∧ p.Continues p' := by
  obtain ⟨steps, rfl⟩ := hwork
  exact h.work steps

end Runs

/-- Some changes up to that number are not committed yet. -/
structure Owes (p : Pipeline) (target : Nat) : Prop extends p.Runs where
  le : target ≤ p.journal.lastSeq
  uncommitted : ¬target ≤ p.journal.committed

/-- With the change in hand brought to its end, its number is committed and the backend is free. -/
theorem done_of_working {item : Queued} {due : Nat} (h : p.journal.hand = .working item due) :
    p.apply.file.publish.journal.committed = item.seq ∧ p.apply.file.publish.journal.freeAt = due ∧
      p.apply.file.publish.backend.latency = p.backend.latency := by
  cases happly : p.backend.apply item.change with
  | mk answer backend =>
    have hlatency : backend.latency = p.backend.latency := by
      cases answer with
      | ok found => exact (Backend.failing_of_accepted happly).2.2
      | error e => exact (Backend.failing_of_refused happly).2.1
    cases answer <;>
      simp [apply, Journal.settle, file, Journal.file, publish, Journal.publish, h, happly, hlatency]

namespace Owes
variable {target : Nat}

theorem of_work (h : p.Owes target) (hwork : ∃ steps, p' = p.work steps) (huncommitted : ¬target ≤ p'.journal.committed) :
    p'.Owes target := by
  obtain ⟨hruns, hcontinues⟩ := h.toRuns.of_work hwork
  exact ⟨hruns, Nat.le_trans h.le hcontinues.lastSeq, huncommitted⟩

theorem not_isIdle (h : p.Owes target) : ¬p.journal.isIdle = true := by
  intro hidle
  have hreached : p.journal.reached ⟨target, 0⟩ = true := h.numbered.reached_of_isIdle hidle h.le
  exact h.uncommitted (of_decide_eq_true hreached)

/-- The writer is not through, so it picks up the next change unless it has one in hand. -/
theorem pickUp (h : p.Owes target) (hrests : p.journal.hand.rests = true) :
    p.pickUp.Owes target ∧ (∃ item due, p.pickUp.journal.hand = .working item due) ∧
      p.pickUp.moment target = p.moment target := by
  have htake : p.pickUp = p.take := by simp [Pipeline.pickUp, h.kept]
  have hpoised := (poised_pickUp hrests).1
  have hsame : p.pickUp.journal.committed = p.journal.committed ∧
      p.pickUp.journal.doneAt p.pickUp.backend.latency target = p.journal.doneAt p.backend.latency target := by
    rw [htake]
    show (p.journal.take p.backend.latency).committed = _ ∧
      (p.journal.take p.backend.latency).doneAt p.backend.latency target = _
    cases hhand : p.journal.hand with
    | working item due => simp [Journal.take, hhand]
    | settled item failure | filed item => simp [hhand, Hand.rests] at hrests
    | empty =>
      cases hqueue : p.journal.queue with
      | nil => exact absurd (p.journal.isIdle_iff.mpr ⟨hhand, hqueue⟩) h.not_isIdle
      | cons item rest =>
        -- The first change that waits has the number behind the committed one, so it is one of those that are owed.
        have hunderway : p.journal.underway = item :: rest := by simp [Journal.underway, hhand, hqueue]
        have hseq := (h.numbered.head hunderway).1
        have huncommitted := h.uncommitted
        refine ⟨by simp [Journal.take, hhand, hqueue, h.kept], Journal.doneAt_take hhand hqueue h.kept (by omega)⟩
  have howes : p.pickUp.Owes target := h.of_work (exists_work_pickUp p) (by rw [hsame.1]; exact h.uncommitted)
  refine ⟨howes, hpoised.resolve_left howes.not_isIdle, ?_⟩
  funext now
  simp only [Pipeline.moment, Journal.moment, hsame.1, hsame.2]

/-- With the change in hand the writer is through at its due time, or it owes the rest and is through when it would have
been. -/
theorem advance (h : p.Owes target) {item : Queued} {due : Nat} (hhand : p.journal.hand = .working item due) :
    p.advance.Owes target ∧ (∃ item due, p.advance.journal.hand = .working item due) ∧
        p.advance.moment target = p.moment target ∨
      p.advance.Runs ∧ target ≤ p.advance.journal.committed ∧ p.journal.doneAt p.backend.latency target = due := by
  obtain ⟨hempty, hqueue⟩ := empty_of_working hhand
  obtain ⟨hcommitted, hfree, hlatency⟩ := done_of_working hhand
  have hdone : p.apply.file.publish.journal.doneAt p.apply.file.publish.backend.latency target =
      p.journal.doneAt p.backend.latency target := by
    simp only [Journal.doneAt, Journal.due?, hempty, hqueue, hfree, hlatency, hhand, Option.getD_some, Option.getD_none]
  have hrests : p.apply.file.publish.journal.hand.rests = true := by rw [hempty]; rfl
  have hwork : ∃ steps, p.apply.file.publish = p.work steps := ⟨[.apply, .file, .publish], rfl⟩
  by_cases hthrough : target ≤ p.apply.file.publish.journal.committed
  · -- What is left in the queue has numbers behind the committed one.
    obtain ⟨hruns, -⟩ := h.toRuns.of_work hwork
    have hbehind : p.journal.queue.filter (fun item => item.seq ≤ target) = [] := by
      rw [List.filter_eq_nil_iff]
      intro other hother
      have hunderway : other ∈ p.apply.file.publish.journal.underway := by simp [Journal.underway, hqueue, hother]
      have hlt := hruns.numbered.committed_lt hunderway
      have hle : target < other.seq := Nat.lt_of_le_of_lt hthrough hlt
      simpa using hle
    obtain ⟨hruns', hcontinues⟩ := hruns.of_work (exists_work_pickUp p.apply.file.publish)
    refine .inr ⟨hruns', Nat.le_trans hthrough hcontinues.committed, ?_⟩
    simp [Journal.doneAt, Journal.busyUntil, Journal.due?, hhand, hbehind]
  · obtain ⟨howes, hworking, hmoment⟩ := (h.of_work hwork hthrough).pickUp hrests
    refine .inl ⟨howes, hworking, hmoment.trans ?_⟩
    funext now
    simp only [Pipeline.moment, Journal.moment, if_neg hthrough, if_neg h.uncommitted, hdone]

/-- A writer that advances as far as it can by now is through when the moment has come. -/
theorem advanceTo (now n : Nat) : ∀ {p : Pipeline}, p.Owes target → (∃ item due, p.journal.hand = .working item due) →
    p.journal.underway.length ≤ n →
    (Pipeline.advanceTo now n p).moment target now = p.moment target now ∧
      (target ≤ (Pipeline.advanceTo now n p).journal.committed ↔ p.moment target now ≤ now) := by
  -- On the fuel: as long as something is owed, something is underway, and every advance brings one change to its end.
  induction n with
  | zero =>
    intro p h _ hlength
    have hnone := List.eq_nil_of_length_eq_zero (Nat.le_zero.mp hlength)
    exact absurd (Journal.isIdle_of_underway hnone) h.not_isIdle
  | succ n ih =>
    rintro p h ⟨item, due, hhand⟩ hlength
    have hdue : p.journal.due?.any (· ≤ now) = decide (due ≤ now) := by simp [Journal.due?, hhand]
    unfold Pipeline.advanceTo
    rw [hdue]
    by_cases hnow : due ≤ now
    · rw [if_pos (decide_eq_true hnow)]
      rcases h.advance hhand with ⟨howes, hworking, hsame⟩ | ⟨hruns, hthrough, hdone⟩
      · have hless := (poised_advance hhand).2
        rw [← hsame]
        exact ih howes hworking (by omega)
      · -- The writer is through, and it stays so.
        have hstill := (hruns.of_work (exists_work_advanceTo now n p.advance)).2.committed
        have hthrough' := Nat.le_trans hthrough hstill
        have hpast : p.moment target now = now := by
          rw [Pipeline.moment, Journal.moment, if_neg h.uncommitted, hdone]
          exact Nat.max_eq_left hnow
        refine ⟨(Journal.moment_of_committed hthrough' now).trans hpast.symm, iff_of_true hthrough' (Nat.le_of_eq hpast)⟩
    · rw [if_neg (by simpa using hnow)]
      have hfirst : due ≤ p.moment target now := Journal.due_le_moment hhand h.uncommitted now
      have hlater : ¬p.moment target now ≤ now := by omega
      exact ⟨rfl, iff_of_false h.uncommitted hlater⟩

end Owes

/-- A turn brings the writer as far as it can get by now, and the moment stays where it is. -/
theorem Runs.turn (h : p.Runs) (hrests : p.journal.hand.rests = true) {target : Nat} (htarget : target ≤ p.journal.lastSeq)
    (now : Nat) :
    (p.turn now).moment target now = p.moment target now ∧
      (target ≤ (p.turn now).journal.committed ↔ p.moment target now ≤ now) := by
  by_cases hthrough : target ≤ p.journal.committed
  · have hstill := (h.of_work (exists_work_turn now p)).2.committed
    have hthrough' := Nat.le_trans hthrough hstill
    have hnow : p.moment target now = now := Journal.moment_of_committed hthrough now
    exact ⟨(Journal.moment_of_committed hthrough' now).trans hnow.symm, iff_of_true hthrough' (Nat.le_of_eq hnow)⟩
  · have howes : p.Owes target := ⟨h, htarget, hthrough⟩
    obtain ⟨hpicked, hworking, hmoment⟩ := howes.pickUp hrests
    have hfuel := length_underway_le p.journal
    have hle := (poised_pickUp hrests).2
    rw [← hmoment]
    exact hpicked.advanceTo now (p.journal.queue.length + 1) hworking (by omega)

end Pipeline
end ResponseCache
