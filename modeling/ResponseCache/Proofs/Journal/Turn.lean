import ResponseCache.Proofs.Journal.Ledger
/-!
Turns of the writer. With every change that it brings to its end there is one fewer underway, so a turn ends, and then either
nothing is left to do or the backend works on the next change for longer than until now.
-/
namespace ResponseCache

theorem Journal.isIdle_iff (j : Journal) : j.isIdle = true ↔ j.hand = .empty ∧ j.queue = [] := by
  simp only [isIdle, Bool.and_eq_true, decide_eq_true_eq, List.isEmpty_iff]

theorem Journal.isIdle_of_underway {j : Journal} (h : j.underway = []) : j.isIdle = true := by
  obtain ⟨hhand, hqueue⟩ := List.append_eq_nil_iff.mp h
  refine j.isIdle_iff.mpr ⟨?_, hqueue⟩
  cases hcases : j.hand with
  | empty => rfl
  | working item due | settled item failure | filed item => simp [hcases] at hhand

theorem Journal.underway_of_isIdle {j : Journal} (h : j.isIdle = true) : j.underway = [] := by
  obtain ⟨hhand, hqueue⟩ := j.isIdle_iff.mp h
  simp [underway, hhand, hqueue]

/-- With an idle writer all is committed, so every barrier is reached. -/
theorem Journal.Numbered.reached_of_isIdle {j : Journal} (h : j.Numbered) (hidle : j.isIdle = true) {b : Barrier}
    (hb : b.target ≤ j.lastSeq) : j.reached b = true := by
  have hlength := h.length_underway
  rw [underway_of_isIdle hidle, List.length_nil, pending] at hlength
  rw [reached, decide_eq_true_eq]
  omega

namespace Pipeline
variable {p : Pipeline}

/-- A step of the writer changes nothing about what is taken in. -/
theorem step_keeps (p : Pipeline) (step : WriterStep) :
    (p.step step).journal.accepting = p.journal.accepting ∧
    (p.step step).journal.cancelled = p.journal.cancelled := by
  have hstage := p.stage step
  generalize p.step step = p' at hstage
  cases hstage <;> exact ⟨rfl, rfl⟩

theorem work_keeps (steps : List WriterStep) : ∀ p : Pipeline,
    (p.work steps).journal.accepting = p.journal.accepting ∧
    (p.work steps).journal.cancelled = p.journal.cancelled := by
  induction steps with
  | nil => exact fun p => ⟨rfl, rfl⟩
  | cons step rest ih =>
    intro p
    obtain ⟨haccepting, hcancelled⟩ := ih (p.step step)
    obtain ⟨haccepting', hcancelled'⟩ := p.step_keeps step
    exact ⟨haccepting.trans haccepting', hcancelled.trans hcancelled'⟩

/-- The writer takes nothing in. -/
theorem Stage.intake {step : WriterStep} {p' : Pipeline} (h : p.Stage step p') :
    p'.journal.accepting = p.journal.accepting ∧ p'.journal.lastSeq = p.journal.lastSeq ∧
      p'.journal.queue <:+ p.journal.queue := by
  cases h with
  | started item rest due hhand hqueue | dropped item rest hhand hqueue =>
    exact ⟨rfl, rfl, hqueue ▸ List.suffix_cons item rest⟩
  | idle | applied | failed | filed | published => exact ⟨rfl, rfl, List.suffix_rfl⟩

theorem lastSeq_work (steps : List WriterStep) : ∀ p : Pipeline, (p.work steps).journal.lastSeq = p.journal.lastSeq := by
  induction steps with
  | nil => exact fun p => rfl
  | cons step rest ih => exact fun p => (ih (p.step step)).trans (p.stage step).intake.2.1

/-- An idle writer has no step to make. -/
theorem work_of_isIdle (h : p.journal.isIdle = true) (steps : List WriterStep) : p.work steps = p := by
  obtain ⟨hhand, hqueue⟩ := p.journal.isIdle_iff.mp h
  have hstep (step : WriterStep) : p.step step = p := by
    cases step with
    | take => simp only [step, take, Journal.take, hhand, hqueue]
    | apply => simp only [step, apply, hhand]
    | file => simp only [step, file, hhand]
    | publish => simp only [step, publish, Journal.publish, hhand]
  induction steps with
  | nil => rfl
  | cons step rest ih =>
    show (p.step step).work rest = p
    rw [hstep step]
    exact ih

/-- The writer has nothing to do, or the backend works for it. -/
def Poised (p : Pipeline) : Prop := p.journal.isIdle = true ∨ ∃ item due, p.journal.hand = .working item due

/-- The writer can do no more at that time. -/
def Waits (p : Pipeline) (now : Nat) : Prop :=
  p.journal.isIdle = true ∨ ∃ item due, p.journal.hand = .working item due ∧ now < due

theorem Poised.rests (h : p.Poised) : p.journal.hand.rests = true := by
  rcases h with hidle | ⟨item, due, hhand⟩
  · rw [(p.journal.isIdle_iff.mp hidle).1]
    rfl
  · rw [hhand]
    rfl

theorem Waits.poised {now : Nat} (h : p.Waits now) : p.Poised := by
  rcases h with hidle | ⟨item, due, hhand, -⟩
  · exact .inl hidle
  · exact .inr ⟨item, due, hhand⟩

/-- A cancelled journal drops all that waits. -/
theorem isIdle_drop (n : Nat) : ∀ {p : Pipeline}, p.journal.hand = .empty → p.journal.cancelled = true →
    p.journal.queue.length ≤ n → (drop n p).journal.isIdle = true := by
  induction n with
  | zero =>
    intro p hhand _ hlength
    exact p.journal.isIdle_iff.mpr ⟨hhand, List.eq_nil_of_length_eq_zero (Nat.le_zero.mp hlength)⟩
  | succ n ih =>
    intro p hhand hcancelled hlength
    cases hqueue : p.journal.queue with
    | nil =>
      have hidle : p.journal.isIdle = true := p.journal.isIdle_iff.mpr ⟨hhand, hqueue⟩
      obtain ⟨steps, hsteps⟩ := exists_work_drop (n + 1) p
      rw [hsteps, work_of_isIdle hidle]
      exact hidle
    | cons item rest =>
      rw [hqueue, List.length_cons] at hlength
      unfold drop
      refine ih ?_ ?_ ?_ <;>
        simp only [take, Journal.take, hhand, hqueue, hcancelled, if_true, file, Journal.file, publish, Journal.publish]
      omega

/-- A writer that turns to what waits brings no change to its end, unless the journal is cancelled. -/
theorem poised_pickUp (h : p.journal.hand.rests = true) :
    p.pickUp.Poised ∧ p.pickUp.journal.underway.length ≤ p.journal.underway.length := by
  cases hhand : p.journal.hand with
  | empty =>
    cases hcancelled : p.journal.cancelled with
    | true =>
      have hidle : p.pickUp.journal.isIdle = true := by
        simp only [pickUp, hcancelled, hhand, decide_true, Bool.and_true, if_true]
        exact isIdle_drop _ hhand hcancelled (Nat.le_refl _)
      refine ⟨.inl hidle, ?_⟩
      rw [Journal.underway_of_isIdle hidle]
      exact Nat.zero_le _
    | false =>
      cases hqueue : p.journal.queue with
      | nil =>
        have hidle : p.journal.isIdle = true := p.journal.isIdle_iff.mpr ⟨hhand, hqueue⟩
        obtain ⟨steps, hsteps⟩ := exists_work_pickUp p
        rw [hsteps, work_of_isIdle hidle]
        exact ⟨.inl hidle, Nat.le_refl _⟩
      | cons item rest =>
        simp [pickUp, take, Journal.take, hcancelled, hhand, hqueue, Poised, Journal.underway]
  | working item due =>
    have hsame : p.pickUp = p := by simp [pickUp, take, Journal.take, hhand]
    rw [hsame]
    exact ⟨.inr ⟨item, due, hhand⟩, Nat.le_refl _⟩
  | settled item failure | filed item => simp [hhand, Hand.rests] at h

/-- With the change in hand brought to its end, the writer has nothing in hand. -/
theorem empty_of_working {item : Queued} {due : Nat} (h : p.journal.hand = .working item due) :
    p.apply.file.publish.journal.hand = .empty ∧ p.apply.file.publish.journal.queue = p.journal.queue := by
  cases happly : (p.backend.apply item.change).1 <;>
    simp [apply, Journal.settle, file, Journal.file, publish, Journal.publish, h, happly]

theorem poised_advance {item : Queued} {due : Nat} (h : p.journal.hand = .working item due) :
    p.advance.Poised ∧ p.advance.journal.underway.length < p.journal.underway.length := by
  obtain ⟨hhand, hqueue⟩ := empty_of_working h
  have hrests : p.apply.file.publish.journal.hand.rests = true := by
    rw [hhand]
    rfl
  obtain ⟨hpoised, hle⟩ := poised_pickUp hrests
  refine ⟨hpoised, Nat.lt_of_le_of_lt hle ?_⟩
  simp [Journal.underway, hhand, hqueue, h]

theorem waits_advanceTo (now n : Nat) : ∀ {p : Pipeline}, p.Poised → p.journal.underway.length ≤ n →
    (advanceTo now n p).Waits now ∧ (advanceTo now n p).journal.underway.length ≤ p.journal.underway.length := by
  -- On the fuel: it is used up only when nothing is underway any more, since every advance brings one change to its end.
  induction n with
  | zero =>
    intro p _ hlength
    have hnone : p.journal.underway = [] := List.eq_nil_of_length_eq_zero (Nat.le_zero.mp hlength)
    exact ⟨.inl (Journal.isIdle_of_underway hnone), Nat.le_refl _⟩
  | succ n ih =>
    intro p hpoised hlength
    unfold advanceTo
    rcases hpoised with hidle | ⟨item, due, hhand⟩
    · simp only [Journal.due?, (p.journal.isIdle_iff.mp hidle).1, Option.any_none, Bool.false_eq_true, if_false]
      exact ⟨.inl hidle, Nat.le_refl _⟩
    · simp only [Journal.due?, hhand, Option.any_some, decide_eq_true_eq]
      split
      · obtain ⟨hnext, hlt⟩ := poised_advance hhand
        obtain ⟨hwaits, hle⟩ := ih hnext (by omega)
        exact ⟨hwaits, by omega⟩
      · rename_i hnot
        exact ⟨.inr ⟨item, due, hhand, Nat.lt_of_not_le hnot⟩, Nat.le_refl _⟩

theorem length_underway_le (j : Journal) : j.underway.length ≤ j.queue.length + 1 := by
  unfold Journal.underway
  cases j.hand <;> simp

/-- After a turn the writer waits. -/
theorem waits_turn (now : Nat) (h : p.journal.hand.rests = true) :
    (p.turn now).Waits now ∧ (p.turn now).journal.underway.length ≤ p.journal.underway.length := by
  obtain ⟨hpoised, hle⟩ := poised_pickUp h
  have hfuel := length_underway_le p.journal
  obtain ⟨hwaits, hle'⟩ := waits_advanceTo now (p.journal.queue.length + 1) hpoised (by omega)
  exact ⟨hwaits, Nat.le_trans hle' hle⟩

/-- When the backend is done with the change in hand, a turn brings that to its end. -/
theorem turn_progresses {now : Nat} {item : Queued} {due : Nat} (h : p.journal.hand = .working item due)
    (hdue : due ≤ now) : (p.turn now).journal.underway.length < p.journal.underway.length := by
  -- With a change in hand there is nothing to pick up, and the first advance is due.
  have hsame : p.pickUp = p := by simp [pickUp, take, Journal.take, h]
  have hdone : p.journal.due?.any (· ≤ now) = true := by simp [Journal.due?, h, hdue]
  have hturn : p.turn now = advanceTo now p.journal.queue.length p.advance := by
    show advanceTo now (p.journal.queue.length + 1) p.pickUp = _
    rw [hsame]
    exact if_pos hdone
  obtain ⟨hpoised, hlt⟩ := poised_advance h
  have hfuel := length_underway_le p.journal
  obtain ⟨-, hle⟩ := waits_advanceTo now p.journal.queue.length hpoised (by omega)
  rw [hturn]
  omega

end Pipeline
end ResponseCache
