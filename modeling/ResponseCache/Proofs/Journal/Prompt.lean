import ResponseCache.Proofs.Journal.Turn

namespace ResponseCache

namespace Pipeline
variable {p p' : Pipeline} {now : Nat}

/-- The backend takes no time and refuses nothing, nothing has failed, and nothing falls due later than now. A flush is given
some time. -/
structure Prompt (p : Pipeline) (now : Nat) : Prop where
  latency : p.backend.latency = ⟨0⟩
  willing : p.backend.failing = 0
  kept : p.journal.cancelled = false
  patience : p.journal.patience ≠ some ⟨0⟩
  numbered : p.journal.Numbered
  failures : p.journal.failures = []
  unfiled : p.journal.hand.unfiled? = none
  freeAt : p.journal.freeAt ≤ now
  submitted : ∀ item ∈ p.journal.queue, item.submittedAt ≤ now
  due : ∀ item due, p.journal.hand = .working item due → due ≤ now

namespace Prompt

theorem take (h : p.Prompt now) : p.take.Prompt now := by
  have hnumbered := p.stage_take.numbered h.numbered
  unfold Pipeline.take Journal.take at hnumbered ⊢
  split
  · rename_i item rest hhand hqueue
    have hsubmitted : item.submittedAt ≤ now := h.submitted item (hqueue ▸ List.mem_cons_self)
    have hfree := h.freeAt
    simp only [hhand, hqueue, h.kept, Bool.false_eq_true, if_false] at hnumbered ⊢
    refine ⟨h.latency, h.willing, rfl, h.patience, hnumbered, h.failures, rfl, hfree, ?_, ?_⟩
    · exact fun item' hmem => h.submitted item' (hqueue ▸ List.mem_cons_of_mem item hmem)
    · rintro _ _ ⟨⟩
      rw [h.latency]
      exact Nat.max_le.mpr ⟨hfree, hsubmitted⟩
  · exact h

theorem apply (h : p.Prompt now) : p.apply.Prompt now := by
  have hstage := p.stage_apply
  have hnumbered := hstage.numbered h.numbered
  generalize p.apply = p' at hstage hnumbered ⊢
  cases hstage with
  | idle => exact h
  | applied item due answer backend hhand happly =>
    have hbackend : backend.latency = ⟨0⟩ ∧ backend.failing = 0 := by
      have hsame := congrArg Prod.snd happly
      simp only [Backend.apply, h.willing, Nat.lt_irrefl, if_false] at hsame
      rw [← hsame]
      cases item.change <;> exact ⟨h.latency, h.willing⟩
    exact ⟨hbackend.1, hbackend.2, h.kept, h.patience, hnumbered, h.failures, rfl, h.due item due hhand, h.submitted,
      by simp⟩
  | failed item due e backend monitor hhand happly =>
    have hanswer := congrArg Prod.fst happly
    simp only [Backend.apply, h.willing, Nat.lt_irrefl, if_false] at hanswer
    cases hchange : item.change <;> simp [hchange] at hanswer

theorem file (h : p.Prompt now) : p.file.Prompt now := by
  have hstage := p.stage_file
  have hnumbered := hstage.numbered h.numbered
  generalize p.file = p' at hstage hnumbered ⊢
  cases hstage with
  | idle => exact h
  | filed item failure monitor hhand =>
    refine ⟨h.latency, h.willing, h.kept, h.patience, hnumbered, ?_, rfl, h.freeAt, h.submitted, by simp⟩
    show p.journal.failures ++ p.journal.hand.unfiled?.toList = []
    rw [h.failures, h.unfiled]
    rfl

theorem publish (h : p.Prompt now) : p.publish.Prompt now := by
  have hstage := p.stage_publish
  have hnumbered := hstage.numbered h.numbered
  generalize p.publish = p' at hstage hnumbered ⊢
  cases hstage with
  | idle => exact h
  | published item hhand =>
    exact ⟨h.latency, h.willing, h.kept, h.patience, hnumbered, h.failures, rfl, h.freeAt, h.submitted, by simp⟩

theorem work (steps : List WriterStep) : ∀ {p : Pipeline}, p.Prompt now → (p.work steps).Prompt now := by
  induction steps with
  | nil => exact fun h => h
  | cons step rest ih =>
    intro p h
    refine ih (p := p.step step) ?_
    cases step with
    | take => exact h.take
    | apply => exact h.apply
    | file => exact h.file
    | publish => exact h.publish

/-- What is submitted now does not lie in the future either. -/
theorem push (h : p.Prompt now) (change : Change) (monitor : Monitor) :
    Prompt ⟨p.journal.push now change, p.backend, monitor⟩ now where
  latency := h.latency
  willing := h.willing
  kept := h.kept
  patience := h.patience
  numbered := h.numbered.push now change
  failures := h.failures
  unfiled := h.unfiled
  freeAt := h.freeAt
  due := h.due
  submitted := by
    intro item hitem
    rcases List.mem_append.mp hitem with hold | hnew
    · exact h.submitted item hold
    · exact List.mem_singleton.mp hnew ▸ Nat.le_refl now

theorem isIdle_of_waits (h : p.Prompt now) (hwaits : p.Waits now) : p.journal.isIdle = true := by
  rcases hwaits with hidle | ⟨item, due, hhand, hlater⟩
  · exact hidle
  · have hdue := h.due item due hhand
    omega

/-- Without failures every barrier collects none. -/
theorem collect (h : p.Prompt now) (b : Barrier) (monitor : Monitor) :
    (p.journal.collect b).1 = .ok () ∧ Prompt ⟨(p.journal.collect b).2, p.backend, monitor⟩ now := by
  simp only [Journal.collect, h.failures, List.filter_nil]
  exact ⟨trivial, h.latency, h.willing, h.kept, h.patience, h.numbered.of_underway rfl rfl rfl, rfl, h.unfiled, h.freeAt,
    h.submitted, h.due⟩

end Prompt
end Pipeline
end ResponseCache
