import ResponseCache.Journal

namespace ResponseCache

namespace Hand

/-- The change in hand. -/
@[simp] def item? : Hand → Option Queued
  | empty => none
  | working item _ => some item
  | settled item _ => some item
  | filed item => some item

/-- The change in hand, as long as nothing has become of it. -/
@[simp] def open? : Hand → Option Queued
  | working item _ => some item
  | _ => none

/-- The failure in hand that is not filed yet. -/
@[simp] def unfiled? : Hand → Option Failure
  | settled item (some reason) => some ⟨item.seq, reason⟩
  | _ => none

end Hand

namespace Journal

/-- The changes that are submitted and not committed. -/
def underway (j : Journal) : List Queued := j.hand.item?.toList ++ j.queue

/-- The changes of which nothing has become yet. -/
def awaiting (j : Journal) : List Queued := j.hand.open?.toList ++ j.queue

/-- The journal with one more change. -/
def push (j : Journal) (now : Nat) (change : Change) : Journal :=
  { j with lastSeq := j.lastSeq + 1, queue := j.queue ++ [⟨j.lastSeq + 1, change, now⟩] }

theorem submit_of_accepting {j : Journal} (h : j.accepting = true) (now : Nat) (change : Change) :
    j.submit now change = .ok (j.push now change) := by
  simp [submit, push, h]

theorem submit_of_not_accepting {j : Journal} (h : j.accepting = false) (now : Nat) (change : Change) :
    j.submit now change = .error (.persistence "flush coordinator is shut down") := by
  simp [submit, h]

theorem awaiting_push (j : Journal) (now : Nat) (change : Change) :
    (j.push now change).awaiting = j.awaiting ++ [⟨j.lastSeq + 1, change, now⟩] := by
  simp only [awaiting, push, List.append_assoc]

theorem underway_push (j : Journal) (now : Nat) (change : Change) :
    (j.push now change).underway = j.underway ++ [⟨j.lastSeq + 1, change, now⟩] := by
  simp only [underway, push, List.append_assoc]

/-- The changes that are not committed carry the numbers from the committed one to the last. -/
structure Numbered (j : Journal) : Prop where
  le : j.committed ≤ j.lastSeq
  seqs : j.underway.map (·.seq) = List.range' (j.committed + 1) (j.lastSeq - j.committed)

theorem numbered_of_fresh {j : Journal} (hq : j.queue = []) (hh : j.hand = .empty) (hc : j.committed = j.lastSeq) :
    j.Numbered := by
  refine ⟨Nat.le_of_eq hc, ?_⟩
  simp [underway, hq, hh, hc, Hand.item?]

namespace Numbered
variable {j j' : Journal}

theorem of_underway (h : j.Numbered) (hc : j'.committed = j.committed) (hl : j'.lastSeq = j.lastSeq)
    (hu : j'.underway = j.underway) : j'.Numbered := by
  refine ⟨?_, ?_⟩
  · rw [hc, hl]
    exact h.le
  · rw [hc, hl, hu]
    exact h.seqs

theorem push (h : j.Numbered) (now : Nat) (change : Change) : (j.push now change).Numbered := by
  have hle := h.le
  have hlast : (j.push now change).lastSeq - (j.push now change).committed = (j.lastSeq - j.committed) + 1 := by
    simp only [Journal.push]
    omega
  have hnew : j.committed + 1 + 1 * (j.lastSeq - j.committed) = j.lastSeq + 1 := by omega
  refine ⟨Nat.le_succ_of_le hle, ?_⟩
  rw [hlast, underway_push, List.map_append, h.seqs, List.range'_concat]
  simp only [Journal.push, hnew, List.map_cons, List.map_nil]

/-- The first change that is not committed has the number behind the committed one. -/
theorem head (h : j.Numbered) {item : Queued} {rest : List Queued} (hu : j.underway = item :: rest) :
    item.seq = j.committed + 1 ∧ j.lastSeq = j.committed + 1 + rest.length := by
  have hlength := congrArg List.length h.seqs
  have hfirst := congrArg List.head? h.seqs
  rw [hu] at hlength hfirst
  simp only [List.map_cons, List.length_cons, List.length_map, List.length_range'] at hlength
  have hlast : j.lastSeq - j.committed = rest.length + 1 := hlength.symm
  rw [hlast, List.range'_succ] at hfirst
  simp only [List.map_cons, List.head?_cons, Option.some.injEq] at hfirst
  exact ⟨hfirst, by omega⟩

/-- To commit the first change takes it out. -/
theorem commit (h : j.Numbered) (item : Queued) (hu : j.underway = item :: j'.underway)
    (hc : j'.committed = item.seq) (hl : j'.lastSeq = j.lastSeq) : j'.Numbered := by
  obtain ⟨hseq, hlast⟩ := h.head hu
  have hseqs := h.seqs
  have hcount : j.lastSeq - j.committed = (j.lastSeq - item.seq) + 1 := by omega
  rw [hu, hcount, List.range'_succ, List.map_cons, List.cons.injEq] at hseqs
  refine ⟨by omega, ?_⟩
  rw [hc, hl, hseqs.2, hseq]

theorem length_underway (h : j.Numbered) : j.underway.length = j.pending := by
  have hlength := congrArg List.length h.seqs
  rwa [List.length_map, List.length_range'] at hlength

theorem committed_lt (h : j.Numbered) {item : Queued} (hm : item ∈ j.underway) : j.committed < item.seq := by
  have hseq : item.seq ∈ j.underway.map (·.seq) := List.mem_map_of_mem hm
  rw [h.seqs, List.mem_range'_1] at hseq
  omega

/-- Nothing is underway when nothing is pending. -/
theorem underway_eq_nil (h : j.Numbered) (hp : j.pending = 0) : j.underway = [] :=
  List.eq_nil_of_length_eq_zero (h.length_underway.trans hp)

end Numbered

theorem mem_underway_of_mem_awaiting {j : Journal} {item : Queued} (h : item ∈ j.awaiting) : item ∈ j.underway := by
  rcases List.mem_append.mp h with hm | hm
  · have hhand : j.hand.open?.toList = j.hand.item?.toList := by
      cases hh : j.hand <;> simp_all [Hand.open?, Hand.item?]
    exact List.mem_append_left _ (hhand ▸ hm)
  · exact List.mem_append_right _ hm

end Journal

/-- The steps of a writer. -/
inductive WriterStep
  | take | apply | file | publish

namespace Pipeline

def step (p : Pipeline) : WriterStep → Pipeline
  | .take => p.take
  | .apply => p.apply
  | .file => p.file
  | .publish => p.publish

/-- The change that the backend accepts in a step. -/
def accepted? (p : Pipeline) : WriterStep → Option Queued
  | .apply =>
    match p.journal.hand with
    | .working item _ =>
      match (p.backend.apply item.change).1 with
      | .ok _ => some item
      | .error _ => none
    | _ => none
  | .take | .file | .publish => none

/-- The failure that comes up in a step: the backend refuses a change, or the writer drops one. -/
def failure? (p : Pipeline) : WriterStep → Option Failure
  | .take =>
    match p.journal.hand, p.journal.queue with
    | .empty, item :: _ => if p.journal.cancelled then some ⟨item.seq, "aborted before persistence"⟩ else none
    | _, _ => none
  | .apply =>
    match p.journal.hand with
    | .working item _ =>
      match (p.backend.apply item.change).1 with
      | .ok _ => none
      | .error e => some ⟨item.seq, item.change.key.display ++ ": " ++ e.message⟩
    | _ => none
  | .file | .publish => none

/-- What a step of the writer comes to. -/
inductive Stage (p : Pipeline) : WriterStep → Pipeline → Prop
  /-- It is not the turn of that step. -/
  | idle (step : WriterStep) (haccepted : p.accepted? step = none) (hfailure : p.failure? step = none) :
      Stage p step p
  | started (item : Queued) (rest : List Queued) (due : Nat) (hhand : p.journal.hand = .empty)
      (hqueue : p.journal.queue = item :: rest) (hkept : p.journal.cancelled = false) :
      Stage p .take { p with journal := { p.journal with queue := rest, hand := .working item due } }
  | dropped (item : Queued) (rest : List Queued) (hhand : p.journal.hand = .empty)
      (hqueue : p.journal.queue = item :: rest) (hcancelled : p.journal.cancelled = true) :
      Stage p .take { p with journal := { p.journal with
        queue := rest, hand := .settled item (some "aborted before persistence") } }
  | applied (item : Queued) (due : Nat) (answer : Bool) (backend : Backend)
      (hhand : p.journal.hand = .working item due) (happly : p.backend.apply item.change = (.ok answer, backend)) :
      Stage p .apply { p with journal := { p.journal with hand := .settled item none, freeAt := due }, backend }
  | failed (item : Queued) (due : Nat) (e : Error) (backend : Backend) (monitor : Monitor)
      (hhand : p.journal.hand = .working item due) (happly : p.backend.apply item.change = (.error e, backend)) :
      Stage p .apply ⟨{ p.journal with
        hand := .settled item (some (item.change.key.display ++ ": " ++ e.message)), freeAt := due }, backend, monitor⟩
  | filed (item : Queued) (failure : Option String) (monitor : Monitor)
      (hhand : p.journal.hand = .settled item failure) :
      Stage p .file ⟨{ p.journal with
        hand := .filed item, failures := p.journal.failures ++ p.journal.hand.unfiled?.toList }, p.backend, monitor⟩
  | published (item : Queued) (hhand : p.journal.hand = .filed item) :
      Stage p .publish { p with journal := { p.journal with hand := .empty, committed := item.seq } }

theorem stage_take (p : Pipeline) : Stage p .take p.take := by
  cases hhand : p.journal.hand with
  | empty =>
    cases hqueue : p.journal.queue with
    | nil =>
      have hidle : p.take = p := by simp only [take, Journal.take, hhand, hqueue]
      rw [hidle]
      exact .idle .take rfl (by simp only [failure?, hhand, hqueue])
    | cons item rest =>
      cases hc : p.journal.cancelled with
      | true =>
        simp only [take, Journal.take, hhand, hqueue]
        rw [if_pos hc]
        exact .dropped item rest hhand hqueue hc
      | false =>
        simp only [take, Journal.take, hhand, hqueue]
        rw [if_neg (by simp [hc])]
        exact .started item rest _ hhand hqueue hc
  | working item due | settled item failure | filed item =>
    simp only [take, Journal.take, hhand]
    exact .idle .take rfl (by simp only [failure?, hhand])

theorem stage_apply (p : Pipeline) : Stage p .apply p.apply := by
  cases hhand : p.journal.hand with
  | working item due =>
    generalize happly : p.backend.apply item.change = result
    obtain ⟨answer, backend⟩ := result
    cases answer with
    | ok found =>
      simp only [apply, Journal.settle, hhand, happly]
      exact .applied item due found backend hhand happly
    | error e =>
      simp only [apply, Journal.settle, hhand, happly]
      exact .failed item due e backend _ hhand happly
  | empty | settled item failure | filed item =>
    simp only [apply, hhand]
    exact .idle .apply (by simp only [accepted?, hhand]) (by simp only [failure?, hhand])

theorem stage_file (p : Pipeline) : Stage p .file p.file := by
  cases hhand : p.journal.hand with
  | settled item failure =>
    have hstage := Stage.filed (p := p) item failure
    cases failure with
    | none =>
      simp only [hhand, Hand.unfiled?, Option.toList, List.append_nil] at hstage
      simp only [file, Journal.file, hhand]
      exact hstage _ trivial
    | some reason =>
      simp only [hhand, Hand.unfiled?, Option.toList] at hstage
      simp only [file, Journal.file, hhand]
      exact hstage _ trivial
  | empty | working item due | filed item =>
    simp only [file, hhand]
    exact .idle .file rfl rfl

theorem stage_publish (p : Pipeline) : Stage p .publish p.publish := by
  cases hhand : p.journal.hand with
  | filed item =>
    simp only [publish, Journal.publish, hhand]
    exact .published item hhand
  | empty | working item due | settled item failure =>
    simp only [publish, Journal.publish, hhand]
    exact .idle .publish rfl rfl

theorem stage (p : Pipeline) (step : WriterStep) : Stage p step (p.step step) := by
  cases step with
  | take => exact p.stage_take
  | apply => exact p.stage_apply
  | file => exact p.stage_file
  | publish => exact p.stage_publish

theorem Stage.numbered {p p' : Pipeline} {step : WriterStep} (h : Stage p step p') (hn : p.journal.Numbered) :
    p'.journal.Numbered := by
  cases h with
  | idle => exact hn
  | started item rest due hhand hqueue hkept =>
    exact hn.of_underway rfl rfl (by simp [Journal.underway, hhand, hqueue])
  | dropped item rest hhand hqueue hcancelled =>
    exact hn.of_underway rfl rfl (by simp [Journal.underway, hhand, hqueue])
  | applied item due answer backend hhand happly =>
    exact hn.of_underway rfl rfl (by simp [Journal.underway, hhand])
  | failed item due e backend monitor hhand happly =>
    exact hn.of_underway rfl rfl (by simp [Journal.underway, hhand])
  | filed item failure monitor hhand =>
    exact hn.of_underway rfl rfl (by simp [Journal.underway, hhand])
  | published item hhand =>
    exact hn.commit item (by simp [Journal.underway, hhand]) rfl rfl

/-- Nothing becomes of a change on the way to the second pipeline. -/
structure Passes (p p' : Pipeline) : Prop where
  lastSeq : p'.journal.lastSeq = p.journal.lastSeq
  committed : p.journal.committed ≤ p'.journal.committed
  awaiting : p'.journal.awaiting = p.journal.awaiting
  failures : p'.journal.failures ++ p'.journal.hand.unfiled?.toList =
    p.journal.failures ++ p.journal.hand.unfiled?.toList

/-- On the way to the second pipeline the first change that waits is accepted, or it fails and the failure is in hand. -/
structure Settles (p p' : Pipeline) (item : Queued) (accepted : Option Queued) (failure : Option Failure) : Prop where
  lastSeq : p'.journal.lastSeq = p.journal.lastSeq
  committed : p'.journal.committed = p.journal.committed
  underway : p.journal.underway = p.journal.awaiting
  awaiting : p.journal.awaiting = item :: p'.journal.awaiting
  failures : p'.journal.failures = p.journal.failures
  unfiled : p.journal.hand.unfiled? = none
  hand : p'.journal.hand.unfiled? = failure
  fate : accepted = some item ∨ ∃ f, failure = some f
  seq : ∀ f, failure = some f → f.seq = item.seq

/-- A step of the writer settles the first change that waits, or nothing becomes of a change in it. -/
theorem Stage.passes_or_settles {p p' : Pipeline} {step : WriterStep} (h : Stage p step p') (hn : p.journal.Numbered) :
    (p.accepted? step = none ∧ p.failure? step = none ∧ p.Passes p') ∨
    ∃ item, p.Settles p' item (p.accepted? step) (p.failure? step) := by
  cases h with
  | idle step haccepted hfailure => exact .inl ⟨haccepted, hfailure, rfl, Nat.le_refl _, rfl, rfl⟩
  | started item rest due hhand hqueue hkept =>
    refine .inl ⟨rfl, by simp [failure?, hhand, hqueue, hkept], rfl, Nat.le_refl _, ?_, ?_⟩
    · simp [Journal.awaiting, hhand, hqueue]
    · simp [hhand]
  | dropped item rest hhand hqueue hcancelled =>
    have hfailure : p.failure? .take = some ⟨item.seq, "aborted before persistence"⟩ := by
      simp only [failure?, hhand, hqueue, hcancelled, if_true]
    rw [hfailure]
    refine .inr ⟨item, rfl, rfl, ?_, ?_, rfl, ?_, rfl, .inr ⟨_, rfl⟩, ?_⟩
    · simp [Journal.underway, Journal.awaiting, hhand]
    · simp [Journal.awaiting, hhand, hqueue]
    · simp [hhand]
    · exact fun f hf => Option.some.inj hf ▸ rfl
  | applied item due answer backend hhand happly =>
    have haccepted : p.accepted? .apply = some item := by simp only [accepted?, hhand, happly]
    have hfailure : p.failure? .apply = none := by simp only [failure?, hhand, happly]
    rw [haccepted, hfailure]
    refine .inr ⟨item, rfl, rfl, ?_, ?_, rfl, ?_, rfl, .inl rfl, by simp⟩
    · simp [Journal.underway, Journal.awaiting, hhand]
    · simp [Journal.awaiting, hhand]
    · simp [hhand]
  | failed item due e backend monitor hhand happly =>
    have hfailure : p.failure? .apply = some ⟨item.seq, item.change.key.display ++ ": " ++ e.message⟩ := by
      simp only [failure?, hhand, happly]
    rw [hfailure]
    refine .inr ⟨item, rfl, rfl, ?_, ?_, rfl, ?_, rfl, .inr ⟨_, rfl⟩, ?_⟩
    · simp [Journal.underway, Journal.awaiting, hhand]
    · simp [Journal.awaiting, hhand]
    · simp [hhand]
    · exact fun f hf => Option.some.inj hf ▸ rfl
  | filed item failure monitor hhand =>
    -- The failure moves from the hand to the end of the list, so both together stay the same.
    refine .inl ⟨rfl, rfl, rfl, Nat.le_refl _, ?_, ?_⟩
    · simp [Journal.awaiting, hhand]
    · simp
  | published item hhand =>
    have hitem : item ∈ p.journal.underway := by simp [Journal.underway, hhand]
    have hlt := hn.committed_lt hitem
    refine .inl ⟨rfl, rfl, rfl, Nat.le_of_lt hlt, ?_, ?_⟩
    · simp [Journal.awaiting, hhand]
    · simp [hhand]

/-- The pipeline after some steps of the writer. -/
def work (p : Pipeline) (steps : List WriterStep) : Pipeline := steps.foldl step p

theorem work_append (p : Pipeline) (steps steps' : List WriterStep) :
    p.work (steps ++ steps') = (p.work steps).work steps' := List.foldl_append

theorem exists_work_drop (n : Nat) : ∀ p : Pipeline, ∃ steps, drop n p = p.work steps := by
  induction n with
  | zero => exact fun p => ⟨[], rfl⟩
  | succ n ih =>
    intro p
    obtain ⟨steps, hsteps⟩ := ih p.take.file.publish
    exact ⟨.take :: .file :: .publish :: steps, hsteps⟩

theorem exists_work_pickUp (p : Pipeline) : ∃ steps, p.pickUp = p.work steps := by
  unfold pickUp
  split
  · exact exists_work_drop p.journal.queue.length p
  · exact ⟨[.take], rfl⟩

theorem exists_work_advanceTo (now n : Nat) : ∀ p : Pipeline, ∃ steps, advanceTo now n p = p.work steps := by
  induction n with
  | zero => exact fun p => ⟨[], rfl⟩
  | succ n ih =>
    intro p
    unfold advanceTo
    split
    · obtain ⟨steps, hsteps⟩ := exists_work_pickUp p.apply.file.publish
      obtain ⟨steps', hsteps'⟩ := ih p.advance
      have hadvance : p.advance = p.work (.apply :: .file :: .publish :: steps) := hsteps
      refine ⟨(.apply :: .file :: .publish :: steps) ++ steps', ?_⟩
      rw [work_append, ← hadvance]
      exact hsteps'
    · exact ⟨[], rfl⟩

/-- Whatever a writer does in a turn, it does in single steps. -/
theorem exists_work_turn (now : Nat) (p : Pipeline) : ∃ steps, p.turn now = p.work steps := by
  obtain ⟨steps, hsteps⟩ := exists_work_pickUp p
  obtain ⟨steps', hsteps'⟩ := exists_work_advanceTo now (p.journal.queue.length + 1) p.pickUp
  refine ⟨steps ++ steps', ?_⟩
  rw [work_append, ← hsteps]
  exact hsteps'

end Pipeline
end ResponseCache
