import ResponseCache.Proofs.Journal.Prospect
import ResponseCache.Proofs.Stopping
/-!
Flushes amid submissions. While a flush waits, others go on to submit changes. It waits for those in front of its barrier and
for no others, so that what it answers and when it does are settled at the moment at which it fixes the barrier. A flush that
gives up takes nothing away from later ones.
-/
namespace ResponseCache

/-- What a flush answers that has collected these failures. -/
def Failure.answer : List Failure → Except Error Unit
  | [] => .ok ()
  | first :: rest => .error (.flushFailed (rest.length + 1) first.reason)

/-- How and when a flush ends, if the changes in front of its barrier are committed at that moment and these failures are
among them. -/
def Journal.flushed (j : Journal) (b : Barrier) (moment : Nat) (failures : List Failure) : Except Error Unit × Nat :=
  match j.patience with
  | none => (Failure.answer failures, moment)
  | some patience =>
    if !j.reached b && b.since + patience.nanos ≤ moment then (.error (.flushTimeout patience), b.since + patience.nanos)
    else (Failure.answer failures, moment)

theorem Failure.answer_ne (failures : List Failure) (limit : Span) :
    Failure.answer failures ≠ .error (.flushTimeout limit) := by
  cases failures <;> simp [Failure.answer]

namespace Journal
variable {j : Journal} {b : Barrier} {moment : Nat}

theorem flushed_in_time (failures : List Failure)
    (h : j.reached b = true ∨ ∀ patience ∈ j.patience, moment < b.since + patience.nanos) :
    j.flushed b moment failures = (Failure.answer failures, moment) := by
  unfold flushed
  cases hpatience : j.patience with
  | none => rfl
  | some patience =>
    rcases h with hreached | hless
    · simp [hreached]
    · have hnot : ¬b.since + patience.nanos ≤ moment := Nat.not_le_of_lt (hless patience hpatience)
      simp [hnot]

theorem flushed_too_late (failures : List Failure) {patience : Span} (hpatience : j.patience = some patience)
    (hunreached : j.reached b = false) (hlate : b.since + patience.nanos ≤ moment) :
    j.flushed b moment failures = (.error (.flushTimeout patience), b.since + patience.nanos) := by
  simp [flushed, hpatience, hunreached, hlate]

theorem flushed_cases (j : Journal) (b : Barrier) (moment : Nat) (failures : List Failure) :
    (∃ limit, (j.flushed b moment failures).1 = .error (.flushTimeout limit)) ∨
      (j.flushed b moment failures).1 = Failure.answer failures := by
  unfold flushed
  cases j.patience with
  | none => exact .inr rfl
  | some patience =>
    simp only
    split
    · exact .inl ⟨patience, rfl⟩
    · exact .inr rfl

end Journal

namespace Site

/-- Waits like `wait`, while changes are submitted at their times. -/
def waitAmid (stop : Site → Bool) (limit : Option Nat) : List (Nat × Change) → Site → Site
  | [], s => s.wait stop limit
  | (time, change) :: rest, s =>
    if limit.all (time < ·) then
      let s := s.wait stop (some time)
      if stop s then s else waitAmid stop limit rest (submit { s with now := time } change).2
    else s.wait stop limit

/-- Lets time pass until then, while those changes are submitted whose time comes before. -/
def sleepAmid (s : Site) (subs : List (Nat × Change)) (later : Nat) : Site :=
  { waitAmid (fun _ => false) (some later) subs s with now := later }

/-- Flushes like `flush`, while changes are submitted. -/
def flushAmid (s : Site) (subs : List (Nat × Change)) : Except Error Unit × Site :=
  match s.service.store.journal with
  | none => (.ok (), s.setService (s.service.count (·.countFlush ⟨0⟩)))
  | some j =>
    let b := j.barrier s.now
    match s.poll s.current b with
    | some answer => answer
    | none =>
      let s := waitAmid (isReached b) (j.deadline? b) subs s
      match s.poll s.current b with
      | some answer => answer
      | none =>
        let s := { s with now := (j.deadline? b).getD s.now }
        (s.poll s.current b).getD (.ok (), s)

/-- Without submissions that is what a flush does. -/
theorem flushAmid_nil (s : Site) : s.flushAmid [] = s.flush := rfl

/-- Changes are submitted one after the other, from now on. -/
def Timely (now : Nat) (subs : List (Nat × Change)) : Prop := (now :: subs.map (·.1)).IsChain (· ≤ ·)

theorem Alone.unique {s : Site} {p p' : Pipeline} (h : s.Alone p) (h' : s.Alone p') : p = p' :=
  Option.some.inj (h.pipeline.symm.trans h'.pipeline)

theorem now_setServiceAt (s : Site) (n : Nat) (service : Service) : (s.setServiceAt n service).now = s.now := by
  have henqueue (s : Site) : (s.enqueue n).now = s.now := by
    unfold enqueue
    split <;> rfl
  simp only [setServiceAt, apply_ite Site.now, henqueue, ite_self]

theorem now_submit (s : Site) (change : Change) : (s.submit change).2.now = s.now := by
  simp only [submit]
  split
  · rfl
  · split
    · rfl
    · exact now_setServiceAt _ _ _

/-- The writer of a site works along unless it is through for good. -/
structure Going (s : Site) (p : Pipeline) : Prop where
  alone : s.Alone p
  rests : p.journal.hand.rests = true
  numbered : p.journal.Numbered
  foreseen : ∀ f ∈ p.foreseen, f.seq ≤ p.journal.lastSeq
  kept : p.journal.cancelled = true → p.journal.accepting = false
  closed : p.journal.accepting = false → p.journal.isIdle = true

namespace Going
variable {s s' : Site} {p p' : Pipeline} {target : Nat}

/-- Unless the writer is idle, nobody has told it to drop changes. -/
theorem runs (h : s.Going p) (hbusy : ¬p.journal.isIdle = true) : p.Runs where
  numbered := h.numbered
  kept := by
    rw [← Bool.not_eq_true]
    exact fun hcancelled => hbusy (h.closed (h.kept hcancelled))

theorem committed_of_isIdle (h : s.Going p) (hidle : p.journal.isIdle = true) (htarget : target ≤ p.journal.lastSeq) :
    target ≤ p.journal.committed := by
  have hreached : p.journal.reached ⟨target, 0⟩ = true := h.numbered.reached_of_isIdle hidle htarget
  exact of_decide_eq_true hreached

theorem of_continues (h : s.Going p) (hcontinues : p.Continues p') (halone : s'.Alone p')
    (hrests : p'.journal.hand.rests = true) (hnumbered : p'.journal.Numbered)
    (hkept : p'.journal.cancelled = true → p'.journal.accepting = false)
    (hclosed : p'.journal.accepting = false → p'.journal.isIdle = true) : s'.Going p' := by
  refine ⟨halone, hrests, hnumbered, ?_, hkept, hclosed⟩
  obtain ⟨more, hmore, hbehind⟩ := hcontinues.foreseen
  rw [hmore]
  intro f hf
  rcases List.mem_append.mp hf with hold | hnew
  · exact Nat.le_trans (h.foreseen f hold) hcontinues.lastSeq
  · exact (hbehind f hnew).2

theorem of_work (h : s.Going p) (hwork : ∃ steps, p' = p.work steps) (halone : s'.Alone p')
    (hrests : p'.journal.hand.rests = true) : s'.Going p' ∧ p.Continues p' := by
  obtain ⟨steps, rfl⟩ := hwork
  by_cases hidle : p.journal.isIdle = true
  · have hsame := Pipeline.work_of_isIdle hidle steps
    rw [hsame] at halone ⊢
    exact ⟨⟨halone, h.rests, h.numbered, h.foreseen, h.kept, h.closed⟩, .refl p⟩
  · obtain ⟨hruns, hcontinues⟩ := (h.runs hidle).work steps
    obtain ⟨haccepting, hcancelled⟩ := Pipeline.work_keeps steps p
    refine ⟨h.of_continues hcontinues halone hrests hruns.numbered ?_ ?_, hcontinues⟩
    · rw [haccepting, hcancelled]
      exact h.kept
    · intro hclosed
      exact absurd (h.closed (haccepting ▸ hclosed)) hidle

theorem setNow (h : s.Going p) (now : Nat) : ({ s with now } : Site).Going p :=
  ⟨h.alone.setNow now, h.rests, h.numbered, h.foreseen, h.kept, h.closed⟩

/-- A change is taken in, or the writer is through for good. -/
theorem submit (h : s.Going p) (change : Change) :
    ∃ p', (s.submit change).2.Going p' ∧ p.Continues p' ∧ p'.journal.committed = p.journal.committed ∧
      ∀ target ≤ p.journal.lastSeq, p'.moment target = p.moment target := by
  cases haccepting : p.journal.accepting with
  | false =>
    rw [h.alone.submit_of_closed haccepting]
    exact ⟨p, h, .refl p, rfl, fun _ _ => rfl⟩
  | true =>
    obtain ⟨site, monitor, hsubmit, halone⟩ := h.alone.submit_of_open haccepting change
    rw [hsubmit]
    have hcontinues := Pipeline.Continues.push p s.now change monitor
    have hopen : (p.journal.push s.now change).accepting = false → (p.journal.push s.now change).isIdle = true :=
      fun hclosed => absurd (haccepting.symm.trans hclosed) (by simp)
    refine ⟨_, h.of_continues hcontinues halone h.rests (h.numbered.push s.now change) h.kept hopen, hcontinues, rfl, ?_⟩
    intro target htarget
    funext now
    show Journal.moment _ p.backend.latency target now = _
    simp only [Pipeline.moment, Journal.moment, Journal.doneAt_push htarget]
    rfl

/-- In a round the writer gets as far as it can by now. -/
theorem round (h : s.Going p) :
    ∃ p', s.round.Going p' ∧ p.Continues p' ∧ s.round.now = s.now ∧ p'.Waits s.now ∧
      p'.journal.underway.length ≤ p.journal.underway.length ∧
      (∀ item due, p.journal.hand = .working item due → due ≤ s.now →
        p'.journal.underway.length < p.journal.underway.length) ∧
      ∀ target ≤ p.journal.lastSeq, p'.moment target s.now = p.moment target s.now ∧
        (target ≤ p'.journal.committed ↔ p.moment target s.now ≤ s.now) := by
  obtain ⟨steps, halone, hnow, hwaits, hle, hlt⟩ := h.alone.round h.rests
  obtain ⟨hgoing, hcontinues⟩ := h.of_work ⟨steps, rfl⟩ halone hwaits.poised.rests
  refine ⟨p.work steps, hgoing, hcontinues, hnow, hwaits, hle, hlt, ?_⟩
  intro target htarget
  by_cases hthrough : target ≤ p.journal.committed
  · have hthrough' := Nat.le_trans hthrough hcontinues.committed
    have hpast : p.moment target s.now = s.now := Journal.moment_of_committed hthrough s.now
    exact ⟨(Journal.moment_of_committed hthrough' s.now).trans hpast.symm, iff_of_true hthrough' (Nat.le_of_eq hpast)⟩
  · have hbusy : ¬p.journal.isIdle = true := fun hidle => hthrough (h.committed_of_isIdle hidle htarget)
    obtain ⟨p', halone', -, hturn | ⟨hsame, hstill⟩⟩ := h.alone.round_cases
    · rw [halone.unique halone', hturn]
      exact (h.runs hbusy).turn h.rests htarget s.now
    · -- The backend works for longer than until now.
      obtain ⟨item, due, hhand, hlater⟩ := hstill.resolve_left hbusy
      have hfirst : due ≤ p.moment target s.now := Journal.due_le_moment hhand hthrough s.now
      have hahead : ¬p.moment target s.now ≤ s.now := by omega
      rw [halone.unique halone', hsame]
      exact ⟨rfl, iff_of_false hthrough hahead⟩

end Going

/-- One does not stop before all changes up to that number are committed. -/
def StopsBehind (stop : Site → Bool) (target : Nat) : Prop :=
  ∀ {s : Site} {p : Pipeline}, s.Alone p → stop s = true → target ≤ p.journal.committed

/-- One stops as soon as all changes up to that number are committed. -/
def StopsAt (stop : Site → Bool) (target : Nat) : Prop :=
  ∀ {s : Site} {p : Pipeline}, s.Alone p → target ≤ p.journal.committed → stop s = true

theorem isReached_iff {s : Site} {p : Pipeline} (h : s.Alone p) (b : Barrier) :
    isReached b s = true ↔ b.target ≤ p.journal.committed := by
  simp [isReached, h.journal, Journal.reached]

theorem stopsBehind_isReached (b : Barrier) : StopsBehind (isReached b) b.target :=
  fun h => (isReached_iff h b).mp

theorem stopsAt_isReached (b : Barrier) : StopsAt (isReached b) b.target := fun h => (isReached_iff h b).mpr

theorem stopsBehind_never (target : Nat) : StopsBehind (fun _ => false) target := fun _ hstop => absurd hstop (by simp)

/-- Time has passed from one site to the other, short of the limit. The changes up to that number are committed just if their
moment has come; it is still the same unless one has gone on behind it. -/
structure Passed (stop : Site → Bool) (limit : Option Nat) (target : Nat) (s : Site) (p : Pipeline) (s' : Site)
    (p' : Pipeline) : Prop where
  going : s'.Going p'
  continues : p.Continues p'
  le : s.now ≤ s'.now
  before : s'.now = s.now ∨ ∀ time ∈ limit, s'.now < time
  committed : target ≤ p'.journal.committed ↔
    p.moment target s.now ≤ s.now ∨ ∀ time ∈ limit, p.moment target s.now < time
  moment : StopsAt stop target ∨ ¬target ≤ p'.journal.committed → p'.moment target s'.now = p.moment target s.now

theorem all_lt_iff {limit : Option Nat} {time : Nat} : limit.all (time < ·) = true ↔ ∀ last ∈ limit, time < last := by
  simp [Option.all_eq_true]

namespace Passed
variable {s s₁ s' : Site} {p p₁ p' : Pipeline} {stop : Site → Bool} {limit : Option Nat} {target : Nat}

/-- Nobody waits when the changes are committed already. -/
theorem of_committed (h : s.Going p) (hthrough : target ≤ p.journal.committed) : Passed stop limit target s p s p := by
  have hnow : p.moment target s.now ≤ s.now := Nat.le_of_eq (Journal.moment_of_committed hthrough s.now)
  exact ⟨h, .refl p, Nat.le_refl _, .inl rfl, iff_of_true hthrough (.inl hnow), fun _ => rfl⟩

/-- One waits for a while within the limit, and then goes on waiting. -/
theorem after (h : Passed stop limit target s₁ p₁ s' p') (hcontinues : p.Continues p₁) (hle : s.now ≤ s₁.now)
    (hshort : ∀ last ∈ limit, s₁.now < last) (hcome : target ≤ p₁.journal.committed → p.moment target s.now ≤ s₁.now)
    (hsame : StopsAt stop target ∨ ¬target ≤ p₁.journal.committed → p₁.moment target s₁.now = p.moment target s.now) :
    Passed stop limit target s p s' p' := by
  have hmore := h.continues.committed
  refine ⟨h.going, hcontinues.trans h.continues, Nat.le_trans hle h.le, .inr ?_, ?_, ?_⟩
  · rcases h.before with hthere | hbefore
    · rw [hthere]
      exact hshort
    · exact hbefore
  · by_cases hthrough : target ≤ p₁.journal.committed
    · refine iff_of_true (Nat.le_trans hthrough hmore) (.inr fun last hlast => ?_)
      exact Nat.lt_of_le_of_lt (hcome hthrough) (hshort last hlast)
    · rw [h.committed, hsame (.inr hthrough)]
      constructor
      · rintro (hcome | hahead)
        · exact .inr fun last hlast => Nat.lt_of_le_of_lt hcome (hshort last hlast)
        · exact .inr hahead
      · exact fun hmoment => hmoment.imp_left fun hnow => Nat.le_trans hnow hle
  · intro hcase
    have hcase₁ : StopsAt stop target ∨ ¬target ≤ p₁.journal.committed :=
      hcase.imp_right fun hnot hthrough => hnot (Nat.le_trans hthrough hmore)
    rw [h.moment hcase, hsame hcase₁]

end Passed

namespace Going
variable {s s' : Site} {p p' : Pipeline} {stop : Site → Bool} {limit : Option Nat} {target : Nat}

/-- The clock jumps to the time at which the backend is done with the change in hand, which the writer brings to its end then.
It does not jump over the moment. -/
theorem jump (h : s.Going p) {item : Queued} {due : Nat} (hhand : p.journal.hand = .working item due) (hlater : s.now < due)
    (htarget : target ≤ p.journal.lastSeq) :
    ∃ p', (Site.round { s with now := due }).Going p' ∧ p.Continues p' ∧ (Site.round { s with now := due }).now = due ∧
      p'.Waits due ∧ p'.journal.underway.length < p.journal.underway.length ∧
      (target ≤ p'.journal.committed → p.moment target s.now ≤ due) ∧
      (¬target ≤ p.journal.committed → p'.moment target due = p.moment target s.now) := by
  obtain ⟨p', hgoing, hcontinues, hnow, hwaits, -, hless, hmoment⟩ := (h.setNow due).round
  obtain ⟨hround, hcome⟩ := hmoment target htarget
  have hsame (hnot : ¬target ≤ p.journal.committed) : p.moment target due = p.moment target s.now :=
    Journal.moment_of_le (Nat.le_of_lt hlater) (Journal.due_le_moment hhand hnot s.now)
  refine ⟨p', hgoing, hcontinues, hnow, hwaits, hless item due hhand (Nat.le_refl due), ?_, ?_⟩
  · intro hthrough
    by_cases hbefore : target ≤ p.journal.committed
    · rw [Pipeline.moment, Journal.moment_of_committed hbefore]
      exact Nat.le_of_lt hlater
    · rw [← hsame hbefore]
      exact hcome.mp hthrough
  · exact fun hnot => hround.trans (hsame hnot)

/-- The writer gets through in time or it does not, however often the clock jumps until then. -/
theorem run (hstop : StopsBehind stop target) (limit : Option Nat) (fuel : Nat) : ∀ {s : Site} {p : Pipeline}, s.Going p → p.Waits s.now →
    p.journal.underway.length ≤ fuel → target ≤ p.journal.lastSeq →
    ∃ p', Passed stop limit target s p (Site.run stop limit fuel s) p' := by
  -- On the fuel: it is used up only when nothing is underway any more, since every jump brings one change to its end.
  induction fuel with
  | zero =>
    intro s p h hwaits hlength htarget
    have hidle := Journal.isIdle_of_underway (List.eq_nil_of_length_eq_zero (Nat.le_zero.mp hlength))
    exact ⟨p, .of_committed h (h.committed_of_isIdle hidle htarget)⟩
  | succ fuel ih =>
    intro s p h hwaits hlength htarget
    unfold Site.run
    by_cases hstopped : stop s = true
    · rw [if_pos hstopped]
      exact ⟨p, .of_committed h (hstop h.alone hstopped)⟩
    · rw [if_neg hstopped, h.alone.nextDue]
      rcases hwaits with hidle | ⟨item, due, hhand, hlater⟩
      · have hnone : p.journal.due? = none := by simp [Journal.due?, (p.journal.isIdle_iff.mp hidle).1]
        rw [hnone]
        exact ⟨p, .of_committed h (h.committed_of_isIdle hidle htarget)⟩
      · have hdue : p.journal.due? = some due := by simp [Journal.due?, hhand]
        have hmax : max s.now due = due := Nat.max_eq_right (Nat.le_of_lt hlater)
        rw [hdue]
        simp only [hmax]
        by_cases hlimit : limit.all (due < ·) = true
        · rw [if_pos hlimit]
          obtain ⟨p₁, hgoing, hcontinues, hnow, hwaits', hless, hcome, hsame⟩ := h.jump hhand hlater htarget
          generalize Site.round { s with now := due } = s₁ at hgoing hnow ⊢
          subst hnow
          have htarget₁ := Nat.le_trans htarget hcontinues.lastSeq
          obtain ⟨p', hpassed⟩ := ih hgoing hwaits' (by omega) htarget₁
          -- Before the jump not all was committed, or one does not stop at all.
          refine ⟨p', hpassed.after hcontinues (Nat.le_of_lt hlater) (all_lt_iff.mp hlimit) hcome fun hcase => hsame ?_⟩
          intro hthrough
          rcases hcase with hat | hnot
          · exact hstopped (hat h.alone hthrough)
          · exact hnot (Nat.le_trans hthrough hcontinues.committed)
        · rw [if_neg hlimit]
          rw [all_lt_iff] at hlimit
          by_cases hthrough : target ≤ p.journal.committed
          · exact ⟨p, .of_committed h hthrough⟩
          · have hahead : due ≤ p.moment target s.now := Journal.due_le_moment hhand hthrough s.now
            refine ⟨p, h, .refl p, Nat.le_refl _, .inl rfl, iff_of_false hthrough ?_, fun _ => rfl⟩
            rintro (hnow | hall)
            · omega
            · exact hlimit fun last hlast => Nat.lt_of_le_of_lt hahead (hall last hlast)

theorem wait (h : s.Going p) (hstop : StopsBehind stop target) (htarget : target ≤ p.journal.lastSeq)
    (limit : Option Nat) : ∃ p', Passed stop limit target s p (s.wait stop limit) p' := by
  obtain ⟨p₁, hgoing, hcontinues, hnow, hwaits, hle, -, hmoment⟩ := h.round
  obtain ⟨hsame, hthrough⟩ := hmoment target htarget
  have hfuel := h.alone.underway_le
  have hlast := hcontinues.lastSeq
  obtain ⟨p', hpassed⟩ := hgoing.run hstop limit s.outstanding (hnow ▸ hwaits) (by omega) (by omega)
  refine ⟨p', hpassed.going, hcontinues.trans hpassed.continues, hnow ▸ hpassed.le, hnow ▸ hpassed.before, ?_, ?_⟩
  · rw [hpassed.committed, hnow, hsame]
  · intro hcase
    have hsame' := hpassed.moment hcase
    rw [hnow, hsame] at hsame'
    exact hsame'

/-- Changes that are submitted while one waits wait behind that number, so that one waits as if there were none. -/
theorem waitAmid (hstop : StopsBehind stop target) (limit : Option Nat) (subs : List (Nat × Change)) :
    ∀ {s : Site} {p : Pipeline}, s.Going p → Timely s.now subs → target ≤ p.journal.lastSeq →
    ∃ p', Passed stop limit target s p (Site.waitAmid stop limit subs s) p' := by
  -- On the changes to come. Between two of them one waits as always, with the time of the next one for a limit.
  induction subs with
  | nil => exact fun h _ htarget => h.wait hstop htarget limit
  | cons sub rest ih =>
    obtain ⟨time, change⟩ := sub
    intro s p h hsubs htarget
    obtain ⟨hfrom, hrest⟩ : s.now ≤ time ∧ Timely time rest := List.isChain_cons_cons.mp hsubs
    unfold Site.waitAmid
    by_cases hlimit : limit.all (time < ·) = true
    · rw [if_pos hlimit]
      simp only
      obtain ⟨p₁, hwaited⟩ := h.wait hstop htarget (some time)
      generalize s.wait stop (some time) = s₁ at hwaited ⊢
      have hshort := all_lt_iff.mp hlimit
      have hbefore := hwaited.before
      have hcommitted := hwaited.committed
      simp only [Option.mem_def, Option.some.injEq, forall_eq'] at hbefore hcommitted
      by_cases hstopped : stop s₁ = true
      · -- Whatever else was to be submitted comes too late.
        rw [if_pos hstopped]
        have hthrough := hstop hwaited.going.alone hstopped
        refine ⟨p₁, hwaited.going, hwaited.continues, hwaited.le, ?_, iff_of_true hthrough ?_, hwaited.moment⟩
        · exact hbefore.imp_right fun hless last hlast => Nat.lt_trans hless (hshort last hlast)
        · exact (hcommitted.mp hthrough).imp_right fun hless last hlast => Nat.lt_trans hless (hshort last hlast)
      · rw [if_neg hstopped]
        obtain ⟨p₂, hgoing, hcontinues, hkept, hmoment⟩ := (hwaited.going.setNow time).submit change
        have hnow := now_submit { s₁ with now := time } change
        simp only at hnow
        generalize (Site.submit { s₁ with now := time } change).2 = s₂ at hgoing hnow ⊢
        have htarget₁ := Nat.le_trans htarget hwaited.continues.lastSeq
        obtain ⟨p', hpassed⟩ := ih hgoing (hnow ▸ hrest) (Nat.le_trans htarget₁ hcontinues.lastSeq)
        refine ⟨p', hpassed.after (hwaited.continues.trans hcontinues) ?_ ?_ ?_ ?_⟩
        · rw [hnow]
          exact hfrom
        · rw [hnow]
          exact hshort
        · rw [hkept, hcommitted, hnow]
          omega
        · intro hcase
          have hnot : ¬target ≤ p₁.journal.committed := by
            rcases hcase with hat | hnot
            · exact fun hthrough => hstopped (hat hwaited.going.alone hthrough)
            · exact hkept ▸ hnot
          -- The moment has not come when the change is submitted, so it is the same from then on.
          have hsame := hwaited.moment (.inr hnot)
          rw [hcommitted] at hnot
          have hahead : time ≤ p₁.moment target s₁.now := by omega
          rw [hmoment target htarget₁, hnow, ← hsame]
          exact Journal.moment_of_le (by omega) hahead
    · rw [if_neg hlimit]
      exact h.wait hstop htarget limit

end Going

theorem answer_collect (j : Journal) (b : Barrier) :
    (j.collect b).1 = Failure.answer (j.failures.filter fun f => f.seq ≤ b.target) := by
  simp only [Journal.collect]
  cases j.failures.filter fun f => f.seq ≤ b.target <;> rfl

theorem Alone.poll_of_unreached {s : Site} {p : Pipeline} (h : s.Alone p) {b : Barrier}
    (hunreached : p.journal.reached b = false) : s.poll s.current b = p.journal.patience.bind fun patience =>
      if b.since + patience.nanos ≤ s.now then some (.error (.flushTimeout patience), s) else none := by
  simp only [Site.poll, h.serviceAt, h.journal, Option.bind_some, hunreached, Bool.false_eq_true, if_false,
    Journal.deadline?]
  cases p.journal.patience <;> rfl

namespace Going
variable {s s' : Site} {p p' : Pipeline}

/-- Once the changes in front of it are committed, a barrier collects what was foreseen of them. -/
theorem collect (h : s.Going p) (h' : s'.Going p') (hcontinues : p.Continues p')
    (hthrough : p.journal.lastSeq ≤ p'.journal.committed) {b : Barrier} (hb : b.target = p.journal.lastSeq) :
    (p'.journal.collect b).1 = Failure.answer p.foreseen := by
  obtain ⟨more, hmore, hbehind⟩ := hcontinues.foreseen
  have hall : p.foreseen.filter (fun f => f.seq ≤ b.target) = p.foreseen := by
    rw [List.filter_eq_self]
    intro f hf
    rw [hb]
    exact decide_eq_true (h.foreseen f hf)
  have hlater : more.filter (fun f => f.seq ≤ b.target) = [] := by
    rw [List.filter_eq_nil_iff]
    intro f hf
    have hlt := (hbehind f hf).1
    simpa [hb] using hlt
  have hcome : ((p'.journal.awaiting.take p'.backend.failing).map Queued.refused).filter (fun f => f.seq ≤ b.target) = [] := by
    rw [List.filter_eq_nil_iff]
    intro f hf
    obtain ⟨item, hitem, rfl⟩ := List.mem_map.mp hf
    have hlt := h'.numbered.committed_lt (Journal.mem_underway_of_mem_awaiting (List.mem_of_mem_take hitem))
    have hle : p.journal.lastSeq < item.seq := Nat.lt_of_le_of_lt hthrough hlt
    simpa [hb, Queued.refused] using hle
  -- What was foreseen has been filed by now, in front of everything that is foreseen of later changes.
  have hfiled := congrArg (List.filter fun f : Failure => decide (f.seq ≤ b.target)) hmore
  rw [List.filter_append, hall, hlater, List.append_nil, Pipeline.foreseen, Journal.foreseen,
    Journal.unreported_of_rests h'.rests, List.filter_append, hcome, List.append_nil] at hfiled
  rw [answer_collect, hfiled]

end Going

/-- A flush that began at a site has ended as it had to. If it gave up, the writer goes on. -/
structure Ended (s : Site) (p : Pipeline) (b : Barrier) (answer : Except Error Unit × Site) : Prop where
  expected : (answer.1, answer.2.now) = p.journal.flushed b (p.moment b.target s.now) p.foreseen
  goes_on : ∀ limit, answer.1 = .error (.flushTimeout limit) → ∃ p', answer.2.Going p' ∧ p.Continues p'

namespace Ended
variable {s s' : Site} {p p' : Pipeline} {b : Barrier} {answer : Except Error Unit × Site}

theorem in_time (hanswer : (answer.1, answer.2.now) = (Failure.answer p.foreseen, p.moment b.target s.now))
    (htime : p.journal.reached b = true ∨
      ∀ patience ∈ p.journal.patience, p.moment b.target s.now < b.since + patience.nanos) : Ended s p b answer where
  expected := hanswer.trans (Journal.flushed_in_time p.foreseen htime).symm
  goes_on limit htimeout := by
    rw [Prod.mk.injEq] at hanswer
    exact absurd (hanswer.1.symm.trans htimeout) (Failure.answer_ne p.foreseen limit)

theorem too_late {patience : Span} (hpatience : p.journal.patience = some patience) (hunreached : p.journal.reached b = false)
    (hlate : b.since + patience.nanos ≤ p.moment b.target s.now) (hnow : s'.now = b.since + patience.nanos)
    (hgoing : s'.Going p') (hcontinues : p.Continues p') : Ended s p b (.error (.flushTimeout patience), s') where
  expected := by rw [Journal.flushed_too_late p.foreseen hpatience hunreached hlate, hnow]
  goes_on _ _ := ⟨p', hgoing, hcontinues⟩

end Ended

namespace Going
variable {s s' : Site} {p p' : Pipeline}

/-- A flush that has waited until its barrier was reached answers at the moment, with what was foreseen. -/
theorem complete (h : s.Going p) {b : Barrier} (hb : b.target = p.journal.lastSeq) {limit : Option Nat}
    (hpassed : Passed (isReached b) limit b.target s p s' p') (hthrough : b.target ≤ p'.journal.committed) :
    ∃ answer, s'.poll s'.current b = some answer ∧
      (answer.1, answer.2.now) = (Failure.answer p.foreseen, p.moment b.target s.now) := by
  have hcollect := h.collect hpassed.going hpassed.continues (hb ▸ hthrough) hb
  have hnow : (s'.complete s'.current p'.journal b).2.now = p.moment b.target s.now := by
    have hmoment := hpassed.moment (.inl (stopsAt_isReached b))
    rw [(hpassed.going.alone.complete b).2, ← hmoment]
    exact (Journal.moment_of_committed hthrough s'.now).symm
  refine ⟨_, hpassed.going.alone.poll_of_reached (decide_eq_true hthrough), ?_⟩
  rw [hnow]
  exact congrArg (·, _) hcollect

/-- A flush whose time is up before its barrier is reached gives up, and not before its time is up. -/
theorem giveUp (h : s.Going p) {b : Barrier} {patience : Span} (hpatience : p.journal.patience = some patience)
    (hunreached : ¬b.target ≤ p.journal.committed) (hearly : s.now < b.since + patience.nanos) :
    s.poll s.current b = none ∧
      ∃ s', { s with now := b.since + patience.nanos } = s' ∧ s'.Going p ∧
        s'.poll s'.current b = some (.error (.flushTimeout patience), s') := by
  have hreached : p.journal.reached b = false := decide_eq_false hunreached
  have hended := h.setNow (b.since + patience.nanos)
  refine ⟨?_, _, rfl, hended, ?_⟩
  · rw [h.alone.poll_of_unreached hreached, hpatience, Option.bind_some, if_neg (Nat.not_le_of_lt hearly)]
  · rw [hended.alone.poll_of_unreached hreached, hpatience, Option.bind_some, if_pos (Nat.le_refl _)]

/-- What a flush answers, and when, does not depend on what is submitted while it waits. -/
theorem flushAmid (h : s.Going p) {subs : List (Nat × Change)} (hsubs : Timely s.now subs) :
    Ended s p (p.journal.barrier s.now) (s.flushAmid subs) := by
  obtain ⟨b, hb⟩ : ∃ b, b = p.journal.barrier s.now := ⟨_, rfl⟩
  have htarget : b.target = p.journal.lastSeq := hb ▸ rfl
  have hsince : b.since = s.now := hb ▸ rfl
  have hle : s.now ≤ p.moment b.target s.now := Journal.le_moment s.now
  unfold Site.flushAmid
  rw [h.alone.journal]
  simp only
  rw [← hb]
  -- The barrier is reached at once, or one waits: without a limit, with no time at all, long enough, or in vain.
  by_cases hreached : p.journal.reached b = true
  · have hthrough : b.target ≤ p.journal.committed := of_decide_eq_true hreached
    have hpassed : Passed (isReached b) none b.target s p s p := .of_committed h hthrough
    obtain ⟨answer, hpoll, hanswer⟩ := h.complete htarget hpassed hthrough
    rw [hpoll]
    exact .in_time hanswer (.inl hreached)
  · rw [Bool.not_eq_true] at hreached
    rw [h.alone.poll_of_unreached hreached]
    obtain ⟨p', hpassed⟩ := h.waitAmid (stopsBehind_isReached b) (p.journal.deadline? b) subs hsubs (Nat.le_of_eq htarget)
    generalize Site.waitAmid (isReached b) (p.journal.deadline? b) subs s = s' at hpassed ⊢
    have hcommitted := hpassed.committed
    have hbefore := hpassed.before
    cases hpatience : p.journal.patience with
    | none =>
      have hdeadline : p.journal.deadline? b = none := by simp [Journal.deadline?, hpatience]
      have hthrough : b.target ≤ p'.journal.committed := hcommitted.mpr (.inr (by simp [hdeadline]))
      obtain ⟨answer, hpoll, hanswer⟩ := h.complete htarget hpassed hthrough
      simp only [Option.bind_none, hpoll]
      exact .in_time hanswer (.inr (by simp [hpatience]))
    | some patience =>
      have hdeadline : p.journal.deadline? b = some (b.since + patience.nanos) := by simp [Journal.deadline?, hpatience]
      simp only [hdeadline, Option.mem_def, Option.some.injEq, forall_eq'] at hcommitted hbefore
      by_cases hnow : b.since + patience.nanos ≤ s.now
      · simp only [Option.bind_some, if_pos hnow]
        exact .too_late hpatience hreached (Nat.le_trans hnow hle) (by omega) h (.refl p)
      · by_cases hthrough : b.target ≤ p'.journal.committed
        · obtain ⟨answer, hpoll, hanswer⟩ := h.complete htarget hpassed hthrough
          have htime : p.moment b.target s.now < b.since + patience.nanos := by
            have hmoment := hcommitted.mp hthrough
            omega
          simp only [Option.bind_some, if_neg hnow, hpoll]
          refine .in_time hanswer (.inr fun limit hlimit => ?_)
          rw [hpatience, Option.mem_def, Option.some.injEq] at hlimit
          exact hlimit ▸ htime
        · have hlate : b.since + patience.nanos ≤ p.moment b.target s.now := by
            rw [hcommitted] at hthrough
            omega
          have hpatience' : p'.journal.patience = some patience := hpassed.continues.patience.trans hpatience
          obtain ⟨hpoll, s'', hs'', hended, hpoll'⟩ := hpassed.going.giveUp hpatience' hthrough (by omega)
          simp only [Option.bind_some, if_neg hnow, hpoll, hdeadline, Option.getD_some, hs'', hpoll']
          exact .too_late hpatience hreached hlate (hs'' ▸ rfl) hended hpassed.continues

/-- Time passes; the changes up to a number are committed by then if their moment has come before. -/
theorem sleepAmid (h : s.Going p) {target : Nat} (htarget : target ≤ p.journal.lastSeq) {subs : List (Nat × Change)}
    (hsubs : Timely s.now subs) (later : Nat) :
    ∃ p', (s.sleepAmid subs later).Going p' ∧ p.Continues p' ∧
      (s.now < later → (target ≤ p'.journal.committed ↔ p.moment target s.now < later)) := by
  obtain ⟨p', hpassed⟩ := h.waitAmid (stopsBehind_never target) (some later) subs hsubs htarget
  refine ⟨p', hpassed.going.setNow later, hpassed.continues, fun hlater => ?_⟩
  have hcommitted := hpassed.committed
  simp only [Option.mem_def, Option.some.injEq, forall_eq'] at hcommitted
  rw [hcommitted]
  omega

end Going

/-- From one site to the other, one flushes again and again after some time, and gives up every time. -/
inductive Retried (s : Site) : Site → Prop
  | not_yet : Retried s s
  | again {s' : Site} {subs subs' : List (Nat × Change)} {later : Nat} {limit : Span} (h : Retried s s')
      (hsubs : Timely s'.now subs) (hlater : s'.now ≤ later) (hsubs' : Timely later subs')
      (htimeout : ((s'.sleepAmid subs later).flushAmid subs').1 = .error (.flushTimeout limit)) :
      Retried s ((s'.sleepAmid subs later).flushAmid subs').2

/-- Failures are kept for the flushes to come. A flush that does not give up tells of them, and of none besides but those of
changes behind that number; and when one has slept for long enough, a flush does so at once. -/
structure StillOwes (s : Site) (target : Nat) (failures : List Failure) : Prop where
  reports : ∀ (subs subs' : List (Nat × Change)) (later : Nat), Timely s.now subs → s.now ≤ later → Timely later subs' →
    (∃ limit, ((s.sleepAmid subs later).flushAmid subs').1 = .error (.flushTimeout limit)) ∨
    ∃ more, ((s.sleepAmid subs later).flushAmid subs').1 = Failure.answer (failures ++ more) ∧ ∀ f ∈ more, target < f.seq
  in_the_end : ∃ enough, ∀ later > enough, (s.sleepAmid [] later).flush.2.now = later ∧
    ∃ more, (s.sleepAmid [] later).flush.1 = Failure.answer (failures ++ more) ∧ ∀ f ∈ more, target < f.seq

namespace Going
variable {s s' : Site} {p p' : Pipeline}

/-- However often a flush gives up, the writer goes on and no failure is taken. -/
theorem retried (h : s.Going p) (hretried : s.Retried s') : ∃ p', s'.Going p' ∧ p.Continues p' := by
  induction hretried with
  | not_yet => exact ⟨p, h, .refl p⟩
  | @again s' subs subs' later limit _ hsubs _ hsubs' htimeout ih =>
    obtain ⟨p₁, hgoing, hcontinues⟩ := ih
    obtain ⟨p₂, hslept, hcontinues', -⟩ := hgoing.sleepAmid (Nat.zero_le _) hsubs later
    obtain ⟨p₃, hended, hcontinues''⟩ := (hslept.flushAmid hsubs').goes_on limit htimeout
    exact ⟨p₃, hended, (hcontinues.trans hcontinues').trans hcontinues''⟩

theorem stillOwes {first : Pipeline} (h : s.Going p) (hsince : first.Continues p) :
    s.StillOwes first.journal.lastSeq first.foreseen where
  reports := by
    intro subs subs' later hsubs _ hsubs'
    obtain ⟨p', hslept, hcontinues, -⟩ := h.sleepAmid (Nat.zero_le _) hsubs later
    obtain ⟨more, hmore, hbehind⟩ := (hsince.trans hcontinues).foreseen
    have hanswer := congrArg Prod.fst (hslept.flushAmid hsubs').expected
    rcases Journal.flushed_cases p'.journal (p'.journal.barrier later) (p'.moment p'.journal.lastSeq later) p'.foreseen with
      ⟨limit, htimeout⟩ | htold
    · exact .inl ⟨limit, hanswer.trans htimeout⟩
    · refine .inr ⟨more, hanswer.trans (htold.trans ?_), fun f hf => (hbehind f hf).1⟩
      rw [hmore]
  in_the_end := by
    refine ⟨max s.now (p.moment p.journal.lastSeq s.now), fun later hlater => ?_⟩
    have hnone (now : Nat) : Timely now [] := List.IsChain.singleton now
    obtain ⟨p', hslept, hcontinues, hcommitted⟩ := h.sleepAmid (Nat.le_refl _) (hnone s.now) later
    obtain ⟨more, hmore, hbehind⟩ := (hsince.trans hcontinues).foreseen
    -- Nothing was submitted, so the new barrier is in front of no other changes.
    have hlast : p'.journal.lastSeq = p.journal.lastSeq := by
      obtain ⟨steps, halone, -⟩ := h.alone.wait h.rests (fun _ => false) (some later)
      rw [hslept.alone.unique (halone.setNow later), Pipeline.lastSeq_work]
    have hthrough : p'.journal.lastSeq ≤ p'.journal.committed := by
      rw [hlast, hcommitted (by omega)]
      omega
    have hreached : p'.journal.reached (p'.journal.barrier later) = true := decide_eq_true hthrough
    have hmoment : p'.moment p'.journal.lastSeq later = later := Journal.moment_of_committed hthrough later
    have hflush : ((s.sleepAmid [] later).flush.1, (s.sleepAmid [] later).flush.2.now) =
        (Failure.answer p'.foreseen, later) := by
      have hended := (hslept.flushAmid (hnone later)).expected
      rw [flushAmid_nil] at hended
      refine hended.trans ?_
      show p'.journal.flushed (p'.journal.barrier later) (p'.moment p'.journal.lastSeq later) p'.foreseen = _
      rw [Journal.flushed_in_time p'.foreseen (.inl hreached), hmoment]
    rw [Prod.mk.injEq] at hflush
    exact ⟨hflush.2, more, by rw [hflush.1, hmore], fun f hf => (hbehind f hf).1⟩

end Going
end Site

namespace Diary
open Site

/-- In a diary the writer works along unless it was stopped. -/
theorem Tells.going {first : Backend} {d : Diary} {t : Trace} {p : Pipeline} (h : Tells first d t p)
    (hkept : p.journal.cancelled = true → p.journal.accepting = false) : d.site.Going p := by
  refine ⟨h.alone, h.rests, h.traced.numbered, ?_, hkept, h.closed⟩
  -- Every failure is about a change that was submitted.
  have hnumber : ∀ item ∈ d.submitted, item.seq ≤ p.journal.lastSeq := by
    intro item hitem
    have hmem : item.seq ∈ d.submitted.map (·.seq) := List.mem_map_of_mem hitem
    rw [h.traced.seqs, List.mem_range'_1] at hmem
    omega
  rw [h.traced.order] at hnumber
  intro f hf
  rcases List.mem_append.mp hf with hfiled | hcome
  · obtain ⟨item, hitem, hseq⟩ := h.traced.known f (List.mem_append_right _ hfiled)
    rw [hseq]
    exact hnumber item (List.mem_append_left _ hitem)
  · obtain ⟨item, hitem, rfl⟩ := List.mem_map.mp hcome
    exact hnumber item (List.mem_append_right _ (List.mem_of_mem_take hitem))

/-- A flush waits for the changes in front of its barrier and for no others. Whatever was done with a journal before, there is
a moment at which these are committed, whatever is submitted meanwhile; a flush ends at that moment or, if that is too late
for it, when its time is up. What it answers then was settled when it fixed its barrier. If it gives up, failures are kept for
later flushes. -/
theorem flush_waits_for_its_own_changes (now : Nat) (streams : Streams) (backend : Backend) (config : Config)
    (origin : Origin) (publisher : Publisher) (acts : List Act) :
    let d := (start now streams backend config origin publisher).after acts
    let b := d.journal.barrier d.site.now
    let failures := d.journal.foreseen d.site.backend
    d.site.service.store.journal = some d.journal ∧
    d.site.flushAmid [] = d.site.flush ∧
    (∀ subs subs', Timely d.site.now subs → Timely d.site.now subs' →
      (d.site.flushAmid subs).1 = (d.site.flushAmid subs').1 ∧
      (d.site.flushAmid subs).2.now = (d.site.flushAmid subs').2.now) ∧
    ∃ moment, d.site.now ≤ moment ∧
      (∀ subs later, Timely d.site.now subs → d.site.now < later →
        (isReached b (d.site.sleepAmid subs later) = true ↔ moment < later)) ∧
      ∀ subs, Timely d.site.now subs →
        ((d.site.flushAmid subs).1, (d.site.flushAmid subs).2.now) = d.journal.flushed b moment failures ∧
        ∀ limit s', (d.site.flushAmid subs).1 = .error (.flushTimeout limit) → (d.site.flushAmid subs).2.Retried s' →
          s'.StillOwes b.target failures := by
  intro d b failures
  obtain ⟨p₀, hstart, hkept⟩ := tells_start now streams backend config origin publisher
  obtain ⟨t, p, htells, hleads⟩ := hstart.after acts
  -- Only an abort cancels the writer, and an abort closes the journal.
  have hgoing : d.site.Going p := by
    refine htells.going fun hcancelled => ?_
    by_cases habort : .abort ∈ acts
    · exact hleads.stops (.inr habort)
    · rw [hleads.kept habort, hkept] at hcancelled
      exact absurd hcancelled (by simp)
  obtain ⟨hjournal, hj⟩ := htells.journal
  have hforeseen : failures = p.foreseen := by
    show d.journal.foreseen d.site.backend = _
    rw [hj, htells.alone.backend]
    rfl
  have htarget : b.target = p.journal.lastSeq := congrArg Journal.lastSeq hj
  -- What is submitted meanwhile does not occur on the right.
  have hflushed {subs : List (Nat × Change)} (hsubs : Timely d.site.now subs) :
      ((d.site.flushAmid subs).1, (d.site.flushAmid subs).2.now) =
        d.journal.flushed b (p.moment b.target d.site.now) failures := by
    rw [hforeseen, htarget]
    show _ = d.journal.flushed (d.journal.barrier d.site.now) _ _
    rw [hj]
    exact (hgoing.flushAmid hsubs).expected
  refine ⟨hjournal, rfl, ?_, p.moment b.target d.site.now, Journal.le_moment _, ?_, ?_⟩
  · intro subs subs' hsubs hsubs'
    exact Prod.mk.inj ((hflushed hsubs).trans (hflushed hsubs').symm)
  · intro subs later hsubs hlater
    obtain ⟨p', hslept, -, hcommitted⟩ := hgoing.sleepAmid (Nat.le_of_eq htarget) hsubs later
    rw [isReached_iff hslept.alone]
    exact hcommitted hlater
  · intro subs hsubs
    refine ⟨hflushed hsubs, fun limit s' htimeout hretried => ?_⟩
    obtain ⟨p', hended, hcontinues⟩ := (hgoing.flushAmid hsubs).goes_on limit htimeout
    obtain ⟨p'', hstill, hcontinues'⟩ := hended.retried hretried
    rw [htarget, hforeseen]
    exact hstill.stillOwes (hcontinues.trans hcontinues')

/-- Each change takes fifty, and the first one is refused. A flush behind that one is through while two others wait. -/
example :
    let d := (start 0 {} { latency := ⟨50⟩, failing := 1 } {} {} .nobody).after [.submit (.remove (.ofUri "/first"))]
    let ended := d.site.flushAmid [(10, .remove (.ofUri "/second")), (20, .remove (.ofUri "/third"))]
    ended.1.isOk = false ∧ ended.2.now = 50 ∧ ended.2.service.store.journal.map (·.pending) = some 2 := by decide

end Diary
end ResponseCache
