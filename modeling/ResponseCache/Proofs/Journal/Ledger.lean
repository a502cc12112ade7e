import Mathlib.Algebra.GroupWithZero.Nat
import ResponseCache.Proofs.Journal.Fate
/-!
The accounts of a journal. Every change that is taken in ends accepted or failed, and is counted as it ends. Every failure is
in the list of the journal or with the one flush that returned it, so that the counters, the committed number and what flushes
have returned always agree.
-/
namespace ResponseCache

/-- Whether nothing has become yet of what is in hand. -/
def Hand.rests : Hand → Bool
  | empty | working _ _ => true
  | settled _ _ | filed _ => false

/-- The number of accepted changes in hand that are not counted yet. -/
@[simp] def Hand.uncounted : Hand → Nat
  | settled _ none => 1
  | _ => 0

/-- The number of failures that a flush has told of. -/
def Flush.count (f : Flush) : Nat :=
  match f.progress with
  | .returned (.error (.flushFailed n _)) _ => n
  | _ => 0

theorem Journal.awaiting_of_rests {j : Journal} (h : j.hand.rests = true) : j.awaiting = j.underway := by
  unfold awaiting underway
  cases hhand : j.hand with
  | empty | working item due => rfl
  | settled item failure | filed item => simp [hhand, Hand.rests] at h

theorem Hand.of_rests {hand : Hand} (h : hand.rests = true) : hand.unfiled? = none ∧ hand.uncounted = 0 := by
  cases hand with
  | empty | working item due => exact ⟨rfl, rfl⟩
  | settled item failure | filed item => exact absurd h (by simp [Hand.rests])

namespace Pipeline

/-- No change is accepted and fails. -/
theorem accepted?_or_failure? (p : Pipeline) (step : WriterStep) : p.accepted? step = none ∨ p.failure? step = none := by
  cases step with
  | take | file | publish => exact .inl rfl
  | apply =>
    cases hhand : p.journal.hand with
    | working item due =>
      cases happly : (p.backend.apply item.change).1 with
      | ok found => exact .inr (by simp only [failure?, hhand, happly])
      | error e => exact .inl (by simp only [accepted?, hhand, happly])
    | empty | settled item failure | filed item => exact .inl (by simp only [accepted?, hhand])

theorem counters_apply (p : Pipeline) : p.apply.monitor.counters = p.monitor.counters := by
  cases hhand : p.journal.hand with
  | working item due =>
    cases happly : (p.backend.apply item.change).1 <;> simp [apply, hhand, happly, Monitor.note]
  | empty | settled item failure | filed item => simp [apply, hhand]

/-- A step of the writer counts the failures that it files, and the accepted changes that it has done with. -/
theorem counters_step (p : Pipeline) (step : WriterStep) :
    (p.step step).monitor.counters.persistenceFailures + p.journal.failures.length =
        p.monitor.counters.persistenceFailures + (p.step step).journal.failures.length ∧
      (p.step step).monitor.counters.persistedOps + (p.step step).journal.hand.uncounted =
        p.monitor.counters.persistedOps + p.journal.hand.uncounted + (p.accepted? step).toList.length := by
  -- Only filing counts. A change that was accepted is in hand until then, uncounted.
  cases step with
  | take =>
    have hmonitor : (p.step .take).monitor = p.monitor := rfl
    have hstage := p.stage_take
    rw [hmonitor]
    generalize hp' : p.step .take = p'
    have hsame : p.take = p' := hp'
    rw [hsame] at hstage
    cases hstage with
    | idle => exact ⟨rfl, rfl⟩
    | started item rest due hhand hqueue hkept => exact ⟨rfl, by simp [hhand, accepted?]⟩
    | dropped item rest hhand hqueue hcancelled => exact ⟨rfl, by simp [hhand, accepted?]⟩
  | apply =>
    have hcounters := p.counters_apply
    have hstage := p.stage_apply
    show p.apply.monitor.counters.persistenceFailures + _ = _ + p.apply.journal.failures.length ∧
      p.apply.monitor.counters.persistedOps + p.apply.journal.hand.uncounted = _
    rw [hcounters]
    generalize p.apply = p' at hstage
    cases hstage with
    | idle _ haccepted => exact ⟨rfl, by simp [haccepted]⟩
    | applied item due answer backend hhand happly => exact ⟨rfl, by simp [hhand, accepted?, happly]⟩
    | failed item due e backend monitor hhand happly => exact ⟨rfl, by simp [hhand, accepted?, happly]⟩
  | file =>
    show p.file.monitor.counters.persistenceFailures + _ = _ + p.file.journal.failures.length ∧
      p.file.monitor.counters.persistedOps + p.file.journal.hand.uncounted = _
    cases hhand : p.journal.hand with
    | settled item failure =>
      cases failure with
      | none => simp [file, Journal.file, hhand, Monitor.count, Counters.countPersisted, accepted?]
      | some reason =>
        simp only [file, Journal.file, hhand, Monitor.count, Counters.countFailure, accepted?, List.length_append,
          List.length_singleton, Hand.uncounted, Option.toList_none, List.length_nil, Nat.add_zero, and_true]
        omega
    | empty | working item due | filed item => simp [file, hhand, accepted?]
  | publish =>
    show p.monitor.counters.persistenceFailures + _ = _ + p.publish.journal.failures.length ∧
      p.monitor.counters.persistedOps + p.publish.journal.hand.uncounted = _
    have hstage := p.stage_publish
    generalize p.publish = p' at hstage
    cases hstage with
    | idle => exact ⟨rfl, rfl⟩
    | published item hhand => exact ⟨rfl, by simp [hhand, accepted?]⟩

/-- Once it has filed and published, the writer has nothing in hand that is only half done. -/
theorem rests_publish_file (p : Pipeline) : p.file.publish.journal.hand.rests = true := by
  cases hhand : p.journal.hand with
  | settled item failure => cases failure <;> simp [file, publish, Journal.file, Journal.publish, hhand, Hand.rests]
  | empty | working item due | filed item => simp [file, publish, Journal.publish, hhand, Hand.rests]

end Pipeline

namespace Watch
variable {w : Watch}

/-- A flush that goes on adds what it takes to what is reported. -/
theorem perm_reported_setProgress {i : Nat} {f : Flush} (hf : w.flushes[i]? = some f) (hold : f.taken = []) (b : Barrier)
    (progress : Progress) :
    (w.setProgress i b progress).reported.Perm (w.reported ++ (⟨b, progress⟩ : Flush).taken) := by
  obtain ⟨hlt, hget⟩ := List.getElem?_eq_some_iff.mp hf
  have hsplit : w.flushes = w.flushes.take i ++ f :: w.flushes.drop (i + 1) := by
    rw [← hget, List.getElem_cons_drop, List.take_append_drop]
  have hset : w.flushes.set i ⟨b, progress⟩ = w.flushes.take i ++ ⟨b, progress⟩ :: w.flushes.drop (i + 1) := by
    rw [List.set_eq_take_append_cons_drop, if_pos hlt]
  have hbefore : w.reported = (w.flushes.take i).flatMap (·.taken) ++ (w.flushes.drop (i + 1)).flatMap (·.taken) := by
    unfold reported
    rw [hsplit, List.flatMap_append, List.flatMap_cons, hold, List.nil_append, ← hsplit]
  have hafter : (w.setProgress i b progress).reported = (w.flushes.take i).flatMap (·.taken) ++
      ((⟨b, progress⟩ : Flush).taken ++ (w.flushes.drop (i + 1)).flatMap (·.taken)) := by
    unfold reported setProgress
    rw [hset, List.flatMap_append, List.flatMap_cons]
  rw [hafter, hbefore, List.append_assoc]
  exact List.Perm.append_left _ List.perm_append_comm

/-- What was submitted is accounted for: every change is underway, accepted or failed, and every failure is reported, in the
list of the journal or in hand. The counters count what is done, and flushes tell the numbers of failures that they take. -/
structure Balanced (w : Watch) : Prop where
  valid : w.Valid
  settled : w.applied.length + w.failed.length + w.journal.awaiting.length = w.journal.lastSeq
  failures : (w.reported ++ (w.journal.failures ++ w.journal.hand.unfiled?.toList)).Perm w.failed
  told : ∀ f ∈ w.flushes, f.count = f.taken.length
  failing : w.pipeline.monitor.counters.persistenceFailures = w.reported.length + w.journal.failures.length
  persisted : w.pipeline.monitor.counters.persistedOps + w.journal.hand.uncounted = w.applied.length

theorem balanced_start (patience : Option Span) (warnAbove : Nat) (backend : Backend) :
    (start patience warnAbove backend {}).Balanced where
  valid := valid_start patience warnAbove backend {}
  settled := rfl
  failures := .nil
  told := by simp [start]
  failing := rfl
  persisted := rfl

namespace Balanced

theorem write (h : w.Balanced) (step : WriterStep) : (w.step (.write step)).Balanced := by
  have hvalid := h.valid.write step
  have hstage := w.pipeline.stage step
  obtain ⟨hfailing, hpersisted⟩ := w.pipeline.counters_step step
  have hone := w.pipeline.accepted?_or_failure? step
  have hcases := hstage.passes_or_settles h.valid.numbered
  have hsettled := h.settled
  have hfailures := h.failures
  have hfailed := h.failing
  have hcounted := h.persisted
  simp only [Watch.step, journal] at hvalid hsettled hfailures hfailed hcounted ⊢
  generalize w.pipeline.step step = p' at hvalid hstage hfailing hpersisted hcases ⊢
  -- Either the step ends no change, or it ends the first of those on their way.
  rcases hcases with ⟨haccepted, hfailure, hpasses⟩ | ⟨item, hsettles⟩
  · rw [haccepted, Option.toList_none, List.length_nil] at hpersisted
    refine ⟨hvalid, ?_, ?_, h.told, ?_, ?_⟩ <;>
      simp only [journal, haccepted, hfailure, Option.toList_none, List.append_nil, hpasses.awaiting, hpasses.lastSeq]
    · exact hsettled
    · exact hpasses.failures ▸ hfailures
    · show _ = w.reported.length + _
      omega
    · omega
  · refine ⟨hvalid, ?_, ?_, h.told, ?_, ?_⟩
    · -- One change fewer waits, and just one of the two records has grown.
      have hlength := congrArg List.length hsettles.awaiting
      have hends : (w.pipeline.accepted? step).toList.length + (w.pipeline.failure? step).toList.length = 1 := by
        rcases hsettles.fate with haccepted | ⟨f, hfailure⟩
        · rw [haccepted, hone.resolve_left (by simp [haccepted])]
          rfl
        · rw [hfailure, hone.resolve_right (by simp [hfailure])]
          rfl
      simp only [List.length_cons] at hlength
      simp only [journal, List.length_append, hsettles.lastSeq]
      omega
    · simp only [journal, hsettles.failures, hsettles.hand]
      rw [hsettles.unfiled, Option.toList_none, List.append_nil] at hfailures
      rw [← List.append_assoc]
      exact hfailures.append_right _
    · show p'.monitor.counters.persistenceFailures = w.reported.length + p'.journal.failures.length
      omega
    · simp only [journal, List.length_append]
      omega

theorem take (h : w.Balanced) (now : Nat) (change : Change) : (w.take now change).Balanced := by
  refine ⟨h.valid.take now change, ?_, h.failures, h.told, h.failing, h.persisted⟩
  have hawaiting := congrArg List.length (w.journal.awaiting_push now change)
  have hsettled := h.settled
  rw [List.length_append, List.length_singleton] at hawaiting
  show w.applied.length + w.failed.length + (w.journal.push now change).awaiting.length = w.journal.lastSeq + 1
  omega

/-- A flush that goes on takes failures out of the journal, and tells of as many. -/
theorem proceed (h : w.Balanced) {i : Nat} {f : Flush} (hf : w.flushes[i]? = some f) (hold : f.taken = []) (b : Barrier)
    {progress : Progress} {failures : List Failure}
    (hvalid : ((w.setJournal { w.journal with failures }).setProgress i b progress).Valid)
    (hsplit : ((⟨b, progress⟩ : Flush).taken ++ failures).Perm w.journal.failures)
    (hcount : (⟨b, progress⟩ : Flush).count = (⟨b, progress⟩ : Flush).taken.length) :
    ((w.setJournal { w.journal with failures }).setProgress i b progress).Balanced := by
  have hreported : ((w.setJournal { w.journal with failures }).setProgress i b progress).reported.Perm
      (w.reported ++ (⟨b, progress⟩ : Flush).taken) :=
    perm_reported_setProgress (w := w.setJournal { w.journal with failures }) hf hold b progress
  refine ⟨hvalid, h.settled, ?_, ?_, ?_, h.persisted⟩
  · have hleft := hsplit.append_right w.journal.hand.unfiled?.toList
    rw [List.append_assoc] at hleft
    refine (hreported.append_right _).trans ?_
    rw [List.append_assoc]
    exact (hleft.append_left _).trans h.failures
  · intro g hg
    rcases List.mem_or_eq_of_mem_set hg with hmem | heq
    · exact h.told g hmem
    · rw [heq]
      exact hcount
  · have htotal := hreported.length_eq
    have hparts := hsplit.length_eq
    have hfailing := h.failing
    rw [List.length_append] at htotal hparts
    show w.pipeline.monitor.counters.persistenceFailures = _ + failures.length
    omega

theorem collect (h : w.Balanced) {i : Nat} {b : Barrier} (hf : w.flushes[i]? = some ⟨b, .woken⟩) :
    (w.complete i b (w.journal.collect b).1 (w.journal.collect b).2).Balanced := by
  have hvalid := h.valid.collect hf (w.journal.collect b).1
  have htaken := Valid.taken_collect w b
  unfold complete at hvalid ⊢
  rw [htaken] at hvalid ⊢
  have hsplit := List.filter_append_perm (fun f : Failure => decide (f.seq ≤ b.target)) w.journal.failures
  refine h.proceed hf rfl b hvalid hsplit ?_
  simp only [Flush.count, Flush.taken, Journal.collect]
  cases w.journal.failures.filter fun f => f.seq ≤ b.target with
  | nil => rfl
  | cons first rest => rfl

theorem giveUp (h : w.Balanced) {i : Nat} {b : Barrier} (hf : w.flushes[i]? = some ⟨b, .waiting⟩) (patience : Span) :
    (w.complete i b (.error (.flushTimeout patience)) w.journal).Balanced := by
  have hvalid := h.valid.giveUp hf (.error (.flushTimeout patience))
  have hnone : w.journal.failures.filter (fun f => f ∉ w.journal.failures) = [] := by
    rw [List.filter_eq_nil_iff]
    intro f hmem
    simpa using hmem
  unfold complete at hvalid ⊢
  rw [hnone] at hvalid ⊢
  exact h.proceed hf rfl b hvalid (.refl _) rfl

theorem begin (h : w.Balanced) (b : Barrier) : Balanced { w with flushes := w.flushes ++ [⟨b, .waiting⟩] } := by
  have hreported : Watch.reported { w with flushes := w.flushes ++ [⟨b, .waiting⟩] } = w.reported := by
    simp [Watch.reported, Flush.taken]
  refine ⟨h.valid.begin b, h.settled, hreported ▸ h.failures, ?_, hreported ▸ h.failing, h.persisted⟩
  intro f hf
  rcases List.mem_append.mp hf with hold | hnew
  · exact h.told f hold
  · rw [List.mem_singleton.mp hnew]
    rfl

theorem step (h : w.Balanced) (m : Move) : (w.step m).Balanced := by
  have hcomes := w.comes m
  have hvalid := h.valid.step m
  generalize w.step m = w' at hcomes hvalid ⊢
  cases hcomes with
  | nothing => exact h
  | submitted now change => exact h.take now change
  | written step => exact h.write step
  | disturbed | closed | cancelled => exact ⟨hvalid, h.settled, h.failures, h.told, h.failing, h.persisted⟩
  | begun now => exact h.begin (w.journal.barrier now)
  | woken i b hf hreached => exact h.proceed hf rfl b hvalid (.refl _) rfl
  | collected i b hf => exact h.collect hf
  | givenUp i now b patience hf => exact h.giveUp hf patience

theorem run (moves : List Move) : ∀ {w : Watch}, w.Balanced → (w.run moves).Balanced := by
  induction moves with
  | nil => exact fun h => h
  | cons m rest ih => exact fun h => ih (h.step m)

end Balanced

/-- What happens to a journal from one moment to the next at which somebody may look: the steps in which the writer ends a
change come without a pause. -/
inductive Act
  | submit (now : Nat) (change : Change)
  /-- The writer turns to the next change, and is done with it at once when the journal is cancelled. -/
  | turn
  /-- The backend is done with the change in hand, and so is the writer. -/
  | finish
  | disturb (backend : Backend)
  | close
  | cancel
  | begin (now : Nat)
  | wake (i : Nat)
  | collect (i : Nat)
  | giveUp (i now : Nat)

def Act.moves : Act → List Move
  | .submit now change => [.submit now change]
  | .turn => [.write .take, .write .file, .write .publish]
  | .finish => [.write .apply, .write .file, .write .publish]
  | .disturb backend => [.disturb backend]
  | .close => [.close]
  | .cancel => [.cancel]
  | .begin now => [.begin now]
  | .wake i => [.wake i]
  | .collect i => [.collect i]
  | .giveUp i now => [.giveUp i now]

/-- The watch after some acts. -/
def after (w : Watch) (acts : List Act) : Watch := w.run (acts.flatMap Act.moves)

/-- Only the writer changes what is in hand and what is committed. -/
theorem step_of_ne_write (w : Watch) {m : Move} (hm : ∀ step, m ≠ .write step) :
    (w.step m).journal.hand = w.journal.hand ∧ (w.step m).journal.committed = w.journal.committed := by
  have hcomes := w.comes m
  generalize w.step m = w' at hcomes ⊢
  cases hcomes with
  | written step => exact absurd rfl (hm step)
  | nothing | submitted | disturbed | closed | cancelled | begun | woken | collected | givenUp => exact ⟨rfl, rfl⟩

theorem rests_act (h : w.journal.hand.rests = true) (a : Act) : (w.run a.moves).journal.hand.rests = true := by
  have hsame (m : Move) (hm : ∀ step, m ≠ .write step) : (w.run [m]).journal.hand.rests = true := by
    show (w.step m).journal.hand.rests = true
    rw [(w.step_of_ne_write hm).1]
    exact h
  cases a with
  | turn => exact Pipeline.rests_publish_file w.pipeline.take
  | finish => exact Pipeline.rests_publish_file w.pipeline.apply
  | submit | disturb | close | cancel | begin | wake | collect | giveUp => exact hsame _ (by simp)

theorem rests_after (acts : List Act) : ∀ {w : Watch}, w.journal.hand.rests = true →
    (w.after acts).journal.hand.rests = true := by
  induction acts with
  | nil => exact fun h => h
  | cons a rest ih =>
    intro w h
    have hrest := ih (rests_act h a)
    unfold after run at hrest ⊢
    rwa [List.flatMap_cons, List.foldl_append]

theorem committed_le_step (hw : w.Valid) (m : Move) : w.journal.committed ≤ (w.step m).journal.committed := by
  cases m with
  | write step =>
    rcases (w.pipeline.stage step).passes_or_settles hw.numbered with ⟨-, -, hpasses⟩ | ⟨item, hsettles⟩
    · exact hpasses.committed
    · exact Nat.le_of_eq hsettles.committed.symm
  | submit | disturb | close | cancel | begin | wake | collect | giveUp =>
    exact Nat.le_of_eq (w.step_of_ne_write (by simp)).2.symm

theorem committed_le_run (moves : List Move) : ∀ {w : Watch}, w.Valid →
    w.journal.committed ≤ (w.run moves).journal.committed := by
  induction moves with
  | nil => exact fun _ => Nat.le_refl _
  | cons m rest ih => exact fun hw => Nat.le_trans (committed_le_step hw m) (ih (hw.step m))

/-- A flush that goes on after its barrier was reached returns with the failures up to its barrier, and the others stay. -/
theorem after_collect {i : Nat} {b : Barrier} (hf : w.flushes[i]? = some ⟨b, .woken⟩) :
    (w.after [.collect i]).flushes[i]? = some ⟨b, .returned (w.journal.collect b).1
      (w.journal.failures.filter fun f => f.seq ≤ b.target)⟩ ∧
    (w.after [.collect i]).journal.failures = w.journal.failures.filter fun f => b.target < f.seq := by
  have hstep : w.after [.collect i] = w.complete i b (w.journal.collect b).1 (w.journal.collect b).2 := by
    show w.step (.collect i) = _
    simp only [step, hf]
  rw [hstep]
  constructor
  · rw [getElem?_complete hf, if_pos rfl, Valid.taken_collect]
  · refine List.filter_congr fun f _ => ?_
    rw [← decide_not, decide_eq_decide]
    exact Nat.not_le

/-- The accounts of a journal. Changes have the numbers from one on, in the order in which they were submitted. The committed
number only grows, up to the last one given out, and it is the number of changes that the writer has ended. The counters of
accepted changes and of failures add up to it, and what is pending is the rest. All failures that were counted were told by
flushes or are waiting, those that wait have committed numbers, and a failure is told of once. A flush whose barrier was
reached returns with the failures up to its barrier that still wait, it tells how many they are, and no others leave. -/
theorem accounts_balance (patience : Option Span) (warnAbove : Nat) (backend : Backend) (acts : List Act) :
    let w := (start patience warnAbove backend {}).after acts
    let counters := w.pipeline.monitor.counters
    w.submitted.map (·.seq) = List.range' 1 w.journal.lastSeq ∧
    (∀ more, w.journal.committed ≤ (w.after more).journal.committed) ∧
    w.journal.committed ≤ w.journal.lastSeq ∧
    w.journal.committed = w.applied.length + w.failed.length ∧
    (∀ item ∈ w.submitted, item.seq ≤ w.journal.committed →
      item ∈ w.applied ∨ ∃ f ∈ w.failed, f.seq = item.seq) ∧
    counters.persistedOps + counters.persistenceFailures = w.journal.committed ∧
    w.journal.pending = w.journal.lastSeq - w.journal.committed ∧
    counters.persistenceFailures = (w.flushes.map Flush.count).sum + w.journal.failures.length ∧
    (∀ f ∈ w.journal.failures, f.seq ≤ w.journal.committed) ∧
    (w.reported ++ w.journal.failures).Perm w.failed ∧ (w.failed.map (·.seq)).Nodup ∧
    ∀ (i : Nat) (b : Barrier), w.flushes[i]? = some ⟨b, .woken⟩ →
      let taken := w.journal.failures.filter fun f => f.seq ≤ b.target
      let answer := match taken with
        | [] => .ok ()
        | first :: _ => .error (.flushFailed taken.length first.reason)
      (w.after [.collect i]).flushes[i]? = some ⟨b, .returned answer taken⟩ ∧
      (w.after [.collect i]).journal.failures = w.journal.failures.filter fun f => b.target < f.seq := by
  intro w counters
  have hw : w.Balanced := (balanced_start patience warnAbove backend).run _
  -- Between acts the writer has nothing half done: what is on its way is what is pending.
  have hrests : w.journal.hand.rests = true := rests_after acts rfl
  obtain ⟨hunfiled, huncounted⟩ := Hand.of_rests hrests
  have hlength : w.journal.awaiting.length = w.journal.lastSeq - w.journal.committed := by
    rw [Journal.awaiting_of_rests hrests]
    exact hw.valid.numbered.length_underway
  have hle := hw.valid.numbered.le
  have hsettled := hw.settled
  have hperm : (w.reported ++ w.journal.failures).Perm w.failed := by
    have hfailures := hw.failures
    rwa [hunfiled, Option.toList_none, List.append_nil] at hfailures
  have hfailed := hperm.length_eq
  have hfailing := hw.failing
  have hpersisted := hw.persisted
  rw [List.length_append] at hfailed
  refine ⟨hw.valid.seqs, fun more => committed_le_run _ hw.valid, hle, by omega, ?_, ?_, rfl, ?_, ?_, hperm, ?_,
    fun i b hf => after_collect hf⟩
  · intro item hitem hcommitted
    refine (hw.valid.fate item hitem).resolve_left fun hwaits => ?_
    have hlt := hw.valid.numbered.committed_lt (Journal.mem_underway_of_mem_awaiting hwaits)
    omega
  · show w.pipeline.monitor.counters.persistedOps + w.pipeline.monitor.counters.persistenceFailures = _
    omega
  · have hcounts : w.flushes.map Flush.count = w.flushes.map fun f => f.taken.length :=
      List.map_congr_left hw.told
    rw [hcounts, ← List.length_flatMap]
    exact hfailing
  · intro f hf
    have hbehind := hw.valid.behind f (hperm.subset (List.mem_append_right _ hf))
    omega
  · exact List.pairwise_map.mpr (hw.valid.sorted.imp Nat.ne_of_lt)

end Watch
end ResponseCache
