import Mathlib.Data.List.Induction
import ResponseCache.Proofs.Backend
import ResponseCache.Proofs.Journal.Turn

namespace ResponseCache

/-- The reason that the writer files when the backend refuses a change. -/
def Change.refusal (change : Change) : String :=
  change.key.display ++ ": " ++
    (Error.persistence ("injected " ++ change.verb ++ " failure for " ++ change.key.display)).message

/-- The failure that the writer files when it drops a change. -/
def Queued.aborted (item : Queued) : Failure := ⟨item.seq, "aborted before persistence"⟩

/-- A refusal does not read like a change that was dropped. -/
theorem Change.refusal_ne (change : Change) : change.refusal ≠ "aborted before persistence" := by
  intro h
  have hcolon : ':' ∈ change.refusal.toList := by simp [refusal]
  rw [h] at hcolon
  exact absurd hcolon (by decide)

/-- After some changes a key shows the last of those that are about it. -/
theorem Change.get?_foldl_applyTo (changes : List Change) (records : Table Key Record) (key : Key) :
    (changes.foldl Change.applyTo records).get? key =
      ((changes.filter fun change => change.key = key).getLast?.map Change.record?).getD (records.get? key) := by
  induction changes using List.reverseRecOn with
  | nil => rfl
  | append_singleton changes change ih =>
    rw [List.foldl_append, List.foldl_cons, List.foldl_nil, Change.get?_applyTo, List.filter_append]
    by_cases hkey : change.key = key
    · rw [if_pos hkey, List.filter_cons_of_pos (by simpa using hkey), List.filter_nil, List.getLast?_concat]
      rfl
    · rw [if_neg hkey, List.filter_cons_of_neg (by simpa using hkey), List.filter_nil, List.append_nil]
      exact ih

namespace Backend

def Op.isFailNext : Op → Bool
  | .failNext _ => true
  | .change _ | .insert _ => false

/-- A change that the backend accepts is made, and a refusal has one reason. -/
theorem apply_cases (b : Backend) (change : Change) :
    (∃ answer, (b.apply change).1 = .ok answer ∧ (b.apply change).2.records = change.applyTo b.records) ∨
    ∃ e, (b.apply change).1 = .error e ∧ (b.apply change).2.records = b.records ∧
      change.key.display ++ ": " ++ e.message = change.refusal := by
  unfold apply
  split
  · exact .inr ⟨_, rfl, rfl, rfl⟩
  · cases change with
    | store record => exact .inl ⟨_, rfl, rfl⟩
    | remove key => exact .inl ⟨_, rfl, rfl⟩

theorem run_concat (b : Backend) (ops : List Op) (op : Op) : b.run (ops ++ [op]) = (b.run ops).act op := by
  rw [run, List.foldl_append]
  rfl

end Backend

/-- The failures that no flush has taken, filed or not. -/
def Journal.unreported (j : Journal) : List Failure := j.failures ++ j.hand.unfiled?.toList

/-- What a writer has done so far. -/
structure Trace where
  /-- The changes that the backend has accepted or refused. -/
  reached : List Queued := []
  /-- The changes that were dropped. -/
  dropped : List Queued := []
  /-- Everything that was done to the backend. -/
  seen : List Backend.Op := []

theorem Journal.unreported_of_rests {j : Journal} (h : j.hand.rests = true) : j.unreported = j.failures := by
  rw [unreported, (Hand.of_rests h).1, Option.toList_none, List.append_nil]

/-- The changes of which no failure is recorded. -/
def unfailed (recorded : List Failure) (items : List Queued) : List Queued :=
  items.filter fun item => recorded.all fun f => f.seq ≠ item.seq

theorem mem_unfailed {recorded : List Failure} {items : List Queued} {item : Queued} :
    item ∈ unfailed recorded items ↔ item ∈ items ∧ ∀ f ∈ recorded, f.seq ≠ item.seq := by
  simp [unfailed]

/-- Only which failures are recorded matters, not in which order. -/
theorem unfailed_congr {recorded recorded' : List Failure} (h : ∀ f, f ∈ recorded' ↔ f ∈ recorded)
    (items : List Queued) : unfailed recorded' items = unfailed recorded items := by
  apply List.filter_congr
  intro item _
  rw [Bool.eq_iff_iff, List.all_eq_true, List.all_eq_true]
  exact forall_congr' fun f => by rw [h f]

theorem unfailed_concat {recorded : List Failure} {item : Queued} (h : ∀ f ∈ recorded, f.seq ≠ item.seq)
    (items : List Queued) : unfailed recorded (items ++ [item]) = unfailed recorded items ++ [item] := by
  rw [unfailed, List.filter_append, ← unfailed]
  simpa using h

theorem unfailed_concat_failed {recorded : List Failure} {item : Queued} {f : Failure} (h : f.seq = item.seq)
    (items : List Queued) :
    unfailed (recorded ++ [f]) (items ++ [item]) = unfailed (recorded ++ [f]) items := by
  rw [unfailed, List.filter_append, ← unfailed]
  simp [h]

/-- A failure of another change leaves changes as they are. -/
theorem unfailed_concat_of_ne {recorded : List Failure} {items : List Queued} {f : Failure}
    (h : ∀ item ∈ items, item.seq ≠ f.seq) : unfailed (recorded ++ [f]) items = unfailed recorded items := by
  apply List.filter_congr
  intro item hitem
  simp [(h item hitem).symm]

/-- What became of the changes that were submitted: those that reached the backend come first, then those that were dropped,
and then those that wait. -/
structure Traced (first : Backend) (submitted : List Queued) (recorded : List Failure) (t : Trace) (p : Pipeline) :
    Prop where
  numbered : p.journal.Numbered
  seqs : submitted.map (·.seq) = List.range' 1 p.journal.lastSeq
  order : submitted = t.reached ++ t.dropped ++ p.journal.awaiting
  backend : p.backend = first.run t.seen
  seen : t.seen.filter (fun op => !op.isFailNext) = t.reached.map fun item => .change item.change
  records : p.backend.records = ((unfailed recorded t.reached).map (·.change)).foldl Change.applyTo first.records
  refused : ∀ item ∈ t.reached, ∀ f ∈ recorded, f.seq = item.seq → f.reason = item.change.refusal
  skipped : ∀ item ∈ t.dropped, item.aborted ∈ recorded
  known : ∀ f ∈ recorded, ∃ item ∈ t.reached ++ t.dropped, f.seq = item.seq
  last : t.dropped ≠ [] → p.journal.cancelled = true ∧ p.journal.hand.open? = none

namespace Traced
variable {first : Backend} {submitted : List Queued} {recorded recorded' : List Failure} {t : Trace} {p p' : Pipeline}

/-- Different changes have different numbers. -/
theorem nodup (h : Traced first submitted recorded t p) :
    ((t.reached ++ t.dropped ++ p.journal.awaiting).map (·.seq)).Nodup := by
  rw [← h.order, h.seqs]
  exact List.nodup_range'

/-- What was brought to its end has other numbers than what waits. -/
theorem seq_ne_of_mem (h : Traced first submitted recorded t p) {item : Queued} (hitem : item ∈ p.journal.awaiting) :
    ∀ other ∈ t.reached ++ t.dropped, other.seq ≠ item.seq := by
  intro other hother
  have hnodup := h.nodup
  rw [List.map_append, List.nodup_append] at hnodup
  exact hnodup.2.2 _ (List.mem_map_of_mem hother) _ (List.mem_map_of_mem hitem)

/-- A recorded failure is not about a change that waits. -/
theorem seq_ne_of_awaiting (h : Traced first submitted recorded t p) {item : Queued} (hitem : item ∈ p.journal.awaiting)
    {f : Failure} (hf : f ∈ recorded) : f.seq ≠ item.seq := by
  obtain ⟨known, hknown, hseq⟩ := h.known f hf
  rw [hseq]
  exact h.seq_ne_of_mem hitem known hknown

/-- Nothing about the changes is different. -/
theorem of_same (h : Traced first submitted recorded t p) (hn : p'.journal.Numbered)
    (hlast : p'.journal.lastSeq = p.journal.lastSeq) (hawaiting : p'.journal.awaiting = p.journal.awaiting)
    (hbackend : p'.backend = p.backend) (hrecorded : ∀ f, f ∈ recorded' ↔ f ∈ recorded)
    (hcancelled : p.journal.cancelled = true → p'.journal.cancelled = true)
    (hopen : p.journal.cancelled = true → p.journal.hand.open? = none → p'.journal.hand.open? = none) :
    Traced first submitted recorded' t p' where
  numbered := hn
  seqs := hlast ▸ h.seqs
  order := hawaiting ▸ h.order
  backend := hbackend ▸ h.backend
  seen := h.seen
  records := by
    rw [hbackend, unfailed_congr hrecorded]
    exact h.records
  refused := fun item hitem f hf => h.refused item hitem f ((hrecorded f).mp hf)
  skipped := fun item hitem => (hrecorded _).mpr (h.skipped item hitem)
  known := fun f hf => h.known f ((hrecorded f).mp hf)
  last := fun hdropped => ⟨hcancelled (h.last hdropped).1, hopen (h.last hdropped).1 (h.last hdropped).2⟩

/-- The change in hand reaches the backend, which makes it or refuses it. -/
theorem reach (h : Traced first submitted recorded t p) (hn : p'.journal.Numbered)
    (hlast : p'.journal.lastSeq = p.journal.lastSeq) {item : Queued} {due : Nat}
    (hhand : p.journal.hand = .working item due) (hawaiting : p.journal.awaiting = item :: p'.journal.awaiting)
    (hbackend : p'.backend = (p.backend.apply item.change).2) {new : List Failure}
    (hfate : new = [] ∧ p'.backend.records = item.change.applyTo p.backend.records ∨
      new = [⟨item.seq, item.change.refusal⟩] ∧ p'.backend.records = p.backend.records) :
    Traced first submitted (recorded ++ new) ⟨t.reached ++ [item], t.dropped, t.seen ++ [.change item.change]⟩ p' := by
  have hitem : item ∈ p.journal.awaiting := hawaiting ▸ List.mem_cons_self
  have hfresh : ∀ f ∈ recorded, f.seq ≠ item.seq := fun f hf => h.seq_ne_of_awaiting hitem hf
  have hothers := h.seq_ne_of_mem hitem
  -- Behind a change that was dropped the backend never works on another one.
  have hnone : t.dropped = [] := by
    by_contra hdropped
    simpa [hhand] using (h.last hdropped).2
  have hnew : ∀ f ∈ new, f = ⟨item.seq, item.change.refusal⟩ := by
    rcases hfate with ⟨hnew, -⟩ | ⟨hnew, -⟩ <;> simp [hnew]
  refine ⟨hn, hlast ▸ h.seqs, ?_, ?_, ?_, ?_, ?_, ?_, ?_, fun hdropped => absurd hnone hdropped⟩
  · have horder := h.order
    rw [hawaiting, hnone] at horder
    simpa [hnone] using horder
  · rw [hbackend, Backend.run_concat, ← h.backend]
    rfl
  · rw [List.filter_append, List.map_append, h.seen]
    rfl
  · rcases hfate with ⟨hnew, hrecords⟩ | ⟨hnew, hrecords⟩
    · rw [hnew, List.append_nil, unfailed_concat hfresh, List.map_append, List.foldl_append, hrecords, h.records]
      rfl
    · have hmade : unfailed (recorded ++ new) (t.reached ++ [item]) = unfailed recorded t.reached := by
        rw [hnew, unfailed_concat_failed rfl, unfailed_concat_of_ne]
        exact fun other hother => hothers other (List.mem_append_left _ hother)
      rw [hmade, hrecords, h.records]
  · intro other hother f hf hseq
    rcases List.mem_append.mp hother with hold | hlatest <;> rcases List.mem_append.mp hf with hf | hf
    · exact h.refused other hold f hf hseq
    · rw [hnew f hf] at hseq
      exact absurd hseq.symm (hothers other (List.mem_append_left _ hold))
    · rw [List.mem_singleton.mp hlatest] at hseq
      exact absurd hseq (hfresh f hf)
    · rw [List.mem_singleton.mp hlatest, hnew f hf]
  · exact fun other hother => List.mem_append_left _ (h.skipped other hother)
  · intro f hf
    rcases List.mem_append.mp hf with hf | hf
    · obtain ⟨known, hknown, hseq⟩ := h.known f hf
      exact ⟨known, by grind, hseq⟩
    · exact ⟨item, by simp, by rw [hnew f hf]⟩

/-- The first change that waits is dropped. -/
theorem skip (h : Traced first submitted recorded t p) (hn : p'.journal.Numbered)
    (hlast : p'.journal.lastSeq = p.journal.lastSeq) {item : Queued}
    (hawaiting : p.journal.awaiting = item :: p'.journal.awaiting) (hbackend : p'.backend = p.backend)
    (hcancelled : p'.journal.cancelled = true) (hopen : p'.journal.hand.open? = none) :
    Traced first submitted (recorded ++ [item.aborted]) { t with dropped := t.dropped ++ [item] } p' := by
  have hitem : item ∈ p.journal.awaiting := hawaiting ▸ List.mem_cons_self
  have hothers := h.seq_ne_of_mem hitem
  refine ⟨hn, hlast ▸ h.seqs, ?_, hbackend ▸ h.backend, h.seen, ?_, ?_, ?_, ?_, fun _ => ⟨hcancelled, hopen⟩⟩
  · have horder := h.order
    rw [hawaiting] at horder
    simpa using horder
  · rw [hbackend, unfailed_concat_of_ne]
    · exact h.records
    · exact fun other hother => hothers other (List.mem_append_left _ hother)
  · intro other hother f hf hseq
    rcases List.mem_append.mp hf with hf | hf
    · exact h.refused other hother f hf hseq
    · rw [List.mem_singleton.mp hf] at hseq
      exact absurd hseq.symm (hothers other (List.mem_append_left _ hother))
  · intro other hother
    rcases List.mem_append.mp hother with hold | hnew
    · exact List.mem_append_left _ (h.skipped other hold)
    · rw [List.mem_singleton.mp hnew]
      exact List.mem_append_right _ List.mem_cons_self
  · intro f hf
    rcases List.mem_append.mp hf with hf | hf
    · obtain ⟨known, hknown, hseq⟩ := h.known f hf
      exact ⟨known, by grind, hseq⟩
    · exact ⟨item, by simp, by rw [List.mem_singleton.mp hf]; rfl⟩

theorem step (h : Traced first submitted (recorded ++ p.journal.unreported) t p) (step : WriterStep) :
    ∃ t', Traced first submitted (recorded ++ (p.step step).journal.unreported) t' (p.step step) := by
  have hstage := p.stage step
  have hn := hstage.numbered h.numbered
  generalize p.step step = p' at hstage hn ⊢
  -- Only three stages add to the trace: a change reaches the backend, accepted or refused, or it is dropped.
  cases hstage with
  | idle => exact ⟨t, h⟩
  | started item rest due hhand hqueue hkept =>
    refine ⟨t, h.of_same hn rfl ?_ rfl ?_ id fun hcancelled => ?_⟩
    · simp [Journal.awaiting, hhand, hqueue]
    · simp [Journal.unreported, hhand]
    · exact absurd hcancelled (by simp [hkept])
  | dropped item rest hhand hqueue hcancelled =>
    have hbefore : p.journal.unreported = p.journal.failures := by simp [Journal.unreported, hhand]
    rw [hbefore] at h
    refine ⟨{ t with dropped := t.dropped ++ [item] }, ?_⟩
    show Traced first submitted (recorded ++ (p.journal.failures ++ [item.aborted])) _ _
    rw [← List.append_assoc]
    exact h.skip hn rfl (by simp [Journal.awaiting, hhand, hqueue]) rfl hcancelled rfl
  | applied item due answer backend hhand happly =>
    have hbefore : p.journal.unreported = p.journal.failures := by simp [Journal.unreported, hhand]
    have hrecords : backend.records = item.change.applyTo p.backend.records := by
      rcases p.backend.apply_cases item.change with ⟨_, -, hmade⟩ | ⟨e, he, -⟩
      · rwa [happly] at hmade
      · simp [happly] at he
    rw [hbefore] at h
    refine ⟨⟨t.reached ++ [item], t.dropped, t.seen ++ [.change item.change]⟩, ?_⟩
    show Traced first submitted (recorded ++ (p.journal.failures ++ [])) _ _
    rw [← List.append_assoc]
    exact h.reach hn rfl hhand (by simp [Journal.awaiting, hhand]) (by rw [happly]) (.inl ⟨rfl, hrecords⟩)
  | failed item due e backend monitor hhand happly =>
    have hbefore : p.journal.unreported = p.journal.failures := by simp [Journal.unreported, hhand]
    have hrefusal : backend.records = p.backend.records ∧
        item.change.key.display ++ ": " ++ e.message = item.change.refusal := by
      rcases p.backend.apply_cases item.change with ⟨_, hok, -⟩ | ⟨e', he, hsame, hreason⟩
      · simp [happly] at hok
      · rw [happly] at he hsame
        cases he
        exact ⟨hsame, hreason⟩
    rw [hbefore] at h
    rw [hrefusal.2] at hn ⊢
    refine ⟨⟨t.reached ++ [item], t.dropped, t.seen ++ [.change item.change]⟩, ?_⟩
    show Traced first submitted (recorded ++ (p.journal.failures ++ [⟨item.seq, item.change.refusal⟩])) _ _
    rw [← List.append_assoc]
    exact h.reach hn rfl hhand (by simp [Journal.awaiting, hhand]) (by rw [happly]) (.inr ⟨rfl, hrefusal.1⟩)
  | filed item failure monitor hhand =>
    refine ⟨t, h.of_same hn rfl ?_ rfl ?_ id fun _ _ => rfl⟩
    · simp [Journal.awaiting, hhand]
    · simp [Journal.unreported, hhand]
  | published item hhand =>
    refine ⟨t, h.of_same hn rfl ?_ rfl ?_ id fun _ _ => rfl⟩
    · simp [Journal.awaiting, hhand]
    · simp [Journal.unreported, hhand]

/-- The writer does its steps; when it is idle, nothing becomes of any change. -/
theorem work (steps : List WriterStep) : ∀ {t : Trace} {p : Pipeline},
    Traced first submitted (recorded ++ p.journal.unreported) t p →
    ∃ t', Traced first submitted (recorded ++ (p.work steps).journal.unreported) t' (p.work steps) ∧
      (p.journal.isIdle = true → t' = t) := by
  induction steps with
  | nil => exact fun h => ⟨_, h, fun _ => rfl⟩
  | cons step rest ih =>
    intro t p h
    by_cases hidle : p.journal.isIdle = true
    · rw [Pipeline.work_of_isIdle hidle]
      exact ⟨t, h, fun _ => rfl⟩
    · obtain ⟨t', h'⟩ := h.step step
      obtain ⟨t'', h'', -⟩ := ih h'
      exact ⟨t'', h'', fun htrue => absurd htrue hidle⟩

theorem push (h : Traced first submitted recorded t p) (now : Nat) (change : Change) (monitor : Monitor) :
    Traced first (submitted ++ [⟨p.journal.lastSeq + 1, change, now⟩]) recorded t
      ⟨p.journal.push now change, p.backend, monitor⟩ := by
  refine ⟨h.numbered.push now change, ?_, ?_, h.backend, h.seen, h.records, h.refused, h.skipped, h.known, h.last⟩
  · show (submitted ++ [_]).map Queued.seq = List.range' 1 (p.journal.lastSeq + 1)
    rw [List.map_append, h.seqs, List.range'_concat, Nat.one_mul, Nat.add_comm 1]
    rfl
  · rw [Journal.awaiting_push, ← List.append_assoc, ← h.order]

theorem failNext (h : Traced first submitted recorded t p) (n : Nat) :
    Traced first submitted recorded { t with seen := t.seen ++ [.failNext n] }
      { p with backend := p.backend.failNext n } := by
  refine ⟨h.numbered, h.seqs, h.order, ?_, ?_, h.records, h.refused, h.skipped, h.known, h.last⟩
  · rw [Backend.run_concat, ← h.backend]
    rfl
  · rw [List.filter_append, ← h.seen]
    simp [Backend.Op.isFailNext]

/-- The numbers of what was brought to its end are those up to the committed one. -/
theorem seqs_ended (h : Traced first submitted recorded t p) (hrests : p.journal.hand.rests = true) :
    (t.reached ++ t.dropped).map (·.seq) = List.range' 1 p.journal.committed := by
  have hle := h.numbered.le
  have hseqs := h.seqs
  have hsplit : List.range' 1 p.journal.lastSeq =
      List.range' 1 p.journal.committed ++
        List.range' (p.journal.committed + 1) (p.journal.lastSeq - p.journal.committed) := by
    rw [Nat.add_comm, List.range'_append_1, Nat.add_sub_cancel' hle]
  rw [h.order, List.map_append, Journal.awaiting_of_rests hrests, h.numbered.seqs, hsplit] at hseqs
  exact List.append_cancel_right hseqs

/-- What is committed is what reached the backend, and behind it what was dropped. -/
theorem filter_committed (h : Traced first submitted recorded t p) (hrests : p.journal.hand.rests = true) :
    submitted.filter (fun item => item.seq ≤ p.journal.committed) = t.reached ++ t.dropped := by
  have hended := h.seqs_ended hrests
  have hin : (t.reached ++ t.dropped).filter (fun item => item.seq ≤ p.journal.committed) = t.reached ++ t.dropped := by
    rw [List.filter_eq_self]
    intro item hitem
    have hmem : item.seq ∈ (t.reached ++ t.dropped).map (·.seq) := List.mem_map_of_mem hitem
    rw [hended, List.mem_range'_1] at hmem
    exact decide_eq_true (by omega)
  have hout : p.journal.awaiting.filter (fun item => item.seq ≤ p.journal.committed) = [] := by
    rw [List.filter_eq_nil_iff]
    intro item hitem
    have hlt := h.numbered.committed_lt (Journal.mem_underway_of_mem_awaiting hitem)
    simpa using hlt
  rw [h.order, List.filter_append, hin, hout, List.append_nil]

/-- No change that reached the backend is recorded as dropped. -/
theorem aborted_not_mem (h : Traced first submitted recorded t p) {item : Queued} (hitem : item ∈ t.reached) :
    item.aborted ∉ recorded := by
  intro hmem
  exact item.change.refusal_ne (h.refused item hitem item.aborted hmem rfl).symm

end Traced
end ResponseCache
