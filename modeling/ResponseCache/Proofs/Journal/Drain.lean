import ResponseCache.Proofs.Journal.Trace
import ResponseCache.Proofs.Renaming
import ResponseCache.Proofs.Weight
/-!
Drained journals. What a backend will have become when nothing waits any more is settled by the changes that it still gets to
see, whatever the writer does when; and two changes of different keys may be made in either order.
-/
namespace ResponseCache

namespace Journal

/-- The journal with these changes behind what it has, each submitted at its time. -/
def pushAll (j : Journal) (ops : List (Nat × Change)) : Journal := ops.foldl (fun j op => j.push op.1 op.2) j

theorem pushAll_append (j : Journal) (ops ops' : List (Nat × Change)) :
    j.pushAll (ops ++ ops') = (j.pushAll ops).pushAll ops' := List.foldl_append

/-- Changes get the next numbers in turn, and nothing else changes. -/
theorem pushAll_eq (ops : List (Nat × Change)) : ∀ j : Journal,
    j.pushAll ops = { j with
      lastSeq := j.lastSeq + ops.length
      queue := j.queue ++ ops.mapIdx fun i op => ⟨j.lastSeq + 1 + i, op.2, op.1⟩ } := by
  induction ops with
  | nil => simp [pushAll]
  | cons op rest ih =>
    intro j
    have hrest : j.pushAll (op :: rest) = (j.push op.1 op.2).pushAll rest := rfl
    rw [hrest, ih]
    simp only [push, List.mapIdx_cons, List.append_assoc, List.singleton_append, List.length_cons, Nat.add_zero]
    have hlast : j.lastSeq + 1 + rest.length = j.lastSeq + (rest.length + 1) := by omega
    have hnumber (i : Nat) : j.lastSeq + 1 + 1 + i = j.lastSeq + 1 + (i + 1) := by omega
    simp only [hlast, hnumber]

/-- The changes that the backend still gets to see: all that wait, or when the journal is cancelled the one that it works on. -/
def bound (j : Journal) : List Queued := if j.cancelled then j.hand.open?.toList else j.awaiting

/-- What a backend will have become when nothing waits any more. -/
def drain (j : Journal) (b : Backend) : Backend := b.run (j.bound.map fun item => .change item.change)

theorem drain_of_isIdle {j : Journal} (h : j.isIdle = true) (b : Backend) : j.drain b = b := by
  simp only [isIdle, Bool.and_eq_true, decide_eq_true_eq, List.isEmpty_iff] at h
  have hbound : j.bound = [] := by simp [bound, awaiting, h.1, h.2]
  rw [drain, hbound]
  rfl

theorem bound_of_kept {j : Journal} (hkept : j.cancelled = false) : j.bound = j.awaiting := by
  rw [bound, hkept]
  rfl

theorem drain_push {j : Journal} (hkept : j.cancelled = false) (now : Nat) (change : Change) (b : Backend) :
    (j.push now change).drain b = (j.drain b).act (.change change) := by
  have hkept' : (j.push now change).cancelled = false := hkept
  rw [drain, drain, bound_of_kept hkept, bound_of_kept hkept', awaiting_push, List.map_append]
  exact Backend.run_concat b _ _

/-- A backend gets to see what is submitted behind what it got to see before. -/
theorem drain_pushAll (ops : List (Nat × Change)) (b : Backend) : ∀ {j : Journal}, j.cancelled = false →
    (j.pushAll ops).drain b = (j.drain b).run (ops.map fun op => .change op.2) := by
  induction ops with
  | nil => exact fun _ => rfl
  | cons op rest ih =>
    intro j hkept
    calc ((j.push op.1 op.2).pushAll rest).drain b
        = ((j.push op.1 op.2).drain b).run (rest.map fun op => .change op.2) := ih hkept
      _ = ((j.drain b).act (.change op.2)).run (rest.map fun op => .change op.2) := by rw [drain_push hkept]

end Journal

/-- No step of the writer has a part in what the backend will have become. -/
theorem Pipeline.Stage.drain {p p' : Pipeline} {step : WriterStep} (h : Stage p step p') :
    p'.journal.drain p'.backend = p.journal.drain p.backend := by
  -- The change that is made goes over from what the backend gets to see to what it has become.
  have hmade {j : Journal} {item : Queued} {due : Nat} (hhand : j.hand = .working item due) (b : Backend) :
      j.drain b = { j with hand := .empty }.drain (b.apply item.change).2 := by
    have hbound : j.bound = item :: { j with hand := Hand.empty }.bound := by
      unfold Journal.bound
      cases hc : j.cancelled <;> simp [Journal.awaiting, hhand]
    rw [Journal.drain, hbound]
    rfl
  cases h with
  | idle => rfl
  | started item rest due hhand hqueue hkept =>
    simp [Journal.drain, Journal.bound, Journal.awaiting, hhand, hqueue, hkept]
  | dropped item rest hhand hqueue hcancelled =>
    simp [Journal.drain, Journal.bound, hhand, hcancelled]
  | applied item due answer backend hhand happly =>
    rw [hmade hhand, happly]
    rfl
  | failed item due e backend monitor hhand happly =>
    rw [hmade hhand, happly]
    rfl
  | filed item failure monitor hhand => simp [Journal.drain, Journal.bound, Journal.awaiting, hhand]
  | published item hhand => simp [Journal.drain, Journal.bound, Journal.awaiting, hhand]

/-- Whatever steps the writer takes until it is idle, the backend becomes the same. -/
theorem Pipeline.backend_of_isIdle (steps : List WriterStep) : ∀ {p : Pipeline},
    (p.work steps).journal.isIdle = true → (p.work steps).backend = p.journal.drain p.backend := by
  have hwork : ∀ p : Pipeline, (p.work steps).journal.drain (p.work steps).backend = p.journal.drain p.backend := by
    induction steps with
    | nil => exact fun p => rfl
    | cons step rest ih => exact fun p => (ih (p.step step)).trans (p.stage step).drain
  intro p hidle
  rw [← Journal.drain_of_isIdle hidle (p.work steps).backend, hwork]

/-- The writer can bring all that waits to its end. -/
theorem Pipeline.exists_isIdle (p : Pipeline) : ∃ steps, (p.work steps).journal.isIdle = true := by
  -- The change in hand first, and then, by induction, those in the queue.
  have hhand : (p.work [.apply, .file, .publish]).journal.hand = .empty := by
    show p.apply.file.publish.journal.hand = .empty
    cases hhand : p.journal.hand with
    | working item due => exact (empty_of_working hhand).1
    | empty | filed item => simp only [apply, file, publish, Journal.publish, hhand]
    | settled item failure =>
      cases failure <;> simp only [apply, file, Journal.file, publish, Journal.publish, hhand]
  have hqueue (n : Nat) : ∀ q : Pipeline, q.journal.hand = .empty → q.journal.queue.length = n →
      ∃ steps, (q.work steps).journal.isIdle = true := by
    induction n with
    | zero =>
      intro q hempty hlength
      exact ⟨[], q.journal.isIdle_iff.mpr ⟨hempty, List.length_eq_zero_iff.mp hlength⟩⟩
    | succ n ih =>
      intro q hempty hlength
      obtain ⟨item, rest, hrest⟩ := List.exists_of_length_succ q.journal.queue hlength
      rw [hrest, List.length_cons, Nat.add_right_cancel_iff] at hlength
      have hround : (q.work [.take, .apply, .file, .publish]).journal.hand = .empty ∧
          (q.work [.take, .apply, .file, .publish]).journal.queue = rest := by
        show q.take.apply.file.publish.journal.hand = .empty ∧ q.take.apply.file.publish.journal.queue = rest
        cases hcancelled : q.journal.cancelled with
        | true =>
          simp [take, Journal.take, hempty, hrest, hcancelled, apply, file, Journal.file, publish, Journal.publish]
        | false =>
          have htake : q.take.journal.hand =
              .working item (max q.journal.freeAt item.submittedAt + q.backend.latency.nanos) ∧
              q.take.journal.queue = rest := by
            simp [take, Journal.take, hempty, hrest, hcancelled]
          exact ⟨(empty_of_working htake.1).1, (empty_of_working htake.1).2.trans htake.2⟩
      obtain ⟨steps, hsteps⟩ := ih _ hround.1 (by rw [hround.2]; exact hlength)
      exact ⟨[.take, .apply, .file, .publish] ++ steps, (q.work_append _ steps).symm ▸ hsteps⟩
  obtain ⟨steps, hsteps⟩ := hqueue _ _ hhand rfl
  exact ⟨[.apply, .file, .publish] ++ steps, (p.work_append _ steps).symm ▸ hsteps⟩

namespace Backend
variable {b : Backend}

/-- A backend that does not fail makes a change. -/
theorem apply_of_willing (hwilling : b.failing = 0) (change : Change) : (b.apply change).2 =
    match change with
    | .store record => { b.insert record with writes := b.writes + 1 }
    | .remove key => { b.erase key with deletes := b.deletes + 1 } := by
  have hnot : ¬0 < b.failing := by omega
  unfold apply
  rw [if_neg hnot]
  cases change <;> rfl

theorem get?_apply (hwilling : b.failing = 0) (change : Change) (key : Key) :
    (b.apply change).2.get? key = if change.key = key then change.record? else b.get? key := by
  rw [apply_of_willing hwilling]
  cases change with
  | store record => exact Table.get?_insert b.records record.key key record
  | remove old => exact Table.get?_erase b.records old key

theorem failing_apply (hwilling : b.failing = 0) (change : Change) : (b.apply change).2.failing = 0 := by
  rw [apply_of_willing hwilling]
  cases change <;> exact hwilling

theorem failing_run (changes : List Change) : ∀ {b : Backend}, b.failing = 0 → (b.run (changes.map .change)).failing = 0 := by
  induction changes with
  | nil => exact fun h => h
  | cons change rest ih => exact fun h => ih (failing_apply h change)

/-- A change puts the bytes of its record on, and takes those of the record before it off. -/
theorem Weighed.totalBytes_apply (h : b.Weighed) (hwilling : b.failing = 0) (change : Change) :
    (b.apply change).2.totalBytes + b.sizeAt change.key = b.totalBytes + bytesOf change.record? := by
  rw [apply_of_willing hwilling]
  cases change with
  | store record => exact (h.totalBytes_insert record).1
  | remove key => exact (h.totalBytes_erase key).1

/-- Two backends differ at most in the identities of the records under these keys. -/
structure Agrees (σ : Identity → Identity) (keys : List Key) (b b' : Backend) : Prop where
  get? : ∀ key, b'.get? key = if key ∈ keys then (b.get? key).map (Record.rename σ) else b.get? key
  keys : b'.records.keys.Perm b.records.keys
  totalBytes : b'.totalBytes = b.totalBytes
  writes : b'.writes = b.writes
  deletes : b'.deletes = b.deletes
  failing : b'.failing = b.failing
  latency : b'.latency = b.latency

theorem Agrees.refl (keys : List Key) (b : Backend) : Agrees id keys b b :=
  ⟨fun key => by rw [Record.rename_id, Option.map_id, id, ite_self], List.Perm.refl _, rfl, rfl, rfl, rfl, rfl⟩

theorem keys_perm {b' : Backend} (h : b.records.Distinct) (h' : b'.records.Distinct)
    (hsame : ∀ key, b'.get? key = none ↔ b.get? key = none) : b'.records.keys.Perm b.records.keys := by
  rw [List.perm_ext_iff_of_nodup h' h]
  intro key
  rw [← not_iff_not, ← Table.get?_eq_none_iff, ← Table.get?_eq_none_iff]
  exact hsame key

/-- Changes of different keys come to the same in either order, also when other identities are in them then. -/
theorem Weighed.agrees (h : b.Weighed) (hwilling : b.failing = 0) (σ : Identity → Identity) {change change' : Change}
    (hne : change.key ≠ change'.key) :
    Agrees σ [change.key, change'.key] (b.run [.change change, .change change'])
      (b.run [.change (change'.rename σ), .change (change.rename σ)]) := by
  show Agrees σ _ ((b.apply change).2.apply change').2 ((b.apply (change'.rename σ)).2.apply (change.rename σ)).2
  have hrecord (c : Change) : (c.rename σ).record? = c.record?.map (Record.rename σ) := by cases c <;> rfl
  have hbytes (c : Change) : bytesOf (c.rename σ).record? = bytesOf c.record? := by cases c <;> rfl
  have hget : ∀ key, ((b.apply (change'.rename σ)).2.apply (change.rename σ)).2.get? key =
      if key ∈ [change.key, change'.key] then (((b.apply change).2.apply change').2.get? key).map (Record.rename σ)
      else ((b.apply change).2.apply change').2.get? key := by
    intro key
    rw [get?_apply (failing_apply hwilling _), get?_apply hwilling, get?_apply (failing_apply hwilling _),
      get?_apply hwilling, Change.key_rename, Change.key_rename, hrecord, hrecord]
    simp only [List.mem_cons, List.not_mem_nil, or_false]
    -- At most one of the two changes is about this key, so it does not matter which was made first.
    by_cases hk : change.key = key
    · have hk' : ¬change'.key = key := fun hk' => hne (hk.trans hk'.symm)
      rw [if_pos hk, if_pos (.inl hk.symm), if_neg hk', if_pos hk]
    · by_cases hk' : change'.key = key
      · rw [if_neg hk, if_pos hk', if_pos (.inr hk'.symm)]
        exact (if_pos hk').symm ▸ rfl
      · have hnot : ¬(key = change.key ∨ key = change'.key) :=
          fun hor => hor.elim (fun h => hk h.symm) fun h => hk' h.symm
        rw [if_neg hk, if_neg hk', if_neg hnot, if_neg hk', if_neg hk]
  refine ⟨hget, ?_, ?_, ?_, ?_, ?_, ?_⟩
  · refine keys_perm ((h.apply _).apply _).distinct ((h.apply _).apply _).distinct fun key => ?_
    rw [hget]
    split <;> simp
  · -- Each change finds the record that was there before both.
    have hother (c c' : Change) (hcc : c.key ≠ c'.key) : (b.apply c).2.sizeAt c'.key = b.sizeAt c'.key := by
      rw [sizeAt, sizeAt, get?_apply hwilling, if_neg hcc]
    have hfirst := h.totalBytes_apply hwilling change
    have hsecond := (h.apply change).totalBytes_apply (failing_apply hwilling _) change'
    have hfirst' := h.totalBytes_apply hwilling (change'.rename σ)
    have hsecond' := (h.apply (change'.rename σ)).totalBytes_apply (failing_apply hwilling _) (change.rename σ)
    rw [hother change change' hne] at hsecond
    rw [Change.key_rename, hbytes] at hfirst'
    rw [hother _ _ (by rw [Change.key_rename, Change.key_rename]; exact hne.symm), Change.key_rename, hbytes] at hsecond'
    omega
  all_goals
    rw [apply_of_willing (failing_apply hwilling _), apply_of_willing hwilling,
      apply_of_willing (failing_apply hwilling _), apply_of_willing hwilling]
    cases change <;> cases change' <;> rfl

end Backend
end ResponseCache
