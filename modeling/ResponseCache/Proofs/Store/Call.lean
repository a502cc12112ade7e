import ResponseCache.Proofs.Store.Ending
import ResponseCache.Proofs.Store.Eviction

namespace ResponseCache

/-- What a client can ask of a store. -/
inductive Request
  | lookup (key : Key)
  | reconcile (key : Key) (decision : Decision)
  | reconcileWith (key : Key) (decide : Option Entry → Except Error Decision)
  | attach (key : Key) (expected : Identity) (alternative : Alternative)
  | clear (key : Key)
  | evict (key : Key)
  | evictAll

/-- A request, the streams as they are when it is made, and the time. -/
structure Call where
  request : Request
  streams : Streams
  now : Moment

/-- What a store answers. -/
inductive Reply
  | found (entry : Option Entry)
  | reconciled (r : Reconciliation)
  | removed (identity : Option Identity)
  | emptied (n : Nat)

/-- The key that a request decides about, and the decision that it makes there in the face of the live entry. -/
def Request.decide? : Request → Option (Key × (Option Entry → Except Error Decision))
  | .reconcile key decision => some (key, fun _ => .ok decision)
  | .reconcileWith key decide => some (key, decide)
  | .attach key expected alternative => some (key, fun current =>
      let identity := identityOf current
      if identity ≠ expected ∨ expected.isAbsent then .error (.staleEntry key.display expected identity)
      else .ok (.attach alternative))
  | .clear key => some (key, fun _ => .ok .clear)
  | .lookup _ | .evict _ | .evictAll => none

namespace Store

def perform (s : Store) (c : Call) : Except Error Reply × Store :=
  match c.request with
  | .lookup key => (.ok (.found (s.lookup key).1), (s.lookup key).2)
  | .reconcile key decision =>
    let (answer, s) := s.reconcile c.streams c.now key decision
    (answer.map .reconciled, s)
  | .reconcileWith key decide =>
    let (answer, s) := s.reconcileWith c.streams c.now key decide
    (answer.map .reconciled, s)
  | .attach key expected alternative =>
    let (answer, s) := s.attach c.streams c.now key expected alternative
    (answer.map .reconciled, s)
  | .clear key =>
    let (answer, s) := s.clear c.streams c.now key
    (answer.map .reconciled, s)
  | .evict key =>
    let (answer, s) := s.evict c.now key
    (answer.map .removed, s)
  | .evictAll =>
    let (answer, s) := s.evictAll c.now
    (answer.map .emptied, s)

/-- The store after some calls. -/
def run (s : Store) (calls : List Call) : Store := calls.foldl (fun s c => (s.perform c).2) s

/-- All requests that decide about a key are one. -/
theorem perform_of_decide? {s : Store} {c : Call} {key : Key} {decide : Option Entry → Except Error Decision}
    (h : c.request.decide? = some (key, decide)) :
    s.perform c = ((s.reconcileWith c.streams c.now key decide).1.map .reconciled,
      (s.reconcileWith c.streams c.now key decide).2) := by
  obtain ⟨request, streams, now⟩ := c
  cases request <;> cases h <;> rfl

theorem lookup_fst (s : Store) (key : Key) : (s.lookup key).1 = s.live? key := by
  unfold lookup
  cases s.live? key <;> rfl

/-- A look-up shows in the counters only. -/
theorem lookup_snd (s : Store) (key : Key) : ∃ monitor, (s.lookup key).2 = { s with monitor } := by
  unfold lookup
  cases s.live? key with
  | none => exact ⟨_, rfl⟩
  | some entry => exact ⟨_, rfl⟩

/-- What decisions, evictions and look-ups keep, calls keep. -/
theorem perform_keeps {P : Store → Prop} (c : Call)
    (hlookup : ∀ s monitor, P s → P { s with monitor })
    (hdecide : ∀ s key decide, P s → P (s.reconcileWith c.streams c.now key decide).2)
    (hevict : ∀ s key, P s → P (s.evict c.now key).2) (s : Store) (h : P s) : P (s.perform c).2 := by
  cases hr : c.request.decide? with
  | some p =>
    obtain ⟨key, decide⟩ := p
    rw [perform_of_decide? hr]
    exact hdecide s key decide h
  | none =>
    obtain ⟨request, streams, now⟩ := c
    cases request with
    | lookup key =>
      obtain ⟨monitor, hm⟩ := s.lookup_snd key
      show P (s.lookup key).2
      rw [hm]
      exact hlookup s monitor h
    | evict key => exact hevict s key h
    | evictAll => exact evictEach_keeps hevict s.keys 0 s h
    | reconcile key decision => simp [Request.decide?] at hr
    | reconcileWith key decide => simp [Request.decide?] at hr
    | attach key expected alternative => simp [Request.decide?] at hr
    | clear key => simp [Request.decide?] at hr

theorem tidy_perform (s : Store) (c : Call) (h : s.Tidy) : (s.perform c).2.Tidy := by
  refine perform_keeps (P := Tidy) c ?_ ?_ ?_ s h
  · exact fun s monitor hs => hs.of_slots rfl
  · exact fun s key decide hs => (ending c.streams c.now key decide hs).tidy hs
  · exact fun s key hs => (eviction hs c.now key).tidy hs

/-- What every call keeps, runs keep. -/
theorem run_keeps {P : Store → Prop} (hP : ∀ s c, P s → P (s.perform c).2) (calls : List Call) :
    ∀ s : Store, P s → P (s.run calls) := by
  induction calls with
  | nil => exact fun s h => h
  | cons c rest ih => exact fun s h => ih (s.perform c).2 (hP s c h)

end Store
end ResponseCache
