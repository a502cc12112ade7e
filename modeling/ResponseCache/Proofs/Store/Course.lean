import ResponseCache.Proofs.Journal.Drain
import ResponseCache.Proofs.Tally
/-!
The course of a request. What a request about a key is answered, what becomes of the key, and what is submitted and counted is
settled by the live entry of the key, the mint, and whether changes are taken in. Nothing else of a store has a part in it.
-/
namespace ResponseCache

/-- What a request counts. -/
inductive Mark
  | hit
  | miss
  | decided (kind : Decision.Kind)
  | evicted

def Counters.mark (c : Counters) : Option Mark → Counters
  | none => c
  | some .hit => c.countHit
  | some .miss => c.countMiss
  | some (.decided kind) => c.countDecision kind
  | some .evicted => c.countEviction

/-- In which order things are counted does not show. -/
theorem Counters.mark_comm (c : Counters) (m m' : Option Mark) : (c.mark m).mark m' = (c.mark m').mark m := by
  cases m with
  | none => rfl
  | some m =>
    cases m' with
    | none => rfl
    | some m' =>
      cases m with
      | decided kind =>
        cases kind <;> cases m' with
        | decided kind' => cases kind' <;> rfl
        | hit | miss | evicted => rfl
      | hit | miss | evicted =>
        cases m' with
        | decided kind' => cases kind' <;> rfl
        | hit | miss | evicted => rfl

theorem Counters.mark_setEntries (c : Counters) (n : Nat) (m : Option Mark) :
    (c.setEntries n).mark m = (c.mark m).setEntries n := by
  cases m with
  | none => rfl
  | some m =>
    cases m with
    | decided kind => cases kind <;> rfl
    | hit | miss | evicted => rfl

/-- Counters that differ at most in the gauge are known by what it shows. -/
theorem Counters.eq_setEntries {c c' : Counters} {n m : Nat} (h : c' = c.setEntries m) (hn : c'.entries = n) :
    c' = c.setEntries n := by
  subst h
  rw [← hn]
  rfl

/-- What a request about a key comes to: the reply, the live entry and the mint afterwards, the change that is submitted if
there is a journal, and what is counted. -/
structure Course where
  reply : Except Error Reply
  entry : Option Entry
  mint : Mint
  change : Option Change
  mark : Option Mark

namespace Course

def ofAnswer (streams : Streams) (current : Option Entry) (mint : Mint) : Except Error Reconciliation → Course
  | .error e => ⟨.error e, current, mint, none, none⟩
  | .ok r =>
    ⟨.ok (.reconciled r), some r.entry, mint,
      if r.changed then (Record.ofEntry streams r.entry).toOption.map .store else none, some (.decided r.kind)⟩

def ofDecision (streams : Streams) (now : Moment) (key : Key) (isOpen : Bool) (current : Option Entry) (mint : Mint)
    (decide : Option Entry → Except Error Decision) : Course :=
  let verdict := Store.verdict streams now key current mint decide
  ofAnswer streams current verdict.2 (if isOpen then verdict.1 else Store.turnAway verdict.1)

def ofEviction (key : Key) (isOpen : Bool) (current : Option Entry) (mint : Mint) : Course :=
  match current with
  | none => ⟨.ok (.removed none), none, mint, none, none⟩
  | some entry =>
    if isOpen then ⟨.ok (.removed (some entry.identity)), none, mint, some (.remove key), some .evicted⟩
    else ⟨.error Store.closedError, some entry, mint, none, none⟩

def ofLookup (current : Option Entry) (mint : Mint) : Course :=
  ⟨.ok (.found current), current, mint, none, some (if current.isSome then .hit else .miss)⟩

end Course

/-- The key that a request is about. -/
def Request.key? : Request → Option Key
  | .lookup key | .evict key | .clear key => some key
  | .reconcile key _ | .reconcileWith key _ | .attach key _ _ => some key
  | .evictAll => none

def Request.course (r : Request) (streams : Streams) (now : Moment) (key : Key) (isOpen : Bool) (current : Option Entry)
    (mint : Mint) : Course :=
  match r.decide? with
  | some (_, decide) => .ofDecision streams now key isOpen current mint decide
  | none =>
    match r with
    | .evict _ => .ofEviction key isOpen current mint
    | _ => .ofLookup current mint

theorem Request.key?_of_decide? {r : Request} {key : Key} {decide : Option Entry → Except Error Decision}
    (h : r.decide? = some (key, decide)) : r.key? = some key := by
  cases r <;> cases h <;> rfl

namespace Store
variable {s s' : Store} {streams : Streams} {now : Moment} {key : Key}

/-- The store took this course from one state to the other. -/
structure Follows (s : Store) (now : Moment) (key : Key) (c : Course) (s' : Store) : Prop where
  live : ∀ key', s'.live? key' = if key = key' then c.entry else s.live? key'
  mint : s'.mint = c.mint
  journal : s'.journal = s.journal.map (·.pushAll (c.change.toList.map fun change => (now.tick, change)))
  counters : s'.monitor.counters = (s.monitor.counters.mark c.mark).setEntries s'.count

theorem live?_eq_ite (s : Store) (key key' : Key) : s.live? key' = if key = key' then s.live? key else s.live? key' := by
  split
  · rename_i hk
    rw [hk]
  · rfl

/-- Where nothing is submitted the journal stays as it is. -/
theorem map_pushAll_nil (journal : Option Journal) : journal.map (·.pushAll []) = journal := by
  cases journal <;> rfl

/-- A decision follows its course. -/
theorem Ending.follows {decide : Option Entry → Except Error Decision} {answer : Except Error Reconciliation}
    (h : Ending s streams now key decide answer s') (hs : s.Living streams) (hgauge : s.monitor.counters.entries = s.count) :
    s.Follows now key (.ofAnswer streams (s.live? key) s'.mint answer) s' := by
  have hshown := (h.accounts hs).gauge hgauge
  cases answer with
  | error e =>
    obtain ⟨mint, rfl⟩ := h.error_eq
    refine ⟨fun key' => ?_, rfl, (map_pushAll_nil _).symm, Counters.eq_setEntries (m := s.monitor.counters.entries) rfl hshown⟩
    exact (h.live?_error key').trans (s.live?_eq_ite key key')
  | ok r =>
    refine ⟨h.live?_ok, rfl, ?_, ?_⟩
    · cases hj : s.journal with
      | none =>
        cases h with
        | stands => exact hj
        | revised decision entry mint s' hd h hship =>
          cases hship with
          | unkept => rw [applied_journal]; exact hj
          | taken j record notices hj' => exact absurd (hj'.symm.trans hj) (by simp)
      | some j =>
        rcases h.journal_ok hj with ⟨hchanged, -, hj'⟩ | ⟨hchanged, record, hrecord, hj'⟩
        · rw [hj']
          simp [Course.ofAnswer, hchanged, Journal.pushAll]
        · rw [hj']
          simp [Course.ofAnswer, hchanged, hrecord, Journal.pushAll, Except.toOption]
    · have hcounters := h.counters_ok
      unfold countRevision at hcounters
      -- Whether the gauge was set or not, it shows the number of live entries.
      split at hcounters
      · rw [← Counters.mark, Counters.mark_setEntries] at hcounters
        exact Counters.eq_setEntries hcounters hshown
      · exact Counters.eq_setEntries (m := (s.monitor.counters.mark (some (.decided r.kind))).entries) hcounters hshown

/-- An eviction follows its course. -/
theorem Eviction.follows {answer : Except Error (Option Identity)} (h : Eviction s now key answer s')
    (hs : s.Living streams) (hgauge : s.monitor.counters.entries = s.count) :
    s.Follows now key (.ofEviction key s.IsOpen (s.live? key) s.mint) s' := by
  have hshown := (h.accounts hs).gauge hgauge
  have hmint := h.mint_eq
  have hsame (s : Store) : s.monitor.counters = s.monitor.counters.setEntries s.monitor.counters.entries := rfl
  cases h with
  | nothing hnone =>
    rw [hnone, Course.ofEviction]
    refine ⟨fun key' => ?_, rfl, (map_pushAll_nil _).symm, Counters.eq_setEntries (hsame s) hshown⟩
    exact (s.live?_eq_ite key key').trans (by rw [hnone])
  | refused entry e hentry hsub =>
    rw [hentry, Course.ofEviction, decide_eq_false hsub.not_isOpen, if_neg Bool.false_ne_true]
    refine ⟨fun key' => ?_, rfl, (map_pushAll_nil _).symm, Counters.eq_setEntries (hsame s) hshown⟩
    exact (s.live?_eq_ite key key').trans (by rw [hentry])
  | removed entry t hentry hsub =>
    rw [hentry, Course.ofEviction, decide_eq_true hsub.isOpen_of_ok, if_pos rfl]
    refine ⟨fun key' => ?_, hmint, ?_, ?_⟩
    · rw [live?_evicted, live?, hsub.slots_eq]
      rfl
    · cases hsub with
      | unkept hj => exact hj.trans (by rw [hj]; rfl)
      | taken j notices hj hopen => exact (congrArg some rfl).trans (by rw [hj]; rfl)
    · have hcounters : t.monitor.counters = s.monitor.counters := by cases hsub <;> rfl
      show (t.monitor.counters.setEntries (t.count - 1)).mark (some .evicted) = _
      rw [hcounters, Counters.mark_setEntries]
      rfl

theorem lookup_follows (hgauge : s.monitor.counters.entries = s.count) (key : Key) :
    s.Follows now key (.ofLookup (s.live? key) s.mint) (s.lookup key).2 := by
  have hshown (f : Counters → Counters) (hf : ∀ c, (f c).entries = c.entries) : (f s.monitor.counters).entries = s.count :=
    (hf _).trans hgauge
  unfold lookup Course.ofLookup
  cases hlive : s.live? key with
  | none =>
    refine ⟨fun key' => ?_, rfl, (map_pushAll_nil _).symm, ?_⟩
    · exact (s.live?_eq_ite key key').trans (by rw [hlive])
    · exact Counters.eq_setEntries (m := s.monitor.counters.entries) rfl (hshown (·.countMiss) fun _ => rfl)
  | some entry =>
    refine ⟨fun key' => ?_, rfl, (map_pushAll_nil _).symm, ?_⟩
    · exact (s.live?_eq_ite key key').trans (by rw [hlive])
    · exact Counters.eq_setEntries (m := s.monitor.counters.entries) rfl (hshown (·.countHit) fun _ => rfl)

/-- Every request about a key follows its course. -/
theorem Living.perform_follows (hs : s.Living streams) (hgauge : s.monitor.counters.entries = s.count) (now : Moment)
    {r : Request} (hr : r.key? = some key) :
    (s.perform ⟨r, streams, now⟩).1 = (r.course streams now key s.IsOpen (s.live? key) s.mint).reply ∧
      s.Follows now key (r.course streams now key s.IsOpen (s.live? key) s.mint) (s.perform ⟨r, streams, now⟩).2 := by
  unfold Request.course
  cases hd : r.decide? with
  | some p =>
    obtain ⟨key', decide⟩ := p
    obtain rfl : key' = key := Option.some.inj ((Request.key?_of_decide? hd).symm.trans hr)
    rw [perform_of_decide? (c := ⟨r, streams, now⟩) hd]
    have hfollows := (ending streams now key' decide hs.sound.tidy).follows hs hgauge
    obtain ⟨hanswer, hmint⟩ := hs.reconcileWith_eq now key' decide
    simp only [hmint, hanswer] at hfollows ⊢
    simp only [Course.ofDecision, decide_eq_true_eq]
    refine ⟨?_, hfollows⟩
    generalize (if s.IsOpen then _ else _ : Except Error Reconciliation) = answer
    cases answer <;> rfl
  | none =>
    cases r with
    | lookup key' =>
      obtain rfl : key' = key := Option.some.inj hr
      exact ⟨congrArg (fun entry => Except.ok (Reply.found entry)) (s.lookup_fst key'), lookup_follows hgauge key'⟩
    | evict key' =>
      obtain rfl : key' = key := Option.some.inj hr
      have hev := eviction hs.sound.tidy now key'
      refine ⟨?_, hev.follows hs hgauge⟩
      show (s.evict now key').1.map Reply.removed = _
      rw [evict_fst hs.sound.tidy now key']
      unfold Course.ofEviction
      cases s.live? key' with
      | none => rfl
      | some entry => by_cases hopen : s.IsOpen <;> simp [hopen, Except.map]
    | evictAll => exact absurd hr (by simp [Request.key?])
    | reconcile | reconcileWith | attach | clear => exact absurd hd (by simp [Request.decide?])

end Store
end ResponseCache
