import ResponseCache.Proofs.Journal.Drain
import ResponseCache.Proofs.Tally
/-!
The books of a store. The number of live entries is kept apart from the slots, and slots are opened before it is known how an
operation ends; still every operation leaves both in agreement. To evict everything takes the keys out one after the other and
submits the removal of each.
-/
namespace ResponseCache

namespace Store
variable {s s' : Store} {streams : Streams} {now : Moment} {key : Key}

/-- The slots, the keys and the number of live entries of a store fit together, and the gauge shows that number. -/
structure Booked (s : Store) : Prop where
  occupied : ∀ row ∈ s.slots.rows, row.2 ≠ none
  listed : ∀ key, key ∈ s.keys ↔ ∃ entry, s.live? key = some entry
  once : s.keys.Nodup
  keyed : ∀ key entry, s.live? key = some entry → entry.key = key
  counted : s.count = s.keys.length
  shown : s.monitor.counters.entries = s.count

theorem Tidy.ne_none_of_mem (hs : s.Tidy) {row : Key × Option Entry} (hrow : row ∈ s.slots.rows) : row.2 ≠ none := by
  obtain ⟨key, slot⟩ := row
  rintro rfl
  exact hs.occupied key ((s.slots.get?_eq_some_iff hs.distinct key none).mpr hrow)

theorem Living.booked (hs : s.Living streams) (hgauge : s.monitor.counters.entries = s.count) : s.Booked where
  occupied := fun _ => hs.sound.tidy.ne_none_of_mem
  listed := mem_keys_iff hs.sound.tidy
  once := nodup_keys hs.sound.tidy
  keyed := hs.sound.tidy.keyed
  counted := hs.counted
  shown := hgauge

/-- Without live entries there are no slots. -/
theorem Tidy.rows_eq_nil (hs : s.Tidy) (hnone : ∀ key, s.live? key = none) : s.slots.rows = [] := by
  rw [List.eq_nil_iff_forall_not_mem]
  rintro ⟨key, slot⟩ hrow
  have hget := (s.slots.get?_eq_some_iff hs.distinct key slot).mpr hrow
  rw [(hs.live?_eq_none_iff key).mp (hnone key)] at hget
  exact absurd hget (by simp)

/-- An eviction that removes an entry finds it counted, takes one off, and submits its removal. -/
theorem Eviction.taken {identity : Identity} (h : Eviction s now key (.ok (some identity)) s') (hs : s.Living streams) :
    s'.count + 1 = s.count ∧ s'.journal = s.journal.map (·.push now.tick (.remove key)) := by
  cases h with
  | removed entry t hlive hsub =>
    have hcount : t.count = s.count := by cases hsub <;> rfl
    have hpos : 0 < s.count := by
      rw [hs.counted]
      exact List.length_pos_of_mem ((mem_keys_iff hs.sound.tidy key).mpr ⟨entry, hlive⟩)
    refine ⟨?_, ?_⟩
    · show t.count - 1 + 1 = s.count
      omega
    · cases hsub with
      | unkept hj => rw [hj]; exact hj
      | taken j notices hj hopen => rw [hj]; rfl

/-- These keys were taken out one after the other, with a removal submitted for each. -/
structure Emptied (now : Moment) (keys : List Key) (s s' : Store) : Prop where
  count : s'.count + keys.length = s.count
  live : ∀ key, s'.live? key = if key ∈ keys then none else s.live? key
  journal : s'.journal = s.journal.map (·.pushAll (keys.map fun key => (now.tick, .remove key)))

/-- To evict different live keys in a row, when that ends well, takes out each of them. -/
theorem emptied_evictEach (keys : List Key) : ∀ (n : Nat) {s : Store}, s.Living streams → keys.Nodup →
    (∀ key ∈ keys, ∃ entry, s.live? key = some entry) → ∀ m, (evictEach now keys n s).1 = .ok m →
    m = n + keys.length ∧ s.Emptied now keys (evictEach now keys n s).2 := by
  induction keys with
  | nil =>
    intro n s hs _ _ m hm
    have hsame : s.journal.map (·.pushAll []) = s.journal := by cases s.journal <;> rfl
    exact ⟨(Except.ok.inj hm).symm, rfl, by simp [evictEach], hsame.symm⟩
  | cons key rest ih =>
    intro n s hs hnodup hlive m hm
    have hev := eviction hs.sound.tidy now key
    obtain ⟨entry, hentry⟩ := hlive key List.mem_cons_self
    have hanswer := evict_fst hs.sound.tidy now key
    have hrest := live?_evictEach (key :: rest) n s hs.sound.tidy m hm
    unfold evictEach at hm hrest ⊢
    generalize s.evict now key = result at hev hanswer hm hrest ⊢
    obtain ⟨answer, t⟩ := result
    cases answer with
    | error e => exact absurd hm (by simp)
    | ok removed =>
      -- The key is live, so something was removed; the other keys are still live then.
      simp only at hev hm hrest ⊢
      obtain rfl : removed = some entry.identity := by
        simp only [hentry] at hanswer
        split at hanswer
        · exact Except.ok.inj hanswer
        · exact absurd hanswer (by simp)
      obtain ⟨hcount, hjournal⟩ := hev.taken hs
      simp only [Option.isSome_some, Bool.toNat_true] at hm hrest ⊢
      have hstill : ∀ key' ∈ rest, ∃ entry, t.live? key' = some entry := by
        intro key' hmem
        have hne : ¬key = key' := fun h => (List.nodup_cons.mp hnodup).1 (h ▸ hmem)
        rw [hev.live?_ok key', if_neg hne]
        exact hlive key' (List.mem_cons_of_mem key hmem)
      obtain ⟨hm', hempty⟩ := ih (n + 1) (hev.living hs) (List.nodup_cons.mp hnodup).2 hstill m hm
      have hcount' := hempty.count
      refine ⟨?_, ?_, hrest, ?_⟩
      · rw [hm', List.length_cons]
        omega
      · rw [List.length_cons]
        omega
      · rw [hempty.journal, hjournal, Option.map_map]
        rfl

/-- To evict everything, when that ends well, takes every live key out, and so does each beginning of it. -/
theorem Living.emptied_evictAll (hs : s.Living streams) {n : Nat} (h : (s.evictAll now).1 = .ok n) :
    n = s.count ∧ s.Emptied now s.keys (s.evictAll now).2 ∧
      ∀ i ≤ n, s.Emptied now (s.keys.take i) (evictEach now (s.keys.take i) 0 s).2 := by
  have hlive : ∀ key ∈ s.keys, ∃ entry, s.live? key = some entry := fun key => (mem_keys_iff hs.sound.tidy key).mp
  have hnodup := nodup_keys hs.sound.tidy
  obtain ⟨hn, hempty⟩ := emptied_evictEach s.keys 0 hs hnodup hlive n h
  refine ⟨by rw [hn, hs.counted, Nat.zero_add], hempty, fun i _ => ?_⟩
  cases hanswer : (evictEach now (s.keys.take i) 0 s).1 with
  | ok m =>
    have htake : ∀ key ∈ s.keys.take i, ∃ entry, s.live? key = some entry := fun key hkey =>
      hlive key (List.mem_of_mem_take hkey)
    exact (emptied_evictEach _ 0 hs (hnodup.sublist (List.take_sublist i s.keys)) htake m hanswer).2
  | error e =>
    -- A journal that refuses the removal of one key refuses that of the first, so that all would have failed.
    have hclosed := (evictEach_error now _ 0 s hs.sound.tidy hanswer).2
    have hall := evictAll_of_not_isOpen hs.sound.tidy hclosed now
    rw [h] at hall
    split at hall
    · rename_i hkeys
      rw [hkeys, List.take_nil] at hanswer
      exact absurd hanswer (by simp [evictEach])
    · exact absurd hall (by simp)

end Store

namespace System

/-- The books are kept. After every run of a system, whatever is asked, restored or refused in it, no slot is vacant, the keys
are those with a live entry, each once and each entry under its own, and the number of live entries is the number of keys and
what the gauge shows. An eviction that removes an entry takes exactly one off that number. To evict everything, when it ends
well, answers with that number and takes it down one by one to nothing; no slot is left, and the journal has got the removal
of every key that was live, and nothing else. -/
theorem books_are_kept (config : Config) (persistent : Bool) (origin : Origin) (publisher : Publisher) (backend : Backend)
    (moves : List Move) :
    let s := ((start config persistent origin publisher backend).run moves).store
    s.Booked ∧
    (∀ now key identity, (s.evict now key).1 = .ok (some identity) → (s.evict now key).2.count + 1 = s.count) ∧
    (∀ now n, (s.evictAll now).1 = .ok n →
      let s' := (s.evictAll now).2
      n = s.count ∧ s'.slots.rows = [] ∧ s'.keys = [] ∧ s'.count = 0 ∧
      (∀ i ≤ n, (Store.evictEach now (s.keys.take i) 0 s).2.count + i = n) ∧
      s'.journal = s.journal.map fun j => { j with
        lastSeq := j.lastSeq + n
        queue := j.queue ++ s.keys.mapIdx fun i key => ⟨j.lastSeq + 1 + i, .remove key, now.tick⟩ }) := by
  intro s
  have hstart := living_start config persistent origin publisher backend
  have hs : s.Living ((start config persistent origin publisher backend).run moves).streams := living_run hstart moves
  -- The gauge moves with the facts of a run, as the count does, and both begin at nothing.
  have hgauge : s.monitor.counters.entries = s.count := (accounts_run moves hstart).gauge rfl
  refine ⟨hs.booked hgauge, ?_, ?_⟩
  · intro now key identity hanswer
    have hev := Store.eviction hs.sound.tidy now key
    rw [hanswer] at hev
    exact (hev.taken hs).1
  · intro now n hanswer s'
    obtain ⟨hn, hempty, hsteps⟩ := hs.emptied_evictAll hanswer
    have htidy : s'.Tidy := Store.evictEach_keeps (P := Store.Tidy)
      (fun t key ht => (Store.eviction ht now key).tidy ht) s.keys 0 s hs.sound.tidy
    have hrows : s'.slots.rows = [] := htidy.rows_eq_nil fun key => Store.live?_evictAll hs.sound.tidy hanswer key
    have hcount := hempty.count
    rw [← hs.counted] at hcount
    refine ⟨hn, hrows, by rw [Store.keys, hrows]; rfl, by show (s.evictAll now).2.count = 0; omega, ?_, ?_⟩
    · intro i hi
      have hstep := (hsteps i hi).count
      rw [List.length_take, ← hs.counted] at hstep
      omega
    · rw [hempty.journal]
      refine congrArg (Option.map · s.journal) (funext fun j => ?_)
      have hnumbered : ((s.keys.map fun key => (now.tick, Change.remove key)).mapIdx fun i op =>
          (⟨j.lastSeq + 1 + i, op.2, op.1⟩ : Queued)) =
          s.keys.mapIdx fun i key => ⟨j.lastSeq + 1 + i, .remove key, now.tick⟩ :=
        List.ext_getElem (by simp) (by simp)
      rw [Journal.pushAll_eq, List.length_map, hnumbered, ← hs.counted, hn]

end System
end ResponseCache
