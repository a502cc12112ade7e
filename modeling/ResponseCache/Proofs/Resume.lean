import ResponseCache.Proofs.Durable
import ResponseCache.Proofs.Fetch

namespace ResponseCache

/-- Two entries, each over its own streams, that look the same from outside. -/
structure Entry.Twin (e : Entry) (streams : Streams) (e' : Entry) (streams' : Streams) : Prop where
  identity : e'.identity = e.identity
  createdAt : e'.createdAt = e.createdAt
  primary : ∃ bytes, streams.content e.primary = .ok bytes ∧ streams'.content e'.primary = .ok bytes
  contentType : streams'.contentType e'.primary = streams.contentType e.primary
  label : e'.alternativeLabel = e.alternativeLabel
  alternative : ∀ a a', e.alternative = some a → e'.alternative = some a' →
    ∃ data, streams.content a.stream = .ok data ∧ streams'.content a'.stream = .ok data ∧
      streams'.contentType a'.stream = streams.contentType a.stream

/-- What a record says of an entry is all that shows from outside. -/
theorem Entry.twin_of_ofEntry {streams streams' : Streams} {e e' : Entry} {r : Record}
    (h : Record.ofEntry streams e = .ok r) (h' : Record.ofEntry streams' e' = .ok r) : e.Twin streams e' streams' := by
  have ht := Record.tells_of_ofEntry h
  have ht' := Record.tells_of_ofEntry h'
  refine ⟨ht'.identity.symm.trans ht.identity, ht'.createdAt.symm.trans ht.createdAt, ⟨r.primary, ht.primary, ht'.primary⟩,
    ht'.contentType.symm.trans ht.contentType, ?_, ?_⟩
  · cases ha : e.alternative with
    | none =>
      cases ha' : e'.alternative with
      | none => simp only [alternativeLabel, ha, ha']
      | some a' =>
        obtain ⟨data, -, hr⟩ := ht'.alternative a' ha'
        exact absurd ((ht.plain ha).symm.trans hr) (by simp)
    | some a =>
      obtain ⟨data, -, hr⟩ := ht.alternative a ha
      cases ha' : e'.alternative with
      | none => exact absurd ((ht'.plain ha').symm.trans hr) (by simp)
      | some a' =>
        obtain ⟨data', -, hr'⟩ := ht'.alternative a' ha'
        have hsame := Option.some.inj (hr'.symm.trans hr)
        simp only [alternativeLabel, ha, ha', Option.map_some]
        exact congrArg (some ∘ AlternativeRecord.label) hsame
  · intro a a' ha ha'
    obtain ⟨data, hdata, hr⟩ := ht.alternative a ha
    obtain ⟨data', hdata', hr'⟩ := ht'.alternative a' ha'
    have hsame := Option.some.inj (hr'.symm.trans hr)
    have hbytes : data' = data := congrArg AlternativeRecord.data hsame
    exact ⟨data, hdata, hbytes ▸ hdata', congrArg AlternativeRecord.contentType hsame⟩

/-- What a client sees of a response. -/
structure Shown where
  body : Bytes
  representation : Representation
  contentType : String
  cacheEntryId : Identity
  deriving DecidableEq, Repr

def Response.shown (r : Response) (streams : Streams) : Shown :=
  ⟨r.body, r.representation, r.contentType streams, r.cacheEntryId⟩

theorem Response.shown_eq {streams streams' : Streams} {intent : Intent} {r r' : Response} (h : r.Shows streams intent)
    (h' : r'.Shows streams' intent) (htwin : r.entry.Twin streams r'.entry streams') (hsource : r'.source = r.source) :
    r'.shown streams' = r.shown streams := by
  have hrepresentation : r'.representation = .alternative ↔ r.representation = .alternative := by
    rw [h.representation, h'.representation, htwin.label]
  have hid : r'.cacheEntryId = r.cacheEntryId := by
    rw [cacheEntryId, cacheEntryId, fromCache, fromCache, hsource, htwin.identity]
  unfold shown
  rw [hid]
  cases hr : r.representation with
  | primary =>
    have hr' : r'.representation = .primary := by
      cases hother : r'.representation with
      | primary => rfl
      | alternative => exact absurd (hr.symm.trans (hrepresentation.mp hother)) (by simp)
    obtain ⟨hbody, htype, -⟩ := h.primary hr
    obtain ⟨hbody', htype', -⟩ := h'.primary hr'
    obtain ⟨bytes, hbytes, hbytes'⟩ := htwin.primary
    have hsame : r'.body = r.body := by
      rw [← Except.ok.inj (hbytes.symm.trans hbody), ← Except.ok.inj (hbytes'.symm.trans hbody')]
    rw [hsame, hr', htype, htype', htwin.contentType]
  | alternative =>
    have hr' := hrepresentation.mpr hr
    obtain ⟨a, ha, hbody, htype, -⟩ := h.alternative hr
    obtain ⟨a', ha', hbody', htype', -⟩ := h'.alternative hr'
    obtain ⟨data, hdata, hdata', hcontentType⟩ := htwin.alternative a a' ha ha'
    have hsame : r'.body = r.body := by
      rw [← Except.ok.inj (hdata.symm.trans hbody), ← Except.ok.inj (hdata'.symm.trans hbody')]
    rw [hsame, hr', htype, htype', hcontentType]

namespace Store

theorem count_restore (now : Moment) (records : List Record) : ∀ (streams : Streams) (s : Store),
    (s.restore now records streams).2.2.count = s.count + (s.restore now records streams).1 := by
  induction records with
  | nil => exact fun streams s => rfl
  | cons record rest ih =>
    intro streams s
    have hone := restoring now record streams s
    simp only [restore]
    generalize restoreOne now record streams s = result at hone ⊢
    obtain ⟨isNew, streams', s'⟩ := result
    have hcount : s'.count = s.count + isNew.toNat := by
      cases hone <;> rfl
    refine (ih streams' s').trans ?_
    rw [hcount, Nat.add_assoc, Nat.add_comm isNew.toNat]

theorem live?_restore_of_live (now : Moment) {key : Key} {entry : Entry} (records : List Record) :
    ∀ (streams : Streams) (s : Store), s.live? key = some entry →
    (restore now records streams s).2.2.live? key = some entry := by
  induction records with
  | nil => exact fun streams s h => h
  | cons record rest ih =>
    intro streams s h
    have hone := restoring now record streams s
    simp only [restore]
    generalize restoreOne now record streams s = result at hone ⊢
    obtain ⟨isNew, streams', s'⟩ := result
    refine ih streams' s' ?_
    rw [hone.live? key]
    cases hone with
    | skipped habsent => simpa using h
    | passed entry' hpresent hlive => simpa using h
    | installed hpresent hnone =>
      have hne : record.key ≠ key := by
        rintro rfl
        exact absurd (hnone.symm.trans h) (by simp)
      simpa [hne] using h

theorem restoreOne_of_alike (now : Moment) (record : Record) (streams : Streams) {s s' : Store} (h : s.Alike s') :
    (restoreOne now record streams s').1 = (restoreOne now record streams s).1 ∧
      (restoreOne now record streams s').2.1 = (restoreOne now record streams s).2.1 ∧
      (restoreOne now record streams s).2.2.Alike (restoreOne now record streams s').2.2 := by
  obtain ⟨monitor, rfl⟩ := h
  by_cases habsent : record.identity.isAbsent = true
  · simp only [restoreOne, habsent, if_true, true_and]
    exact ⟨_, rfl⟩
  · by_cases hlive : (s.slots.get? record.key).join.isSome = true
    · simp only [restoreOne, habsent, live?, hlive, if_true]
      exact ⟨rfl, rfl, _, rfl⟩
    · simp only [restoreOne, habsent, live?, hlive]
      exact ⟨rfl, rfl, _, rfl⟩

theorem restore_of_alike (now : Moment) (records : List Record) : ∀ (streams : Streams) {s s' : Store}, s.Alike s' →
    (restore now records streams s').1 = (restore now records streams s).1 ∧
      (restore now records streams s').2.1 = (restore now records streams s).2.1 ∧
      (restore now records streams s).2.2.Alike (restore now records streams s').2.2 := by
  induction records with
  | nil => exact fun _ _ _ h => ⟨rfl, rfl, h⟩
  | cons record rest ih =>
    intro streams s s' h
    obtain ⟨hnew, hstreams, halike⟩ := restoreOne_of_alike now record streams h
    -- The streams agree after the first record, so the rest is taken in alike.
    obtain ⟨hcount, hrest, hafter⟩ := ih (restoreOne now record streams s).2.1 halike
    simp only [restore]
    rw [hnew, hstreams, hcount]
    exact ⟨rfl, hrest, hafter⟩

/-- A record without identity leaves nothing but a notice. -/
theorem restore_filter (now : Moment) (records : List Record) : ∀ (streams : Streams) (s : Store),
    let present := records.filter fun record => !record.identity.isAbsent
    (restore now records streams s).1 = (restore now present streams s).1 ∧
      (restore now records streams s).2.1 = (restore now present streams s).2.1 ∧
      (restore now present streams s).2.2.Alike (restore now records streams s).2.2 := by
  induction records with
  | nil => exact fun _ s => ⟨rfl, rfl, .refl s⟩
  | cons record rest ih =>
    intro streams s
    cases habsent : record.identity.isAbsent with
    | true =>
      have hskip : restoreOne now record streams s =
          (false, streams, { s with monitor := s.monitor.note (.recordSkipped record.key.display) }) := by
        rw [restoreOne, if_pos habsent]
      have hnoted : s.Alike { s with monitor := s.monitor.note (.recordSkipped record.key.display) } := ⟨_, rfl⟩
      obtain ⟨hcount, hstreams, halike⟩ := restore_of_alike now rest streams hnoted
      obtain ⟨hcount', hstreams', halike'⟩ := ih streams s
      simp only [List.filter_cons, habsent, Bool.not_true, Bool.false_eq_true, if_false, restore, hskip]
      exact ⟨hcount.trans hcount', hstreams.trans hstreams', halike'.trans halike⟩
    | false =>
      simp only [List.filter_cons, habsent, Bool.not_false, if_true, restore]
      obtain ⟨hcount, hstreams, halike⟩ := ih (restoreOne now record streams s).2.1 (restoreOne now record streams s).2.2
      exact ⟨by rw [hcount], hstreams, halike⟩

theorem ofEntry_of_recordOf {s : Store} {streams : Streams} {key : Key} {entry : Entry} {record : Record}
    (hlive : s.live? key = some entry) (h : s.recordOf streams key = some record) :
    Record.ofEntry streams entry = .ok record := by
  rw [recordOf, hlive, Option.bind_some] at h
  cases hr : Record.ofEntry streams entry with
  | error e => simp [hr, Except.toOption] at h
  | ok r =>
    rw [hr] at h
    exact congrArg Except.ok (Option.some.inj h)

theorem Living.recordOf_eq_none_iff {s : Store} {streams : Streams} (h : s.Living streams) (key : Key) :
    s.recordOf streams key = none ↔ s.live? key = none := by
  cases hlive : s.live? key with
  | none => simp [recordOf, hlive]
  | some entry =>
    obtain ⟨record, hr⟩ := Record.exists_ofEntry (h.sealed key entry hlive)
    simp [recordOf_eq_some hlive hr]

end Store

/-- Nothing that was submitted is under way: a flush behind which nothing was submitted came to its end, or the writer has
nothing left to do. -/
def Journal.Drained (j : Journal) : Prop := (∃ b : Barrier, b.target = j.lastSeq ∧ j.reached b = true) ∨ j.isIdle = true

theorem Journal.Drained.awaiting_eq_nil {j : Journal} (hn : j.Numbered) (h : j.Drained) : j.awaiting = [] := by
  rcases h with ⟨b, htarget, hreached⟩ | hidle
  · -- The barrier was reached, and nothing stands behind it.
    have hpending : j.pending = 0 := by
      simp only [reached, decide_eq_true_eq] at hreached
      unfold pending
      omega
    refine List.eq_nil_iff_forall_not_mem.mpr fun item hitem => ?_
    have hmem := mem_underway_of_mem_awaiting hitem
    rw [hn.underway_eq_nil hpending] at hmem
    exact List.not_mem_nil hmem
  · simp only [isIdle, Bool.and_eq_true, decide_eq_true_eq, List.isEmpty_iff] at hidle
    simp [awaiting, hidle.1, hidle.2]

theorem Mirrors.get?_eq_recordOf {streams : Streams} {backend : Backend} {s : Store} {j : Journal}
    (h : Mirrors streams backend s j) (hawaiting : j.awaiting = []) (key : Key) :
    backend.records.get? key = s.recordOf streams key := by
  have hshows := h.shows key
  rw [Journal.outcome, hawaiting, List.foldl_nil] at hshows
  exact hshows

theorem Mirrors.orderly {streams : Streams} {backend : Backend} {s : Store} {j : Journal}
    (h : Mirrors streams backend s j) (hawaiting : j.awaiting = []) : Backend.Orderly backend.records := by
  refine ⟨h.distinct, ?_⟩
  intro key record hget
  rw [h.get?_eq_recordOf hawaiting] at hget
  cases hlive : s.live? key with
  | none => simp [Store.recordOf, hlive] at hget
  | some entry =>
    exact (Record.tells_of_ofEntry (Store.ofEntry_of_recordOf hlive hget)).key.trans (h.tidy.keyed key entry hlive)

theorem Mirrors.mem_load_iff {streams : Streams} {backend : Backend} {s : Store} {j : Journal}
    (h : Mirrors streams backend s j) (hawaiting : j.awaiting = []) (record : Record) :
    record ∈ backend.load ↔ s.recordOf streams record.key = some record := by
  rw [← h.get?_eq_recordOf hawaiting, Backend.load, Table.values, List.mem_map]
  constructor
  · rintro ⟨⟨key, r⟩, hrow, rfl⟩
    have hget := (backend.records.get?_eq_some_iff h.distinct key r).mpr hrow
    rw [(h.orderly hawaiting).keyed key r hget]
    exact hget
  · intro hget
    exact ⟨(record.key, record), (backend.records.get?_eq_some_iff h.distinct _ _).mp hget, rfl⟩

namespace System

/-- A copy that the origin confirms is served as it is, to a client that supplies nothing. -/
theorem fetch_kept {y : System} (hy : y.store.Living y.streams) (now : Moment) {key : Key}
    {intent : Intent} (hanswer : (y.service.inquire key intent).1 = .notModified) (hintent : intent.supplied? = none)
    {entry : Entry} (hlive : y.store.live? key = some entry) : ∃ response,
      (y.service.fetch y.streams now key intent).1 = .ok response ∧ response.entry = entry ∧ response.source = .cache ∧
      response.Shows y.streams intent := by
  obtain ⟨answer, s, s', h⟩ := fetched_of_notModified hy.sound.tidy now hanswer
  have hs : s.live? key = some entry := (h.live?_eq key).trans hlive
  rcases Decision.decide_notModified key entry intent with ⟨hkeep, -⟩ | ⟨a, ha, -⟩
  · have hkept := (h.ending.of_stands (hs ▸ hkeep) hs .keep).1
    subst hkept
    obtain ⟨response, hresponse⟩ := Service.exists_serve (y.service.inquire key intent).2 y.streams intent .cache
      (r := ⟨entry, .keep, entry.identity, false⟩) (hy.sealed key entry hlive)
    obtain ⟨hentry, hsource, hshows⟩ := Service.shows_of_serve _ _ _ hresponse
    exact ⟨response, (h.served _ rfl).trans hresponse, hentry, hsource, hshows⟩
  · exact absurd (ha.symm.trans hintent) (by simp)

theorem fetch_inconsistent {y : System} (hy : y.store.Tidy) (now : Moment) {key : Key} {intent : Intent}
    (hanswer : (y.service.inquire key intent).1 = .notModified) (hlive : y.store.live? key = none) :
    (y.service.fetch y.streams now key intent).1 =
      .error (.inconsistentRevalidation key.display "origin reported not-modified but nothing is cached") := by
  obtain ⟨answer, s, s', h⟩ := fetched_of_notModified hy now hanswer
  exact (h.inconsistent hlive).1

/-- Two systems whose live entries have the same records. -/
structure Agrees (y z : System) : Prop where
  living : y.store.Living y.streams
  living' : z.store.Living z.streams
  records : ∀ key, z.store.recordOf z.streams key = y.store.recordOf y.streams key

namespace Agrees
variable {y z : System}

theorem live?_eq_none_iff (h : y.Agrees z) (key : Key) : z.store.live? key = none ↔ y.store.live? key = none := by
  rw [← h.living'.recordOf_eq_none_iff, ← h.living.recordOf_eq_none_iff, h.records]

theorem twin (h : y.Agrees z) {key : Key} {e e' : Entry} (he : y.store.live? key = some e)
    (he' : z.store.live? key = some e') : e.Twin y.streams e' z.streams := by
  obtain ⟨r, hr⟩ := Record.exists_ofEntry (h.living.sealed key e he)
  have hshown : z.store.recordOf z.streams key = some r := (h.records key).trans (Store.recordOf_eq_some he hr)
  exact Entry.twin_of_ofEntry hr (Store.ofEntry_of_recordOf he' hshown)

theorem length_keys_eq (h : y.Agrees z) : z.store.keys.length = y.store.keys.length := by
  refine Store.length_keys_eq h.living.sound.tidy h.living'.sound.tidy ?_
  intro key
  have hnone := h.live?_eq_none_iff key
  cases hlive : y.store.live? key with
  | none => rw [hnone.mpr hlive]
  | some e =>
    cases hlive' : z.store.live? key with
    | none => exact absurd ((hnone.mp hlive').symm.trans hlive) (by simp)
    | some e' => rfl

/-- A fetch whose copy the origins confirm shows the same on both sides. -/
theorem fetch (h : y.Agrees z) (now₁ now₂ : Moment) {key : Key} {intent : Intent} (hintent : intent.supplied? = none)
    (hy : (y.service.inquire key intent).1 = .notModified) (hz : (z.service.inquire key intent).1 = .notModified) :
    (z.service.fetch z.streams now₂ key intent).1.map (·.shown z.streams) =
        (y.service.fetch y.streams now₁ key intent).1.map (·.shown y.streams) ∧
      (y.store.live? key ≠ none → ∃ r, (y.service.fetch y.streams now₁ key intent).1 = .ok r) := by
  cases hlive : y.store.live? key with
  | none =>
    have hlive' : z.store.live? key = none := (h.live?_eq_none_iff key).mpr hlive
    rw [fetch_inconsistent h.living.sound.tidy now₁ hy hlive, fetch_inconsistent h.living'.sound.tidy now₂ hz hlive']
    exact ⟨rfl, by simp⟩
  | some e =>
    have hne : z.store.live? key ≠ none := by
      rw [ne_eq, h.live?_eq_none_iff, hlive]
      simp
    obtain ⟨e', hlive'⟩ := Option.ne_none_iff_exists'.mp hne
    obtain ⟨r, hr, hentry, hsource, hshows⟩ := fetch_kept h.living now₁ hy hintent hlive
    obtain ⟨r', hr', hentry', hsource', hshows'⟩ := fetch_kept h.living' now₂ hz hintent hlive'
    have htwin : r.entry.Twin y.streams r'.entry z.streams := by
      rw [hentry, hentry']
      exact h.twin hlive hlive'
    rw [hr, hr']
    exact ⟨congrArg Except.ok (Response.shown_eq hshows hshows' htwin (hsource'.trans hsource.symm)), fun _ => ⟨r, rfl⟩⟩

end Agrees

/-- A service that takes in the records of a backend that has caught up with another service has the records of its live
entries. -/
theorem recordOf_restored {y : System} {j : Journal} (hmirrors : Mirrors y.streams y.backend y.store j)
    (hliving : y.store.Living y.streams) (hawaiting : j.awaiting = []) {records : List Record}
    (hperm : records.Perm y.backend.load) (s : Store) (hslots : s.slots = {}) (streams : Streams) (now : Moment) (key : Key) :
    (s.restore now records streams).2.2.recordOf (s.restore now records streams).2.1 key =
      y.store.recordOf y.streams key := by
  have hpresent : ∀ record ∈ records, record.identity.isAbsent = false := by
    intro record hmem
    have hshown := (hmirrors.mem_load_iff hawaiting record).mp (hperm.mem_iff.mp hmem)
    cases hlive : y.store.live? record.key with
    | none => simp [Store.recordOf, hlive] at hshown
    | some entry =>
      have hidentity := (Record.tells_of_ofEntry (Store.ofEntry_of_recordOf hlive hshown)).identity
      have hne : ¬record.identity.isAbsent = true := by
        rw [Identity.isAbsent_iff, hidentity]
        exact hliving.present record.key entry hlive
      simpa using hne
  -- The new store and the old backend mirror each other with an empty journal, whatever the order of the records was.
  have hrestored := (mirrors_restored streams s {} now (hmirrors.orderly hawaiting) hmirrors.willing hperm hpresent hslots
    (Journal.numbered_of_fresh rfl rfl rfl) rfl rfl rfl rfl).2
  rw [← hrestored.get?_eq_recordOf rfl, hmirrors.get?_eq_recordOf hawaiting]

/-- A service that takes in what a drained service left in its backend goes on where that one stopped. It has as many
entries, which look the same and have the very records that they came from; it serves the same copies; and it gives out
larger identities only. Taking records in passes over those without identity, and leaves alone what is live. -/
theorem restored_service_agrees {y : System} (config : Config) (origin : Origin) (publisher : Publisher) (backend : Backend)
    (hempty : backend.records = {}) (hwilling : backend.failing = 0) (moves : List Move) (hm : ∀ m ∈ moves, m.Ordinary)
    (hy : y = (start config true origin publisher backend).run moves)
    (hdrained : ∀ j, y.store.journal = some j → j.Drained) {records : List Record} (hperm : records.Perm y.backend.load)
    (config' : Config) (persistent : Bool) (origin' : Origin) (publisher' : Publisher) (streams : Streams) (now : Moment) :
    let fresh : System := { start config' persistent origin' publisher' y.backend with streams }
    let z := fresh.step (.restore now records)
    (fresh.store.restore now records fresh.streams).1 = y.store.keys.length ∧ y.store.keys.length = y.store.count ∧
    (∀ key, ((z.store.lookup key).1 = none ↔ (y.store.lookup key).1 = none) ∧
      ∀ e e', (y.store.lookup key).1 = some e → (z.store.lookup key).1 = some e' → e.Twin y.streams e' z.streams) ∧
    (∀ record ∈ records, ∃ e', z.store.live? record.key = some e' ∧ Record.ofEntry z.streams e' = .ok record) ∧
    (∀ key e', z.store.live? key = some e' → ∃ record ∈ records, Record.ofEntry z.streams e' = .ok record) ∧
    (∀ now₁ now₂ key intent, intent.supplied? = none → (y.service.inquire key intent).1 = .notModified →
      (z.service.inquire key intent).1 = .notModified →
      ((z.service.fetch z.streams now₂ key intent).1.map (·.shown z.streams) =
        (y.service.fetch y.streams now₁ key intent).1.map (·.shown y.streams)) ∧
      (y.store.live? key ≠ none → ∃ r, (y.service.fetch y.streams now₁ key intent).1 = .ok r)) ∧
    (∀ later m i, (z.run later).minted m = some i → ∀ record ∈ records, record.identity < i) ∧
    ∀ (s : Store) (streams : Streams) (now : Moment) (records : List Record),
      (∀ key entry, s.live? key = some entry → (s.restore now records streams).2.2.live? key = some entry) ∧
      let present := records.filter fun record => !record.identity.isAbsent
      (s.restore now records streams).1 = (s.restore now present streams).1 ∧
      (s.restore now records streams).2.1 = (s.restore now present streams).2.1 ∧
      (s.restore now present streams).2.2.Alike (s.restore now records streams).2.2 := by
  intro fresh z
  have hkept := kept_mirrors.run moves hm (mirrors_begins (.empty config origin publisher backend hempty hwilling))
  rw [← hy] at hkept
  obtain ⟨j, hj, hmirrors⟩ := hkept
  -- With nothing under way, the records of the backend are those of the live entries.
  have hawaiting : j.awaiting = [] := (hdrained j hj).awaiting_eq_nil hmirrors.numbered
  have hyl : y.store.Living y.streams := hy ▸ living_run (living_start config true origin publisher backend) moves
  have hfresh : fresh.store.Living fresh.streams := .fresh streams rfl rfl rfl
  have hzl : z.store.Living z.streams := living_step hfresh (.restore now records)
  have hagrees : y.Agrees z := by
    refine ⟨hyl, hzl, ?_⟩
    exact recordOf_restored hmirrors hyl hawaiting hperm fresh.store rfl streams now
  have hcount : z.store.count = 0 + (fresh.store.restore now records fresh.streams).1 :=
    Store.count_restore now records streams fresh.store
  have hloaded (record : Record) : record ∈ records ↔ z.store.recordOf z.streams record.key = some record := by
    rw [hperm.mem_iff, hmirrors.mem_load_iff hawaiting, hagrees.records]
  refine ⟨?_, hyl.counted.symm, ?_, ?_, ?_, ?_, ?_, ?_⟩
  · rw [← hagrees.length_keys_eq, ← hzl.counted, hcount, Nat.zero_add]
  · intro key
    simp only [Store.lookup_fst]
    exact ⟨hagrees.live?_eq_none_iff key, fun e e' => hagrees.twin⟩
  · intro record hmem
    have hshown := (hloaded record).mp hmem
    cases hlive : z.store.live? record.key with
    | none => simp [Store.recordOf, hlive] at hshown
    | some e' => exact ⟨e', rfl, Store.ofEntry_of_recordOf hlive hshown⟩
  · intro key e' hlive
    obtain ⟨record, hr⟩ := Record.exists_ofEntry (hzl.sealed key e' hlive)
    have hkey : record.key = key := (Record.tells_of_ofEntry hr).key.trans (hzl.sound.tidy.keyed key e' hlive)
    refine ⟨record, (hloaded record).mpr ?_, hr⟩
    rw [hkey]
    exact Store.recordOf_eq_some hlive hr
  · intro now₁ now₂ key intent hintent hy' hz'
    exact hagrees.fetch now₁ now₂ hintent hy' hz'
  · -- To read the records has moved the new mint past their identities.
    intro later m i hi record hmem
    have hread : record.identity ∈ (Move.restore now records).read := List.mem_map_of_mem hmem
    have hpast := (onward_run hzl.sound.tidy later).past (past_of_read hfresh.sound hread)
    exact lt_of_minted (living_run hzl later).sound.tidy hpast hi
  · intro s streams now records
    exact ⟨fun key entry => Store.live?_restore_of_live now records streams s, Store.restore_filter now records streams s⟩

/-- An entry with an alternative that is labelled otherwise than its content type. -/
theorem labelled_alternative_restored : ∃ y z : System,
    y = (start {} true {} .nobody {}).run [.openStream (.ofContent "text/plain" [1]), .openStream (.ofContent "text/html" [2]),
      .ask ⟨0⟩ (.reconcile (.ofUri "/") (.replace 0 (some ⟨"summary", 1⟩))), .work .take, .work .apply, .work .file,
      .work .publish] ∧
    z = ({ start {} false {} .nobody y.backend with streams := {} } : System).step (.restore ⟨9⟩ y.backend.load) ∧
    y.store.keys = [.ofUri "/"] ∧ ∃ e e', y.store.live? (.ofUri "/") = some e ∧ z.store.live? (.ofUri "/") = some e' ∧
      e.alternative = some ⟨"summary", 1⟩ ∧ e.Twin y.streams e' z.streams := by
  rw [Key.ofUri_root]
  refine ⟨_, _, rfl, rfl, rfl, _, _, rfl, rfl, rfl, ?_⟩
  have hagrees := restored_service_agrees {} {} .nobody {} rfl rfl
    [.openStream (.ofContent "text/plain" [1]), .openStream (.ofContent "text/html" [2]),
      .ask ⟨0⟩ (.reconcile ⟨"/", [], 5061318609660819817⟩ (.replace 0 (some ⟨"summary", 1⟩))), .work .take, .work .apply,
      .work .file, .work .publish] (by simp [Move.Ordinary]) rfl (fun j hj => by cases hj; exact .inr rfl) (.refl _)
    {} false {} .nobody {} ⟨9⟩
  exact (hagrees.2.2.1 ⟨"/", [], 5061318609660819817⟩).2 _ _ rfl rfl

end System
end ResponseCache
