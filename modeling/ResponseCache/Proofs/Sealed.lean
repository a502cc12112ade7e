import ResponseCache.Record

namespace ResponseCache

namespace Streams

/-- Every stream that is sealed in the first is the same in the second. -/
def Keeps (s s' : Streams) : Prop :=
  ∀ id stream content, s.get? id = some stream → stream.phase = .sealed content → s'.get? id = some stream

/-- The stream with that handle has its content. -/
def Sealed (s : Streams) (id : StreamId) : Prop := ∃ bytes, s.content id = .ok bytes

theorem Keeps.refl (s : Streams) : s.Keeps s := fun _ _ _ h _ => h

theorem Keeps.trans {s s' s'' : Streams} (h : s.Keeps s') (h' : s'.Keeps s'') : s.Keeps s'' := by
  intro id stream content hget hphase
  exact h' id stream content (h id stream content hget hphase) hphase

theorem content_eq_ok_iff (s : Streams) (id : StreamId) (bytes : Bytes) :
    s.content id = .ok bytes ↔ ∃ stream, s.get? id = some stream ∧ stream.phase = .sealed bytes := by
  unfold content
  cases hget : s.get? id with
  | none => simp
  | some stream =>
    obtain ⟨contentType, limit, phase⟩ := stream
    cases phase <;> simp [Stream.content]

theorem Keeps.content {s s' : Streams} (h : s.Keeps s') {id : StreamId} {bytes : Bytes}
    (hc : s.content id = .ok bytes) : s'.content id = .ok bytes := by
  obtain ⟨stream, hget, hphase⟩ := (s.content_eq_ok_iff id bytes).mp hc
  exact (s'.content_eq_ok_iff id bytes).mpr ⟨stream, h id stream bytes hget hphase, hphase⟩

theorem Keeps.contentType {s s' : Streams} (h : s.Keeps s') {id : StreamId} (hs : s.Sealed id) :
    s'.contentType id = s.contentType id := by
  obtain ⟨bytes, hc⟩ := hs
  obtain ⟨stream, hget, hphase⟩ := (s.content_eq_ok_iff id bytes).mp hc
  have hget' : s'.get? id = some stream := h id stream bytes hget hphase
  simp only [Streams.contentType, hget, hget']

theorem Keeps.sealed {s s' : Streams} (h : s.Keeps s') {id : StreamId} (hs : s.Sealed id) : s'.Sealed id := by
  obtain ⟨bytes, hc⟩ := hs
  exact ⟨bytes, h.content hc⟩

theorem ensureSealed_eq_ok_iff (s : Streams) (id : StreamId) : s.ensureSealed id = .ok () ↔ s.Sealed id := by
  unfold ensureSealed Sealed
  cases s.content id <;> simp [Except.map]

theorem error_of_ensureSealed {s : Streams} {id : StreamId} {e : Error} (h : s.ensureSealed id = .error e) :
    e = .streamNotReady ∨ e = .streamAborted := by
  simp only [ensureSealed, content] at h
  cases hget : s.get? id with
  | none => simp_all [Except.map]
  | some stream =>
    obtain ⟨contentType, limit, phase⟩ := stream
    cases phase <;> simp_all [Stream.content, Except.map]

/-- Of these streams one has no content, and this is the error that the first such gives. -/
def Refuses (s : Streams) (ids : List StreamId) (e : Error) : Prop :=
  ∃ before id after, ids = before ++ id :: after ∧ (∀ i ∈ before, s.Sealed i) ∧ s.ensureSealed id = .error e

section
variable {s : Streams} {id : StreamId} {ids : List StreamId} {e : Error}

theorem refuses_head (he : s.ensureSealed id = .error e) (rest : List StreamId) : s.Refuses (id :: rest) e :=
  ⟨[], id, rest, rfl, by simp, he⟩

theorem Refuses.cons (hid : s.Sealed id) (h : s.Refuses ids e) : s.Refuses (id :: ids) e := by
  obtain ⟨before, id', after, rfl, hbefore, he⟩ := h
  exact ⟨id :: before, id', after, rfl, List.forall_mem_cons.mpr ⟨hid, hbefore⟩, he⟩

theorem Refuses.not_sealed (h : s.Refuses ids e) : ¬∀ id ∈ ids, s.Sealed id := by
  obtain ⟨before, id, after, rfl, -, he⟩ := h
  intro hall
  have hok := (s.ensureSealed_eq_ok_iff id).mpr (hall id (List.mem_append_right _ List.mem_cons_self))
  exact absurd (hok.symm.trans he) (by simp)

theorem Refuses.error_eq (h : s.Refuses ids e) : e = .streamNotReady ∨ e = .streamAborted := by
  obtain ⟨before, id, after, -, -, he⟩ := h
  exact error_of_ensureSealed he

end

theorem get?_add_self (s : Streams) (stream : Stream) : (s.add stream).2.get? (s.add stream).1 = some stream := by
  simp [add, get?]

theorem content_add (s : Streams) (contentType : String) (bytes : Bytes) :
    (s.add (.ofContent contentType bytes)).2.content (s.add (.ofContent contentType bytes)).1 = .ok bytes :=
  (content_eq_ok_iff _ _ _).mpr ⟨_, s.get?_add_self _, rfl⟩

theorem contentType_add (s : Streams) (stream : Stream) :
    (s.add stream).2.contentType (s.add stream).1 = stream.contentType := by
  simp only [contentType, s.get?_add_self, Option.map_some, Option.getD_some]

theorem get?_add_of_some {s : Streams} {id : StreamId} {old : Stream} (h : s.get? id = some old) (new : Stream) :
    (s.add new).2.get? id = some old := by
  have hlt : id < s.cells.size := (Array.getElem?_eq_some_iff.mp h).choose
  have hne : id ≠ s.cells.size := Nat.ne_of_lt hlt
  simpa [add, get?, Array.getElem?_push, hne] using h

theorem keeps_add (s : Streams) (stream : Stream) : s.Keeps (s.add stream).2 :=
  fun _ _ _ hget _ => get?_add_of_some hget stream

theorem get?_set (s : Streams) (id id' : StreamId) (stream : Stream) :
    (s.set id stream).get? id' = if id = id' then (s.get? id').map fun _ => stream else s.get? id' := by
  by_cases hid : id = id'
  · subst hid
    simp only [set, get?, Array.getElem?_setIfInBounds, if_true]
    by_cases hlt : id < s.cells.size
    · simp [hlt]
    · simp [hlt]
  · simp [set, get?, hid]

/-- An action on a stream puts what it makes of it in its place. -/
theorem get?_update {s s' : Streams} {id : StreamId} {f : Stream → Except Error Stream} (h : s.update id f = .ok s') :
    ∃ old new, s.get? id = some old ∧ f old = .ok new ∧
      ∀ id', s'.get? id' = if id = id' then some new else s.get? id' := by
  unfold update at h
  cases hold : s.get? id with
  | none => simp [hold] at h
  | some old =>
    rw [hold] at h
    cases hnew : f old with
    | error e => simp [hnew, Except.map] at h
    | ok new =>
      simp only [hnew, Except.map, Except.ok.injEq] at h
      refine ⟨old, new, rfl, hnew, ?_⟩
      intro id'
      rw [← h, get?_set]
      by_cases hid : id = id'
      · rw [if_pos hid, if_pos hid, ← hid, hold]
        rfl
      · rw [if_neg hid, if_neg hid]

/-- An action that sealed streams refuse keeps them. -/
theorem keeps_update {s s' : Streams} {id : StreamId} {f : Stream → Except Error Stream}
    (hf : ∀ stream content, stream.phase = .sealed content → f stream = .error .streamSealed)
    (h : s.update id f = .ok s') : s.Keeps s' := by
  intro id' stream content hget hphase
  obtain ⟨old, new, hold, hnew, hall⟩ := get?_update h
  rw [hall]
  by_cases hid : id = id'
  · subst hid
    -- The action had to succeed on a sealed stream.
    rw [Option.some.inj (hold.symm.trans hget), hf stream content hphase] at hnew
    exact absurd hnew (by simp)
  · rw [if_neg hid]
    exact hget

theorem keeps_write {s s' : Streams} {id : StreamId} {bytes : Bytes} (h : s.write id bytes = .ok s') : s.Keeps s' := by
  refine keeps_update ?_ h
  intro stream content hphase
  simp [Stream.write, hphase]

theorem keeps_finish {s s' : Streams} {id : StreamId} (h : s.finish id = .ok s') : s.Keeps s' := by
  refine keeps_update ?_ h
  intro stream content hphase
  simp [Stream.finish, hphase]

theorem keeps_release (s : Streams) (id : StreamId) : s.Keeps (s.release id) := by
  intro id' stream content hget hphase
  unfold release
  cases hold : s.get? id with
  | none => exact hget
  | some old =>
    rw [get?_set]
    by_cases hid : id = id'
    · subst hid
      rw [hold, Option.some.injEq] at hget
      simp [hold, hget, Stream.release, hphase]
    · rw [if_neg hid]
      exact hget

end Streams

/-- An entry over sealed streams. -/
structure Entry.Sealed (streams : Streams) (e : Entry) : Prop where
  primary : streams.Sealed e.primary
  alternative : ∀ a, e.alternative = some a → streams.Sealed a.stream

theorem Entry.Sealed.of_keeps {streams streams' : Streams} {e : Entry} (hk : streams.Keeps streams')
    (h : e.Sealed streams) : e.Sealed streams' :=
  ⟨hk.sealed h.primary, fun a ha => hk.sealed (h.alternative a ha)⟩

namespace Record

/-- The alternative of a record, made from the alternative of an entry. -/
theorem ofAlternative_of_content {streams : Streams} {a : Alternative} {bytes : Bytes}
    (hc : streams.content a.stream = .ok bytes) :
    ofAlternative streams a = .ok ⟨a.label, streams.contentType a.stream, bytes⟩ := by
  simp [ofAlternative, hc, Except.map]

/-- An entry over sealed streams has a record. -/
theorem exists_ofEntry {streams : Streams} {e : Entry} (h : e.Sealed streams) : ∃ r, ofEntry streams e = .ok r := by
  obtain ⟨bytes, hp⟩ := h.primary
  cases ha : e.alternative with
  | none => exact ⟨_, by simp only [ofEntry, ha, hp]; rfl⟩
  | some a =>
    obtain ⟨data, hd⟩ := h.alternative a ha
    exact ⟨_, by simp only [ofEntry, ha, hp, ofAlternative_of_content hd]; rfl⟩

/-- What a record says of its entry. -/
structure Tells (streams : Streams) (e : Entry) (r : Record) : Prop where
  key : r.key = e.key
  identity : r.identity = e.identity
  createdAt : r.createdAt = e.createdAt
  contentType : r.contentType = streams.contentType e.primary
  primary : streams.content e.primary = .ok r.primary
  alternative : ∀ a, e.alternative = some a → ∃ data, streams.content a.stream = .ok data ∧
    r.alternative = some ⟨a.label, streams.contentType a.stream, data⟩
  plain : e.alternative = none → r.alternative = none

theorem tells_of_ofEntry {streams : Streams} {e : Entry} {r : Record} (h : ofEntry streams e = .ok r) :
    r.Tells streams e := by
  unfold ofEntry at h
  cases ha : e.alternative with
  | none =>
    cases hp : streams.content e.primary with
    | error x => simp only [ha, hp] at h; exact absurd h (by rintro ⟨⟩)
    | ok bytes =>
      simp only [ha, hp] at h
      cases h
      exact ⟨rfl, rfl, rfl, rfl, hp, by simp [ha], fun _ => rfl⟩
  | some a =>
    cases hd : streams.content a.stream with
    | error x => simp only [ha, ofAlternative, hd] at h; exact absurd h (by rintro ⟨⟩)
    | ok data =>
      cases hp : streams.content e.primary with
      | error x => simp only [ha, ofAlternative, hd, hp] at h; exact absurd h (by rintro ⟨⟩)
      | ok bytes =>
        simp only [ha, ofAlternative, hd, hp] at h
        cases h
        refine ⟨rfl, rfl, rfl, rfl, hp, ?_, by simp [ha]⟩
        intro a' ha'
        rw [ha, Option.some.injEq] at ha'
        exact ⟨data, ha' ▸ hd, ha' ▸ rfl⟩

theorem of_ofEntry {streams : Streams} {e : Entry} {r : Record} (h : ofEntry streams e = .ok r) :
    r.key = e.key ∧ r.identity = e.identity ∧ e.Sealed streams := by
  have htells := tells_of_ofEntry h
  refine ⟨htells.key, htells.identity, ⟨r.primary, htells.primary⟩, ?_⟩
  intro a ha
  obtain ⟨data, hdata, -⟩ := htells.alternative a ha
  exact ⟨data, hdata⟩

theorem keeps_toEntry (r : Record) (streams : Streams) (now : Timestamp) : streams.Keeps (r.toEntry streams now).2 := by
  unfold toEntry
  have hprimary := streams.keeps_add (.ofContent r.contentType r.primary)
  cases r.alternative with
  | none => exact hprimary
  | some a => exact hprimary.trans (Streams.keeps_add _ _)

/-- The entry that a record stands for has that record. -/
theorem ofEntry_toEntry (r : Record) (streams : Streams) (now : Timestamp) :
    ofEntry (r.toEntry streams now).2 (r.toEntry streams now).1 = .ok r := by
  obtain ⟨key, identity, contentType, primary, alternative, createdAt⟩ := r
  have hcontent := streams.content_add contentType primary
  have htype := streams.contentType_add (.ofContent contentType primary)
  cases alternative with
  | none =>
    simp only [toEntry, ofEntry, hcontent, htype]
    rfl
  | some a =>
    obtain ⟨label, contentType', data⟩ := a
    have hkeeps := (streams.add (.ofContent contentType primary)).2.keeps_add (.ofContent contentType' data)
    have hcontent' := (streams.add (.ofContent contentType primary)).2.content_add contentType' data
    have htype' := (streams.add (.ofContent contentType primary)).2.contentType_add (.ofContent contentType' data)
    have hprimary := hkeeps.content hcontent
    have hprimaryType := hkeeps.contentType ⟨primary, hcontent⟩
    simp only [toEntry, ofEntry, ofAlternative, hcontent', htype', hprimary, hprimaryType, htype]
    rfl

/-- The record of an entry stays the same while sealed streams are kept. -/
theorem ofEntry_of_keeps {streams streams' : Streams} {e : Entry} {r : Record} (hk : streams.Keeps streams')
    (h : ofEntry streams e = .ok r) : ofEntry streams' e = .ok r := by
  have hs : e.Sealed streams := (of_ofEntry h).2.2
  obtain ⟨bytes, hp⟩ := hs.primary
  have hp' := hk.content hp
  have ht := hk.contentType hs.primary
  cases ha : e.alternative with
  | none =>
    simp only [ofEntry, ha, hp] at h
    simp only [ofEntry, ha, hp', ht]
    exact h
  | some a =>
    obtain ⟨data, hd⟩ := hs.alternative a ha
    have hta := hk.contentType (hs.alternative a ha)
    simp only [ofEntry, ha, hp, ofAlternative_of_content hd] at h
    simp only [ofEntry, ha, hp', ht, ofAlternative_of_content (hk.content hd), hta]
    exact h

end Record
end ResponseCache
