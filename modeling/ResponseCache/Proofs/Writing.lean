import ResponseCache.Proofs.Chronicle

namespace ResponseCache

namespace Streams

theorem get?_receive_of_some {s : Streams} {id : StreamId} {old : Stream} (h : s.get? id = some old) (a : Answer) :
    (a.receive s).2.get? id = some old := by
  cases a with
  | full body contentType => exact get?_add_of_some h _
  | notModified | failure reason => exact h

theorem get?_getD_of_ne {s : Streams} {id id' : StreamId} {f : Stream → Except Error Stream} (hne : id ≠ id') :
    (((s.update id f).toOption).getD s).get? id' = s.get? id' := by
  cases h : s.update id f with
  | error e => rfl
  | ok s' =>
    obtain ⟨_, _, _, _, hget⟩ := get?_update h
    exact (hget id').trans (if_neg hne)

theorem get?_release_of_ne {s : Streams} {id id' : StreamId} (hne : id ≠ id') : (s.release id).get? id' = s.get? id' := by
  unfold release
  cases s.get? id with
  | none => rfl
  | some stream => exact (s.get?_set id id' _).trans (if_neg hne)

end Streams

/-- A write is taken in as a whole or not at all. -/
theorem Stream.write_writing {contentType : String} {limit : Option Nat} {buffer bytes : Bytes} {s : Stream}
    (h : Stream.write ⟨contentType, limit, .writing buffer⟩ bytes = .ok s) :
    s = ⟨contentType, limit, .writing (buffer ++ bytes)⟩ := by
  cases limit with
  | none => exact (Except.ok.inj h).symm
  | some limit =>
    simp only [write] at h
    split at h
    · exact absurd h (by simp)
    · exact (Except.ok.inj h).symm

namespace System

/-- The move neither ends the stream with that handle nor attaches it. -/
def Move.Spares (id : StreamId) : Move → Prop
  | .sealStream id' => id' ≠ id
  | .releaseStream id' => id' ≠ id
  | .finish _ o => o.stream ≠ id
  | _ => True

/-- What a move adds to a stream. -/
def written (y : System) (id : StreamId) : Move → Bytes
  | .writeStream id' bytes =>
    match y.streams.write id' bytes with
    | .ok _ => if id' = id then bytes else []
    | .error _ => []
  | _ => []

/-- The bytes that a stream took in under a run, in order. -/
def accepted (y : System) (id : StreamId) : List Move → Bytes
  | [] => []
  | m :: rest => y.written id m ++ (y.step m).accepted id rest

section
variable {y : System} {id : StreamId} {contentType : String} {limit : Option Nat} {buffer : Bytes}

theorem get?_step (hget : y.streams.get? id = some ⟨contentType, limit, .writing buffer⟩) {m : Move} (hm : m.Spares id)
    (hr : ¬m.Restores) : (y.step m).streams.get? id = some ⟨contentType, limit, .writing (buffer ++ y.written id m)⟩ := by
  -- Only a write adds to the buffer; the other moves leave the stream alone, each in its own way.
  cases m with
  | writeStream id' bytes =>
    simp only [step, written]
    cases hwrite : y.streams.write id' bytes with
    | error e => simpa [Except.toOption] using hget
    | ok streams =>
      obtain ⟨old, new, hold, hnew, hall⟩ := Streams.get?_update hwrite
      by_cases hid : id' = id
      · subst hid
        have hsame : old = ⟨contentType, limit, .writing buffer⟩ := Option.some.inj (hold.symm.trans hget)
        simpa [Except.toOption, hall] using Stream.write_writing (hsame ▸ hnew)
      · simpa [Except.toOption, hall, hid] using hget
  | sealStream id' =>
    simp only [written, List.append_nil]
    exact (Streams.get?_getD_of_ne hm).trans hget
  | releaseStream id' =>
    simp only [written, List.append_nil]
    exact (Streams.get?_release_of_ne hm).trans hget
  | finish now o =>
    simp only [written, List.append_nil]
    rcases y.service.alike_finish y.streams now o with hsame | ⟨streams, hfinish, hstreams, -⟩
    · simp only [step, hsame]
      exact hget
    · obtain ⟨_, _, _, _, hall⟩ := Streams.get?_update hfinish
      simp only [step, hstreams]
      exact (hall id).trans ((if_neg hm).trans hget)
  | fetch now key intent =>
    have hreceive := Streams.get?_receive_of_some hget (y.service.inquire key intent).1
    simp only [written, List.append_nil, step, Service.fetch]
    split <;> exact hreceive
  | receive answer => simpa [step, written] using Streams.get?_receive_of_some hget answer
  | openStream stream => simpa [step, written] using Streams.get?_add_of_some hget stream
  | work w =>
    simp only [written, List.append_nil, step, Service.pipeline?]
    cases y.service.store.journal <;> exact hget
  | flush b elapsed =>
    simp only [written, List.append_nil, step]
    split
    · exact hget
    · split <;> exact hget
  | close | cancel =>
    simp only [written, List.append_nil, step, mapJournal]
    cases y.store.journal <;> exact hget
  | restore now records => exact absurd trivial hr
  | ask | inquire | conclude | clear | evict | script | submit | disturb =>
    simp only [written, List.append_nil]
    exact hget

/-- A stream that is left to its writer holds what it took in. -/
theorem get?_run (moves : List Move) : ∀ {y : System} {buffer : Bytes},
    y.streams.get? id = some ⟨contentType, limit, .writing buffer⟩ → (∀ m ∈ moves, m.Spares id ∧ ¬m.Restores) →
    (y.run moves).streams.get? id = some ⟨contentType, limit, .writing (buffer ++ y.accepted id moves)⟩ := by
  induction moves with
  | nil =>
    intro y buffer hget _
    rw [accepted, List.append_nil]
    exact hget
  | cons m rest ih =>
    intro y buffer hget hm
    have hstep := get?_step hget (hm m List.mem_cons_self).1 (hm m List.mem_cons_self).2
    -- The rest of the run starts from the longer buffer.
    rw [accepted, ← List.append_assoc]
    exact ih hstep fun m' hm' => hm m' (List.mem_cons_of_mem m hm')

end

end System

theorem Streams.finish_writing {s : Streams} {id : StreamId} {contentType : String} {limit : Option Nat} {buffer : Bytes}
    (h : s.get? id = some ⟨contentType, limit, .writing buffer⟩) :
    ∃ s', s.finish id = .ok s' ∧ s'.content id = .ok buffer ∧ s'.contentType id = contentType := by
  have hfinish : s.finish id = .ok (s.set id ⟨contentType, limit, .sealed buffer⟩) := by
    simp [finish, update, h, Stream.finish, Except.map]
  have hget : (s.set id ⟨contentType, limit, .sealed buffer⟩).get? id = some ⟨contentType, limit, .sealed buffer⟩ := by
    rw [get?_set, if_pos rfl, h]
    rfl
  refine ⟨_, hfinish, (content_eq_ok_iff _ _ _).mpr ⟨_, hget, rfl⟩, ?_⟩
  rw [Streams.contentType, hget]
  rfl

end ResponseCache
