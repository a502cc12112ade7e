import ResponseCache.Proofs.Store.Call
import ResponseCache.Service
/-!
What a service does to its store. Events, counters and notices show in the monitor only, so every operation of a service
comes to look-ups, decisions and evictions of its store.
-/
namespace ResponseCache

/-- The second store differs from the first at most in what its monitor shows. -/
def Store.Alike (s s' : Store) : Prop := ∃ monitor, s' = { s with monitor }

namespace Store.Alike

theorem refl (s : Store) : s.Alike s := ⟨s.monitor, rfl⟩

theorem trans {s s' s'' : Store} (h : s.Alike s') (h' : s'.Alike s'') : s.Alike s'' := by
  obtain ⟨monitor, rfl⟩ := h
  obtain ⟨monitor', rfl⟩ := h'
  exact ⟨monitor', rfl⟩

end Store.Alike

namespace Service
variable (s : Service) (streams : Streams) (now : Moment) (key : Key)

theorem alike_note (n : Notice) : s.store.Alike (s.note n).store := ⟨_, rfl⟩

theorem alike_count (f : Counters → Counters) : s.store.Alike (s.count f).store := ⟨_, rfl⟩

theorem alike_publish (e : Event) : s.store.Alike (s.publish e).store := by
  unfold publish publishTo
  cases s.publisher with
  | nobody => exact .refl s.store
  | collector => exact .refl s.store
  | log level => exact s.alike_note _
  | broken error => exact s.alike_note _

theorem alike_publishReconciliation (r : Reconciliation) :
    s.store.Alike (s.publishReconciliation streams now r).store := by
  unfold publishReconciliation
  cases eventFor? streams now r with
  | none => exact .refl s.store
  | some e => exact s.alike_publish e

theorem alike_serve (intent : Intent) (source : Source) (r : Reconciliation) :
    s.store.Alike (s.serve streams intent source r).2.store := by
  simp only [serve]
  split
  · exact .refl s.store
  · exact s.alike_count _

theorem alike_inquire (intent : Intent) : s.store.Alike (s.inquire key intent).2.store := s.store.lookup_snd key

/-- The second half of a fetch is one decision. -/
theorem alike_conclude (intent : Intent) (outcome : Outcome) :
    (s.store.reconcileWith streams now key fun current => Decision.decide key current outcome intent).2.Alike
      (s.conclude streams now key intent outcome).2.store := by
  unfold conclude
  generalize s.store.reconcileWith streams now key _ = result
  obtain ⟨answer, store⟩ := result
  simp only
  split
  · rename_i r
    have hpublish := alike_publishReconciliation { s with store } streams now r
    exact hpublish.trans (alike_serve _ streams intent _ r)
  · exact (alike_note { s with store } _).trans ((alike_count _ _).trans (alike_publish _ _))
  · exact .refl store

theorem alike_clear : (s.store.clear streams now key).2.Alike (s.clear streams now key).2.store := by
  unfold clear
  generalize s.store.clear streams now key = result
  obtain ⟨answer, store⟩ := result
  cases answer with
  | error e => exact .refl store
  | ok r => exact alike_publishReconciliation { s with store } streams now r

theorem alike_evict : (s.store.evict now key).2.Alike (s.evict now key).2.store := by
  unfold evict
  generalize s.store.evict now key = result
  obtain ⟨answer, store⟩ := result
  simp only
  split
  · exact alike_publish { s with store } _
  · exact .refl store

/-- An output that is finished is sealed first, and then attached. -/
theorem alike_finish_of_ok {o : Output} {streams' : Streams} (h : streams.finish o.stream = .ok streams') :
    (s.finish streams now o).2.1 = streams' ∧
      (s.store.attach streams' now o.key o.identity ⟨o.label, o.stream⟩).2.Alike (s.finish streams now o).2.2.store := by
  unfold finish
  simp only [h]
  generalize s.store.attach streams' now o.key o.identity ⟨o.label, o.stream⟩ = result
  obtain ⟨answer, store⟩ := result
  cases answer with
  | error e => exact ⟨rfl, .refl store⟩
  | ok r => exact ⟨rfl, alike_publishReconciliation { s with store } streams' now r⟩

theorem finish_of_error {o : Output} {e : Error} (h : streams.finish o.stream = .error e) :
    s.finish streams now o = (.error e, streams, s) := by
  simp only [finish, h]

theorem alike_finish (o : Output) :
    (s.finish streams now o).2 = (streams, s) ∨
    ∃ streams', streams.finish o.stream = .ok streams' ∧ (s.finish streams now o).2.1 = streams' ∧
      (s.store.attach streams' now o.key o.identity ⟨o.label, o.stream⟩).2.Alike (s.finish streams now o).2.2.store := by
  cases hfinish : streams.finish o.stream with
  | error e => exact .inl (by rw [s.finish_of_error streams now hfinish])
  | ok streams' => exact .inr ⟨streams', rfl, s.alike_finish_of_ok streams now hfinish⟩

end Service

theorem Streams.keeps_receive (streams : Streams) (a : Answer) : streams.Keeps (a.receive streams).2 := by
  cases a with
  | notModified => exact .refl streams
  | full body contentType => exact streams.keeps_add _
  | failure reason => exact .refl streams

end ResponseCache
