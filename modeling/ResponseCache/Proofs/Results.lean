import ResponseCache.Proofs.Lasting

namespace ResponseCache

/-- The error that an answer is, if it is one. -/
def failure? {α : Type} : Except Error α → Option Error
  | .ok _ => none
  | .error e => some e

theorem failure?_eq_some_iff {α : Type} (answer : Except Error α) (e : Error) :
    failure? answer = some e ↔ answer = .error e := by
  cases answer <;> simp [failure?]

theorem failure?_map {α β : Type} (f : α → β) (answer : Except Error α) : failure? (answer.map f) = failure? answer := by
  cases answer <;> rfl

/-- What is served does not depend on what the service has counted. -/
theorem Service.serve_fst_eq (s t : Service) (streams : Streams) (intent : Intent) (source : Source) (r : Reconciliation) :
    (s.serve streams intent source r).1 = (t.serve streams intent source r).1 := by
  simp only [Service.serve]
  split <;> rfl

theorem Service.evict_fst (s : Service) (now : Moment) (key : Key) : (s.evict now key).1 = (s.store.evict now key).1 := by
  unfold evict
  generalize s.store.evict now key = result
  obtain ⟨answer, store⟩ := result
  simp only
  split <;> rfl

/-- The first half of a fetch asks the origin its question. -/
theorem Service.inquire_eq (s : Service) (key : Key) (intent : Intent) :
    (s.inquire key intent).1 = (s.origin.ask (s.question key intent)).1 ∧
      (s.inquire key intent).2.origin = (s.origin.ask (s.question key intent)).2 := by
  have hlookup : identityOf (s.store.lookup key).1 = s.store.identityOf key := by rw [Store.lookup_fst, Store.identityOf]
  simp only [inquire, question, hlookup, and_self]

namespace System

inductive Result
  | replied (answer : Except Error Reply)
  | asked (answer : Answer)
  | received (answer : Except Error Outcome)
  | served (answer : Except Error Response)
  | entered (answer : Except Error Entry)
  | removed (answer : Except Error (Option Identity))
  | opened (id : StreamId)
  | acted (answer : Except Error Unit)

def Result.error? : Result → Option Error
  | replied answer => failure? answer
  | received answer => failure? answer
  | served answer => failure? answer
  | entered answer => failure? answer
  | removed answer => failure? answer
  | acted answer => failure? answer
  | asked _ | opened _ => none

/-- What a client gets out of a move. -/
def result? (y : System) : Move → Option Result
  | .ask now request => some (.replied (y.store.perform ⟨request, y.streams, now⟩).1)
  | .fetch now key intent => some (.served (y.service.fetch y.streams now key intent).1)
  | .inquire key intent => some (.asked (y.service.inquire key intent).1)
  | .receive answer => some (.received (answer.receive y.streams).1)
  | .conclude now key intent outcome => some (.served (y.service.conclude y.streams now key intent outcome).1)
  | .finish now o => some (.entered (y.service.finish y.streams now o).1)
  | .clear now key => some (.entered (y.service.clear y.streams now key).1)
  | .evict now key => some (.removed (y.service.evict now key).1)
  | .openStream stream => some (.opened (y.streams.add stream).1)
  | .writeStream id bytes => some (.acted ((y.streams.write id bytes).map fun _ => ()))
  | .sealStream id => some (.acted ((y.streams.finish id).map fun _ => ()))
  | _ => none

/-- What clients get out of a run. -/
def results (y : System) : List Move → List Result
  | [] => []
  | m :: rest => (y.result? m).toList ++ (y.step m).results rest

variable {y : System} {now : Moment} {key : Key} {intent : Intent}

/-- A fetch that gets an outcome ends as it concludes between its halves. -/
theorem fetch_fst_of_ok {outcome : Outcome} {streams : Streams}
    (h : (y.service.inquire key intent).1.receive y.streams = (.ok outcome, streams)) :
    (y.service.fetch y.streams now key intent).1 =
      ((y.inquired key intent streams).service.conclude streams now key intent outcome).1 := by
  simp only [Service.fetch, h]
  rfl

theorem fetch_of_error (now : Moment) {e : Error} {streams : Streams}
    (h : (y.service.inquire key intent).1.receive y.streams = (.error e, streams)) :
    (y.service.fetch y.streams now key intent).1 = .error e ∧
      y.step (.fetch now key intent) = y.inquired key intent streams := by
  simp only [step, Service.fetch, h]
  exact ⟨trivial, rfl⟩

end System
end ResponseCache
