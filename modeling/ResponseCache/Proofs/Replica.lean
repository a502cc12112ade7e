import ResponseCache.Proofs.Lasting

namespace ResponseCache

/-- What events tell of a live entry. -/
structure Copy where
  identity : Identity
  /-- The size of the primary. -/
  size : Nat
  /-- The label of the alternative. -/
  label : Option String
  deriving DecidableEq, Repr

/-- The row of a key after a change of it, if there is one. -/
def Table.revise (t : Table String Copy) (text : String) (f : Copy → Copy) : Table String Copy :=
  match t.get? text with
  | none => t
  | some copy => t.insert text (f copy)

namespace Event

/-- A replica that takes an event in. -/
def applyTo (t : Table String Copy) : Event → Table String Copy
  | .entryCreated text identity _ size label _ => t.insert text ⟨identity, size, label⟩
  | .entryReplaced text _ identity size _ => t.revise text fun _ => ⟨identity, size, none⟩
  | .alternativeAttached text _ label _ _ => t.revise text fun copy => { copy with label := some label }
  | .alternativeCleared text _ _ => t.revise text fun copy => { copy with label := none }
  | .entryEvicted text _ _ => t.erase text
  | .revalidationRejected .. => t

/-- The replica that comes of these events. -/
def replay (events : List Event) : Table String Copy := events.foldl applyTo {}

/-- What an event says of the entry as it was before is so in the replica: there was none, or it was this generation. -/
def Fits (t : Table String Copy) : Event → Prop
  | .entryCreated text .. | .revalidationRejected text .. => t.get? text = none
  | .entryReplaced text identity .. | .alternativeAttached text identity .. | .alternativeCleared text identity _
  | .entryEvicted text identity _ => (t.get? text).map Copy.identity = some identity

/-- The identity of a generation that an event is the first to tell of. -/
def minted? : Event → Option Identity
  | .entryCreated _ identity .. => some identity
  | .entryReplaced _ _ identity .. => some identity
  | _ => none

/-- Each of these events fits the replica that the events before it make of this one. -/
def Fitting (t : Table String Copy) : List Event → Prop
  | [] => True
  | event :: rest => event.Fits t ∧ Fitting (event.applyTo t) rest

theorem fitting_append {t : Table String Copy} {events more : List Event} (h : Fitting t events)
    (hmore : Fitting (events.foldl applyTo t) more) : Fitting t (events ++ more) := by
  induction events generalizing t with
  | nil => exact hmore
  | cons event rest ih => exact ⟨h.1, ih h.2 hmore⟩

end Event

namespace Table

theorem get?_revise {t : Table String Copy} {text : String} {copy : Copy} (h : t.get? text = some copy) (f : Copy → Copy)
    (text' : String) : (t.revise text f).get? text' = if text = text' then some (f copy) else t.get? text' := by
  unfold revise
  rw [h]
  exact t.get?_insert text text' (f copy)

end Table

namespace Copy

/-- The copy of an entry over these streams. -/
def ofEntry (streams : Streams) (e : Entry) : Copy := ⟨e.identity, streams.size e.primary, e.alternativeLabel⟩

theorem ofEntry_of_keeps {streams streams' : Streams} (hk : streams.Keeps streams') {e : Entry} (h : e.Sealed streams) :
    ofEntry streams' e = ofEntry streams e := by
  obtain ⟨bytes, hbytes⟩ := h.primary
  have hsize : streams'.size e.primary = streams.size e.primary := by
    rw [Streams.size_of_content hbytes, Streams.size_of_content (hk.content hbytes)]
  rw [ofEntry, ofEntry, hsize]

end Copy

/-- The table holds copies of the live entries, under the texts of these keys. -/
structure Replica (keys : List Key) (streams : Streams) (live : Key → Option Entry) (t : Table String Copy) : Prop where
  copied : ∀ key ∈ keys, t.get? key.display = (live key).map (Copy.ofEntry streams)
  known : ∀ text copy, t.get? text = some copy → ∃ key ∈ keys, key.display = text
  within : ∀ key entry, live key = some entry → key ∈ keys

namespace Replica
variable {keys : List Key} {streams streams' : Streams} {live live' : Key → Option Entry} {t t' : Table String Copy}

theorem of_keeps (h : Replica keys streams live t) (hk : streams.Keeps streams')
    (hsealed : ∀ key entry, live key = some entry → entry.Sealed streams) : Replica keys streams' live t := by
  refine ⟨?_, h.known, h.within⟩
  intro key hkey
  rw [h.copied key hkey]
  cases hlive : live key with
  | none => rfl
  | some entry => exact congrArg some (Copy.ofEntry_of_keeps hk (hsealed key entry hlive)).symm

/-- A change of one key in the live entries and of its text in the table. -/
theorem change (h : Replica keys streams live t) (htexts : ∀ k ∈ keys, ∀ k' ∈ keys, k.display = k'.display → k = k')
    {key : Key} (hkey : key ∈ keys) {entry : Option Entry} (hlive : ∀ k, live' k = if key = k then entry else live k)
    (ht : ∀ text, t'.get? text = if key.display = text then entry.map (Copy.ofEntry streams) else t.get? text) :
    Replica keys streams live' t' := by
  refine ⟨?_, ?_, ?_⟩
  · intro k hk
    rw [ht, hlive]
    by_cases hsame : key = k
    · rw [if_pos hsame, if_pos (congrArg Key.display hsame)]
    · rw [if_neg hsame, if_neg fun htext => hsame (htexts key hkey k hk htext)]
      exact h.copied k hk
  · intro text copy hcopy
    rw [ht] at hcopy
    by_cases htext : key.display = text
    · exact ⟨key, hkey, htext⟩
    · rw [if_neg htext] at hcopy
      exact h.known text copy hcopy
  · intro k e he
    rw [hlive] at he
    by_cases hsame : key = k
    · exact hsame ▸ hkey
    · rw [if_neg hsame] at he
      exact h.within k e he

theorem row_eq (h : Replica keys streams live t) {key : Key} {old : Entry} (hold : live key = some old) :
    t.get? key.display = some (Copy.ofEntry streams old) := by
  rw [h.copied key (h.within key old hold), hold]
  rfl

/-- Another alternative beside the primary of one key shows in the label of its copy only. -/
theorem relabel (h : Replica keys streams live t) (htexts : ∀ k ∈ keys, ∀ k' ∈ keys, k.display = k'.display → k = k')
    {key : Key} {old : Entry} (hold : live key = some old) {a : Option Alternative} {date : Timestamp}
    (hlive : ∀ k, live' k = if key = k then some (old.withAlternative a date) else live k) :
    Replica keys streams live' (t.revise key.display fun copy => { copy with label := a.map (·.label) }) :=
  h.change htexts (h.within key old hold) hlive fun text => Table.get?_revise (h.row_eq hold) _ text

/-- A replica that takes in what is told of a change follows the change, and what is told fits. -/
theorem follow {subject : Option Key} {mint mint' : Mint} {events : List Event} (h : Replica keys streams live t)
    (htexts : ∀ k ∈ keys, ∀ k' ∈ keys, k.display = k'.display → k = k') (hsubject : ∀ key ∈ subject, key ∈ keys)
    (htelling : Telling subject streams live live' mint mint' events) :
    Replica keys streams live' (events.foldl Event.applyTo t) ∧ Event.Fitting t events := by
  have hfits {key : Key} {old : Entry} (hold : live key = some old) :
      (t.get? key.display).map Copy.identity = some old.identity := by
    rw [h.row_eq hold]
    rfl
  have habsent {key : Key} (hkey : subject = some key) (hnone : live key = none) : t.get? key.display = none := by
    rw [h.copied key (hsubject key hkey), hnone]
    rfl
  cases htelling with
  | silent hlive =>
    have hsame : live' = live := funext hlive
    exact ⟨hsame ▸ h, trivial⟩
  | rejected now key reason hkey hnone hlive =>
    have hsame : live' = live := funext hlive
    exact ⟨hsame ▸ h, habsent hkey hnone, trivial⟩
  | created now key entry hkey hnone hkeyed hmint hlive =>
    subst hkeyed
    exact ⟨h.change htexts (hsubject _ hkey) hlive fun text => t.get?_insert _ text _, habsent hkey hnone, trivial⟩
  | replaced now key old entry hkey hold hkeyed hplain hmint hlive =>
    subst hkeyed
    refine ⟨h.change htexts (hsubject _ hkey) hlive fun text => ?_, hfits hold, trivial⟩
    -- The event says nothing of an alternative, and new content has none.
    have hcopy : Copy.ofEntry streams entry = ⟨entry.identity, streams.size entry.primary, none⟩ := by
      rw [Copy.ofEntry, Entry.alternativeLabel, hplain]
      rfl
    rw [Option.map_some, hcopy]
    exact Table.get?_revise (h.row_eq hold) _ text
  | attached now key old a hkey hold hkeyed hlive =>
    subst hkeyed
    have hfit := hfits hold
    exact ⟨h.relabel htexts hold hlive, hfit, trivial⟩
  | cleared now key old hkey hold hkeyed hlive =>
    subst hkeyed
    have hfit := hfits hold
    exact ⟨h.relabel htexts hold hlive, hfit, trivial⟩
  | evicted now key old hkey hold hlive =>
    exact ⟨h.change htexts (hsubject key hkey) hlive fun text => t.get?_erase _ text, hfits hold, trivial⟩

end Replica

namespace Telling
variable {subject : Option Key} {streams : Streams} {live live' : Key → Option Entry} {mint mint' : Mint}
  {events : List Event}

/-- An identity that is told of for the first time comes from the mint. -/
theorem minted (h : Telling subject streams live live' mint mint' events) :
    events.filterMap Event.minted? = [] ∨
      ∃ i, events.filterMap Event.minted? = [i] ∧ mint.mint? = some (i, mint') := by
  cases h with
  | created now key entry hsubject hnone hkey hmint hlive => exact .inr ⟨entry.identity, rfl, hmint⟩
  | replaced now key old entry hsubject hold hkey hplain hmint hlive => exact .inr ⟨entry.identity, rfl, hmint⟩
  | silent | rejected | attached | cleared | evicted => exact .inl rfl

/-- Where no entry has changed nothing is told, or that a revalidation was rejected. -/
theorem of_same (h : Telling subject streams live live' mint mint' events) (hsame : ∀ k, live' k = live k)
    (hpast : ∀ key entry, live key = some entry → mint.Past entry.identity) :
    events = [] ∨ ∃ text reason t, events = [.revalidationRejected text reason t] := by
  have hself {key : Key} {entry : Option Entry} (hlive : ∀ k, live' k = if key = k then entry else live k) :
      live key = entry := by
    rw [← hsame key, hlive key, if_pos rfl]
  cases h with
  | silent hlive => exact .inl rfl
  | rejected now key reason hsubject hnone hlive => exact .inr ⟨_, _, _, rfl⟩
  | created now key entry hsubject hnone hkey hmint hlive =>
    exact absurd (hnone.symm.trans (hself hlive)) (by simp)
  | replaced now key old entry hsubject hold hkey hplain hmint hlive =>
    -- The new generation would have an identity that the mint was past already.
    have hlt := (Identity.lt_iff _ _).mp ((hpast key entry (hself hlive)).lt hmint)
    omega
  | attached now key old a hsubject hold hkey hlive =>
    have hentry := Option.some.inj (hold.symm.trans (hself hlive))
    have hrevision : old.revision = old.revision + 1 := congrArg Entry.revision hentry
    omega
  | cleared now key old hsubject hold hkey hlive =>
    have hentry := Option.some.inj (hold.symm.trans (hself hlive))
    have hrevision : old.revision = old.revision + 1 := congrArg Entry.revision hentry
    omega
  | evicted now key old hsubject hold hlive => exact absurd (hold.symm.trans (hself hlive)) (by simp)

end Telling

namespace System

/-- What is told of a fetch that fails because the origin confirms what is not there. -/
def rejectionOf (now : Moment) (key : Key) : Except Error Response → Option Event
  | .error (.inconsistentRevalidation k reason) =>
    some (.revalidationRejected key.display (Error.inconsistentRevalidation k reason).message now.date)
  | _ => none

/-- The rejection that a move comes to, if it does. -/
def rejection? (y : System) : Move → Option Event
  | .fetch now key intent => rejectionOf now key (y.service.fetch y.streams now key intent).1
  | .conclude now key intent outcome => rejectionOf now key (y.service.conclude y.streams now key intent outcome).1
  | _ => none

theorem not_mem_eventsOf (streams : Streams) (now : Moment) (answer : Except Error Reconciliation) (text reason : String)
    (t : Timestamp) : .revalidationRejected text reason t ∉ Service.eventsOf streams now answer := by
  cases answer with
  | error e => exact List.not_mem_nil
  | ok r =>
    simp only [Service.eventsOf, Service.eventFor?]
    split
    · simp
    · cases r.kind with
      | keep => simp
      | attach => simp [Event.attached]
      | clear => simp [Event.cleared]
      | replace =>
        cases hcreated : r.created <;> simp [Event.created, Event.replaced]

variable {y : System}

/-- The second half of a fetch tells of its rejection, or it comes to none and tells of none. -/
theorem told_rejection_conclude (hy : y.store.Living y.streams) (now : Moment) (key : Key) (intent : Intent)
    (outcome : Outcome) : let m := Move.conclude now key intent outcome
    y.told m = (y.rejection? m).toList ∨
      y.rejection? m = none ∧ ∀ text reason t, .revalidationRejected text reason t ∉ y.told m := by
  intro m
  rw [told_conclude, rejection?]
  rcases conclude_or_fail hy now key intent outcome with ⟨r, response, hdecided, hanswer⟩ | ⟨e, hdecided, hanswer⟩
  · rw [hdecided, hanswer]
    exact .inr ⟨rfl, not_mem_eventsOf y.streams now (.ok r)⟩
  · rw [hdecided, hanswer]
    refine .inl ?_
    cases e <;> rfl

/-- Without a call of the store a move comes to no rejection: a fetch fails then, but for another reason. -/
theorem rejection?_of_call?_eq_none {m : Move} (hcall : y.call? m = none) : y.rejection? m = none := by
  cases m with
  | fetch now key intent =>
    obtain ⟨e, streams, hreceive⟩ := receive_of_call?_eq_none hcall
    have hfetch : (y.service.fetch y.streams now key intent).1 = .error e := by
      simp only [Service.fetch, hreceive]
    -- Only an answer that is a failure gives nothing to receive.
    cases hanswer : (y.service.inquire key intent).1 with
    | notModified => exact absurd (hanswer ▸ hreceive) (by simp [Answer.receive])
    | full body contentType => exact absurd (hanswer ▸ hreceive) (by simp [Answer.receive])
    | failure reason =>
      rw [hanswer, Answer.receive, Prod.mk.injEq] at hreceive
      rw [rejection?, hfetch, ← Except.error.inj hreceive.1]
      rfl
  | conclude => exact absurd hcall (by simp [call?])
  | _ => rfl

/-- A move tells of its rejection, or it comes to none and tells of none. -/
theorem told_rejection (hy : y.store.Living y.streams) (m : Move) : y.told m = (y.rejection? m).toList ∨
    y.rejection? m = none ∧ ∀ text reason t, .revalidationRejected text reason t ∉ y.told m := by
  cases hcall : y.call? m with
  | none =>
    refine .inl ?_
    rw [told_of_call?_eq_none hcall, rejection?_of_call?_eq_none hcall]
    rfl
  | some call =>
    obtain ⟨s, c⟩ := call
    cases calls_of_call? hcall with
    | ask now request => exact .inl rfl
    | fetch now key intent outcome streams hreceive =>
      have hlast := told_rejection_conclude (y := y.inquired key intent streams) (living_inquired hy hreceive).1 now key
        intent outcome
      have hsame : y.rejection? (.fetch now key intent) =
          (y.inquired key intent streams).rejection? (.conclude now key intent outcome) := by
        simp only [rejection?, Service.fetch, hreceive]
        rfl
      rw [told_fetch hreceive, hsame]
      exact hlast
    | conclude now key intent outcome => exact told_rejection_conclude hy now key intent outcome
    | finish now o streams hfinish =>
      rw [told_finish hfinish]
      exact .inr ⟨rfl, not_mem_eventsOf streams now _⟩
    | clear now key =>
      rw [told_clear]
      exact .inr ⟨rfl, not_mem_eventsOf y.streams now _⟩
    | evict now key =>
      rw [told_evict]
      refine .inr ⟨rfl, fun text reason t => ?_⟩
      unfold Service.eventsOfEviction
      split <;> simp

/-- What a collector has of a service that was asked about these keys only. -/
structure Followed (keys : List Key) (y : System) : Prop where
  living : y.store.Living y.streams
  collecting : y.service.publisher = .collector
  replica : Replica keys y.streams y.store.live? (Event.replay y.service.collected)
  fitting : Event.Fitting {} y.service.collected
  past : ∀ i ∈ y.service.collected.filterMap Event.minted?, y.store.mint.Past i
  sorted : (y.service.collected.filterMap Event.minted?).Pairwise (· < ·)

theorem followed_start (config : Config) (persistent : Bool) (origin : Origin) (backend : Backend) (keys : List Key) :
    (start config persistent origin .collector backend).Followed keys := by
  have hnone (key : Key) : (start config persistent origin .collector backend).store.live? key = none := rfl
  refine ⟨living_start config persistent origin .collector backend, rfl, ⟨?_, ?_, ?_⟩, trivial, ?_, .nil⟩
  · exact fun key _ => rfl
  · exact fun text copy hcopy => absurd hcopy (by simp [Event.replay, start, Service.start])
  · exact fun key entry hentry => absurd ((hnone key).symm.trans hentry) (by simp)
  · exact fun i hi => absurd hi List.not_mem_nil

theorem Followed.step {keys : List Key} (h : y.Followed keys)
    (htexts : ∀ k ∈ keys, ∀ k' ∈ keys, k.display = k'.display → k = k') {m : Move} (hm : m.Mediated)
    (hsubject : ∀ key ∈ m.subject, key ∈ keys) : (y.step m).Followed keys := by
  have hcollects := collects_step h.collecting m
  have htelling := telling h.living hm
  have honward := onward_step h.living.sound.tidy m
  have hreplica := h.replica.of_keeps (y.keeps_step m) h.living.sealed
  obtain ⟨hfollow, hfitting⟩ := hreplica.follow htexts hsubject htelling
  refine ⟨living_step h.living m, hcollects.publisher, ?_, ?_, ?_, ?_⟩
  · rw [hcollects.collected, Event.replay, List.foldl_append]
    exact hfollow
  · rw [hcollects.collected]
    exact Event.fitting_append h.fitting hfitting
  · intro i hi
    rw [hcollects.collected, List.filterMap_append, List.mem_append] at hi
    rcases hi with hold | hnew
    · exact honward.past (h.past i hold)
    · rcases htelling.minted with hnone | ⟨i', hone, hmint⟩
      · rw [hnone] at hnew
        exact absurd hnew List.not_mem_nil
      · rw [hone, List.mem_singleton] at hnew
        exact hnew ▸ Mint.past_self_of_mint? hmint
  · rw [hcollects.collected, List.filterMap_append]
    rcases htelling.minted with hnone | ⟨i', hone, hmint⟩
    · rw [hnone, List.append_nil]
      exact h.sorted
    · -- The mint was past all that came before, so it gave out a larger one.
      rw [hone, List.pairwise_append]
      refine ⟨h.sorted, List.pairwise_singleton _ _, ?_⟩
      intro i hi k hk
      rw [List.mem_singleton.mp hk]
      exact (h.past i hi).lt hmint

theorem Followed.run {keys : List Key} (htexts : ∀ k ∈ keys, ∀ k' ∈ keys, k.display = k'.display → k = k')
    (moves : List Move) : ∀ {y : System}, y.Followed keys → (∀ m ∈ moves, m.Mediated) →
    (∀ m ∈ moves, ∀ key ∈ m.subject, key ∈ keys) → (y.run moves).Followed keys := by
  induction moves with
  | nil => exact fun h _ _ => h
  | cons m rest ih =>
    intro y h hm hsubject
    have hstep := h.step htexts (hm m List.mem_cons_self) (hsubject m List.mem_cons_self)
    exact ih hstep (fun m' hm' => hm m' (List.mem_cons_of_mem m hm'))
      fun m' hm' => hsubject m' (List.mem_cons_of_mem m hm')

/-- A move that changes no entry tells of its rejection, if it comes to one, and of nothing else. -/
theorem told_of_same (hy : y.store.Living y.streams) {m : Move} (hm : m.Mediated)
    (hsame : ∀ k, (y.step m).store.live? k = y.store.live? k) : y.told m = (y.rejection? m).toList := by
  have hpast (key : Key) (entry : Entry) (hlive : y.store.live? key = some entry) : y.store.mint.Past entry.identity := by
    have hminted := hy.sound.minted.identityOf key
    rw [hlive] at hminted
    exact hminted
  rcases told_rejection hy m with htold | ⟨hnone, hnot⟩
  · exact htold
  · rcases (telling hy hm).of_same hsame hpast with hsilent | ⟨text, reason, t, hrejected⟩
    · rw [hsilent, hnone]
      rfl
    · exact absurd (hrejected ▸ List.mem_singleton_self _) (hnot text reason t)

/-- The keys that moves are about. -/
def subjects (moves : List Move) : List Key := moves.filterMap Move.subject

/-- The collected events are a replica. When a service that collects is used only through itself, on keys with different
texts, the collected events make at every moment a table that has just the live entries, with identity, size of the primary
and label of the alternative under the text of the key. Every event fits the table that those before it make, and the
identities that are told of for the first time increase. A move that changes no entry adds no event, unless it is a fetch
that the origin answers inconsistently, which adds its rejection. -/
theorem events_replicate_entries (config : Config) (persistent : Bool) (origin : Origin) (backend : Backend)
    {moves : List Move} (hmediated : ∀ m ∈ moves, m.Mediated)
    (htexts : ∀ k ∈ subjects moves, ∀ k' ∈ subjects moves, k.display = k'.display → k = k') :
    let y := (start config persistent origin .collector backend).run moves
    let events := y.service.collected
    (∀ text copy, (Event.replay events).get? text = some copy ↔
      ∃ key entry, key.display = text ∧ y.store.live? key = some entry ∧ copy.identity = entry.identity ∧
        (∃ bytes, y.streams.content entry.primary = .ok bytes ∧ copy.size = bytes.length) ∧
        copy.label = entry.alternativeLabel) ∧
    Event.Fitting {} events ∧
    (events.filterMap Event.minted?).Pairwise (· < ·) ∧
    (∀ m, m.Mediated → (∀ k, (y.step m).store.live? k = y.store.live? k) →
      (y.step m).service.collected = events ++ (y.rejection? m).toList) := by
  intro y events
  have hsubjects : ∀ m ∈ moves, ∀ key ∈ m.subject, key ∈ subjects moves :=
    fun m hm key hkey => List.mem_filterMap.mpr ⟨m, hm, hkey⟩
  -- Among the keys of the moves a text stands for one key only.
  have hy : y.Followed (subjects moves) :=
    .run htexts moves (followed_start config persistent origin backend _) hmediated hsubjects
  refine ⟨?_, hy.fitting, hy.sorted, ?_⟩
  · intro text copy
    constructor
    · intro hcopy
      obtain ⟨key, hkey, rfl⟩ := hy.replica.known text copy hcopy
      rw [hy.replica.copied key hkey, Option.map_eq_some_iff] at hcopy
      obtain ⟨entry, hlive, rfl⟩ := hcopy
      obtain ⟨bytes, hbytes⟩ := (hy.living.sealed key entry hlive).primary
      exact ⟨key, entry, rfl, hlive, rfl, ⟨bytes, hbytes, Streams.size_of_content hbytes⟩, rfl⟩
    · rintro ⟨key, entry, rfl, hlive, hidentity, ⟨bytes, hbytes, hsize⟩, hlabel⟩
      rw [hy.replica.copied key (hy.replica.within key entry hlive), hlive, Option.map_some]
      obtain ⟨identity, size, label⟩ := copy
      simp only at hidentity hsize hlabel
      rw [Copy.ofEntry, Streams.size_of_content hbytes, hidentity, hsize, hlabel]
  · intro m hm hsame
    rw [(collects_step hy.collecting m).collected, told_of_same hy.living hm hsame]

theorem display_ofUri (uri : String) : (Key.ofUri uri).display = uri := by
  simp [Key.ofUri, Key.ofParts, Key.normalize, Key.dedup, Key.display]

/-- Two keys are fetched and one of them is evicted again. -/
theorem replica_after_eviction :
    let moves : List Move := [.script (.full [104, 105] "text/plain"), .fetch ⟨0⟩ (.ofUri "a") .none,
      .script (.full [] "text/plain"), .fetch ⟨1⟩ (.ofUri "b") .none, .evict ⟨2⟩ (.ofUri "a")]
    let y := (start {} false {} .collector {}).run moves
    (∀ m ∈ moves, m.Mediated) ∧
    (∀ k ∈ subjects moves, ∀ k' ∈ subjects moves, k.display = k'.display → k = k') ∧
    Event.Fitting {} y.service.collected ∧ (y.service.collected.filterMap Event.minted?).Pairwise (· < ·) := by
  intro moves y
  have hmediated : ∀ m ∈ moves, m.Mediated := by simp [moves, Move.Mediated]
  have huri : ∀ k ∈ subjects moves, k = .ofUri k.display := by
    intro k hk
    simp only [subjects, moves, Move.subject, List.filterMap_cons, List.filterMap_nil, List.mem_cons, List.not_mem_nil,
      or_false] at hk
    rcases hk with rfl | rfl | rfl <;> rw [display_ofUri]
  have htexts : ∀ k ∈ subjects moves, ∀ k' ∈ subjects moves, k.display = k'.display → k = k' := by
    intro k hk k' hk' htext
    rw [huri k hk, huri k' hk', htext]
  obtain ⟨-, hfitting, hsorted, -⟩ := events_replicate_entries {} false {} {} hmediated htexts
  exact ⟨hmediated, htexts, hfitting, hsorted⟩

/-- A fetch of a key that is not there, with an origin that has nothing new, changes nothing and is told of. -/
theorem rejection_without_change :
    let y := start {} false {} .collector {}
    let z := y.step (.fetch ⟨0⟩ (.ofUri "k") .none)
    y.store.Alike z.store ∧ z.streams = y.streams ∧ y.service.collected = [] ∧
      ∃ t, z.service.collected = [.revalidationRejected "k"
        "Inconsistent revalidation for k: origin reported not-modified but nothing is cached" t] := by
  intro y z
  have hy : y.store.Living y.streams := living_start {} false {} .collector {}
  have hgood : (y.service.inquire (.ofUri "k") .none).1 = .notModified := rfl
  obtain ⟨answer, s, s', hfetched⟩ := fetched_of_notModified hy.sound.tidy ⟨0⟩ hgood
  obtain ⟨herror, halike⟩ := hfetched.inconsistent rfl
  have hsame (k : Key) : z.store.live? k = y.store.live? k := halike.untouched.live k
  refine ⟨halike, rfl, rfl, (⟨0⟩ : Moment).date, ?_⟩
  have htold := told_of_same (m := .fetch ⟨0⟩ (.ofUri "k") .none) hy trivial hsame
  rw [(collects_step (y := y) rfl _).collected, htold, rejection?, herror, display_ofUri]
  simp only [rejectionOf, display_ofUri]
  rfl

end System
end ResponseCache
