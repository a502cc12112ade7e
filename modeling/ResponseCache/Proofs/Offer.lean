import ResponseCache.Proofs.Fresh
import ResponseCache.Proofs.Writing

namespace ResponseCache

/-- What comes of an alternative that is offered to the generation of a key with that identity. -/
structure Store.Offered (s : Store) (streams : Streams) (key : Key) (identity : Identity) (a : Alternative)
    (answer : Except Error Entry) (s' : Store) : Prop where
  lands : s.IsOpen → ((∃ entry, answer = .ok entry) ↔
    identity ≠ .absent ∧ streams.Sealed a.stream ∧ s.identityOf key = identity)
  landed : ∀ entry, answer = .ok entry → ∃ old, s.live? key = some old ∧ old.identity = identity ∧
    entry.identity = identity ∧ entry.primary = old.primary ∧ entry.alternative = some a ∧
    ∀ key', s'.live? key' = if key = key' then some entry else s.live? key'
  stale : identity = .absent ∨ s.identityOf key ≠ identity →
    answer = .error (.staleEntry key.display identity (s.identityOf key)) ∧ s' = s

namespace Store
variable {s s' : Store} {streams : Streams} {now : Moment} {key : Key} {identity : Identity} {a : Alternative}

theorem identityOf_eq_iff (hpresent : identity ≠ .absent) :
    s.identityOf key = identity ↔ (s.live? key).map (·.identity) = some identity := by
  unfold identityOf ResponseCache.identityOf
  cases s.live? key with
  | none => simpa using Ne.symm hpresent
  | some entry => simp

theorem Ending.offered {decide : Option Entry → Except Error Decision} {answer : Except Error Reconciliation}
    (h : Ending s streams now key decide answer s') (hs : s.Living streams) (hd : decide (s.live? key) = .ok (.attach a))
    (hidentity : s.identityOf key = identity) (hpresent : identity ≠ .absent) :
    s.Offered streams key identity a (answer.map (·.entry)) s' := by
  obtain ⟨old, hold, hid⟩ := Option.map_eq_some_iff.mp ((identityOf_eq_iff hpresent).mp hidentity)
  have hfresh : ¬(identity = .absent ∨ s.identityOf key ≠ identity) := fun h => h.elim hpresent (· hidentity)
  cases answer with
  | error e =>
    refine ⟨?_, fun entry he => absurd he (by simp [Except.map]), fun h => absurd h hfresh⟩
    intro hopen
    constructor
    · rintro ⟨entry, he⟩
      exact absurd he (by simp [Except.map])
    · rintro ⟨-, hsealed, -⟩
      -- With the stream sealed and the entry there, an open journal leaves nothing to refuse.
      obtain ⟨r, hr⟩ := h.exists_ok hs hopen hd (by simpa [Decision.streams] using hsealed) (by simp [hold])
        (by simp [Decision.kind])
      exact absurd hr (by simp)
  | ok r =>
    obtain ⟨old', hold', hsealed, hi, hprimary, halternative⟩ := h.attached hd
    have hsame : old' = old := Option.some.inj (hold'.symm.trans hold)
    subst hsame
    refine ⟨fun _ => ⟨fun _ => ⟨hpresent, hsealed, hidentity⟩, fun _ => ⟨r.entry, rfl⟩⟩, ?_, fun h => absurd h hfresh⟩
    intro entry he
    cases he
    exact ⟨old', hold, hid, hi.trans hid, hprimary, halternative, h.live?_ok⟩

theorem offered_of_stale {answer : Except Error Entry}
    (hanswer : answer = .error (.staleEntry key.display identity (s.identityOf key)))
    (hstale : identity = .absent ∨ s.identityOf key ≠ identity) : s.Offered streams key identity a answer s := by
  refine ⟨?_, fun entry he => absurd (hanswer.symm.trans he) (by simp), fun _ => ⟨hanswer, rfl⟩⟩
  intro _
  constructor
  · rintro ⟨entry, he⟩
    exact absurd (hanswer.symm.trans he) (by simp)
  · rintro ⟨hpresent, -, hidentity⟩
    exact hstale.elim (absurd · hpresent) (absurd hidentity)

theorem offered_attach (hs : s.Living streams) (now : Moment) (key : Key) (identity : Identity) (a : Alternative) :
    s.Offered streams key identity a ((s.attach streams now key identity a).1.map (·.entry))
      (s.attach streams now key identity a).2 := by
  have hend := ending streams now key (fun current =>
      let i := ResponseCache.identityOf current
      if i ≠ identity ∨ identity.isAbsent then .error (.staleEntry key.display identity i) else .ok (.attach a))
    hs.sound.tidy
  by_cases hstale : identity = .absent ∨ s.identityOf key ≠ identity
  · have hcond : s.identityOf key ≠ identity ∨ identity.isAbsent = true :=
      hstale.symm.imp_right (identity.isAbsent_iff).mpr
    obtain ⟨hanswer, hsame⟩ := hend.of_undecided (if_pos hcond)
    have hstore : (s.attach streams now key identity a).2 = s := hsame
    rw [hstore]
    exact offered_of_stale (congrArg (Except.map (·.entry)) hanswer) hstale
  · obtain ⟨hpresent, hidentity⟩ := not_or.mp hstale
    have hidentity : s.identityOf key = identity := not_not.mp hidentity
    have hcond : ¬(s.identityOf key ≠ identity ∨ identity.isAbsent = true) := by
      rw [identity.isAbsent_iff]
      exact fun h => h.elim (absurd hidentity) hpresent
    exact hend.offered hs (if_neg hcond) hidentity hpresent

theorem Offered.of_alike {s'' : Store} {answer : Except Error Entry} (h : s.Offered streams key identity a answer s')
    (halike : s'.Alike s'') (hsame : ∀ e, answer = .error e → s'' = s') : s.Offered streams key identity a answer s'' := by
  refine ⟨h.lands, ?_, ?_⟩
  · intro entry he
    obtain ⟨old, hold, hid, hi, hprimary, halternative, hlive⟩ := h.landed entry he
    obtain ⟨monitor, rfl⟩ := halike
    exact ⟨old, hold, hid, hi, hprimary, halternative, hlive⟩
  · intro hstale
    obtain ⟨he, hunchanged⟩ := h.stale hstale
    exact ⟨he, (hsame _ he).trans hunchanged⟩

end Store

/-- An output that can be sealed is offered to the generation that it was opened from. -/
theorem Service.offered_finish {s : Service} {streams streams' : Streams} (hs : s.store.Living streams) (now : Moment)
    {o : Output} (h : streams.finish o.stream = .ok streams') :
    let result := s.finish streams now o
    result.2.1 = streams' ∧
      s.store.Offered streams' o.key o.identity ⟨o.label, o.stream⟩ result.1 result.2.2.store ∧
      (s.store.identityOf o.key ≠ o.identity → result.2.2 = s) := by
  have hattach := Store.offered_attach (hs.of_keeps (Streams.keeps_finish h)) now o.key o.identity ⟨o.label, o.stream⟩
  unfold finish
  simp only [h]
  generalize s.store.attach streams' now o.key o.identity ⟨o.label, o.stream⟩ = result at hattach ⊢
  obtain ⟨answer, store⟩ := result
  cases answer with
  | error e =>
    refine ⟨rfl, hattach, ?_⟩
    intro hstale
    have hsame : store = s.store := (hattach.stale (.inr hstale)).2
    rw [hsame]
  | ok r =>
    have halike := alike_publishReconciliation { s with store } streams' now r
    refine ⟨rfl, hattach.of_alike halike fun e he => absurd he (by simp [Except.map]), ?_⟩
    intro hstale
    exact absurd (hattach.stale (.inr hstale)).1 (by simp [Except.map])

/-- The deed gives the key this alternative. -/
def Deed.Brings (key : Key) (a : Alternative) : Deed → Prop
  | replaced k _ _ alternative => k = key ∧ alternative = some a
  | attached k b => k = key ∧ b = a
  | _ => False

theorem Deed.of_remember_of_not_brings {key : Key} {d : Deed} {g : Option Generation} {i : Identity} {p : StreamId}
    {a : Alternative} (hd : ¬d.Brings key a) (h : d.remember key g = some ⟨i, p, some a⟩) : g = some ⟨i, p, some a⟩ := by
  cases d with
  | replaced k identity primary alternative =>
    by_cases hk : k = key
    · have hne : alternative ≠ some a := fun ha => hd ⟨hk, ha⟩
      simp [remember, hk, hne] at h
    · simpa [remember, hk] using h
  | attached k b =>
    by_cases hk : k = key
    · have hne : b ≠ a := fun hb => hd ⟨hk, hb⟩
      simp [remember, hk, hne] at h
    · simpa [remember, hk] using h
  | cleared k =>
    by_cases hk : k = key
    · simp [remember, hk] at h
    · simpa [remember, hk] using h
  | evicted k =>
    by_cases hk : k = key
    · simp [remember, hk] at h
    · simpa [remember, hk] using h
  | evictedAll => exact absurd h (by simp [remember])

/-- The alternative that a decision brings into an entry. -/
def Decision.alternative? : Decision → Option Alternative
  | .attach a => some a
  | .replace _ alternative => alternative
  | _ => none

theorem Decision.supply_of_decide {key : Key} {current : Option Entry} {outcome : Outcome} {intent : Intent}
    {decision : Decision} {a : Alternative} (h : decide key current outcome intent = .ok decision)
    (ha : decision.alternative? = some a) : intent = .supply a := by
  cases outcome <;> cases current <;> cases intent <;> simp only [decide] at h
  all_goals grind [alternative?]

/-- A deed that brings an alternative is that of a decision which brings it. -/
theorem Deed.decided_of_brings {k key : Key} {r : Reconciliation} {decided : Except Error Decision} {a : Alternative}
    {d : Deed} (hd : d ∈ ofAnswer k r decided) (h : d.Brings key a) : k = key ∧ ∃ decision, decided = .ok decision ∧
      decision.alternative? = some a ∧ (decision = .attach a → d = .attached key a) := by
  cases decided with
  | error e => exact absurd hd List.not_mem_nil
  | ok decision =>
    cases decision with
    | keep => exact absurd hd List.not_mem_nil
    | attach b =>
      rw [List.mem_singleton.mp hd] at h ⊢
      obtain ⟨rfl, rfl⟩ := h
      exact ⟨rfl, .attach b, rfl, rfl, fun _ => rfl⟩
    | clear =>
      rw [List.mem_singleton.mp hd] at h
      exact h.elim
    | replace primary alternative =>
      rw [List.mem_singleton.mp hd] at h ⊢
      obtain ⟨rfl, rfl⟩ := h
      exact ⟨rfl, .replace primary (some a), rfl, rfl, fun hne => absurd hne (by simp)⟩

theorem Store.decided_of_brings {s : Store} {c : Call} {key : Key} {a : Alternative} {d : Deed} (hd : d ∈ s.deeds c)
    (h : d.Brings key a) : ∃ decide decision, c.request.decide? = some (key, decide) ∧
      decide (s.live? key) = .ok decision ∧ decision.alternative? = some a ∧ (decision = .attach a → d = .attached key a) := by
  rcases of_mem_deeds hd with ⟨k, decide, r, hr, -, hdeeds⟩ | ⟨-, ⟨k, rfl⟩ | rfl⟩
  · obtain ⟨rfl, decision, hdecided⟩ := Deed.decided_of_brings (hdeeds ▸ hd) h
    exact ⟨decide, decision, hr, hdecided⟩
  · exact h.elim
  · exact h.elim

/-- The request decides for no alternative, unless it offers one to a generation. -/
def Request.Guarded : Request → Prop
  | .attach _ _ _ => True
  | r => ∀ key decide current decision, r.decide? = some (key, decide) → decide current = .ok decision →
    decision.alternative? = none

namespace System

/-- The move brings no alternative into the store, unless it offers one to a generation. -/
def Move.Guarded : Move → Prop
  | .ask _ request => request.Guarded
  | .fetch _ _ intent => ∀ a, intent ≠ .supply a
  | .conclude _ _ intent _ => ∀ a, intent ≠ .supply a
  | .restore _ _ => False
  | _ => True

/-- The move offers this alternative to the generation of the key with that identity. -/
def Move.Offers (key : Key) (identity : Identity) (a : Alternative) : Move → Prop
  | .ask _ (.attach k expected b) => k = key ∧ expected = identity ∧ b = a
  | .finish _ o => o.key = key ∧ o.identity = identity ∧ (⟨o.label, o.stream⟩ : Alternative) = a
  | _ => False

theorem of_decided_attach {key k : Key} {expected : Identity} {a b : Alternative}
    {decide : Option Entry → Except Error Decision} {current : Option Entry} {decision : Decision}
    (hr : (Request.attach k expected b).decide? = some (key, decide)) (hd : decide current = .ok decision)
    (ha : decision.alternative? = some a) :
    k = key ∧ expected = identityOf current ∧ b = a ∧ decision = .attach a := by
  cases hr
  simp only at hd
  split at hd
  · exact absurd hd (by simp)
  · rename_i hcond
    cases hd
    cases ha
    exact ⟨rfl, (not_not.mp (not_or.mp hcond).1).symm, rfl, rfl⟩

/-- A guarded move that brings an alternative offers it to the live generation. -/
theorem offers_of_brings {y : System} {m : Move} (hm : m.Guarded) {key : Key} {a : Alternative} {d : Deed}
    (hd : d ∈ y.deeds m) (h : d.Brings key a) : m.Offers key (y.store.identityOf key) a ∧ d = .attached key a := by
  unfold deeds at hd
  cases hcall : y.call? m with
  | none =>
    rw [hcall] at hd
    exact absurd hd List.not_mem_nil
  | some call =>
    obtain ⟨s, c⟩ := call
    rw [hcall] at hd
    obtain ⟨decide, decision, hr, hdecide, ha, hattached⟩ := Store.decided_of_brings hd h
    have hidentity : identityOf (s.live? key) = y.store.identityOf key := by
      obtain ⟨⟨monitor, rfl⟩, -⟩ := alike_of_call? hcall
      rfl
    -- Of the requests that a guarded move comes to, only an offer decides for an alternative.
    have hsupply (current : Option Entry) (outcome : Outcome) (intent : Intent) (hintent : ∀ a, intent ≠ .supply a)
        (hd : Decision.decide key current outcome intent = .ok decision) : False :=
      hintent a (Decision.supply_of_decide hd ha)
    cases calls_of_call? hcall with
    | ask now request =>
      cases request with
      | attach k expected b =>
        obtain ⟨hk, he, hb, hdecision⟩ := of_decided_attach hr hdecide ha
        exact ⟨⟨hk, he.trans hidentity, hb⟩, hattached hdecision⟩
      | lookup | reconcile | reconcileWith | clear | evict | evictAll =>
        exact absurd ha (by simp [hm key decide _ decision hr hdecide])
    | fetch now k intent outcome streams hreceive =>
      cases hr
      exact (hsupply _ _ _ hm hdecide).elim
    | conclude now k intent outcome =>
      cases hr
      exact (hsupply _ _ _ hm hdecide).elim
    | finish now o streams hfinish =>
      obtain ⟨hk, he, hb, hdecision⟩ := of_decided_attach hr hdecide ha
      exact ⟨⟨hk, he.trans hidentity, hb⟩, hattached hdecision⟩
    | clear now k =>
      cases hr
      cases hdecide
      exact absurd ha (by simp [Decision.alternative?])
    | evict now k => exact absurd hr (by simp [Request.decide?])

theorem not_restores_of_guarded {m : Move} (h : m.Guarded) : ¬m.Restores := by
  cases m with
  | restore now records => exact fun _ => h
  | _ => exact id

/-- What is remembered of a key, after a run. -/
def generationOf (y : System) (key : Key) : Option Generation := (y.store.live? key).map Entry.generation

/-- In a guarded run a live alternative was offered to the very generation that it is live in. -/
theorem offered_of_live {y₀ : System} (h₀ : y₀.store.Living y₀.streams) (hempty : ∀ key, y₀.store.live? key = none) (key : Key)
    {i : Identity} {p : StreamId} {a : Alternative} (moves : List Move) (hm : ∀ m ∈ moves, m.Guarded)
    (h : (y₀.run moves).generationOf key = some ⟨i, p, some a⟩) :
    ∃ before m after, moves = before ++ m :: after ∧ m.Offers key i a ∧
      ∃ b, (y₀.run before).generationOf key = some ⟨i, p, b⟩ := by
  -- The induction takes moves off the end: the last one brought the alternative, or it was there before.
  induction moves using List.reverseRecOn with
  | nil => exact absurd h (by simp [generationOf, run, hempty])
  | append_singleton moves m ih =>
    have hguarded : m.Guarded := hm m (by simp)
    have htidy : (y₀.run moves).store.Tidy := (living_run h₀ moves).sound.tidy
    have hstep : (y₀.run (moves ++ [m])).generationOf key =
        ((y₀.run moves).deeds m).foldl (Deed.remember key) ((y₀.run moves).generationOf key) := by
      rw [run_append]
      exact generation_step htidy (not_restores_of_guarded hguarded) key
    rw [hstep] at h
    have hlater (hbefore : (y₀.run moves).generationOf key = some ⟨i, p, some a⟩) :
        ∃ before m' after, moves ++ [m] = before ++ m' :: after ∧ m'.Offers key i a ∧
          ∃ b, (y₀.run before).generationOf key = some ⟨i, p, b⟩ := by
      obtain ⟨before, m', after, hmoves, hoffers, hb⟩ := ih (fun m' hm' => hm m' (by simp [hm'])) hbefore
      exact ⟨before, m', after ++ [m], by simp [hmoves], hoffers, hb⟩
    cases hdeeds : (y₀.run moves).deeds m with
    | nil =>
      rw [hdeeds] at h
      exact hlater h
    | cons d rest =>
      have hd : d ∈ (y₀.run moves).deeds m := by simp [hdeeds]
      rw [deeds_eq_singleton hd, List.foldl_cons, List.foldl_nil] at h
      by_cases hbrings : d.Brings key a
      · obtain ⟨hoffers, rfl⟩ := offers_of_brings hguarded hd hbrings
        obtain ⟨g, hg, hsame⟩ : ∃ g, (y₀.run moves).generationOf key = some g ∧ { g with alternative := some a } =
            (⟨i, p, some a⟩ : Generation) := by
          simpa [Deed.remember] using h
        obtain ⟨i', p', b⟩ := g
        simp only [Generation.mk.injEq, and_true] at hsame
        rw [hsame.1, hsame.2] at hg
        have hidentity : (y₀.run moves).store.identityOf key = i := by
          unfold generationOf at hg
          obtain ⟨entry, hentry, hgen⟩ := Option.map_eq_some_iff.mp hg
          exact (Store.identityOf_of_live hentry).trans (congrArg Generation.identity hgen)
        exact ⟨moves, m, [], rfl, hidentity ▸ hoffers, b, hg⟩
      · -- The last move left the alternative alone.
        exact hlater (Deed.of_remember_of_not_brings hbrings h)

theorem lt_of_mem_history {key : Key} {i identity : Identity} {primary : StreamId} {alternative : Option Alternative}
    (moves : List Move) : ∀ {y : System}, y.store.Sound → y.store.mint.Past i →
    .replaced key identity primary alternative ∈ y.history moves → i < identity := by
  induction moves with
  | nil => exact fun _ _ hd => absurd hd List.not_mem_nil
  | cons m rest ih =>
    intro y hy hi hd
    rw [history, List.mem_append] at hd
    rcases hd with hnow | hlater
    · exact hi.lt (mint?_of_deed hy.tidy hnow)
    · exact ih (alwaysKept_sound.step m hy) ((onward_step hy.tidy m).past hi) hlater

/-- A generation that was seen is live as long as its key is neither replaced nor evicted. -/
theorem identityOf_run_iff {y : System} (hy : y.store.Living y.streams) {moves : List Move}
    (hm : ∀ m ∈ moves, ¬m.Restores) {key : Key} (hpresent : y.store.identityOf key ≠ .absent) :
    (y.run moves).store.identityOf key = y.store.identityOf key ↔
      ∀ d ∈ y.history moves, ¬d.Replaces key ∧ ¬d.Evicts key := by
  have hseen := (Store.identityOf_eq_iff hpresent).mp rfl
  -- The mint is past what was seen, so no replacement of the run brings it back.
  have hfresh (i : Identity) (primary : StreamId) (alternative : Option Alternative)
      (hd : .replaced key i primary alternative ∈ y.history moves) : i ≠ y.store.identityOf key := by
    have hlt := (Identity.lt_iff _ _).mp (lt_of_mem_history moves hy.sound (hy.sound.minted.identityOf key) hd)
    intro heq
    rw [heq] at hlt
    exact Nat.lt_irrefl _ hlt
  have hremember := Deed.remember_identity_iff key (y.store.identityOf key) (y.history moves) hfresh
    ((y.store.live? key).map Entry.generation)
  rw [← generation_run key moves hy hm, Option.map_map, Option.map_map] at hremember
  rw [Store.identityOf_eq_iff hpresent]
  exact hremember.trans (and_iff_right hseen)

theorem primary_eq_of_identity_eq {y : System} (hy : y.store.Living y.streams) {moves : List Move}
    (hm : ∀ m ∈ moves, ¬m.Restores) {key : Key} {entry entry' : Entry} (hlive : y.store.live? key = some entry)
    (hlive' : (y.run moves).store.live? key = some entry') (hidentity : entry'.identity = entry.identity) :
    entry'.primary = entry.primary := by
  have hseen : y.store.identityOf key = entry.identity := Store.identityOf_of_live hlive
  have hnow : (y.run moves).store.identityOf key = y.store.identityOf key := by
    rw [hseen, ← hidentity, Store.identityOf_of_live hlive']
  have hpresent : y.store.identityOf key ≠ .absent := hseen ▸ hy.present key entry hlive
  have hneither := (identityOf_run_iff hy hm hpresent).mp hnow
  have hrun := generation_run key moves hy hm
  rw [hlive, hlive'] at hrun
  obtain ⟨g, hg, -, hprimary⟩ :=
    Deed.remember_keeps key (y.history moves) (fun d hd => (hneither d hd).1) _ _ hrun.symm
  rw [Option.map_some, Option.some.injEq] at hg
  exact hprimary.trans (congrArg Generation.primary hg.symm)

/-- An output for an alternative to an entry that was seen, opened now. -/
def openOutput (y : System) (entry : Entry) (label : String) : Output × System :=
  ((y.service.openOutput y.streams entry label).1,
    { y with streams := (y.service.openOutput y.streams entry label).2 })

/-- The output of a client that was left to write into it is offered with what was written. -/
theorem finish_run {y : System} (hy : y.store.Living y.streams) (entry : Entry) (label : String)
    {writing : List Move} (hm : ∀ m ∈ writing, m.Spares (y.openOutput entry label).1.stream ∧ ¬m.Restores) (now : Moment) :
    let opened := y.openOutput entry label
    let w := opened.2.run writing
    let result := w.service.finish w.streams now opened.1
    w.store.Offered result.2.1 entry.key entry.identity ⟨label, opened.1.stream⟩ result.1 result.2.2.store ∧
      (w.store.identityOf entry.key ≠ entry.identity → result.2.2 = w.service) ∧
      result.2.1.content opened.1.stream = .ok (opened.2.accepted opened.1.stream writing) ∧
      result.2.1.contentType opened.1.stream = label := by
  intro opened w result
  have hopened : opened.2.streams.get? opened.1.stream = some ⟨label, y.service.config.maxStreamBytes, .writing []⟩ :=
    y.streams.get?_add_self _
  obtain ⟨streams, hfinish, hcontent, htype⟩ := Streams.finish_writing (get?_run writing hopened hm)
  have hopening : opened.2.store.Living opened.2.streams := hy.of_keeps (y.streams.keeps_add _)
  have hliving : w.store.Living w.streams := living_run hopening writing
  obtain ⟨hstreams, hoffered, hstale⟩ := Service.offered_finish hliving now hfinish
  rw [← hstreams] at hoffered hcontent htype
  exact ⟨hoffered, hstale, hcontent, htype⟩

/-- Alternatives stay with their generation. A generation that was seen of a key is live until the key is replaced or
evicted, with the same primary all the time. An alternative that is offered to it lands if it is still live and the
alternative has content, and else changes nothing; an output that was opened for it, whenever that was, brings the bytes
that were written, in order. So where alternatives come by such offers only, each one that is live was made for the primary
that it stands beside. -/
theorem alternatives_stay_with_their_generation (config : Config) (persistent : Bool) (origin : Origin)
    (publisher : Publisher) (backend : Backend) (past moves : List Move) (hm : ∀ m ∈ moves, ¬m.Restores) (key : Key) :
    let start := start config persistent origin publisher backend
    let y := start.run past
    let z := y.run moves
    let seen := y.store.identityOf key
    (seen ≠ .absent → (z.store.identityOf key = seen ↔ ∀ d ∈ y.history moves, ¬d.Replaces key ∧ ¬d.Evicts key)) ∧
    (∀ entry entry', y.store.live? key = some entry → z.store.live? key = some entry' →
      entry'.identity = entry.identity → entry'.primary = entry.primary) ∧
    (∀ now a, let result := z.store.attach z.streams now key seen a
      z.store.Offered z.streams key seen a (result.1.map (·.entry)) result.2) ∧
    (∀ entry label writing now, y.store.live? key = some entry →
      let opened := z.openOutput entry label
      (∀ m ∈ writing, m.Spares opened.1.stream ∧ ¬m.Restores) →
      let w := opened.2.run writing
      let result := w.service.finish w.streams now opened.1
      w = y.run (moves ++ .openStream { contentType := label, limit := z.service.config.maxStreamBytes } :: writing) ∧
      w.store.Offered result.2.1 key seen ⟨label, opened.1.stream⟩ result.1 result.2.2.store ∧
      (∀ landed, result.1 = .ok landed → landed.primary = entry.primary) ∧
      (w.store.identityOf key ≠ seen → result.2.2 = w.service) ∧
      result.2.1.content opened.1.stream = .ok (opened.2.accepted opened.1.stream writing) ∧
      result.2.1.contentType opened.1.stream = label) ∧
    ((∀ m ∈ past, m.Guarded) → ∀ entry a, y.store.live? key = some entry → entry.alternative = some a →
      ∃ before m after, past = before ++ m :: after ∧ m.Offers key entry.identity a ∧
        ∃ old, (start.run before).store.live? key = some old ∧ old.identity = entry.identity ∧
          old.primary = entry.primary) := by
  intro start y z seen
  have hstart : start.store.Living start.streams := living_start config persistent origin publisher backend
  have hy : y.store.Living y.streams := living_run hstart past
  have hz : z.store.Living z.streams := living_run hy moves
  refine ⟨identityOf_run_iff hy hm, ?_, ?_, ?_, ?_⟩
  · intro entry entry' hlive hlive' hidentity
    exact primary_eq_of_identity_eq hy hm hlive hlive' hidentity
  · intro now a
    exact Store.offered_attach hz now key seen a
  · intro entry label writing now hlive opened hwriting
    have hkey : entry.key = key := hy.sound.tidy.keyed key entry hlive
    have hseen : seen = entry.identity := Store.identityOf_of_live hlive
    rw [← hkey, hseen]
    obtain ⟨hoffered, hstale, hcontent, htype⟩ := finish_run hz entry label hwriting now
    have hrun : opened.2.run writing =
        y.run (moves ++ .openStream { contentType := label, limit := z.service.config.maxStreamBytes } :: writing) := by
      rw [run_append]
      rfl
    refine ⟨hrun, hoffered, ?_, hstale, hcontent, htype⟩
    intro landed hanswer
    obtain ⟨old, hold, hid, -, hprimary, -⟩ := hoffered.landed landed hanswer
    -- The entry that it landed on has the identity that was seen, and so the primary.
    rw [hkey, hrun] at hold
    refine hprimary.trans (primary_eq_of_identity_eq hy ?_ hlive hold hid)
    intro m hmem
    rcases List.mem_append.mp hmem with hbefore | hafter
    · exact hm m hbefore
    · rcases List.mem_cons.mp hafter with rfl | hwrites
      · exact id
      · exact (hwriting m hwrites).2
  · intro hguarded entry a hlive halternative
    have hgeneration : (start.run past).generationOf key = some ⟨entry.identity, entry.primary, some a⟩ := by
      show (y.store.live? key).map Entry.generation = _
      rw [hlive, ← halternative]
      rfl
    have hempty (key : Key) : start.store.live? key = none := rfl
    obtain ⟨before, m, after, hpast, hoffers, b, hb⟩ :=
      offered_of_live hstart hempty key past hguarded hgeneration
    obtain ⟨old, hold, hgen⟩ := Option.map_eq_some_iff.mp hb
    exact ⟨before, m, after, hpast, hoffers, old, hold, congrArg Generation.identity hgen,
      congrArg Generation.primary hgen⟩

/-- An output that is written while another key comes and goes. -/
theorem output_lands_beside_an_eviction : ∃ (y w : System) (entry : Entry) (opened : Output × System),
    y = (start {} false {} .nobody {}).run [.openStream (.ofContent "text/plain" []),
      .ask ⟨0⟩ (.reconcile (.ofUri "/a") (.replace 0 none)), .ask ⟨0⟩ (.reconcile (.ofUri "/b") (.replace 0 none))] ∧
    y.store.live? (.ofUri "/a") = some entry ∧ opened = y.openOutput entry "text/html" ∧
    w = opened.2.run [.writeStream 1 [104], .evict ⟨0⟩ (.ofUri "/b"), .writeStream 1 [105]] ∧
    let result := w.service.finish w.streams ⟨0⟩ opened.1
    (∃ landed, result.1 = .ok landed ∧ result.2.2.store.live? (.ofUri "/a") = some landed ∧
      landed.identity = entry.identity ∧ landed.alternative = some ⟨"text/html", 1⟩) ∧
    result.2.1.content 1 = .ok [104, 105] := by
  obtain ⟨-, -, -, houtput, -⟩ := alternatives_stay_with_their_generation {} false {} .nobody {}
    [.openStream (.ofContent "text/plain" []), .ask ⟨0⟩ (.reconcile (.ofUri "/a") (.replace 0 none)),
      .ask ⟨0⟩ (.reconcile (.ofUri "/b") (.replace 0 none))] [] (by simp) (.ofUri "/a")
  have hlands (entry : Entry) := houtput entry "text/html"
    [.writeStream 1 [104], .evict ⟨0⟩ (.ofUri "/b"), .writeStream 1 [105]] ⟨0⟩
  simp only [Key.ofUri_a, Key.ofUri_b] at hlands ⊢
  refine ⟨_, _, _, _, rfl, rfl, rfl, rfl, ?_⟩
  obtain ⟨-, hoffered, -, -, hcontent, -⟩ := hlands _ rfl (by simp [Move.Spares, Move.Restores])
  refine ⟨?_, hcontent⟩
  have hopen : ∀ j : Journal, none = some j → j.accepting = true := fun j hj => absurd hj (by simp)
  obtain ⟨landed, hanswer⟩ := (hoffered.lands hopen).mpr ⟨by decide, ⟨_, hcontent⟩, rfl⟩
  obtain ⟨old, hold, hid, hi, hprimary, halternative, hlive⟩ := hoffered.landed landed hanswer
  exact ⟨landed, hanswer, (hlive _).trans (if_pos rfl), hi, halternative⟩

end System
end ResponseCache
