import ResponseCache.Proofs.Lasting

namespace ResponseCache

/-- An identity was given to the primary content of a key. -/
structure Issue where
  identity : Identity
  key : Key
  primary : Bytes
  deriving DecidableEq, Repr

def Issue.ofRecord (r : Record) : Issue := ⟨r.identity, r.key, r.primary⟩

/-- No identity stands for two contents. -/
def Consistent (issues : List Issue) : Prop :=
  ∀ i ∈ issues, ∀ i' ∈ issues, i.identity = i'.identity → i = i'

/-- The entry shows what was issued. -/
def Entry.Backed (streams : Streams) (issues : List Issue) (e : Entry) : Prop :=
  ∃ bytes, streams.content e.primary = .ok bytes ∧ ⟨e.identity, e.key, bytes⟩ ∈ issues

theorem Entry.Backed.mono {streams streams' : Streams} {issues issues' : List Issue} {e : Entry}
    (h : e.Backed streams issues) (hk : streams.Keeps streams') (hsub : ∀ i ∈ issues, i ∈ issues') :
    e.Backed streams' issues' := by
  obtain ⟨bytes, hbytes, hin⟩ := h
  exact ⟨bytes, hk.content hbytes, hsub _ hin⟩

namespace Consistent

theorem nil : Consistent [] := fun _ hi => absurd hi List.not_mem_nil

/-- A list of issues may follow one that it agrees with. -/
theorem append {known new : List Issue} (h : Consistent known) (hnew : Consistent new)
    (hcross : ∀ i ∈ known, ∀ i' ∈ new, i.identity = i'.identity → i = i') : Consistent (known ++ new) := by
  intro i hi i' hi' hid
  rcases List.mem_append.mp hi with hi | hi <;> rcases List.mem_append.mp hi' with hi' | hi'
  · exact h i hi i' hi' hid
  · exact hcross i hi i' hi' hid
  · exact (hcross i' hi' i hi hid.symm).symm
  · exact hnew i hi i' hi' hid

theorem eq_of_backed {streams : Streams} {issues : List Issue} (h : Consistent issues) {e e' : Entry}
    (he : e.Backed streams issues) (he' : e'.Backed streams issues) (hid : e.identity = e'.identity) :
    e.key = e'.key ∧ ∃ bytes, streams.content e.primary = .ok bytes ∧ streams.content e'.primary = .ok bytes := by
  obtain ⟨bytes, hbytes, hin⟩ := he
  obtain ⟨bytes', hbytes', hin'⟩ := he'
  have hsame := h _ hin _ hin' hid
  rw [Issue.mk.injEq] at hsame
  obtain ⟨-, hkey, rfl⟩ := hsame
  exact ⟨hkey, bytes, hbytes, hbytes'⟩

end Consistent

namespace Store

section
variable {s s' : Store} {now : Moment} {record : Record} {streams streams' : Streams} {isNew : Bool}

theorem Restoring.eq_true_of_vacant (h : Restoring s now record streams isNew streams' s')
    (hpresent : record.identity ≠ .absent) (hnone : s.live? record.key = none) : isNew = true := by
  cases h with
  | skipped habsent => exact absurd ((Identity.isAbsent_iff _).mp habsent) hpresent
  | passed entry _ hlive => exact absurd (hnone.symm.trans hlive) (by simp)
  | installed => rfl

/-- The entry that a record is installed as shows what the record carries. -/
theorem Restoring.shows (h : Restoring s now record streams isNew streams' s') (hnew : isNew = true) :
    (record.toEntry streams now.date).1.key = record.key ∧
      (record.toEntry streams now.date).1.identity = record.identity ∧
      streams'.content (record.toEntry streams now.date).1.primary = .ok record.primary := by
  have htells := Record.tells_of_ofEntry (record.ofEntry_toEntry streams now.date)
  refine ⟨htells.key.symm, htells.identity.symm, ?_⟩
  cases h with
  | installed hpresent hnone => exact htells.primary
  | _ => exact absurd hnew (by simp)

end

/-- What is live after records were taken in was live before, or is what one of them stands for. -/
theorem live?_restore (now : Moment) {key : Key} {e : Entry} (records : List Record) : ∀ (streams : Streams) (s : Store),
    (restore now records streams s).2.2.live? key = some e →
    s.live? key = some e ∨ e.Backed (restore now records streams s).2.1 (records.map .ofRecord) := by
  induction records with
  | nil => exact fun _ _ h => .inl h
  | cons record rest ih =>
    intro streams s h
    have hone := restoring now record streams s
    have hkeeps : (restoreOne now record streams s).2.1.Keeps (restore now (record :: rest) streams s).2.1 :=
      (System.alwaysKept_keeps _).restoreAll now rest _ {} (restoreOne now record streams s).2.2 (.refl _)
    rcases ih (restoreOne now record streams s).2.1 (restoreOne now record streams s).2.2 h with hlive | hbacked
    · rw [hone.live? key] at hlive
      split at hlive
      · rename_i hinstalled
        obtain ⟨hkey, hidentity, hprimary⟩ := hone.shows hinstalled.1
        have he := Option.some.inj hlive
        rw [he] at hkey hidentity hprimary
        refine .inr ⟨record.primary, hkeeps.content hprimary, ?_⟩
        rw [hidentity, hkey]
        exact List.mem_cons_self
      · exact .inl hlive
    · exact .inr (hbacked.mono (.refl _) fun i hi => List.mem_cons_of_mem _ hi)

end Store

namespace System
variable {y : System}

/-- The identities that a move issues: by a replacement, or as the records that it reads carry them. -/
def issued (y : System) : Move → List Issue
  | .restore _ records => records.map .ofRecord
  | m => (y.deeds m).filterMap fun
    | .replaced key identity primary _ =>
      ((y.step m).streams.content primary).toOption.map fun bytes => ⟨identity, key, bytes⟩
    | _ => none

/-- All that is issued in a run. -/
def issues (y : System) : List Move → List Issue
  | [] => []
  | m :: rest => y.issued m ++ (y.step m).issues rest

/-- Whatever records are taken in agree with each other, and with all that was issued before them, be it known from the start
or issued in the run. -/
def Faithful (y : System) (known : List Issue) (moves : List Move) : Prop :=
  ∀ before now records after, moves = before ++ .restore now records :: after →
    ∀ r ∈ records, ∀ i ∈ known ++ y.issues before ++ records.map .ofRecord, i.identity = r.identity → i = .ofRecord r

theorem issued_of_not_restores {m : Move} (hm : ¬m.Restores) {i : Issue} : i ∈ y.issued m ↔
    ∃ key identity primary alternative bytes, .replaced key identity primary alternative ∈ y.deeds m ∧
      (y.step m).streams.content primary = .ok bytes ∧ i = ⟨identity, key, bytes⟩ := by
  have hissued : y.issued m = (y.deeds m).filterMap fun
      | .replaced key identity primary _ =>
        ((y.step m).streams.content primary).toOption.map fun bytes => ⟨identity, key, bytes⟩
      | _ => none := by
    cases m with
    | restore now records => exact absurd trivial hm
    | _ => rfl
  rw [hissued, List.mem_filterMap]
  constructor
  · rintro ⟨d, hd, hi⟩
    cases d with
    | replaced key identity primary alternative =>
      obtain ⟨bytes, hbytes, rfl⟩ := Option.map_eq_some_iff.mp hi
      exact ⟨key, identity, primary, alternative, bytes, hd, (toOption_eq_some_iff _ _).mp hbytes, rfl⟩
    | attached | cleared | evicted | evictedAll => exact absurd hi (by simp)
  · rintro ⟨key, identity, primary, alternative, bytes, hd, hbytes, rfl⟩
    refine ⟨_, hd, ?_⟩
    simp only [hbytes, Except.toOption, Option.map_some]

/-- What a move makes live is what it issued; all else that is live was live before, with the same content. -/
theorem backed_step (hy : y.store.Living y.streams) {known : List Issue} (m : Move)
    (hknown : ∀ key e, y.store.live? key = some e → e.Backed y.streams known) {key : Key} {e : Entry}
    (he : (y.step m).store.live? key = some e) : e.Backed (y.step m).streams (known ++ y.issued m) := by
  have hkeeps := y.keeps_step m
  have hold (e : Entry) (h : y.store.live? key = some e) : e.Backed (y.step m).streams (known ++ y.issued m) :=
    (hknown key e h).mono hkeeps fun i hi => List.mem_append_left _ hi
  by_cases hm : m.Restores
  · cases m with
    | restore now records =>
      rcases Store.live?_restore now records y.streams y.store he with hlive | hbacked
      · exact hold e hlive
      · exact hbacked.mono (.refl _) fun i hi => List.mem_append_right _ hi
    | _ => exact hm.elim
  · have hz := living_step hy m
    have hkey : e.key = key := hz.sound.tidy.keyed key e he
    obtain ⟨bytes, hbytes⟩ := (hz.sealed key e he).primary
    have hstep := generation_step hy.sound.tidy hm key
    rw [he] at hstep
    -- If the move replaced the key then the entry is new; else its generation was there before.
    by_cases hreplaced : ∃ d ∈ y.deeds m, d.Replaces key
    · obtain ⟨d, hd, hr⟩ := hreplaced
      obtain ⟨identity, primary, alternative, rfl⟩ := Deed.exists_of_replaces hr
      rw [deeds_eq_singleton hd, List.foldl_cons, List.foldl_nil, Deed.remember_replaced] at hstep
      have hgeneration : e.generation = ⟨identity, primary, alternative⟩ := Option.some.inj hstep
      have hidentity : e.identity = identity := congrArg Generation.identity hgeneration
      have hprimary : e.primary = primary := congrArg Generation.primary hgeneration
      refine ⟨bytes, hbytes, List.mem_append_right _ ((issued_of_not_restores hm).mpr ?_)⟩
      rw [hidentity, hkey]
      exact ⟨key, identity, primary, alternative, bytes, hd, hprimary ▸ hbytes, rfl⟩
    · have hnone (d : Deed) (hd : d ∈ y.deeds m) : ¬d.Replaces key := fun hr => hreplaced ⟨d, hd, hr⟩
      obtain ⟨g, hg, hidentity, hprimary⟩ := Deed.remember_keeps key (y.deeds m) hnone _ _ hstep.symm
      obtain ⟨old, hlive, rfl⟩ := Option.map_eq_some_iff.mp hg
      obtain ⟨bytes', hbytes', hin⟩ := hold old hlive
      have hsame : (⟨e.identity, e.key, bytes'⟩ : Issue) = ⟨old.identity, old.key, bytes'⟩ := by
        rw [hkey, hy.sound.tidy.keyed key old hlive]
        exact congrArg (Issue.mk · key bytes') hidentity
      have hstream : e.primary = old.primary := hprimary
      exact ⟨bytes', hstream ▸ hbytes', hsame ▸ hin⟩

theorem past_of_issued (hy : y.store.Sound) {m : Move} {i : Issue} (hi : i ∈ y.issued m) :
    (y.step m).store.mint.Past i.identity := by
  by_cases hm : m.Restores
  · cases m with
    | restore now records =>
      obtain ⟨r, hr, rfl⟩ := List.mem_map.mp hi
      exact past_of_read hy (List.mem_map.mpr ⟨r, hr, rfl⟩)
    | _ => exact hm.elim
  · obtain ⟨key, identity, primary, alternative, bytes, hd, -, rfl⟩ := (issued_of_not_restores hm).mp hi
    exact Mint.past_self_of_mint? (mint?_of_deed hy.tidy hd)

/-- A replacement agrees with all that was issued before, since its identity is new. -/
theorem consistent_of_not_restores (hy : y.store.Sound) {known : List Issue} (hknown : Consistent known)
    (hpast : ∀ i ∈ known, y.store.mint.Past i.identity) {m : Move} (hm : ¬m.Restores) : Consistent (known ++ y.issued m) := by
  refine hknown.append ?_ ?_
  · intro i hi i' hi' hid
    obtain ⟨key, identity, primary, alternative, bytes, hd, hbytes, rfl⟩ := (issued_of_not_restores hm).mp hi
    obtain ⟨key', identity', primary', alternative', bytes', hd', hbytes', rfl⟩ := (issued_of_not_restores hm).mp hi'
    -- A move has one deed at most.
    rw [deeds_eq_singleton hd, List.mem_singleton, Deed.replaced.injEq] at hd'
    obtain ⟨rfl, rfl, rfl, -⟩ := hd'
    rw [Except.ok.inj (hbytes.symm.trans hbytes')]
  · intro i hi i' hi' hid
    obtain ⟨key, identity, primary, alternative, bytes, hd, -, rfl⟩ := (issued_of_not_restores hm).mp hi'
    have hlt := (Identity.lt_iff _ _).mp ((hpast i hi).lt (mint?_of_deed hy.tidy hd))
    rw [hid] at hlt
    exact absurd hlt (Nat.lt_irrefl _)

/-- All that is live is known, no two known contents share an identity, and the mint is past them all. -/
structure Accounted (y : System) (known : List Issue) : Prop where
  living : y.store.Living y.streams
  consistent : Consistent known
  past : ∀ i ∈ known, y.store.mint.Past i.identity
  backed : ∀ key e, y.store.live? key = some e → e.Backed y.streams known

section
variable {known : List Issue}

theorem Faithful.restore {now : Moment} {records : List Record} {rest : List Move}
    (h : y.Faithful known (.restore now records :: rest)) {r : Record} (hr : r ∈ records) {i : Issue}
    (hi : i ∈ known ++ records.map .ofRecord) (hid : i.identity = r.identity) : i = .ofRecord r :=
  h [] now records rest rfl r hr i (by simpa [issues] using hi) hid

theorem Faithful.tail {m : Move} {rest : List Move} (h : y.Faithful known (m :: rest)) :
    (y.step m).Faithful (known ++ y.issued m) rest := by
  intro before now records after hmoves r hr i hi hid
  refine h (m :: before) now records after (by rw [hmoves, List.cons_append]) r hr i ?_ hid
  rw [issues, ← List.append_assoc known]
  exact hi

theorem Accounted.step (h : y.Accounted known) {m : Move} {rest : List Move} (hm : y.Faithful known (m :: rest)) :
    (y.step m).Accounted (known ++ y.issued m) := by
  have hpast (i : Issue) (hi : i ∈ known ++ y.issued m) : (y.step m).store.mint.Past i.identity := by
    rcases List.mem_append.mp hi with hold | hnew
    · exact (onward_step h.living.sound.tidy m).past (h.past i hold)
    · exact past_of_issued h.living.sound hnew
  have hconsistent : Consistent (known ++ y.issued m) := by
    by_cases hrestores : m.Restores
    · cases m with
      | restore now records =>
        refine h.consistent.append ?_ ?_
        · rintro i hi i' hi' hid
          obtain ⟨r, hr, rfl⟩ := List.mem_map.mp hi'
          exact hm.restore hr (List.mem_append_right _ hi) hid
        · rintro i hi i' hi' hid
          obtain ⟨r, hr, rfl⟩ := List.mem_map.mp hi'
          exact hm.restore hr (List.mem_append_left _ hi) hid
      | _ => exact hrestores.elim
    · exact consistent_of_not_restores h.living.sound h.consistent h.past hrestores
  exact ⟨living_step h.living m, hconsistent, hpast, fun key e he => backed_step h.living m h.backed he⟩

theorem Accounted.run (moves : List Move) : ∀ {y : System} {known : List Issue}, y.Accounted known → y.Faithful known moves →
    (y.run moves).Accounted (known ++ y.issues moves) ∧
      ∀ e ∈ y.views moves, e.Backed (y.run moves).streams (known ++ y.issues moves) := by
  induction moves with
  | nil =>
    intro y known h _
    rw [issues, List.append_nil]
    exact ⟨h, fun e he => absurd he List.not_mem_nil⟩
  | cons m rest ih =>
    intro y known h hm
    have hstep : (y.step m).Accounted (known ++ y.issued m) := h.step hm
    obtain ⟨hrun, hviews⟩ := ih hstep hm.tail
    rw [List.append_assoc] at hrun hviews
    refine ⟨hrun, ?_⟩
    intro e he
    rcases List.mem_append.mp he with hnow | hlater
    · -- What the move shows is live around it, so it is known by then, and it stays what it is.
      have hbacked : e.Backed (y.step m).streams (known ++ y.issued m) := by
        rcases live_of_handed h.living hnow with ⟨key, hbefore⟩ | ⟨key, hafter⟩
        · exact (h.backed key e hbefore).mono (y.keeps_step m) fun i hi => List.mem_append_left _ hi
        · exact hstep.backed key e hafter
      refine hbacked.mono ((y.step m).keeps_run rest) ?_
      intro i hi
      rw [issues, ← List.append_assoc]
      exact List.mem_append_left _ hi
    · exact hviews e hlater

end

/-- An identity tells content apart where records agree with the store. If each record that a run takes in carries an identity
that was issued before only with the key and the bytes that it was issued for, then entries of one identity that the run
shows to anybody have one key and one primary content. Nobody sees to that: a record whose key is vacant becomes live under
the identity that it carries, whatever that was issued for. -/
theorem same_identity_same_content (config : Config) (persistent : Bool) (origin : Origin) (publisher : Publisher)
    (backend : Backend) (moves : List Move) :
    let start := start config persistent origin publisher backend
    let z := start.run moves
    (start.Faithful [] moves → ∀ e ∈ start.views moves, ∀ e' ∈ start.views moves, e.identity = e'.identity →
      e.key = e'.key ∧ ∃ bytes, z.streams.content e.primary = .ok bytes ∧ z.streams.content e'.primary = .ok bytes) ∧
    (∀ now record, record.identity ≠ .absent → z.store.live? record.key = none →
      let restored := z.step (.restore now [record])
      ∃ e, restored.store.live? record.key = some e ∧ e.key = record.key ∧ e.identity = record.identity ∧
        restored.streams.content e.primary = .ok record.primary) := by
  intro start z
  constructor
  · intro hfaithful e he e' he' hid
    have hstart : start.Accounted [] := by
      refine ⟨living_start config persistent origin publisher backend, .nil, by simp, ?_⟩
      intro key e hlive
      exact absurd hlive (by simp [start, System.start, Service.start, store, Store.live?])
    obtain ⟨hrun, hviews⟩ := hstart.run moves hfaithful
    exact hrun.consistent.eq_of_backed (hviews e he) (hviews e' he') hid
  · intro now record hpresent hnone restored
    have hone : z.store.Restoring now record z.streams (Store.restoreOne now record z.streams z.store).1
        restored.streams restored.store := Store.restoring now record z.streams z.store
    have hnew := hone.eq_true_of_vacant hpresent hnone
    have hlive := (hone.live? record.key).trans (if_pos ⟨hnew, rfl⟩)
    obtain ⟨hkey, hidentity, hprimary⟩ := hone.shows hnew
    exact ⟨_, hlive, hkey, hidentity, hprimary⟩

/-- The record of an entry that was evicted is taken in: what is looked up then has the identity of before, and its content. -/
theorem restored_identity_same_content : ∃ (start : System) (moves : List Move) (e e' : Entry),
    start = System.start {} false {} .nobody {} ∧
    moves = [.openStream (.ofContent "text/plain" [120]), .ask ⟨0⟩ (.reconcile (.ofUri "/a") (.replace 0 none)),
      .ask ⟨1⟩ (.evict (.ofUri "/a")), .restore ⟨2⟩ [⟨.ofUri "/a", ⟨1⟩, "text/plain", [120], none, ⟨0, 0⟩⟩],
      .ask ⟨3⟩ (.lookup (.ofUri "/a"))] ∧
    start.views moves = [e, e'] ∧ e ≠ e' ∧ start.Faithful [] moves ∧ e.identity = e'.identity ∧ e.key = e'.key ∧
    ∃ bytes, (start.run moves).streams.content e.primary = .ok bytes ∧
      (start.run moves).streams.content e'.primary = .ok bytes := by
  have hfaithful : (System.start {} false {} .nobody {}).Faithful [] [.openStream (.ofContent "text/plain" [120]),
      .ask ⟨0⟩ (.reconcile (.ofUri "/a") (.replace 0 none)), .ask ⟨1⟩ (.evict (.ofUri "/a")),
      .restore ⟨2⟩ [⟨.ofUri "/a", ⟨1⟩, "text/plain", [120], none, ⟨0, 0⟩⟩], .ask ⟨3⟩ (.lookup (.ofUri "/a"))] := by
    intro before now records after hmoves
    -- The records are read after three moves, which issued the same identity for the same content.
    obtain ⟨rfl, rfl⟩ : before = [.openStream (.ofContent "text/plain" [120]),
        .ask ⟨0⟩ (.reconcile (.ofUri "/a") (.replace 0 none)), .ask ⟨1⟩ (.evict (.ofUri "/a"))] ∧
        records = [⟨.ofUri "/a", ⟨1⟩, "text/plain", [120], none, ⟨0, 0⟩⟩] := by
      rcases before with _ | ⟨m₁, _ | ⟨m₂, _ | ⟨m₃, _ | ⟨m₄, _ | ⟨m₅, before⟩⟩⟩⟩⟩ <;> simp_all
    rw [Key.ofUri_a]
    decide
  rw [Key.ofUri_a] at hfaithful ⊢
  refine ⟨_, _, _, _, rfl, rfl, rfl, by decide, hfaithful, rfl, ?_⟩
  have hcontent := (same_identity_same_content {} false {} .nobody {} _).1 hfaithful
  exact hcontent _ (by exact List.mem_cons_self) _ (by exact List.mem_cons_of_mem _ List.mem_cons_self) rfl

/-- An identity that the store minted for one key, and gave up on its eviction, comes back with a record of another key. -/
theorem restored_identity_other_content : ∃ (start : System) (moves : List Move) (e e' : Entry),
    start = System.start {} false {} .nobody {} ∧
    moves = [.openStream (.ofContent "text/plain" [120]), .ask ⟨0⟩ (.reconcile (.ofUri "/a") (.replace 0 none)),
      .ask ⟨1⟩ (.evict (.ofUri "/a")), .restore ⟨2⟩ [⟨.ofUri "/b", ⟨1⟩, "text/plain", [121], none, ⟨0, 0⟩⟩],
      .ask ⟨3⟩ (.lookup (.ofUri "/b"))] ∧
    e ∈ start.views moves ∧ e' ∈ start.views moves ∧ e.identity = e'.identity ∧ e.key ≠ e'.key ∧
    (start.run moves).streams.content e.primary = .ok [120] ∧
    (start.run moves).streams.content e'.primary = .ok [121] := by
  rw [Key.ofUri_a, Key.ofUri_b]
  exact ⟨_, _, _, _, rfl, rfl, List.mem_cons_self, List.mem_cons_of_mem _ List.mem_cons_self, rfl, by decide, rfl, rfl⟩

end System
end ResponseCache
