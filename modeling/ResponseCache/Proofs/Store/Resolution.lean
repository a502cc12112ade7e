import ResponseCache.Proofs.Journal.Writer
import ResponseCache.Proofs.Sealed
import ResponseCache.Store

namespace ResponseCache

/-- The streams that a decision brings into an entry. -/
def Decision.streams : Decision → List StreamId
  | .keep => []
  | .attach a => [a.stream]
  | .clear => []
  | .replace primary alternative => primary :: (alternative.map (·.stream)).toList

namespace Store

/-- What the submission of a change comes to. -/
inductive Submission (s : Store) (now : Moment) (change : Change) : Except Error Store → Prop
  /-- There is no journal. -/
  | unkept (hj : s.journal = none) : Submission s now change (.ok s)
  | refused (j : Journal) (hj : s.journal = some j) (hclosed : j.accepting = false) :
      Submission s now change (.error (.persistence "flush coordinator is shut down"))
  | taken (j : Journal) (notices : List Notice) (hj : s.journal = some j) (hopen : j.accepting = true) :
      Submission s now change
        (.ok { s with journal := some (j.push now.tick change), monitor := ⟨s.monitor.counters, notices⟩ })

theorem submission (s : Store) (now : Moment) (change : Change) : Submission s now change (s.submit now change) := by
  unfold submit
  cases hj : s.journal with
  | none => exact .unkept hj
  | some j =>
    cases ha : j.accepting with
    | false =>
      simp only [Journal.submit_of_not_accepting ha]
      exact .refused j hj ha
    | true =>
      simp only [Journal.submit_of_accepting ha]
      simp only [bind, Except.bind, pure, Except.pure]
      cases hb : (j.push now.tick change).backlog? with
      | none => exact .taken j s.monitor.notices hj ha
      | some notice => exact .taken j (s.monitor.notices ++ [notice]) hj ha

/-- What the submission of an entry's record comes to. -/
inductive Shipment (s : Store) (streams : Streams) (now : Moment) (entry : Entry) : Except Error Store → Prop
  | unkept (hj : s.journal = none) : Shipment s streams now entry (.ok s)
  | unrecorded (j : Journal) (e : Error) (hj : s.journal = some j) (hr : Record.ofEntry streams entry = .error e) :
      Shipment s streams now entry (.error e)
  | refused (j : Journal) (record : Record) (hj : s.journal = some j) (hr : Record.ofEntry streams entry = .ok record)
      (hclosed : j.accepting = false) :
      Shipment s streams now entry (.error (.persistence "flush coordinator is shut down"))
  | taken (j : Journal) (record : Record) (notices : List Notice) (hj : s.journal = some j)
      (hr : Record.ofEntry streams entry = .ok record) (hopen : j.accepting = true) :
      Shipment s streams now entry
        (.ok { s with journal := some (j.push now.tick (.store record)), monitor := ⟨s.monitor.counters, notices⟩ })

theorem shipment (s : Store) (streams : Streams) (now : Moment) (entry : Entry) :
    Shipment s streams now entry (s.ship streams now entry) := by
  unfold ship
  cases hj : s.journal with
  | none => exact .unkept hj
  | some j =>
    cases hr : Record.ofEntry streams entry with
    | error e => exact .unrecorded j e hj hr
    | ok record =>
      have hsub := s.submission now (.store record)
      simp only [bind, Except.bind]
      generalize s.submit now (.store record) = answer at hsub ⊢
      cases hsub with
      | unkept hnone => exact absurd (hj.symm.trans hnone) (by simp)
      | refused j' hj' hclosed => exact .refused j' record hj' hr hclosed
      | taken j' notices hj' hopen => exact .taken j' record notices hj' hr hopen

/-- The slots have no part in a shipment. -/
theorem Shipment.of_slots {s s' : Store} {streams : Streams} {now : Moment} {entry : Entry}
    (slots : Table Key (Option Entry)) (h : Shipment s streams now entry (.ok s')) :
    Shipment { s with slots } streams now entry (.ok { s' with slots }) := by
  cases h with
  | unkept hj => exact .unkept hj
  | taken j record notices hj hr hopen => exact .taken j record notices hj hr hopen

theorem Shipment.error_of_slots {s : Store} {streams : Streams} {now : Moment} {entry : Entry} {e : Error}
    (slots : Table Key (Option Entry)) (h : Shipment s streams now entry (.error e)) :
    Shipment { s with slots } streams now entry (.error e) := by
  cases h with
  | unrecorded j e hj hr => exact .unrecorded j e hj hr
  | refused j record hj hr hclosed => exact .refused j record hj hr hclosed

/-- The record of an entry over sealed streams is refused only by a journal that takes nothing more in. -/
theorem Shipment.refused_of_sealed {s : Store} {streams : Streams} {now : Moment} {entry : Entry} {e : Error}
    (h : Shipment s streams now entry (.error e)) (hsealed : entry.Sealed streams) :
    e = .persistence "flush coordinator is shut down" ∧ ∃ j, s.journal = some j ∧ j.accepting = false := by
  cases h with
  | unrecorded j e hj hr =>
    obtain ⟨record, hrecord⟩ := Record.exists_ofEntry hsealed
    exact absurd (hrecord.symm.trans hr) (by simp)
  | refused j record hj hr hclosed => exact ⟨rfl, j, hj, hclosed⟩

/-- The decision leaves this entry as it is. -/
inductive Stands (streams : Streams) (entry : Entry) : Decision → Prop
  | keep : Stands streams entry .keep
  | attach (a : Alternative) (hsealed : streams.Sealed a.stream) (hsame : entry.alternative = some a) :
      Stands streams entry (.attach a)
  | clear (hnone : entry.alternative = none) : Stands streams entry .clear

/-- The decision makes this entry of the current one, and leaves this mint. -/
inductive Revision (streams : Streams) (now : Moment) (key : Key) (mint : Mint) :
    Option Entry → Decision → Entry → Mint → Prop
  | attach (entry : Entry) (a : Alternative) (hsealed : streams.Sealed a.stream) (hnew : entry.alternative ≠ some a) :
      Revision streams now key mint (some entry) (.attach a) (entry.withAlternative (some a) now.date) mint
  | clear (entry : Entry) (hsome : entry.alternative ≠ none) :
      Revision streams now key mint (some entry) .clear (entry.withAlternative none now.date) mint
  | replace (current : Option Entry) (primary : StreamId) (alternative : Option Alternative) (identity : Identity)
      (mint' : Mint) (hprimary : streams.Sealed primary)
      (halternative : ∀ a, alternative = some a → streams.Sealed a.stream)
      (hmint : mint.mint? = some (identity, mint')) (hnew : ¬identity ≤ ResponseCache.identityOf current) :
      Revision streams now key mint current (.replace primary alternative)
        (.fresh key identity primary alternative now.date) mint'

/-- What a decision comes to, before anything is submitted. -/
inductive Resolution (streams : Streams) (now : Moment) (key : Key) (mint : Mint) (current : Option Entry)
    (decision : Decision) : Except Error (Entry × Bool) → Mint → Prop
  | stands (entry : Entry) (hcurrent : current = some entry) (h : Stands streams entry decision) :
      Resolution streams now key mint current decision (.ok (entry, false)) mint
  | revised (entry : Entry) (mint' : Mint) (h : Revision streams now key mint current decision entry mint') :
      Resolution streams now key mint current decision (.ok (entry, true)) mint'
  | unready (e : Error) (he : streams.Refuses decision.streams e) :
      Resolution streams now key mint current decision (.error e) mint
  | missing (hcurrent : current = none) (hkind : decision.kind ≠ .replace) :
      Resolution streams now key mint current decision (.error (.keyNotFound key.display)) mint
  | exhausted (hkind : decision.kind = .replace) (hmint : mint.mint? = none)
      (hsealed : ∀ id ∈ decision.streams, streams.Sealed id) :
      Resolution streams now key mint current decision (.error (.internal "identity space exhausted")) mint
  | collision (identity : Identity) (mint' : Mint) (hkind : decision.kind = .replace)
      (hmint : mint.mint? = some (identity, mint')) (hold : identity ≤ ResponseCache.identityOf current) :
      Resolution streams now key mint current decision
        (.error (.identityCollision key.display (ResponseCache.identityOf current) identity)) mint'

section
variable (streams : Streams) (now : Moment) (key : Key) (current : Option Entry) (mint : Mint)

theorem resolution_keep : Resolution streams now key mint current .keep
    (resolve streams now key current mint .keep).1 (resolve streams now key current mint .keep).2 := by
  cases hc : current with
  | none => exact .missing rfl (by simp [Decision.kind])
  | some entry => exact .stands entry rfl .keep

theorem resolution_clear : Resolution streams now key mint current .clear
    (resolve streams now key current mint .clear).1 (resolve streams now key current mint .clear).2 := by
  cases hc : current with
  | none => exact .missing rfl (by simp [Decision.kind])
  | some entry =>
    by_cases ha : entry.alternative = none
    · have hr : resolve streams now key (some entry) mint .clear = (.ok (entry, false), mint) := by
        simp [resolve, require, bind, Except.bind, pure, Except.pure, ha]
      rw [hr]
      exact .stands entry rfl (.clear ha)
    · have hr : resolve streams now key (some entry) mint .clear =
          (.ok (entry.withAlternative none now.date, true), mint) := by
        simp [resolve, require, bind, Except.bind, pure, Except.pure, ha]
      rw [hr]
      exact .revised _ _ (.clear entry ha)

theorem resolution_attach (a : Alternative) : Resolution streams now key mint current (.attach a)
    (resolve streams now key current mint (.attach a)).1 (resolve streams now key current mint (.attach a)).2 := by
  cases hs : streams.ensureSealed a.stream with
  | error e =>
    have hr : resolve streams now key current mint (.attach a) = (.error e, mint) := by
      simp only [resolve, hs]
      rfl
    rw [hr]
    exact .unready e (Streams.refuses_head hs [])
  | ok u =>
    have hsealed : streams.Sealed a.stream := (streams.ensureSealed_eq_ok_iff a.stream).mp hs
    cases hc : current with
    | none =>
      have hr : resolve streams now key none mint (.attach a) = (.error (.keyNotFound key.display), mint) := by
        simp only [resolve, hs]
        rfl
      rw [hr]
      exact .missing rfl (by simp [Decision.kind])
    | some entry =>
      by_cases ha : entry.alternative = some a
      · have hr : resolve streams now key (some entry) mint (.attach a) = (.ok (entry, false), mint) := by
          simp [resolve, hs, require, bind, Except.bind, pure, Except.pure, ha]
        rw [hr]
        exact .stands entry rfl (.attach a hsealed ha)
      · have hr : resolve streams now key (some entry) mint (.attach a) =
            (.ok (entry.withAlternative (some a) now.date, true), mint) := by
          simp [resolve, hs, require, bind, Except.bind, pure, Except.pure, ha]
        rw [hr]
        exact .revised _ _ (.attach entry a hsealed ha)

/-- Once its streams are sealed, only the mint decides on a replacement. -/
theorem resolve_replace_of_sealed (primary : StreamId) (alternative : Option Alternative)
    (hp : streams.ensureSealed primary = .ok ())
    (ha : ∀ a, alternative = some a → streams.ensureSealed a.stream = .ok ()) :
    resolve streams now key current mint (.replace primary alternative) =
      match mint.mint? with
      | none => (.error (.internal "identity space exhausted"), mint)
      | some (identity, mint') =>
        if identity ≤ ResponseCache.identityOf current then
          (.error (.identityCollision key.display (ResponseCache.identityOf current) identity), mint')
        else (.ok (.fresh key identity primary alternative now.date, true), mint') := by
  cases alternative with
  | none =>
    simp only [resolve, hp]
    rfl
  | some a =>
    simp only [resolve, hp, ha a rfl]
    rfl

theorem resolution_replace (primary : StreamId) (alternative : Option Alternative) :
    Resolution streams now key mint current (.replace primary alternative)
      (resolve streams now key current mint (.replace primary alternative)).1
      (resolve streams now key current mint (.replace primary alternative)).2 := by
  cases hp : streams.ensureSealed primary with
  | error e =>
    have hr : resolve streams now key current mint (.replace primary alternative) = (.error e, mint) := by
      simp only [resolve, hp, bind, Except.bind]
    rw [hr]
    exact .unready e (Streams.refuses_head hp _)
  | ok u =>
    have hprimary : streams.Sealed primary := (streams.ensureSealed_eq_ok_iff primary).mp hp
    by_cases hbad : ∃ a e, alternative = some a ∧ streams.ensureSealed a.stream = .error e
    · obtain ⟨a, e, rfl, hs⟩ := hbad
      have hr : resolve streams now key current mint (.replace primary (some a)) = (.error e, mint) := by
        simp only [resolve, hp, hs, bind, Except.bind]
      rw [hr]
      exact .unready e ((Streams.refuses_head hs []).cons hprimary)
    -- All streams are sealed from here on, and only the mint decides.
    · have ha : ∀ a, alternative = some a → streams.ensureSealed a.stream = .ok () := by
        intro a halt
        cases hs : streams.ensureSealed a.stream with
        | error e => exact absurd ⟨a, e, halt, hs⟩ hbad
        | ok v => rfl
      have halternative : ∀ a, alternative = some a → streams.Sealed a.stream := fun a halt =>
        (streams.ensureSealed_eq_ok_iff a.stream).mp (ha a halt)
      rw [resolve_replace_of_sealed streams now key current mint primary alternative hp ha]
      cases hm : mint.mint? with
      | none =>
        refine .exhausted rfl hm fun id hid => ?_
        rcases List.mem_cons.mp hid with rfl | hid
        · exact hprimary
        · obtain ⟨a, halt, rfl⟩ := Option.map_eq_some_iff.mp (Option.mem_toList.mp hid)
          exact halternative a halt
      | some p =>
        obtain ⟨identity, mint'⟩ := p
        by_cases hle : identity ≤ ResponseCache.identityOf current
        · simp only [hle, if_true]
          exact .collision identity mint' rfl hm hle
        · simp only [hle, if_false]
          exact .revised _ _ (.replace current primary alternative identity mint' hprimary halternative hm hle)

theorem resolution (decision : Decision) : Resolution streams now key mint current decision
    (resolve streams now key current mint decision).1 (resolve streams now key current mint decision).2 := by
  cases decision with
  | keep => exact resolution_keep streams now key current mint
  | attach a => exact resolution_attach streams now key current mint a
  | clear => exact resolution_clear streams now key current mint
  | replace primary alternative => exact resolution_replace streams now key current mint primary alternative

end

end Store
end ResponseCache
