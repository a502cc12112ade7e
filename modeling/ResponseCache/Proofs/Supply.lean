import ResponseCache.Proofs.Offer
import ResponseCache.Proofs.Resume
/-!
Supplied alternatives. A client that supplies an alternative made it from the entry that it saw, but the store decides on it
in the face of the entry that is live once the origin has answered. It lands beside what it was made from as long as the key
is neither replaced nor evicted in between. After a replacement a confirmed copy takes it, and after an eviction new content.
-/
namespace ResponseCache

namespace Store
variable {s s' : Store} {streams : Streams} {now : Moment} {key : Key} {outcome : Outcome} {a : Alternative}
  {r : Reconciliation} {seen : Identity}

/-- A copy that is confirmed takes the alternative, of whatever generation it is. -/
theorem Ending.supplied_of_confirmed (h : Ending s streams now key
      (fun current => Decision.decide key current .notModified (.supply a)) (.ok r) s') :
    r.entry.alternative = some a ∧ r.entry.identity = s.identityOf key := by
  obtain ⟨old, hold, hidentity, -, halternative⟩ := h.confirmed
  have hcurrent : s.identityOf key = old.identity := identityOf_of_live hold
  exact ⟨halternative, hidentity.trans hcurrent.symm⟩

/-- New content is of a new generation, and takes the alternative where nothing was cached. -/
theorem Ending.supplied_of_full {primary : StreamId} (h : Ending s streams now key
      (fun current => Decision.decide key current (.full primary) (.supply a)) (.ok r) s') (hpast : s.mint.Past seen) :
    (r.entry.alternative = some a ↔ s.live? key = none) ∧ r.entry.identity ≠ seen := by
  obtain ⟨identity, hmint, -, hentry⟩ := h.replaced (Decision.decide_full key (s.live? key) primary (.supply a))
  have hlt : seen < identity := hpast.lt hmint
  rw [hentry]
  constructor
  · by_cases hnone : s.live? key = none <;> simp [Entry.fresh, Intent.supplied?, hnone]
  · intro heq
    have hraw := (Identity.lt_iff _ _).mp hlt
    rw [← heq] at hraw
    exact Nat.lt_irrefl _ hraw

/-- When the alternative lands on the generation that was seen, and when it lands on another one. -/
theorem Ending.supplied_iff (h : Ending s streams now key
      (fun current => Decision.decide key current outcome (.supply a)) (.ok r) s')
    (hseen : seen ≠ .absent) (hpast : s.mint.Past seen) :
    (r.entry.alternative = some a ∧ r.entry.identity = seen ↔ outcome = .notModified ∧ s.identityOf key = seen) ∧
    (r.entry.alternative = some a ∧ r.entry.identity ≠ seen ↔
      s.identityOf key ≠ seen ∧ (outcome = .notModified ∨ s.live? key = none)) := by
  cases outcome with
  | notModified =>
    obtain ⟨halternative, hidentity⟩ := h.supplied_of_confirmed
    rw [hidentity]
    exact ⟨by simp [halternative], by simp [halternative]⟩
  | full primary =>
    obtain ⟨halternative, hnew⟩ := h.supplied_of_full hpast
    have hvacant (hnone : s.live? key = none) : s.identityOf key ≠ seen := by
      rw [identityOf, hnone]
      exact Ne.symm hseen
    refine ⟨by simp [hnew], ?_⟩
    rw [halternative]
    constructor
    · rintro ⟨hnone, -⟩
      exact ⟨hvacant hnone, .inr hnone⟩
    · rintro ⟨-, hcase⟩
      exact ⟨hcase.resolve_left (by simp), hnew⟩

end Store

namespace System
variable {y : System} {key : Key}

theorem live?_step_of_spared (hy : y.store.Tidy) {m : Move} (hm : ∀ d ∈ y.deeds m, ¬d.Replaces key ∧ ¬d.Evicts key)
    {entry : Entry} (hlive : y.store.live? key = some entry) :
    ∃ entry', (y.step m).store.live? key = some entry' ∧ entry'.identity = entry.identity := by
  by_cases hrestores : m.Restores
  · -- Records do not touch a key that is live.
    cases m with
    | restore now records => exact ⟨entry, Store.live?_restore_of_live now records y.streams y.store hlive, rfl⟩
    | _ => exact hrestores.elim
  · have hstep := generation_step hy hrestores key
    rw [hlive] at hstep
    cases hdeeds : y.deeds m with
    | nil =>
      rw [hdeeds] at hstep
      obtain ⟨entry', hentry', hgen⟩ := Option.map_eq_some_iff.mp hstep
      exact ⟨entry', hentry', congrArg Generation.identity hgen⟩
    | cons d rest =>
      have hd : d ∈ y.deeds m := by simp [hdeeds]
      obtain ⟨hr, he⟩ := hm d hd
      rw [deeds_eq_singleton hd, List.foldl_cons, List.foldl_nil, Deed.remember_of_neither hr he] at hstep
      obtain ⟨entry', hentry', hgen⟩ := Option.map_eq_some_iff.mp hstep
      exact ⟨entry', hentry', congrArg Generation.identity hgen⟩

/-- A key that is neither replaced nor evicted keeps its generation, whatever is restored beside it. -/
theorem identityOf_run_of_spared (moves : List Move) : ∀ {y : System}, y.store.Living y.streams →
    y.store.identityOf key ≠ .absent → (∀ d ∈ y.history moves, ¬d.Replaces key ∧ ¬d.Evicts key) →
    (y.run moves).store.identityOf key = y.store.identityOf key := by
  induction moves with
  | nil => exact fun _ _ _ => rfl
  | cons m rest ih =>
    intro y hy hpresent hspared
    have hm (d : Deed) (hd : d ∈ y.deeds m) := hspared d (List.mem_append_left _ hd)
    obtain ⟨entry, hlive, hidentity⟩ := Option.map_eq_some_iff.mp ((Store.identityOf_eq_iff hpresent).mp rfl)
    obtain ⟨entry', hlive', hsame⟩ := live?_step_of_spared hy.sound.tidy hm hlive
    have hstep : (y.step m).store.identityOf key = y.store.identityOf key :=
      (Store.identityOf_of_live hlive').trans (hsame.trans hidentity)
    have hrest := ih (living_step hy m) (hstep ▸ hpresent) fun d hd => hspared d (List.mem_append_right _ hd)
    exact hrest.trans hstep

theorem identityOf_inquire (y : System) (key : Key) (intent : Intent) :
    (y.step (.inquire key intent)).store.identityOf key = y.store.identityOf key := by
  obtain ⟨monitor, hmonitor⟩ := y.service.alike_inquire key intent
  show (y.service.inquire key intent).2.store.identityOf key = y.service.store.identityOf key
  rw [hmonitor]
  rfl

/-- Where nothing comes between the halves of a fetch, the store decides in the face of the generation that was seen. -/
theorem seen_of_fetch (hy : y.store.Living y.streams) (hseen : y.store.identityOf key ≠ .absent) {now : Moment}
    {a : Alternative} {response : Response} (hresponse : (y.service.fetch y.streams now key (.supply a)).1 = .ok response)
    (halternative : response.entry.alternative = some a) : response.entry.identity = y.store.identityOf key := by
  have hsame := y.identityOf_inquire key (.supply a)
  have hasked := living_step hy (.inquire key (.supply a))
  cases hreceive : (y.service.inquire key (.supply a)).1.receive y.streams with
  | mk received streams =>
    cases received with
    | error e =>
      simp only [Service.fetch, hreceive] at hresponse
      exact absurd hresponse (by simp)
    | ok outcome =>
      simp only [Service.fetch, hreceive] at hresponse
      obtain ⟨r, hentry, hend⟩ :=
        Service.ending_conclude (s := (y.step (.inquire key (.supply a))).service) hasked.sound.tidy hresponse
      have hiff := hend.supplied_iff hseen (hsame ▸ hasked.sound.minted.identityOf key)
      rw [← hentry] at hiff
      by_contra hother
      exact (hiff.2.mp ⟨halternative, hother⟩).1 hsame

/-- When a supplied alternative is stored beside what it was made from. Between the halves of the fetch anything may happen.
If the fetch goes well, the alternative ends up with the generation that was seen when the origin confirms it and it is
still live; it ends up with another generation just when another one, or none, is live by then and the origin confirms the
copy, or when nothing is live and the origin sends new content. A key keeps its generation if it is neither replaced nor
evicted in between, and only then unless records are taken in. In a fetch that nothing interrupts no alternative strays. -/
theorem supplied_alternative_lands_where_seen (config : Config) (persistent : Bool) (origin : Origin)
    (publisher : Publisher) (backend : Backend) (past between : List Move) (now : Moment) (key : Key) (a : Alternative)
    (outcome : Outcome) :
    let y := (start config persistent origin publisher backend).run past
    let seen := y.store.identityOf key
    let asked := y.step (.inquire key (.supply a))
    let w := asked.run between
    seen ≠ .absent →
    asked.service.origin.questions = y.service.origin.questions ++ [⟨key, seen, true, some a.label⟩] ∧
    (∀ response, (w.service.conclude w.streams now key (.supply a) outcome).1 = .ok response →
      (response.entry.alternative = some a ∧ response.entry.identity = seen ↔
        outcome = .notModified ∧ w.store.identityOf key = seen) ∧
      (response.entry.alternative = some a ∧ response.entry.identity ≠ seen ↔
        w.store.identityOf key ≠ seen ∧ (outcome = .notModified ∨ w.store.live? key = none))) ∧
    ((∀ d ∈ asked.history between, ¬d.Replaces key ∧ ¬d.Evicts key) → w.store.identityOf key = seen) ∧
    ((∀ m ∈ between, ¬m.Restores) → w.store.identityOf key = seen →
      ∀ d ∈ asked.history between, ¬d.Replaces key ∧ ¬d.Evicts key) ∧
    (∀ response, (y.service.fetch y.streams now key (.supply a)).1 = .ok response →
      response.entry.alternative = some a → response.entry.identity = seen) := by
  intro y seen asked w hseen
  have hy : y.store.Living y.streams := living_run (living_start config persistent origin publisher backend) past
  have hasked : asked.store.Living asked.streams := living_step hy _
  have hw : w.store.Living w.streams := living_run hasked between
  have hsame : asked.store.identityOf key = seen := y.identityOf_inquire key (.supply a)
  -- The identity that was seen is used up, so that no later generation has it.
  have hpast : w.store.mint.Past seen :=
    hsame ▸ (onward_run hasked.sound.tidy between).past (hasked.sound.minted.identityOf key)
  refine ⟨y.service.questions_inquire key (.supply a), ?_, ?_, ?_, ?_⟩
  · intro response hresponse
    obtain ⟨r, hentry, hend⟩ := Service.ending_conclude hw.sound.tidy hresponse
    rw [hentry]
    exact hend.supplied_iff hseen hpast
  · intro hspared
    exact (identityOf_run_of_spared between hasked (hsame ▸ hseen) hspared).trans hsame
  · intro hrestores hidentity
    exact (identityOf_run_iff hasked hrestores (hsame ▸ hseen)).mp (hidentity.trans hsame.symm)
  · exact fun response hresponse halternative => seen_of_fetch hy hseen hresponse halternative

/-- A copy that is confirmed while another key is stored takes the alternative that was made from it. -/
theorem supplied_alternative_beside_another_key : ∃ (y w : System) (response : Response),
    y = (start {} false {} .nobody {}).run [.openStream (.ofContent "text/plain" [49]),
      .openStream (.ofContent "text/html" [97]), .ask ⟨0⟩ (.reconcile (.ofUri "/") (.replace 0 none))] ∧
    w = (y.step (.inquire (.ofUri "/") (.supply ⟨"text/html", 1⟩))).run
      [.ask ⟨0⟩ (.reconcile (.ofUri "/b") (.replace 0 none)), .ask ⟨0⟩ (.evict (.ofUri "/b"))] ∧
    y.store.identityOf (.ofUri "/") ≠ .absent ∧
    (w.service.conclude w.streams ⟨0⟩ (.ofUri "/") (.supply ⟨"text/html", 1⟩) .notModified).1 = .ok response ∧
    response.entry.alternative = some ⟨"text/html", 1⟩ ∧
    response.entry.identity = y.store.identityOf (.ofUri "/") := by
  have hsupplied := supplied_alternative_lands_where_seen {} false {} .nobody {}
    [.openStream (.ofContent "text/plain" [49]), .openStream (.ofContent "text/html" [97]),
      .ask ⟨0⟩ (.reconcile (.ofUri "/") (.replace 0 none))]
    [.ask ⟨0⟩ (.reconcile (.ofUri "/b") (.replace 0 none)), .ask ⟨0⟩ (.evict (.ofUri "/b"))] ⟨0⟩ (.ofUri "/")
    ⟨"text/html", 1⟩ .notModified (by rw [Key.ofUri_root]; decide)
  rw [Key.ofUri_root, Key.ofUri_b] at hsupplied ⊢
  obtain ⟨-, hlands, hspared, -⟩ := hsupplied
  refine ⟨_, _, _, rfl, rfl, by decide, rfl, ?_⟩
  have hidentity := hspared fun d hd => by
    change d ∈ [.replaced _ ⟨2⟩ 0 none, .evicted _] at hd
    simp only [List.mem_cons, List.not_mem_nil, or_false] at hd
    rcases hd with rfl | rfl <;> simp [Deed.Replaces, Deed.Evicts]
  exact (hlands _ rfl).1.mpr ⟨rfl, hidentity⟩

/-- The key is replaced while the origin confirms the copy that was seen: the alternative to the old content is stored beside
the new one. -/
theorem supplied_alternative_after_replacement : ∃ (y w : System) (response : Response),
    y = (start {} false {} .nobody {}).run [.openStream (.ofContent "text/plain" [49]),
      .openStream (.ofContent "text/plain" [50]), .openStream (.ofContent "text/html" [97]),
      .ask ⟨0⟩ (.reconcile (.ofUri "/") (.replace 0 none))] ∧
    w = (y.step (.inquire (.ofUri "/") (.supply ⟨"text/html", 2⟩))).run
      [.ask ⟨0⟩ (.reconcile (.ofUri "/") (.replace 1 none))] ∧
    (y.service.inquire (.ofUri "/") (.supply ⟨"text/html", 2⟩)).1 = .notModified ∧
    y.store.identityOf (.ofUri "/") = ⟨1⟩ ∧
    (w.service.conclude w.streams ⟨0⟩ (.ofUri "/") (.supply ⟨"text/html", 2⟩) .notModified).1 = .ok response ∧
    response.entry.alternative = some ⟨"text/html", 2⟩ ∧ response.entry.identity = ⟨2⟩ ∧
    response.entry.identity ≠ y.store.identityOf (.ofUri "/") := by
  rw [Key.ofUri_root]
  exact ⟨_, _, _, rfl, rfl, rfl, rfl, rfl, rfl, rfl, by decide⟩

end System
end ResponseCache
