import Mathlib
import ResponseCache.Proofs.Offer
import ResponseCache.Proofs.Replaying
import ResponseCache.Proofs.WriteOnce

namespace ResponseCache

namespace System

theorem Move.Ordinary.not_restores {m : Move} (h : m.Ordinary) : ¬m.Restores := by
  cases m with
  | restore now records => exact h.elim
  | _ => exact id

/-- A generation that is gone does not come back, unless a restore brings it. -/
theorem identityOf_run_ne {y : System} (hy : y.store.Living y.streams) {moves : List Move} (hm : ∀ m ∈ moves, ¬m.Restores)
    {key : Key} {i : Identity} (hpresent : i ≠ .absent) (hpast : y.store.mint.Past i) (hgone : y.store.identityOf key ≠ i) :
    (y.run moves).store.identityOf key ≠ i := by
  -- What the run replaces gets larger identities.
  have hlarger (j : Identity) (primary : StreamId) (alternative : Option Alternative)
      (hd : .replaced key j primary alternative ∈ y.history moves) : j ≠ i := by
    have hlt := (Identity.lt_iff _ _).mp (lt_of_mem_history moves hy.sound hpast hd)
    intro heq
    rw [heq] at hlt
    exact Nat.lt_irrefl _ hlt
  have hremember := Deed.remember_identity_iff key i (y.history moves) hlarger ((y.store.live? key).map Entry.generation)
  rw [← generation_run key moves hy hm, Option.map_map, Option.map_map] at hremember
  intro hback
  exact hgone ((Store.identityOf_eq_iff hpresent).mpr (hremember.mp ((Store.identityOf_eq_iff hpresent).mp hback)).1)

end System

/-- Into a stream that has just been opened anything can be written that the limit leaves room for. -/
theorem Streams.exists_write_add (s : Streams) (contentType : String) {limit : Option Nat} {bytes : Bytes}
    (hfits : ∀ most, limit = some most → bytes.length ≤ most) :
    ∃ streams, (s.add { contentType, limit }).2.write (s.add { contentType, limit }).1 bytes = .ok streams := by
  have hroom : Stream.Fits limit [] bytes := by simpa [Stream.Fits] using hfits
  have hwritten : (Stream.standing contentType limit [] .writing).write bytes =
      .ok (Stream.standing contentType limit ([] ++ bytes) .writing) := (Stream.write_standing bytes).trans (if_pos hroom)
  have hwrite : (s.add { contentType, limit }).2.write (s.add { contentType, limit }).1 bytes =
      ((Stream.standing contentType limit [] .writing).write bytes).map
        ((s.add { contentType, limit }).2.set (s.add { contentType, limit }).1) := by
    simp only [write, update, s.get?_add_self]
    rfl
  exact ⟨_, by rw [hwrite, hwritten]; rfl⟩

namespace Site
variable {s : Site}

/-- An output is opened for the system at the site. -/
theorem openOutput_eq (hretired : s.retired = []) (n : Nat) (entry : Entry) (label : String) : s.openOutput n entry label =
    ((s.system.openOutput entry label).1, { s with streams := (s.system.openOutput entry label).2.streams }) := by
  rw [Site.openOutput, serviceAt_eq hretired]
  rfl

theorem finish_eq (hretired : s.retired = []) (n : Nat) (o : Output) :
    (s.finish n o).1 = (s.service.finish s.streams s.moment o).1 ∧
      (s.finish n o).2.system = ⟨(s.service.finish s.streams s.moment o).2.1, s.backend,
        (s.service.finish s.streams s.moment o).2.2⟩ := by
  simp only [Site.finish, serviceAt_eq hretired]
  obtain ⟨line, log, hset⟩ := setServiceAt_eq (s := { s with streams := (s.service.finish s.streams s.moment o).2.1 })
    hretired n (s.service.finish s.streams s.moment o).2.2
  exact ⟨trivial, by rw [hset]; rfl⟩

/-- An alternative that fits is written, and then offered to the generation of the entry. -/
theorem offered_written (hretired : s.retired = []) (hs : s.service.store.Living s.streams) (entry : Entry) (label : String)
    {bytes : Bytes} (hfits : ∀ most, s.service.config.maxStreamBytes = some most → bytes.length ≤ most) :
    let opened := s.openOutput s.current entry label
    ∃ written, opened.2.writeOutput opened.1 bytes = .ok written ∧
      let result := written.finish written.current opened.1
      s.service.store.Offered result.2.streams entry.key entry.identity ⟨label, opened.1.stream⟩ result.1
          result.2.service.store ∧
        (s.service.store.identityOf entry.key ≠ entry.identity → result.2.service = s.service) ∧
        result.2.streams.content opened.1.stream = .ok bytes := by
  rw [openOutput_eq hretired]
  obtain ⟨o, y, hopened⟩ : ∃ o y, s.system.openOutput entry label = (o, y) := ⟨_, _, rfl⟩
  obtain ⟨streams, hwrite⟩ : ∃ streams, y.streams.write o.stream bytes = .ok streams := by
    obtain ⟨rfl, rfl⟩ := Prod.mk.inj hopened
    exact s.streams.exists_write_add label hfits
  have hservice : y.service = s.service := by
    obtain ⟨rfl, rfl⟩ := Prod.mk.inj hopened
    rfl
  have hspares : ∀ m ∈ [System.Move.writeStream o.stream bytes],
      m.Spares (s.system.openOutput entry label).1.stream ∧ ¬m.Restores := by
    simp [System.Move.Spares, System.Move.Restores]
  obtain ⟨hoffered, hstale, hcontent, -⟩ := System.finish_run (y := s.system) hs entry label hspares s.moment
  rw [hopened] at hoffered hstale hcontent ⊢
  -- To write is all that happens between opening the output and ending it.
  have hrun : y.run [.writeStream o.stream bytes] = { y with streams } := by
    show y.step (.writeStream o.stream bytes) = _
    simp only [System.step, hwrite]
    rfl
  have haccepted : y.accepted o.stream [.writeStream o.stream bytes] = bytes := by
    simp [System.accepted, System.written, hwrite]
  simp only [hrun, hservice, haccepted] at hoffered hstale hcontent
  refine ⟨{ s with streams }, by simp only [Site.writeOutput, hwrite]; rfl, ?_⟩
  obtain ⟨hanswer, hsystem⟩ := finish_eq (s := { s with streams }) hretired ({ s with streams } : Site).current o
  have hstreams := congrArg System.streams hsystem
  have hafter := congrArg System.service hsystem
  simp only [system] at hstreams hafter
  simp only [hanswer, hstreams, hafter]
  exact ⟨hoffered, hstale, hcontent⟩

end Site

/-- The step is a fetch of that key. -/
def Step.Fetches (key : String) : Step → Prop
  | fetch key' _ _ => key' = key
  | _ => False

namespace Replayer

/-- What becomes of an alternative that is written to the content of an earlier response. If the generation of the response is
still there the alternative lands there; if not it is stale, and the service stays as it is. -/
structure Writes (r : Replayer) (key label : String) (earlier : Response) (result : Except Error Report × Replayer) : Prop where
  lands : r.site.service.store.IsOpen → r.site.service.store.identityOf (.ofUri key) = earlier.identity →
    ∃ report entry, result.1 = .ok report ∧ report.identity = some earlier.identity ∧ report.alternativeType = some label ∧
      result.2.site.service.store.live? (.ofUri key) = some entry ∧ entry.identity = earlier.identity ∧
      entry.alternativeLabel = some label
  stale : r.site.service.store.identityOf (.ofUri key) ≠ earlier.identity →
    result.1 = .error (.staleEntry (Key.ofUri key).display earlier.identity
      (r.site.service.store.identityOf (.ofUri key))) ∧ result.2.site.service = r.site.service

section
variable {r : Replayer}

theorem Sound.writes (h : r.Sound) {key : String} {earlier : Response} (hlast : r.last.get? key = some earlier) (n : Nat)
    (label : String) {data : String}
    (hfits : ∀ most, r.site.service.config.maxStreamBytes = some most → (Text.toBytes data).length ≤ most) :
    r.Writes key label earlier (r.runStep n (.writeAlternative key label data)) := by
  obtain ⟨hkey, hpresent, -⟩ := h.last key earlier hlast
  obtain ⟨written, hwrite, hoffered, hstale, hcontent⟩ := Site.offered_written h.retired h.living earlier.entry label hfits
  simp only [Replayer.runStep, writeAlternative, hlast, hwrite]
  rw [hkey] at hoffered hstale
  generalize written.finish _ _ = result at hoffered hstale hcontent ⊢
  obtain ⟨answer, site⟩ := result
  refine ⟨?_, ?_⟩
  · intro hopen hlive
    obtain ⟨entry, hanswer⟩ := (hoffered.lands hopen).mpr ⟨hpresent, ⟨_, hcontent⟩, hlive⟩
    obtain ⟨old, -, -, hidentity, -, halternative, hlives⟩ := hoffered.landed entry hanswer
    have hlabel : entry.alternativeLabel = some label := by rw [Entry.alternativeLabel, halternative]; rfl
    obtain rfl : answer = .ok entry := hanswer
    exact ⟨_, entry, rfl, congrArg some hidentity, hlabel, (hlives _).trans (if_pos rfl), hidentity, hlabel⟩
  · intro hgone
    obtain ⟨hanswer, -⟩ := hoffered.stale (.inr hgone)
    obtain rfl : answer = .error _ := hanswer
    exact ⟨rfl, hstale hgone⟩

/-- What is remembered of a key is remembered until the key is fetched again. -/
theorem last_runSteps {key : String} (hretired : r.site.retired = []) {steps : List Step}
    (h : ∀ step ∈ steps, ¬step.Fetches key) (n : Nat) : (runSteps n steps r).2.last.get? key = r.last.get? key := by
  have hkept := runSteps_keeps (P := fun r' => r'.site.retired = [] ∧ r'.last.get? key = r.last.get? key) steps ?_ r n
    ⟨hretired, rfl⟩
  · exact hkept.2
  · rintro step hstep r' n ⟨hretired, hlast⟩
    refine ⟨(goes_runStep r' n hretired step).retired, ?_⟩
    rcases r'.runStep_cases n hretired step with ⟨site, -, hafter⟩ | ⟨key', prefer, expect, response, site, rfl, -, hafter⟩
    · rw [hafter]
      exact hlast
    · have hne : ¬key' = key := h _ hstep
      rw [hafter, Table.get?_insert, if_neg hne, hlast]

theorem goes_run (hretired : r.site.retired = []) (s : Scenario) : r.site.Goes (r.run s).2.site :=
  runSteps_keeps (P := fun r' => r.site.Goes r'.site) s.steps
    (fun step _ r' n hgoes => hgoes.trans (goes_runStep r' n hgoes.retired step)) _ 1 (goes_script s.origin hretired)

end

/-- Scenarios that do not fetch a key move the site on, and leave what is remembered of the key. -/
theorem replays_keep {key : String} (later : List Scenario) (h : ∀ s ∈ later, ∀ step ∈ s.steps, ¬step.Fetches key) :
    ∀ {r : Replayer}, r.site.retired = [] → r.site.Goes (r.after (later.map .replay)).site ∧
      (r.after (later.map .replay)).last.get? key = r.last.get? key := by
  induction later with
  | nil => exact fun hretired => ⟨.refl hretired, rfl⟩
  | cons s rest ih =>
    intro r hretired
    have hgoes := goes_run hretired s
    have hlast := last_runSteps (r := r.script s.origin) (goes_script s.origin hretired).retired
      (h s List.mem_cons_self) 1
    obtain ⟨hgoes', hlast'⟩ := ih (fun s' hs' => h s' (List.mem_cons_of_mem s hs')) hgoes.retired
    exact ⟨hgoes.trans hgoes', hlast'.trans hlast⟩

/-- A fetch that brought a new generation leaves every earlier one behind, for as long as the site goes on by itself. -/
theorem Sound.left_behind {r : Replayer} (h : r.Sound) {key : String} {intent : Intent} {response : Response} {site site' : Site}
    (hfetch : r.site.fetch (.ofUri key) intent = (.ok response, site)) (hnetwork : response.fromCache = false)
    (hgoes : site.Goes site') {earlier : Response} (hlast : r.last.get? key = some earlier) :
    site'.service.store.identityOf (.ofUri key) ≠ earlier.identity := by
  have hfetched := Site.goes_fetch h.retired (.ofUri key) intent
  rw [hfetch] at hfetched
  have hafter := h.goes hfetched
  obtain ⟨hlive, -, hlarger⟩ := h.served hfetch
  have hlt := (Identity.lt_iff _ _).mp (hlarger hnetwork _ (h.last key earlier hlast).past)
  have hgone : site.service.store.identityOf (.ofUri key) ≠ earlier.identity := by
    rw [Store.identityOf_of_live hlive]
    exact fun heq => Nat.lt_irrefl _ (heq ▸ hlt)
  obtain ⟨moves, hmoves, -, hsystem⟩ := hgoes
  obtain ⟨-, hpresent, hpast⟩ := hafter.last key earlier hlast
  have hstill := System.identityOf_run_ne (y := site.system) hafter.living (fun m hm => (hmoves m hm).not_restores) hpresent
    hpast hgone
  rw [← hsystem] at hstill
  exact hstill

/-- Expectations are checked exactly, and before anything is remembered. A fetch that was served passes just when all that is
expected of the response holds, names standing for what was remembered before the step; a name under which nothing is remembered
is never met. Whether it passes or not, the site keeps what the fetch did. If it passes, the identity that is live then is
remembered under the name that was asked for, and the response as the last one for its key. If not, the replay ends with a
complaint that begins with the number of the step, and nothing else is remembered than before. So an alternative that is written
to the key later, before it is fetched again, still goes to the response before the fetch, if there was one; it is stale unless
the generation of that response is live, and that is gone for good if the fetch brought a new one. -/
theorem expectations_are_checked_exactly (now : Nat) (config : Config) (persistent : Bool) (acts : List Act) (n : Nat)
    (key : String) (prefer : Option String) (expect : Option Expectation) (response : Response) (site : Site)
    (hfetch : ((start now config persistent).after acts).site.fetch (.ofUri key) (prefer.elim .none .prefer) =
      (.ok response, site)) :
    let r := (start now config persistent).after acts
    let result := r.runStep n (.fetch key prefer expect)
    let met := ∀ e, expect = some e → e.Met r.remembered response
    ((∃ report, result.1 = .ok report) ↔ met) ∧
    result.2.site = site ∧ site.service.store.live? (.ofUri key) = some response.entry ∧
    (met →
      (∀ name, result.2.remembered.get? name =
        if expect.bind (·.remember) = some name then some response.identity else r.remembered.get? name) ∧
      ∀ key', result.2.last.get? key' = if key = key' then some response else r.last.get? key') ∧
    (¬met → ∃ what, let complaint := Error.scenario ("step " ++ toString n ++ ": " ++ what)
      result = (.error complaint, { r with site }) ∧
      (∀ rest, runSteps n (.fetch key prefer expect :: rest) r = (⟨[], some complaint⟩, { r with site })) ∧
      ∀ later : List Scenario, (∀ s ∈ later, ∀ step ∈ s.steps, ¬step.Fetches key) →
        let r' := ({ r with site } : Replayer).after (later.map .replay)
        r'.last.get? key = r.last.get? key ∧
        ∀ m label data,
          (∀ most, r'.site.service.config.maxStreamBytes = some most → (Text.toBytes data).length ≤ most) →
          let written := r'.runStep m (.writeAlternative key label data)
          (r.last.get? key = none → written =
            (.error (.scenario ("step " ++ toString m ++ ": write_alternative for " ++ key ++ " before any fetch")), r')) ∧
          ∀ earlier, r.last.get? key = some earlier → r'.Writes key label earlier written ∧
            (response.fromCache = false → r'.site.service.store.identityOf (.ofUri key) ≠ earlier.identity)) := by
  intro r result met
  have hsound : r.Sound := (sound_start now config persistent).after acts
  obtain ⟨hlive, -⟩ := hsound.served hfetch
  have hfetching := r.fetching n key prefer expect
  have hresult : result = r.fetch n key prefer expect := rfl
  rw [← hresult] at hfetching
  generalize result = outcome at hfetching hresult ⊢
  -- The fetch was served, so its expectation alone decides.
  cases hfetching with
  | refused e site' hrefused => exact absurd (hfetch.symm.trans hrefused) (by simp)
  | met response' site' hfetch' hmet =>
    obtain ⟨rfl, rfl⟩ : response = response' ∧ site = site' := by simpa using hfetch.symm.trans hfetch'
    refine ⟨⟨fun _ => hmet, fun _ => ⟨_, rfl⟩⟩, rfl, hlive, fun _ => ⟨?_, ?_⟩, fun hunmet => absurd hmet hunmet⟩
    · exact r.get?_remembering response expect
    · exact fun key' => Table.get?_insert r.last key key' response
  | unmet response' site' what hfetch' hunmet =>
    obtain ⟨rfl, rfl⟩ : response = response' ∧ site = site' := by simpa using hfetch.symm.trans hfetch'
    refine ⟨⟨fun hpassed => absurd hpassed (by simp), fun hmet => absurd hmet hunmet⟩, rfl, hlive,
      fun hmet => absurd hmet hunmet, fun _ => ⟨what, rfl, ?_, ?_⟩⟩
    · exact runSteps_of_error hresult.symm
    · intro later hlater
      -- Replays that do not fetch the key bring the site on, and leave the last response for it.
      have hgoes := Site.goes_fetch hsound.retired (.ofUri key) (prefer.elim .none .prefer)
      rw [hfetch] at hgoes
      obtain ⟨hgoes', hlast⟩ := replays_keep (r := { r with site }) later hlater hgoes.retired
      have hsound' := (hsound.goes hgoes).after (later.map .replay)
      refine ⟨hlast, fun m label data hfits => ⟨?_, ?_⟩⟩
      · intro hnone
        simp only [runStep, writeAlternative, hlast.trans hnone]
      · intro earlier hearlier
        exact ⟨hsound'.writes (hlast.trans hearlier) m label hfits,
          fun hnetwork => hsound.left_behind hfetch hnetwork hgoes' hearlier⟩

/-- A key is fetched twice. The second body is not the one that was expected, so that an alternative which is written then is
meant for the first generation, and comes too late. -/
theorem alternative_too_late_after_unmet_expectation : ∃ (acts : List Act) (r r' : Replayer) (e : Expectation),
    acts = [.replay ⟨none, [.full "a" "text/plain", .full "b" "text/plain"], [.fetch "/" none none]⟩] ∧
    r = (start 0 {} false).after acts ∧ e = { body := some "a", remember := some "first" } ∧
    (∃ what, r.runStep 2 (.fetch "/" none (some e)) = (.error (.scenario ("step 2: " ++ what)), r')) ∧
    r'.remembered.get? "first" = none ∧ r'.site.service.store.identityOf (.ofUri "/") = ⟨2⟩ ∧
    (r'.runStep 3 (.writeAlternative "/" "text/html" "x")).1 = .error (.staleEntry "/" ⟨1⟩ ⟨2⟩) := by
  -- The states have names, so that none of them is written out in the facts about it.
  obtain ⟨acts, hacts⟩ : ∃ acts : List Act, acts =
    [.replay ⟨none, [.full "a" "text/plain", .full "b" "text/plain"], [.fetch "/" none none]⟩] := ⟨_, rfl⟩
  obtain ⟨r, hr⟩ : ∃ r, r = (start 0 {} false).after acts := ⟨_, rfl⟩
  obtain ⟨site, hsite⟩ : ∃ site, site = (r.site.fetch (.ofUri "/") .none).2 := ⟨_, rfl⟩
  have hanswer : (r.site.fetch (.ofUri "/") .none).1.map (fun response => (response.body, response.fromCache)) =
      .ok ([98], false) := by rw [hr, hacts]; cbv
  have hlast : (r.last.get? "/").map Response.identity = some ⟨1⟩ := by rw [hr, hacts]; cbv
  have hnothing : r.remembered.get? "first" = none := by rw [hr, hacts]; cbv
  have hsecond : site.service.store.identityOf (.ofUri "/") = ⟨2⟩ := by rw [hsite, hr, hacts]; cbv
  have hlimit : site.service.config.maxStreamBytes = some 67108864 := by rw [hsite, hr, hacts]; cbv
  have hdisplay : (Key.ofUri "/").display = "/" := by cbv
  have htext : Text.toBytes "a" = [97] := by cbv
  have hlength : (Text.toBytes "x").length = 1 := by cbv
  obtain ⟨response, hserved, hbody, hnetwork⟩ : ∃ response, (r.site.fetch (.ofUri "/") .none).1 = .ok response ∧
      response.body = [98] ∧ response.fromCache = false := by
    cases hanswer' : (r.site.fetch (.ofUri "/") .none).1 with
    | error => simp [hanswer', Except.map] at hanswer
    | ok response => exact ⟨response, rfl, by simpa [hanswer', Except.map] using hanswer⟩
  obtain ⟨earlier, hlast, hfirst⟩ := Option.map_eq_some_iff.mp hlast
  obtain ⟨e, he⟩ : ∃ e : Expectation, e = { body := some "a", remember := some "first" } := ⟨_, rfl⟩
  have hunmet : ¬∀ e', some e = some e' → e'.Met r.remembered response := by
    intro hmet
    have hequal := (hmet e rfl).body "a" (by rw [he])
    rw [hbody, htext] at hequal
    exact absurd hequal (by decide)
  subst hr
  obtain ⟨-, -, -, -, hfails⟩ := expectations_are_checked_exactly 0 {} false acts 2 "/" none (some e) response site
    (Prod.ext hserved hsite.symm)
  obtain ⟨what, hresult, -, hlater⟩ := hfails hunmet
  obtain ⟨-, hwrite⟩ := hlater [] (by simp)
  have hfits : ∀ most, site.service.config.maxStreamBytes = some most → (Text.toBytes "x").length ≤ most := by
    intro most hmost
    obtain rfl := Option.some.inj (hlimit.symm.trans hmost)
    rw [hlength]
    decide
  obtain ⟨-, hearlier⟩ := hwrite 3 "text/html" "x" hfits
  obtain ⟨hwrites, hgone⟩ := hearlier earlier hlast
  obtain ⟨hstale, -⟩ := hwrites.stale (hgone hnetwork)
  refine ⟨acts, _, _, e, hacts, rfl, he, ⟨what, hresult⟩, hnothing, hsecond, hstale.trans ?_⟩
  show Except.error (Error.staleEntry _ earlier.identity (site.service.store.identityOf (.ofUri "/"))) = _
  rw [hdisplay, hfirst, hsecond]

end Replayer
end ResponseCache
