import ResponseCache.Proofs.Compose
import ResponseCache.Proofs.Fetch
import ResponseCache.Proofs.Moves

namespace ResponseCache

namespace Replayer

/-- What is told of a fetch. -/
def tellFetch (n : Nat) (response : Response) (key : String) : Report where
  step := n
  action := "fetch"
  key
  identity := response.identity
  cacheEntryId := response.cacheEntryId
  decision := response.decision
  fromCache := response.fromCache
  alternativeType := response.alternativeLabel
  bodyLength := response.body.length

/-- How a fetch ends. The site keeps what it did; the response is only remembered when it was as expected. -/
inductive Fetching (r : Replayer) (n : Nat) (key : String) (prefer : Option String) (expect : Option Expectation) :
    Except Error Report × Replayer → Prop
  | refused (e : Error) (site : Site) (h : r.site.fetch (.ofUri key) (prefer.elim .none .prefer) = (.error e, site)) :
      Fetching r n key prefer expect (.error e, { r with site })
  | unmet (response : Response) (site : Site) (what : String)
      (h : r.site.fetch (.ofUri key) (prefer.elim .none .prefer) = (.ok response, site))
      (hunmet : ¬∀ e, expect = some e → e.Met r.remembered response) :
      Fetching r n key prefer expect (.error ((Complaint.client what).at n), { r with site })
  | met (response : Response) (site : Site)
      (h : r.site.fetch (.ofUri key) (prefer.elim .none .prefer) = (.ok response, site))
      (hmet : ∀ e, expect = some e → e.Met r.remembered response) :
      Fetching r n key prefer expect
        (.ok (tellFetch n response key), ⟨site, r.last.insert key response, r.remembering response expect⟩)

section
variable (r : Replayer) (n : Nat)

theorem fetching (key : String) (prefer : Option String) (expect : Option Expectation) :
    Fetching r n key prefer expect (r.fetch n key prefer expect) := by
  rcases h : r.site.fetch (.ofUri key) (prefer.elim .none .prefer) with ⟨answer, site⟩
  simp only [fetch, h]
  cases answer with
  | error e => exact .refused e site h
  | ok response =>
    cases checked_expect { r with site } response expect with
    | passed hmet hcheck =>
      simp only [hcheck n]
      exact .met response site h hmet
    | failed hunmet what hcheck =>
      simp only [hcheck n]
      exact .unmet response site what h hunmet

/-- A step moves the site on, and nothing else happens but that a fetch remembers what it served. -/
theorem runStep_cases (hretired : r.site.retired = []) (step : Step) :
    (∃ site, r.site.Goes site ∧ (r.runStep n step).2 = { r with site }) ∨
      ∃ key prefer expect response site, step = .fetch key prefer expect ∧
        r.site.fetch (.ofUri key) (prefer.elim .none .prefer) = (.ok response, site) ∧
        (r.runStep n step).2 = ⟨site, r.last.insert key response, r.remembering response expect⟩ := by
  cases step with
  | fetch key prefer expect =>
    have hgoes := Site.goes_fetch hretired (.ofUri key) (prefer.elim .none .prefer)
    have hfetching := r.fetching n key prefer expect
    show (∃ site, r.site.Goes site ∧ (r.fetch n key prefer expect).2 = _) ∨ _
    generalize hresult : r.fetch n key prefer expect = result at hfetching
    -- A fetch is remembered only if its expectation was met.
    cases hfetching with
    | refused e site h => exact .inl ⟨site, by rw [h] at hgoes; exact hgoes, rfl⟩
    | unmet response site what h hunmet => exact .inl ⟨site, by rw [h] at hgoes; exact hgoes, rfl⟩
    | met response site h hmet =>
      exact .inr ⟨key, prefer, expect, response, site, rfl, h, congrArg Prod.snd hresult⟩
  | writeAlternative key label data =>
    refine .inl ?_
    simp only [runStep, writeAlternative]
    cases r.last.get? key with
    | none => exact ⟨r.site, .refl hretired, rfl⟩
    | some response =>
      have hopen := Site.goes_openOutput hretired r.site.current response.entry label
      simp only
      split
      · exact ⟨_, hopen, rfl⟩
      · rename_i site hwrite
        have hwritten := hopen.trans (Site.goes_writeOutput hopen.retired hwrite)
        exact ⟨_, hwritten.trans (Site.goes_finish hwritten.retired _ _), rfl⟩
  | flush => exact .inl ⟨_, Site.goes_flush hretired, rfl⟩
  | evict key => exact .inl ⟨_, Site.goes_evict hretired _, rfl⟩
  | clearAlternative key => exact .inl ⟨_, Site.goes_clear hretired _, rfl⟩

theorem goes_runStep (hretired : r.site.retired = []) (step : Step) : r.site.Goes (r.runStep n step).2.site := by
  rcases r.runStep_cases n hretired step with ⟨site, hgoes, hstep⟩ | ⟨key, prefer, expect, response, site, -, h, hstep⟩
  · rw [hstep]
    exact hgoes
  · have hgoes := Site.goes_fetch hretired (.ofUri key) (prefer.elim .none .prefer)
    rw [h] at hgoes
    rw [hstep]
    exact hgoes

end

/-- A run of steps keeps what each step keeps. -/
theorem runSteps_keeps {P : Replayer → Prop} (steps : List Step)
    (h : ∀ step ∈ steps, ∀ r n, P r → P (r.runStep n step).2) : ∀ (r : Replayer) (n : Nat), P r → P (runSteps n steps r).2 := by
  induction steps with
  | nil => exact fun _ _ hr => hr
  | cons step rest ih =>
    intro r n hr
    have hnext := h step List.mem_cons_self r n hr
    unfold runSteps
    generalize r.runStep n step = result at hnext ⊢
    obtain ⟨answer, r'⟩ := result
    cases answer with
    | error e => exact hnext
    | ok report => exact ih (fun step hstep => h step (List.mem_cons_of_mem _ hstep)) r' (n + 1) hnext

/-- To have the origin say more is a move as well. -/
theorem goes_script (answers : List ScriptedAnswer) : ∀ {r : Replayer}, r.site.retired = [] →
    r.site.Goes (r.script answers).site := by
  induction answers with
  | nil => exact .refl
  | cons a rest ih =>
    intro r hretired
    have hone : r.site.Goes (r.script [a]).site := Site.Makes.goes (m := .script a.toAnswer) ⟨hretired, rfl⟩ trivial
    exact hone.trans (ih hone.retired)

/-- The response was about a generation of the key that the store has given out. -/
structure Seen (s : Store) (key : String) (response : Response) : Prop where
  key : response.entry.key = .ofUri key
  present : response.identity ≠ .absent
  past : s.mint.Past response.identity

/-- There is one service at the site, and what is remembered of a key was seen there. -/
structure Sound (r : Replayer) : Prop where
  retired : r.site.retired = []
  living : r.site.service.store.Living r.site.streams
  last : ∀ key response, r.last.get? key = some response → Seen r.site.service.store key response

section
variable {r : Replayer}

theorem Sound.makes (h : r.Sound) {moves : List System.Move} {site : Site} (hmakes : r.site.Makes moves site) :
    ({ r with site } : Replayer).Sound := by
  have hliving := System.living_run (y := r.site.system) h.living moves
  have honward := System.onward_run (y := r.site.system) h.living.sound.tidy moves
  rw [← hmakes.system] at hliving honward
  refine ⟨hmakes.retired, hliving, ?_⟩
  intro key response hlast
  obtain ⟨hkey, hpresent, hpast⟩ := h.last key response hlast
  exact ⟨hkey, hpresent, honward.past hpast⟩

theorem Sound.goes (h : r.Sound) {site : Site} (hgoes : r.site.Goes site) : ({ r with site } : Replayer).Sound := by
  obtain ⟨moves, -, hmakes⟩ := hgoes
  exact h.makes hmakes

/-- What a site serves is live there afterwards. -/
theorem Sound.served (h : r.Sound) {key : Key} {intent : Intent} {response : Response} {site : Site}
    (hfetch : r.site.fetch key intent = (.ok response, site)) : site.service.store.live? key = some response.entry ∧
      (response.fromCache = true → r.site.service.store.identityOf key = response.identity) ∧
      (response.fromCache = false → ∀ i, r.site.service.store.mint.Past i → i < response.identity) := by
  have hanswer : (r.site.service.fetch r.site.streams r.site.moment key intent).1 = .ok response := congrArg Prod.fst hfetch
  have hserved := System.served_of_fetch (y := r.site.system) h.living hanswer
  have hsystem := (Site.makes_put h.retired (.fetch r.site.moment key intent)).system
  have hsite : (r.site.put (r.site.system.step (.fetch r.site.moment key intent))) = site := congrArg Prod.snd hfetch
  rw [hsite] at hsystem
  have hstore : site.service.store = (r.site.system.step (.fetch r.site.moment key intent)).store :=
    congrArg System.store hsystem
  rw [hstore]
  exact hserved

theorem Sound.seen (h : r.Sound) {key : String} {intent : Intent} {response : Response} {site : Site}
    (hfetch : r.site.fetch (.ofUri key) intent = (.ok response, site)) : Seen site.service.store key response := by
  have hgoes := Site.goes_fetch h.retired (.ofUri key) intent
  rw [hfetch] at hgoes
  have hliving := (h.goes hgoes).living
  obtain ⟨hlive, -⟩ := h.served hfetch
  exact ⟨hliving.sound.tidy.keyed _ _ hlive, hliving.present _ _ hlive, hliving.sound.minted.live _ _ hlive⟩

theorem Sound.runStep (h : r.Sound) (n : Nat) (step : Step) : (r.runStep n step).2.Sound := by
  rcases r.runStep_cases n h.retired step with ⟨site, hgoes, hstep⟩ | ⟨key, prefer, expect, response, site, -, hfetch, hstep⟩
  · rw [hstep]
    exact h.goes hgoes
  · have hgoes := Site.goes_fetch h.retired (.ofUri key) (prefer.elim .none .prefer)
    rw [hfetch] at hgoes
    obtain ⟨hretired, hliving, hlast⟩ := h.goes hgoes
    rw [hstep]
    refine ⟨hretired, hliving, ?_⟩
    intro key' response' hget
    rw [Table.get?_insert] at hget
    by_cases hk : key = key'
    · rw [if_pos hk] at hget
      exact hk ▸ Option.some.inj hget ▸ h.seen hfetch
    · rw [if_neg hk] at hget
      exact hlast key' response' hget

theorem Sound.run (h : r.Sound) (s : Scenario) : (r.run s).2.Sound :=
  runSteps_keeps s.steps (fun step _ _ n hr => hr.runStep n step) _ 1 (h.goes (goes_script s.origin h.retired))

end

/-- What may be done with a replayer. -/
inductive Act
  | replay (scenario : Scenario)
  | sleep (span : Span)
  /-- Its service, its streams or its backend are used past it. -/
  | use (move : System.Move)

def act (r : Replayer) : Act → Replayer
  | .replay scenario => (r.run scenario).2
  | .sleep span => { r with site := r.site.sleep span }
  | .use move => { r with site := r.site.put (r.site.system.step move) }

def after (r : Replayer) (acts : List Act) : Replayer := acts.foldl act r

theorem Sound.act {r : Replayer} (h : r.Sound) (a : Act) : (r.act a).Sound := by
  cases a with
  | replay scenario => exact h.run scenario
  | sleep span => exact h.goes (Site.goes_sleep h.retired span)
  | use move => exact h.makes (Site.makes_put h.retired move)

theorem Sound.after (acts : List Act) : ∀ {r : Replayer}, r.Sound → (r.after acts).Sound := by
  induction acts with
  | nil => exact id
  | cons a rest ih => exact fun h => ih (h.act a)

theorem sound_start (now : Nat) (config : Config) (persistent : Bool) : (start now config persistent).Sound :=
  ⟨rfl, System.living_start config persistent {} .nobody {}, fun _ _ h => absurd h (by simp [start, Table.get?, Table.find])⟩

end Replayer
end ResponseCache
