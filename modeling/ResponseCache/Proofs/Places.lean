import ResponseCache.Scenario
import ResponseCache.Proofs.Yaml.Fields
/-!
Places of a scenario document. The format has parts, each with names that are declared there; a document shows its nodes at these
places, and what it shows is read there. So outside the fields of full answers and of steps, which pass over what they do not
know, a document that is read shows declared names only.
-/
namespace ResponseCache.Scenario
open Yaml (Node Reading Document)
open Yaml.Node
open Yaml.Reading (Gives gives_pure_iff not_gives_fail)

/-- The parts of the format: records, lists, and the choices between them. -/
inductive Place
  | scenario
  | origin
  | answer
  | full
  | steps
  | step
  | fetch
  | writeAlternative
  | evict
  | clearAlternative
  | expectation
  | identity
  deriving DecidableEq, Repr

namespace Place

/-- The names that a mapping may have there. In a choice they are those that go with a value; a list is no mapping. -/
def declared : Place → List String
  | scenario => ["name", "origin", "steps"]
  | origin | steps => []
  | answer => ["full", "failure"]
  | full => ["body", "content_type"]
  | step => ["fetch", "write_alternative", "evict", "clear_alternative"]
  | fetch => ["key", "prefer", "expect"]
  | writeAlternative => ["key", "label", "data"]
  | evict | clearAlternative => ["key"]
  | expectation => ["body", "alternative_type", "from_cache", "cache_entry_id", "remember"]
  | identity => ["same_as", "differs_from"]

/-- Those of the names under which other parts stand. -/
def parts : Place → List (String × Place)
  | scenario => [("origin", origin), ("steps", steps)]
  | answer => [("full", full)]
  | step => [("fetch", fetch), ("write_alternative", writeAlternative), ("evict", evict), ("clear_alternative", clearAlternative)]
  | fetch => [("expect", expectation)]
  | expectation => [("cache_entry_id", identity)]
  | origin | full | steps | writeAlternative | evict | clearAlternative | identity => []

/-- The part that each item of a list is. -/
def item? : Place → Option Place
  | origin => some answer
  | steps => some step
  | _ => none

/-- The name of the step that has these fields. -/
def kind? : Place → Option String
  | fetch => some "fetch"
  | writeAlternative => some "write_alternative"
  | evict => some "evict"
  | clearAlternative => some "clear_alternative"
  | _ => none

/-- Undeclared entries are passed over: so it is with the fields of a full answer and of a step. -/
def PassesOver : Place → Prop
  | full | fetch | writeAlternative | evict | clearAlternative => True
  | scenario | origin | answer | steps | step | expectation | identity => False

instance : DecidablePred PassesOver := fun p => by cases p <;> unfold PassesOver <;> infer_instance

/-- What is read there. -/
def Value : Place → Type
  | scenario => Scenario
  | origin => List ScriptedAnswer
  | answer | full => ScriptedAnswer
  | steps => List Step
  | step | fetch | writeAlternative | evict | clearAlternative => Step
  | expectation => Expectation
  | identity => IdentityExpectation

def fullOfFields? (fields : List (String × Node)) : Reading ScriptedAnswer := do
  let contentType ← field? "content_type" text? fields
  return .full (← required? "body" text? fields) (contentType.getD standardContentType)

def read? : (p : Place) → Node → Reading p.Value
  | scenario, n => ofNode? n
  | origin, n => do (← n.items?).mapM answerOf?
  | answer, n => answerOf? n
  | full, n => do fullOfFields? (← n.fields?)
  | steps, n => do (← n.items?).mapM stepOf?
  | step, n => stepOf? n
  | fetch, n => do stepOfFields? "fetch" (← n.fields?)
  | writeAlternative, n => do stepOfFields? "write_alternative" (← n.fields?)
  | evict, n => do stepOfFields? "evict" (← n.fields?)
  | clearAlternative, n => do stepOfFields? "clear_alternative" (← n.fields?)
  | expectation, n => expectationOf? n
  | identity, n => identityExpectationOf? n

theorem kind?_of_mem_parts {q : Place} {name : String} (h : (name, q) ∈ step.parts) : q.kind? = some name := by
  simp only [parts, List.mem_cons, Prod.mk.injEq, List.not_mem_nil, or_false] at h
  rcases h with ⟨rfl, rfl⟩ | ⟨rfl, rfl⟩ | ⟨rfl, rfl⟩ | ⟨rfl, rfl⟩ <;> rfl

theorem resolving_read? (p : Place) : Resolving p.read? := by
  cases p with
  | scenario | full | fetch | writeAlternative | evict | clearAlternative | expectation => exact resolving_fields?.bind _
  | origin | steps => exact resolving_items?.bind _
  | answer | step | identity => exact resolving_choice?.bind _

end Place

/-- The document shows that node at that place: its root as a scenario, and from there on what stands under the names of parts and
what the items of lists are. -/
inductive Shows (d : Document) : Place → Node → Prop
  | root {n : Node} (hn : d.root.target? d.numbered = some n) : Shows d .scenario n
  | item {p q : Place} {tag : Option Bytes} {items : List Node} {i n : Node} (h : Shows d p (.sequence tag items))
      (hi : i ∈ items) (hq : p.item? = some q) (hn : i.target? d.numbered = some n) : Shows d q n
  | field {p q : Place} {tag : Option Bytes} {members : List (Node × Node)} {key value n : Node} {name : String}
      (h : Shows d p (.mapping tag members)) (hmember : (key, value) ∈ members) (hname : key.Names d.numbered name)
      (hq : (name, q) ∈ p.parts) (hn : value.target? d.numbered = some n) : Shows d q n

section
variable {nodes : Array Node} {tag : Option Bytes} {members : List (Node × Node)} {n : Node}

theorem gives_of_mem_items {α : Type} {read : Node → Reading α} {items : List Node} {as : List α}
    (h : Gives nodes (do (← (Node.sequence tag items).items?).mapM read) as) {i : Node} (hi : i ∈ items) :
    ∃ a, Gives nodes (read i) a := by
  obtain ⟨items', hitems, h⟩ := h.bind
  obtain rfl := gives_pure_iff.mp hitems
  obtain ⟨a, -, ha⟩ := h.of_mem hi
  exact ⟨a, ha⟩

theorem gives_fields_of_ofNode? {s : Scenario} (h : Gives nodes (ofNode? n) s) :
    ∃ fields, Gives nodes n.fields? fields ∧ hasOnly Place.scenario.declared fields = true ∧
      (∃ o, Gives nodes (field? "origin" Place.origin.read? fields) o) ∧
      Gives nodes (required? "steps" Place.steps.read? fields) s.steps := by
  obtain ⟨fields, hfields, h⟩ := h.bind
  refine ⟨fields, hfields, ?_⟩
  split at h
  case isTrue honly =>
    obtain ⟨name, -, h⟩ := h.bind
    obtain ⟨o, horigin, h⟩ := h.bind
    obtain ⟨steps, hsteps, h⟩ := h.bind
    obtain rfl := gives_pure_iff.mp h
    exact ⟨honly, ⟨o, horigin⟩, hsteps⟩
  case isFalse => exact absurd h not_gives_fail

theorem gives_fields_of_expectationOf? {e : Expectation} (h : Gives nodes (expectationOf? n) e) :
    ∃ fields, Gives nodes n.fields? fields ∧ hasOnly Place.expectation.declared fields = true ∧
      Gives nodes (optionalField? "cache_entry_id" identityExpectationOf? fields) e.cacheEntryId := by
  obtain ⟨fields, hfields, h⟩ := h.bind
  refine ⟨fields, hfields, ?_⟩
  split at h
  case isTrue honly =>
    obtain ⟨body, -, h⟩ := h.bind
    obtain ⟨alternativeType, -, h⟩ := h.bind
    obtain ⟨fromCache, -, h⟩ := h.bind
    obtain ⟨cacheEntryId, hid, h⟩ := h.bind
    obtain ⟨remember, -, h⟩ := h.bind
    obtain rfl := gives_pure_iff.mp h
    exact ⟨honly, hid⟩
  case isFalse => exact absurd h not_gives_fail

theorem gives_expect_of_stepOfFields? {fields : List (String × Node)} {step : Step}
    (h : Gives nodes (stepOfFields? "fetch" fields) step) :
    ∃ expect, Gives nodes (optionalField? "expect" expectationOf? fields) expect := by
  obtain ⟨key, -, h⟩ := h.bind
  obtain ⟨prefer, -, h⟩ := h.bind
  obtain ⟨expect, hexpect, h⟩ := h.bind
  exact ⟨expect, hexpect⟩

/-- Steps with fields are of four kinds. -/
theorem mem_of_stepOfFields? {name : String} {fields : List (String × Node)} {step : Step}
    (h : Gives nodes (stepOfFields? name fields) step) : name ∈ Place.step.declared := by
  unfold stepOfFields? at h
  by_cases hname : name ∈ Place.step.declared
  · exact hname
  · simp only [Place.declared, List.mem_cons, List.not_mem_nil, or_false, not_or] at hname
    obtain ⟨hfetch, hwrite, hevict, hclear⟩ := hname
    rw [if_neg hfetch, if_neg hwrite, if_neg hevict, if_neg hclear] at h
    exact absurd h not_gives_fail

theorem gives_of_answerOf? {answer : ScriptedAnswer} (h : Gives nodes (answerOf? (.mapping tag members)) answer) :
    ∃ key name value, members = [(key, value)] ∧ key.Names nodes name ∧ name ∈ Place.answer.declared ∧
      (name = "full" → Gives nodes (Place.full.read? value) answer) := by
  obtain ⟨choice, hchoice, h⟩ := h.bind
  obtain ⟨key, name, value, rfl, hname, rfl⟩ := choice_of_mapping hchoice
  refine ⟨key, name, value, rfl, hname, ?_⟩
  by_cases hfull : name = "full"
  · subst name
    exact ⟨List.mem_cons_self, fun _ => h⟩
  by_cases hfailure : name = "failure"
  · subst name
    exact ⟨List.mem_cons_of_mem _ List.mem_cons_self, fun h => absurd h hfull⟩
  · simp only [if_neg hfull, if_neg hfailure] at h
    exact absurd h not_gives_fail

theorem gives_of_stepOf? {step : Step} (h : Gives nodes (stepOf? (.mapping tag members)) step) :
    ∃ key name value, members = [(key, value)] ∧ key.Names nodes name ∧
      Gives nodes (do stepOfFields? name (← value.fields?)) step := by
  obtain ⟨choice, hchoice, h⟩ := h.bind
  obtain ⟨key, name, value, rfl, hname, rfl⟩ := choice_of_mapping hchoice
  exact ⟨key, name, value, rfl, hname, h⟩

theorem gives_of_identityExpectationOf? {e : IdentityExpectation}
    (h : Gives nodes (identityExpectationOf? (.mapping tag members)) e) :
    ∃ key name value, members = [(key, value)] ∧ key.Names nodes name ∧ name ∈ Place.identity.declared := by
  obtain ⟨choice, hchoice, h⟩ := h.bind
  obtain ⟨key, name, value, rfl, hname, rfl⟩ := choice_of_mapping hchoice
  refine ⟨key, name, value, rfl, hname, ?_⟩
  by_cases hmem : name ∈ Place.identity.declared
  · exact hmem
  · simp only [Place.declared, List.mem_cons, List.not_mem_nil, or_false, not_or] at hmem
    simp only [if_neg hmem.1, if_neg hmem.2] at h
    exact absurd h not_gives_fail

/-- The fields of a step are read where the step is. -/
theorem Place.gives_of_kind? {q : Place} {kind : String} (hq : q.kind? = some kind) {step : Step}
    (h : Gives nodes (do stepOfFields? kind (← n.fields?)) step) : ∃ b, Gives nodes (q.read? n) b := by
  cases q with
  | fetch | writeAlternative | evict | clearAlternative =>
    obtain rfl := Option.some.inj hq
    exact ⟨step, h⟩
  | _ => exact absurd hq (by simp [kind?])

variable {p q : Place} {a : p.Value}

theorem Place.gives_item {items : List Node} {i : Node} (ha : Gives nodes (p.read? (.sequence tag items)) a) (hi : i ∈ items)
    (hq : p.item? = some q) : ∃ b, Gives nodes (q.read? i) b := by
  cases p with
  | origin =>
    obtain rfl := Option.some.inj hq
    exact gives_of_mem_items ha hi
  | steps =>
    obtain rfl := Option.some.inj hq
    exact gives_of_mem_items ha hi
  | _ => exact absurd hq (by simp [item?])

theorem Place.gives_part {key value m : Node} {name : String} (ha : Gives nodes (p.read? (.mapping tag members)) a)
    (hmember : (key, value) ∈ members) (hname : key.Names nodes name) (hq : (name, q) ∈ p.parts)
    (hm : value.target? nodes = some m) (hcollection : m.IsCollection) : ∃ b, Gives nodes (q.read? m) b := by
  -- An alias is read as the collection that it stands for.
  have hraw : (∃ b, Gives nodes (q.read? value) b) → ∃ b, Gives nodes (q.read? m) b := by
    rintro ⟨b, hb⟩
    exact ⟨b, q.resolving_read?.gives hm hcollection hb⟩
  cases p with
  | scenario =>
    obtain ⟨fields, hfields, -, ⟨o, horigin⟩, hsteps⟩ := gives_fields_of_ofNode? ha
    have hfield := mem_fields hfields hmember hname
    simp only [parts, List.mem_cons, Prod.mk.injEq, List.not_mem_nil, or_false] at hq
    rcases hq with ⟨rfl, rfl⟩ | ⟨rfl, rfl⟩
    · obtain ⟨b, -, hb⟩ := gives_of_field? horigin hfield
      exact hraw ⟨b, hb⟩
    · exact hraw ⟨_, gives_of_required? hsteps hfield⟩
  | answer =>
    obtain ⟨key', name', value', rfl, hname', -, hfull⟩ := gives_of_answerOf? ha
    obtain ⟨rfl, rfl⟩ := Prod.mk.inj (List.mem_singleton.mp hmember)
    obtain rfl := hname.unique hname'
    obtain ⟨rfl, rfl⟩ := Prod.mk.inj (List.mem_singleton.mp hq)
    exact hraw ⟨a, hfull rfl⟩
  | step =>
    obtain ⟨key', name', value', rfl, hname', h⟩ := gives_of_stepOf? ha
    obtain ⟨rfl, rfl⟩ := Prod.mk.inj (List.mem_singleton.mp hmember)
    obtain rfl := hname.unique hname'
    exact hraw (gives_of_kind? (kind?_of_mem_parts hq) h)
  | fetch =>
    obtain ⟨fields, hfields, hstep⟩ := ha.bind
    obtain ⟨expect, hexpect⟩ := gives_expect_of_stepOfFields? hstep
    obtain ⟨rfl, rfl⟩ := Prod.mk.inj (List.mem_singleton.mp hq)
    exact gives_of_optionalField? hexpect (mem_fields hfields hmember hname) hm hcollection
  | expectation =>
    obtain ⟨fields, hfields, -, hid⟩ := gives_fields_of_expectationOf? ha
    obtain ⟨rfl, rfl⟩ := Prod.mk.inj (List.mem_singleton.mp hq)
    exact gives_of_optionalField? hid (mem_fields hfields hmember hname) hm hcollection
  | _ => exact absurd hq List.not_mem_nil

/-- Where nothing is passed over, only declared names are read. -/
theorem Place.mem_declared {key value : Node} {name : String} (hp : ¬p.PassesOver)
    (ha : Gives nodes (p.read? (.mapping tag members)) a) (hmember : (key, value) ∈ members) (hname : key.Names nodes name) :
    name ∈ p.declared := by
  cases p with
  | scenario =>
    obtain ⟨fields, hfields, honly, -⟩ := gives_fields_of_ofNode? ha
    exact mem_of_hasOnly honly (mem_fields hfields hmember hname)
  | origin | steps =>
    obtain ⟨items, hitems, -⟩ := ha.bind
    exact absurd hitems not_gives_items?_mapping
  | answer =>
    obtain ⟨key', name', value', rfl, hname', hdeclared, -⟩ := gives_of_answerOf? ha
    obtain ⟨rfl, rfl⟩ := Prod.mk.inj (List.mem_singleton.mp hmember)
    exact hname.unique hname' ▸ hdeclared
  | step =>
    obtain ⟨key', name', value', rfl, hname', h⟩ := gives_of_stepOf? ha
    obtain ⟨rfl, rfl⟩ := Prod.mk.inj (List.mem_singleton.mp hmember)
    obtain ⟨fields, -, hstep⟩ := h.bind
    exact hname.unique hname' ▸ mem_of_stepOfFields? hstep
  | expectation =>
    obtain ⟨fields, hfields, honly, -⟩ := gives_fields_of_expectationOf? ha
    exact mem_of_hasOnly honly (mem_fields hfields hmember hname)
  | identity =>
    obtain ⟨key', name', value', rfl, hname', hdeclared⟩ := gives_of_identityExpectationOf? ha
    obtain ⟨rfl, rfl⟩ := Prod.mk.inj (List.mem_singleton.mp hmember)
    exact hname.unique hname' ▸ hdeclared
  | full | fetch | writeAlternative | evict | clearAlternative => exact absurd trivial hp

variable {d : Document} {s : Scenario}

theorem gives_of_read? (h : d.read? ofNode? = some s) : Gives d.numbered (ofNode? d.root) s := by
  obtain ⟨⟨s', left⟩, hread, rfl⟩ := Option.map_eq_some_iff.mp h
  exact ⟨_, left, hread⟩

/-- In a document that is read every sequence and mapping that it shows is read. -/
theorem Shows.gives (hd : d.read? ofNode? = some s) (h : Shows d p n) (hn : n.IsCollection) :
    ∃ a, Gives d.numbered (p.read? n) a := by
  induction h with
  | root hroot => exact ⟨s, Place.scenario.resolving_read?.gives hroot hn (gives_of_read? hd)⟩
  | @item p q tag items i n h hi hq htarget ih =>
    obtain ⟨a, ha⟩ := ih trivial
    obtain ⟨b, hb⟩ := Place.gives_item ha hi hq
    exact ⟨b, q.resolving_read?.gives htarget hn hb⟩
  | field h hmember hname hq htarget ih =>
    obtain ⟨a, ha⟩ := ih trivial
    exact Place.gives_part ha hmember hname hq htarget hn

/-- A document that shows an undeclared entry is not read, unless the entry is one that is passed over. -/
theorem Shows.read?_eq_none {key value : Node} {name : String} (h : Shows d p (.mapping tag members))
    (hmember : (key, value) ∈ members) (hname : key.Names d.numbered name) (hundeclared : name ∉ p.declared)
    (hp : ¬p.PassesOver) : d.read? ofNode? = none := by
  cases hd : d.read? ofNode? with
  | none => rfl
  | some s =>
    obtain ⟨a, ha⟩ := h.gives hd trivial
    exact absurd (Place.mem_declared hp ha hmember hname) hundeclared

end

end ResponseCache.Scenario
