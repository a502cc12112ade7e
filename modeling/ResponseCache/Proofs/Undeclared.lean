import Mathlib
import ResponseCache.Proofs.Places

namespace ResponseCache.Scenario
open Yaml (Node Reading Document)
open Yaml.Node
open Yaml.Reading (Follows Stable stable_pure stable_fail follows_fail)

/-- The second node is what the first one stands for, with an entry of that name put in at a place `p` within. -/
inductive Inserted (nodes : Array Node) (p : Place) (name : String) : Place → Node → Node → Prop
  /-- The entry is put into this mapping, anywhere between its entries. -/
  | here {n : Node} {tag : Option Bytes} {before after : List (Node × Node)} {key value : Node}
      (hn : n.target? nodes = some (.mapping tag (before ++ after))) (hname : key.Names nodes name) :
      Inserted nodes p name p n (.mapping tag (before ++ (key, value) :: after))
  /-- It is put into one of the items. -/
  | item {q r : Place} {n : Node} {tag : Option Bytes} {before after : List Node} {i i' : Node}
      (hn : n.target? nodes = some (.sequence tag (before ++ i :: after))) (hr : q.item? = some r)
      (h : Inserted nodes p name r i i') : Inserted nodes p name q n (.sequence tag (before ++ i' :: after))
  /-- It is put into the value of one of the declared entries. -/
  | field {q r : Place} {n : Node} {tag : Option Bytes} {before after : List (Node × Node)} {key value value' : Node}
      {field : String} (hn : n.target? nodes = some (.mapping tag (before ++ (key, value) :: after)))
      (hfield : key.Names nodes field) (hr : (field, r) ∈ q.parts) (h : Inserted nodes p name r value value') :
      Inserted nodes p name q n (.mapping tag (before ++ (key, value') :: after))

section
variable {nodes : Array Node}

theorem stable_fullOfFields? (fields : List (String × Node)) : Stable nodes (Place.fullOfFields? fields) :=
  (stable_field? stable_text?).bind fun _ => (stable_required? stable_text?).bind fun _ => stable_pure _

theorem stable_answerOf? (n : Node) : Stable nodes (answerOf? n) := by
  refine n.stable_choice?.bind ?_
  rintro ⟨name, value | value⟩
  · exact (stable_pure _).ite stable_fail
  · exact (value.stable_fields?.bind stable_fullOfFields?).ite
      ((value.stable_text?.bind fun _ => stable_pure _).ite stable_fail)

theorem stable_identityExpectationOf? (n : Node) : Stable nodes (identityExpectationOf? n) := by
  refine n.stable_choice?.bind ?_
  rintro ⟨name, value | value⟩
  · exact (stable_pure _).ite ((stable_pure _).ite stable_fail)
  · exact (value.stable_text?.bind fun _ => stable_pure _).ite
      ((value.stable_text?.bind fun _ => stable_pure _).ite stable_fail)

theorem stable_expectationOf? (n : Node) : Stable nodes (expectationOf? n) := by
  refine n.stable_fields?.bind fun fields => Stable.ite ?_ stable_fail
  exact (stable_optionalField? stable_text?).bind fun _ => (stable_optionalField? stable_text?).bind fun _ =>
    (stable_optionalField? stable_truth?).bind fun _ =>
      (stable_optionalField? stable_identityExpectationOf?).bind fun _ =>
        (stable_optionalField? stable_text?).bind fun _ => stable_pure _

theorem stable_stepOfFields? (name : String) (fields : List (String × Node)) : Stable nodes (stepOfFields? name fields) := by
  have htext (name : String) : Stable nodes (required? name text? fields) := stable_required? stable_text?
  refine Stable.ite ?_ (Stable.ite ?_ (Stable.ite ?_ (Stable.ite ?_ stable_fail)))
  · exact (htext _).bind fun _ => (stable_optionalField? stable_text?).bind fun _ =>
      (stable_optionalField? stable_expectationOf?).bind fun _ => stable_pure _
  · exact (htext _).bind fun _ => (htext _).bind fun _ => (htext _).bind fun _ => stable_pure _
  · exact (htext _).bind fun _ => stable_pure _
  · exact (htext _).bind fun _ => stable_pure _

theorem stable_stepOf? (n : Node) : Stable nodes (stepOf? n) := by
  refine n.stable_choice?.bind ?_
  rintro ⟨name, value | value⟩
  · exact (stable_pure _).ite stable_fail
  · exact value.stable_fields?.bind (stable_stepOfFields? name)

theorem stable_origin (n : Node) : Stable nodes (Place.origin.read? n) :=
  n.stable_items?.bind (Stable.mapM stable_answerOf?)

theorem stable_steps (n : Node) : Stable nodes (Place.steps.read? n) :=
  n.stable_items?.bind (Stable.mapM stable_stepOf?)

/-- What a step is depends on its declared fields only. -/
theorem stepOfFields?_congr {p : Place} {kind : String} (hp : p.kind? = some kind) {fields fields' : List (String × Node)}
    (h : ∀ name ∈ p.declared, ∀ {α : Type} (read : Node → Reading α),
      Node.field? name read fields = Node.field? name read fields') :
    stepOfFields? kind fields = stepOfFields? kind fields' := by
  cases p with
  | fetch | writeAlternative | evict | clearAlternative =>
    obtain rfl := Option.some.inj hp
    simp only [Place.declared, List.mem_cons, List.not_mem_nil, or_false, forall_eq_or_imp, forall_eq] at h
    simp [stepOfFields?, required?, optionalField?, h]
  | _ => exact absurd hp (by simp [Place.kind?])

theorem fullOfFields?_congr {fields fields' : List (String × Node)}
    (h : ∀ name ∈ Place.full.declared, ∀ {α : Type} (read : Node → Reading α),
      Node.field? name read fields = Node.field? name read fields') :
    Place.fullOfFields? fields = Place.fullOfFields? fields' := by
  simp only [Place.declared, List.mem_cons, List.not_mem_nil, or_false, forall_eq_or_imp, forall_eq] at h
  simp [Place.fullOfFields?, required?, h]

variable {p q r : Place} {tag : Option Bytes} {before after : List (Node × Node)} {key value value' : Node}

/-- A step is read as its fields are. -/
theorem follows_kind?_iff {kind : String} (hq : q.kind? = some kind) {extra : Nat} {n n' : Node} :
    Follows nodes extra Eq (q.read? n) (q.read? n') ↔
      Follows nodes extra Eq (do stepOfFields? kind (← n.fields?)) (do stepOfFields? kind (← n'.fields?)) := by
  cases q with
  | fetch | writeAlternative | evict | clearAlternative =>
    obtain rfl := Option.some.inj hq
    exact Iff.rfl
  | _ => exact absurd hq (by simp [Place.kind?])

/-- A scenario with another value in one of its lists. -/
theorem follows_of_scenario {field : String} (hr : (field, r) ∈ Place.scenario.parts) (hfield : key.Names nodes field)
    (h : Follows nodes 1 Eq (r.read? value) (r.read? value')) :
    Follows nodes 1 Eq (ofNode? (.mapping tag (before ++ (key, value) :: after)))
      (ofNode? (.mapping tag (before ++ (key, value') :: after))) := by
  refine (follows_fields?_replace tag before after key).free_bind ?_
  rintro _ _ ⟨front, field', back, hfield', rfl, rfl⟩
  obtain rfl := hfield.unique hfield'
  have honly : hasOnly ["name", "origin", "steps"] (front ++ (field, value) :: back) =
      hasOnly ["name", "origin", "steps"] (front ++ (field, value') :: back) := hasOnly_replace _
  have hname : Stable nodes (optionalField? "name" text? (front ++ back)) := stable_optionalField? stable_text?
  rw [honly]
  split
  swap
  · exact follows_fail
  simp only [Place.parts, List.mem_cons, Prod.mk.injEq, List.not_mem_nil, or_false] at hr
  rcases hr with ⟨rfl, rfl⟩ | ⟨rfl, rfl⟩
  · -- The answers of the origin are other ones.
    simp only [optionalField?, required?, field?_insert (show "origin" ≠ "name" by decide),
      field?_insert (show "origin" ≠ "steps" by decide)]
    refine hname.bind_follows fun name _ => (follows_field?_replace h).bind_free ?_
    rintro o _ rfl
    exact (stable_required? stable_steps).bind fun steps => stable_pure _
  · -- The steps are other ones.
    simp only [optionalField?, field?_insert (show "steps" ≠ "name" by decide),
      field?_insert (show "steps" ≠ "origin" by decide)]
    refine hname.bind_follows fun name _ => ?_
    refine (stable_field? stable_origin).bind_follows fun o _ => (follows_required?_replace h).bind_free ?_
    rintro steps _ rfl
    exact stable_pure _

/-- With another value in one of its parts a scenario, an answer or a step follows as that part does. -/
theorem follows_replace {field : String} (hq : q ≠ .fetch ∧ q ≠ .expectation) (hr : (field, r) ∈ q.parts)
    (hfield : key.Names nodes field) (h : Follows nodes 1 Eq (r.read? value) (r.read? value')) :
    Follows nodes 1 Eq (q.read? (.mapping tag (before ++ (key, value) :: after)))
      (q.read? (.mapping tag (before ++ (key, value') :: after))) := by
  cases q with
  | scenario => exact follows_of_scenario hr hfield h
  | answer =>
    obtain ⟨rfl, rfl⟩ := Prod.mk.inj (List.mem_singleton.mp hr)
    refine (follows_choice?_replace tag before after key value value').free_bind ?_
    rintro _ _ ⟨name, hname, rfl, rfl⟩
    obtain rfl := hfield.unique hname
    exact h
  | step =>
    refine (follows_choice?_replace tag before after key value value').free_bind ?_
    rintro _ _ ⟨name, hname, rfl, rfl⟩
    obtain rfl := hfield.unique hname
    exact (follows_kind?_iff (Place.kind?_of_mem_parts hr)).mp h
  | fetch => exact absurd rfl hq.1
  | expectation => exact absurd rfl hq.2
  | _ => exact absurd hr List.not_mem_nil

variable {name : String} {n n' : Node}

/-- Where undeclared entries are passed over, a mapping is read the same with one of them. -/
theorem follows_insert (hp : p.PassesOver) (hundeclared : name ∉ p.declared) (hname : key.Names nodes name) :
    Follows nodes 1 Eq (p.read? (.mapping tag (before ++ after))) (p.read? (.mapping tag (before ++ (key, value) :: after))) := by
  have hsame (front back : List (String × Node)) : ∀ other ∈ p.declared, ∀ {α : Type} (read : Node → Reading α),
      field? other read (front ++ (name, value) :: back) = field? other read (front ++ back) := by
    intro other hother α read
    refine field?_insert ?_
    rintro rfl
    exact hundeclared hother
  have hstep {kind : String} (hkind : p.kind? = some kind) :
      Follows nodes 1 Eq (p.read? (.mapping tag (before ++ after))) (p.read? (.mapping tag (before ++ (key, value) :: after))) := by
    refine (follows_kind?_iff hkind).mpr ((follows_fields?_insert tag before after hname).bind_free ?_)
    rintro _ _ ⟨front, back, rfl, rfl⟩
    rw [stepOfFields?_congr hkind (hsame front back)]
    exact stable_stepOfFields? kind _
  cases p with
  | full =>
    refine (follows_fields?_insert tag before after hname).bind_free ?_
    rintro _ _ ⟨front, back, rfl, rfl⟩
    rw [fullOfFields?_congr (hsame front back)]
    exact stable_fullOfFields? _
  | fetch | writeAlternative | evict | clearAlternative => exact hstep rfl
  | scenario | origin | answer | steps | step | expectation | identity => exact hp.elim

theorem Inserted.isCollection (h : Inserted nodes p name q n n') : n'.IsCollection := by
  cases h <;> trivial

/-- Nothing is passed over within an expectation. -/
theorem Inserted.not_passesOver (h : Inserted nodes p name q n n') (hq : q = .expectation ∨ q = .identity) :
    ¬p.PassesOver := by
  induction h with
  | here hn hname => rcases hq with rfl | rfl <;> exact id
  | item hn hr h ih => rcases hq with rfl | rfl <;> exact absurd hr (by simp [Place.item?])
  | field hn hfield hr h ih =>
    rcases hq with rfl | rfl
    · exact ih (.inr (Prod.mk.inj (List.mem_singleton.mp hr)).2)
    · exact absurd hr List.not_mem_nil

theorem Inserted.follows (h : Inserted nodes p name q n n') (hp : p.PassesOver) (hundeclared : name ∉ p.declared) :
    Follows nodes 1 Eq (q.read? n) (q.read? n') := by
  induction h with
  | here hn hname => exact p.resolving_read?.follows hn trivial (follows_insert hp hundeclared hname)
  | @item q r n tag before after i i' hn hr h ih =>
    refine q.resolving_read?.follows hn trivial ?_
    cases q with
    | origin =>
      obtain rfl := Option.some.inj hr
      exact ih.mapM_replace stable_answerOf? before after
    | steps =>
      obtain rfl := Option.some.inj hr
      exact ih.mapM_replace stable_stepOf? before after
    | _ => exact absurd hr (by simp [Place.item?])
  | @field q r n tag before after key value value' field hn hfield hr h ih =>
    refine q.resolving_read?.follows hn trivial (follows_replace ?_ hr hfield ih)
    -- The only part of a fetch is its expectation, where the entry would not be passed over.
    have hout (hr' : r = .expectation ∨ r = .identity) : False := h.not_passesOver hr' hp
    constructor
    · rintro rfl
      exact hout (.inl (Prod.mk.inj (List.mem_singleton.mp hr)).2)
    · rintro rfl
      exact hout (.inr (Prod.mk.inj (List.mem_singleton.mp hr)).2)

/-- The node behind a reference is no smaller than the reference. -/
theorem size_le_of_target? {m : Node} (h : n.target? nodes = some m) : n.size ≤ m.size := by
  cases n with
  | scalar | sequence | mapping =>
    obtain rfl := Option.some.inj h
    exact Nat.le_refl _
  | reference number => exact m.one_le_size

/-- A document with one more entry is larger, so that more references may be followed in it. -/
theorem Inserted.size_lt (h : Inserted nodes p name q n n') : n.size < n'.size := by
  induction h with
  | @here n tag before after key value hn hname =>
    have hle := size_le_of_target? hn
    have hkey := key.one_le_size
    simp only [size, membersSize_append, membersSize] at hle ⊢
    omega
  | item hn hr h ih =>
    have hle := size_le_of_target? hn
    simp only [size, itemsSize_append, itemsSize] at hle ⊢
    omega
  | field hn hfield hr h ih =>
    have hle := size_le_of_target? hn
    simp only [size, membersSize_append, membersSize] at hle ⊢
    omega

/-- The entry that was put in is shown. -/
theorem Inserted.shows {d : Document} (h : Inserted d.numbered p name q n n') (hshows : Shows d q n') :
    ∃ tag members key value, Shows d p (.mapping tag members) ∧ (key, value) ∈ members ∧ key.Names d.numbered name := by
  induction h with
  | here hn hname => exact ⟨_, _, _, _, hshows, List.mem_append_right _ List.mem_cons_self, hname⟩
  | item hn hr h ih => exact ih (.item hshows (List.mem_append_right _ List.mem_cons_self) hr h.isCollection.target?)
  | field hn hfield hr h ih => exact ih (.field hshows (List.mem_append_right _ List.mem_cons_self) hfield hr h.isCollection.target?)

variable {d : Document} {root : Node}

theorem Inserted.read?_eq_some (h : Inserted d.numbered p name .scenario d.root root) {s : Scenario}
    (hd : d.read? ofNode? = some s) (hp : p.PassesOver) (hundeclared : name ∉ p.declared) :
    ({ d with root } : Document).read? ofNode? = some s := by
  obtain ⟨⟨s', left⟩, hread, rfl⟩ := Option.map_eq_some_iff.mp hd
  have hsize := h.size_lt
  obtain ⟨_, left', hread', -, rfl⟩ := h.follows hp hundeclared _ _ _ hread (100 * root.size) 0 (by omega)
  exact Option.map_eq_some_iff.mpr ⟨(s', left'), hread', rfl⟩

theorem Inserted.read?_eq_none (h : Inserted d.numbered p name .scenario d.root root) (hp : ¬p.PassesOver)
    (hundeclared : name ∉ p.declared) : ({ d with root } : Document).read? ofNode? = none := by
  have hroot : Shows { d with root } .scenario root := .root h.isCollection.target?
  obtain ⟨tag, members, key, value, hshows, hmember, hname⟩ := Inserted.shows (d := { d with root }) h hroot
  exact hshows.read?_eq_none hmember hname hundeclared hp

end

theorem parse_of_read? {text : String} {d : Document} (hd : Document.parse? text = some d) :
    Scenario.parse text = match d.read? ofNode? with
      | some s => .ok s
      | none => .error .yaml := by
  rw [parse, hd]
  rfl

theorem parse_eq_ok_iff {text : String} {d : Document} (hd : Document.parse? text = some d) (s : Scenario) :
    Scenario.parse text = .ok s ↔ d.read? ofNode? = some s := by
  rw [parse_of_read? hd]
  cases d.read? ofNode? <;> simp

theorem parse_eq_error_iff {text : String} {d : Document} (hd : Document.parse? text = some d) :
    Scenario.parse text = .error .yaml ↔ d.read? ofNode? = none := by
  rw [parse_of_read? hd]
  cases d.read? ofNode? <;> simp

/-- Undeclared entries are rejected, but for the fields of full answers and of steps. A document that shows one anywhere else,
be it by way of references, holds no scenario. And where a document that holds a scenario gets one more entry, of a name that is
not declared where it is put, it holds none any more, or the same one if the entry is such a field. -/
theorem undeclared_entries_fail_but_in_steps_and_answers {text : String} {d : Document} (hd : Document.parse? text = some d) :
    (∀ p tag members key value name, Shows d p (.mapping tag members) → (key, value) ∈ members →
      key.Names d.numbered name → name ∉ p.declared → ¬p.PassesOver → Scenario.parse text = .error .yaml) ∧
    ∀ s, Scenario.parse text = .ok s → ∀ text' p name root, Document.parse? text' = some { d with root } →
      Inserted d.numbered p name .scenario d.root root → name ∉ p.declared →
      Scenario.parse text' = if p.PassesOver then .ok s else .error .yaml := by
  constructor
  · intro p tag members key value name hshows hmember hname hundeclared hp
    exact (parse_eq_error_iff hd).mpr (hshows.read?_eq_none hmember hname hundeclared hp)
  · intro s hs text' p name root hd' hinserted hundeclared
    split
    · rename_i hp
      exact (parse_eq_ok_iff hd' s).mpr (hinserted.read?_eq_some ((parse_eq_ok_iff hd s).mp hs) hp hundeclared)
    · rename_i hp
      exact (parse_eq_error_iff hd').mpr (hinserted.read?_eq_none hp hundeclared)

/-- A plain word. -/
def word (text : String) : Node := .scalar none .plain text

/-- A mapping of plain words to nodes. -/
def entries (members : List (String × Node)) : Node := .mapping none (members.map fun member => (word member.1, member.2))

/-- A document whose only step is a fetch with these fields. -/
def fetching (fields : Node) : Node := entries [("steps", .sequence none [entries [("fetch", fields)]])]

theorem names_word (nodes : Array Node) (text : String) : (word text).Names nodes text := ⟨none, .plain, rfl⟩

theorem shows_fetching {d : Document} {tag : Option Bytes} {members : List (Node × Node)}
    (hd : d.root = fetching (.mapping tag members)) : Shows d .fetch (.mapping tag members) := by
  have hroot : Shows d .scenario (fetching (.mapping tag members)) := .root (by rw [hd]; rfl)
  have hsteps : Shows d .steps (.sequence none [entries [("fetch", .mapping tag members)]]) :=
    .field hroot List.mem_cons_self (names_word _ "steps") (List.mem_cons_of_mem _ List.mem_cons_self) rfl
  exact .field (.item hsteps List.mem_cons_self rfl rfl) List.mem_cons_self (names_word _ "fetch") List.mem_cons_self rfl

theorem inserted_fetching {nodes : Array Node} {p : Place} {name : String} {fields fields' : Node}
    (h : Inserted nodes p name .fetch fields fields') :
    Inserted nodes p name .scenario (fetching fields) (fetching fields') := by
  have hstep : Inserted nodes p name .step (entries [("fetch", fields)]) (.mapping none ([] ++ (word "fetch", fields') :: [])) :=
    .field rfl (names_word _ "fetch") List.mem_cons_self h
  have hsteps : Inserted nodes p name .steps (.sequence none [entries [("fetch", fields)]])
      (.sequence none ([] ++ entries [("fetch", fields')] :: [])) := .item rfl rfl hstep
  show Inserted nodes p name .scenario _ (.mapping none
    ([] ++ (word "steps", .sequence none [entries [("fetch", fields')]]) :: []))
  exact .field rfl (names_word _ "steps") (List.mem_cons_of_mem _ List.mem_cons_self) hsteps

set_option maxRecDepth 20000 in
/-- A misspelt field of an expectation is rejected, be the expectation written where it belongs or referred to there. -/
theorem misspelt_expectation_rejected :
    (∃ d tag members key value,
      Document.parse? "steps:\n- fetch:\n   key: k\n   note: &e\n    bdy: a\n   expect: *e" = some d ∧
      Shows d .expectation (.mapping tag members) ∧ (key, value) ∈ members ∧ key.Names d.numbered "bdy" ∧
      "bdy" ∉ Place.expectation.declared ∧ ¬Place.expectation.PassesOver ∧
      Scenario.parse "steps:\n- fetch:\n   key: k\n   note: &e\n    bdy: a\n   expect: *e" = .error .yaml) ∧
    ∃ d s root, Document.parse? "steps:\n- fetch:\n   key: k\n   expect:\n    remember: r" = some d ∧
      Scenario.parse "steps:\n- fetch:\n   key: k\n   expect:\n    remember: r" = .ok s ∧
      Document.parse? "steps:\n- fetch:\n   key: k\n   expect:\n    remember: r\n    bdy: a" = some { d with root } ∧
      Inserted d.numbered .expectation "bdy" .scenario d.root root ∧
      Scenario.parse "steps:\n- fetch:\n   key: k\n   expect:\n    remember: r\n    bdy: a" = .error .yaml := by
  have hundeclared : "bdy" ∉ Place.expectation.declared := by decide
  constructor
  · have hd : Document.parse? "steps:\n- fetch:\n   key: k\n   note: &e\n    bdy: a\n   expect: *e" = some
        { root := fetching (entries [("key", word "k"), ("note", entries [("bdy", word "a")]), ("expect", .reference 0)])
          numbered := #[entries [("bdy", word "a")]] } := by cbv
    -- What is expected is shown where it is referred to.
    have hshows : Shows
        { root := fetching (entries [("key", word "k"), ("note", entries [("bdy", word "a")]), ("expect", .reference 0)])
          numbered := #[entries [("bdy", word "a")]] } .expectation (entries [("bdy", word "a")]) :=
      .field (shows_fetching rfl) (List.mem_cons_of_mem _ (List.mem_cons_of_mem _ List.mem_cons_self))
        (names_word _ "expect") List.mem_cons_self rfl
    refine ⟨_, _, _, _, _, hd, hshows, List.mem_cons_self, names_word _ "bdy", hundeclared, id, ?_⟩
    exact (undeclared_entries_fail_but_in_steps_and_answers hd).1 .expectation _ _ _ _ "bdy" hshows List.mem_cons_self
      (names_word _ "bdy") hundeclared id
  · have hd : Document.parse? "steps:\n- fetch:\n   key: k\n   expect:\n    remember: r" = some
        { root := fetching (entries [("key", word "k"), ("expect", entries [("remember", word "r")])]) } := by cbv
    have hs : Scenario.parse "steps:\n- fetch:\n   key: k\n   expect:\n    remember: r" =
        .ok { steps := [.fetch "k" none (some { remember := some "r" })] } := (parse_eq_ok_iff hd _).mpr rfl
    have hd' : Document.parse? "steps:\n- fetch:\n   key: k\n   expect:\n    remember: r\n    bdy: a" = some
        { root := fetching (entries [("key", word "k"), ("expect", entries [("remember", word "r"), ("bdy", word "a")])]) } := by
      cbv
    have hexpectation : Inserted #[] .expectation "bdy" .expectation (entries [("remember", word "r")])
        (.mapping none ([(word "remember", word "r")] ++ (word "bdy", word "a") :: [])) := .here rfl (names_word _ "bdy")
    have hfields : Inserted #[] .expectation "bdy" .fetch
        (entries [("key", word "k"), ("expect", entries [("remember", word "r")])])
        (.mapping none ([(word "key", word "k")] ++
          (word "expect", entries [("remember", word "r"), ("bdy", word "a")]) :: [])) :=
      .field rfl (names_word _ "expect") List.mem_cons_self hexpectation
    refine ⟨_, _, _, hd, hs, hd', inserted_fetching hfields, ?_⟩
    exact (undeclared_entries_fail_but_in_steps_and_answers hd).2 _ hs _ .expectation "bdy" _ hd'
      (inserted_fetching hfields) hundeclared

set_option maxRecDepth 20000 in
/-- A misspelt field of a step is passed over, here one that was meant to be checked. -/
theorem misspelt_step_field_passed_over : ∃ d s root,
    Document.parse? "steps:\n- fetch:\n   key: k" = some d ∧ Scenario.parse "steps:\n- fetch:\n   key: k" = .ok s ∧
      Document.parse? "steps:\n- fetch:\n   key: k\n   expct:\n    body: a" = some { d with root } ∧
      Inserted d.numbered .fetch "expct" .scenario d.root root ∧ "expct" ∉ Place.fetch.declared ∧
      Scenario.parse "steps:\n- fetch:\n   key: k\n   expct:\n    body: a" = .ok s ∧
      Scenario.parse "steps:\n- fetch:\n   key: k\n   expct:\n    body: a" ≠ .error .yaml := by
  have hd : Document.parse? "steps:\n- fetch:\n   key: k" = some { root := fetching (entries [("key", word "k")]) } := by
    cbv
  have hd' : Document.parse? "steps:\n- fetch:\n   key: k\n   expct:\n    body: a" = some
      { root := fetching (entries [("key", word "k"), ("expct", entries [("body", word "a")])]) } := by cbv
  have hs : Scenario.parse "steps:\n- fetch:\n   key: k" = .ok { steps := [.fetch "k" none none] } :=
    (parse_eq_ok_iff hd _).mpr rfl
  have hs' : Scenario.parse "steps:\n- fetch:\n   key: k\n   expct:\n    body: a" =
      .ok { steps := [.fetch "k" none none] } := (parse_eq_ok_iff hd' _).mpr rfl
  have hfields : Inserted #[] .fetch "expct" .fetch (entries [("key", word "k")])
      (.mapping none ([(word "key", word "k")] ++ (word "expct", entries [("body", word "a")]) :: [])) :=
    .here rfl (names_word _ "expct")
  refine ⟨_, _, _, hd, hs, hd', inserted_fetching hfields, by decide, hs', ?_⟩
  rw [hs']
  simp

end ResponseCache.Scenario
