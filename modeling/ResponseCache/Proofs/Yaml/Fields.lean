import ResponseCache.Proofs.Yaml.Reading

namespace ResponseCache.Yaml
open Reading (Gives Follows Stable)

namespace Node
variable {α β : Type} {nodes : Array Node}

theorem IsCollection.resolve {n : Node} (h : n.IsCollection) : n.resolve = pure n := by
  cases n with
  | sequence | mapping => rfl
  | scalar | reference => exact h.elim

theorem resolve_reference_succ (number k : Nat) :
    (reference number).resolve nodes (k + 1) = (nodes[number]?).bind fun m => some (m, k) := rfl

theorem resolve_apply {n m : Node} {k left : Nat} (h : n.resolve nodes k = some (m, left)) :
    n.target? nodes = some m ∧ left ≤ k := by
  cases n with
  | scalar | sequence | mapping =>
    obtain ⟨rfl, rfl⟩ := Prod.mk.inj (Option.some.inj h)
    exact ⟨rfl, Nat.le_refl _⟩
  | reference number =>
    cases k with
    | zero => exact absurd (show none = some (m, left) from h) (by simp)
    | succ k =>
      rw [resolve_reference_succ] at h
      obtain ⟨m', hm, h⟩ := Option.bind_eq_some_iff.mp h
      obtain ⟨rfl, rfl⟩ := Prod.mk.inj (Option.some.inj h)
      exact ⟨hm, Nat.le_succ _⟩

theorem target?_of_resolve {n m : Node} (h : Gives nodes n.resolve m) : n.target? nodes = some m := by
  obtain ⟨k, left, h⟩ := h
  exact (resolve_apply h).1

theorem stable_resolve (n : Node) : Stable nodes n.resolve := by
  cases n with
  | scalar | sequence | mapping => exact Reading.stable_pure _
  | reference number =>
    intro k m left h k' more hk
    cases k with
    | zero => exact absurd (show none = some (m, left) from h) (by simp)
    | succ k =>
      rw [resolve_reference_succ] at h
      obtain ⟨m', hm, h⟩ := Option.bind_eq_some_iff.mp h
      obtain ⟨rfl, rfl⟩ := Prod.mk.inj (Option.some.inj h)
      obtain ⟨k'', rfl⟩ : ∃ k'', k' = k'' + 1 := ⟨k' - 1, by omega⟩
      refine ⟨m', k'', ?_, by omega, rfl⟩
      rw [resolve_reference_succ, hm]
      rfl

/-- The reading looks at what a node stands for, and not at the node itself. -/
def Resolving (read : Node → Reading α) : Prop := ∃ f : Node → Reading α, ∀ n, read n = n.resolve >>= f

theorem Resolving.bind {read : Node → Reading α} (h : Resolving read) (g : α → Reading β) :
    Resolving fun n => read n >>= g := by
  obtain ⟨f, hf⟩ := h
  refine ⟨fun n => f n >>= g, ?_⟩
  intro n
  show read n >>= g = _
  rw [hf, bind_assoc]

theorem resolving_items? : Resolving items? := ⟨_, fun _ => rfl⟩
theorem resolving_fields? : Resolving fields? := ⟨_, fun _ => rfl⟩
theorem resolving_choice? : Resolving choice? := ⟨_, fun _ => rfl⟩

section
variable {read : Node → Reading α} {n m : Node}

/-- What is read of a collection is read of the nodes that refer to it, too. -/
theorem Resolving.gives (h : Resolving read) (hn : n.target? nodes = some m) (hm : m.IsCollection) {a : α}
    (ha : Gives nodes (read n) a) : Gives nodes (read m) a := by
  obtain ⟨f, hf⟩ := h
  rw [hf] at ha ⊢
  obtain ⟨m', hm', ha⟩ := ha.bind
  obtain rfl := Option.some.inj ((target?_of_resolve hm').symm.trans hn)
  rw [hm.resolve, pure_bind]
  exact ha

theorem Resolving.follows (h : Resolving read) (hn : n.target? nodes = some m) (hm : m.IsCollection) {extra : Nat}
    {R : α → β → Prop} {r' : Reading β} (hr : Follows nodes extra R (read m) r') : Follows nodes extra R (read n) r' := by
  obtain ⟨f, hf⟩ := h
  rw [hf, hm.resolve, pure_bind] at hr
  rw [hf]
  intro k a left ha k' more hk
  rw [Reading.bind_apply] at ha
  obtain ⟨⟨m', between⟩, hm', ha⟩ := Option.bind_eq_some_iff.mp ha
  obtain ⟨htarget, hle⟩ := resolve_apply hm'
  obtain rfl := Option.some.inj (htarget.symm.trans hn)
  exact hr between a left ha k' more (by omega)

end

theorem one_le_size (n : Node) : 1 ≤ n.size := by
  cases n <;> simp only [size] <;> omega

theorem itemsSize_append (before after : List Node) : itemsSize (before ++ after) = itemsSize before + itemsSize after := by
  induction before with
  | nil => simp only [List.nil_append, itemsSize, Nat.zero_add]
  | cons item rest ih => simp only [List.cons_append, itemsSize, ih, Nat.add_assoc]

theorem membersSize_append (before after : List (Node × Node)) :
    membersSize (before ++ after) = membersSize before + membersSize after := by
  induction before with
  | nil => simp only [List.nil_append, membersSize, Nat.zero_add]
  | cons member rest ih => simp only [List.cons_append, membersSize, ih, Nat.add_assoc]

theorem names_of_text? {n : Node} {text : String} (h : Gives nodes n.text? text) : n.Names nodes text := by
  obtain ⟨m, hm, h⟩ := h.bind
  cases m with
  | scalar tag style text' =>
    obtain rfl := Reading.gives_pure_iff.mp h
    exact ⟨tag, style, target?_of_resolve hm⟩
  | sequence | mapping | reference => exact absurd h Reading.not_gives_fail

theorem stable_text? (n : Node) : Stable nodes n.text? := by
  refine n.stable_resolve.bind ?_
  intro m
  cases m with
  | scalar => exact Reading.stable_pure _
  | sequence | mapping | reference => exact Reading.stable_fail

theorem stable_truth? (n : Node) : Stable nodes n.truth? := by
  refine n.stable_resolve.bind ?_
  intro m
  cases m with
  | scalar =>
    exact (((Reading.stable_pure true).ite ((Reading.stable_pure false).ite Reading.stable_fail)).ite Reading.stable_fail)
  | sequence | mapping | reference => exact Reading.stable_fail

theorem stable_items? (n : Node) : Stable nodes n.items? := by
  refine n.stable_resolve.bind ?_
  intro m
  split
  · exact Reading.stable_pure _
  · exact Reading.stable_pure []
  · exact Reading.stable_fail

theorem not_gives_items?_mapping {tag : Option Bytes} {members : List (Node × Node)} {items : List Node} :
    ¬Gives nodes (mapping tag members).items? items := Reading.not_gives_fail

/-- A field as it is read: its name, and its value as it stands. -/
def member? (member : Node × Node) : Reading (String × Node) := do return (← member.1.text?, member.2)

theorem fields?_mapping (tag : Option Bytes) (members : List (Node × Node)) :
    (mapping tag members).fields? = members.mapM member? := rfl

theorem stable_member? (member : Node × Node) : Stable nodes (member? member) :=
  member.1.stable_text?.bind fun _ => Reading.stable_pure _

theorem stable_fields? (n : Node) : Stable nodes n.fields? := by
  refine n.stable_resolve.bind ?_
  intro m
  split
  · exact Stable.mapM stable_member? _
  · exact Reading.stable_pure []
  · exact Reading.stable_fail

/-- All members of a mapping are among its fields. -/
theorem mem_fields {tag : Option Bytes} {members : List (Node × Node)} {fields : List (String × Node)}
    (h : Gives nodes (mapping tag members).fields? fields) {key value : Node} (hmember : (key, value) ∈ members)
    {name : String} (hname : key.Names nodes name) : (name, value) ∈ fields := by
  rw [fields?_mapping] at h
  obtain ⟨field, hfield, h⟩ := h.of_mem hmember
  obtain ⟨name', hname', h⟩ := h.bind
  obtain rfl := Reading.gives_pure_iff.mp h
  rwa [hname.unique (names_of_text? hname')]

section
variable {read : Node → Reading α} {name : String} {value : Node} {fields : List (String × Node)}

/-- A field that is read is there once, so that no other value has its name. -/
theorem gives_of_field? {o : Option α} (h : Gives nodes (field? name read fields) o) (hfield : (name, value) ∈ fields) :
    ∃ a, o = some a ∧ Gives nodes (read value) a := by
  have hmem : (name, value) ∈ fields.filter fun field => field.1 = name := List.mem_filter.mpr ⟨hfield, by simp⟩
  unfold field? at h
  split at h
  case h_1 heq =>
    rw [heq] at hmem
    exact absurd hmem (by simp)
  case h_2 field heq =>
    rw [heq, List.mem_singleton] at hmem
    obtain ⟨a, ha, rfl⟩ := h.map
    subst hmem
    exact ⟨a, rfl, ha⟩
  case h_3 => exact absurd h Reading.not_gives_fail

theorem gives_of_required? {a : α} (h : Gives nodes (required? name read fields) a) (hfield : (name, value) ∈ fields) :
    Gives nodes (read value) a := by
  obtain ⟨o, ho, h⟩ := h.bind
  obtain ⟨a', rfl, ha⟩ := gives_of_field? ho hfield
  obtain rfl := Reading.gives_pure_iff.mp h
  exact ha

/-- A collection is not nothing. -/
theorem gives_of_optional? {o : Option α} {n m : Node} (h : Gives nodes (optional? read n) o) (hn : n.target? nodes = some m)
    (hm : m.IsCollection) : ∃ a, Gives nodes (read m) a := by
  obtain ⟨m', hm', h⟩ := h.bind
  obtain rfl := Option.some.inj ((target?_of_resolve hm').symm.trans hn)
  cases m' with
  | sequence | mapping =>
    obtain ⟨a, ha, -⟩ := h.map
    exact ⟨a, ha⟩
  | scalar | reference => exact hm.elim

theorem gives_of_optionalField? {o : Option α} {m : Node} (h : Gives nodes (optionalField? name read fields) o)
    (hfield : (name, value) ∈ fields) (hn : value.target? nodes = some m) (hm : m.IsCollection) :
    ∃ a, Gives nodes (read m) a := by
  obtain ⟨o', ho, -⟩ := h.map
  obtain ⟨_, -, ha⟩ := gives_of_field? ho hfield
  exact gives_of_optional? ha hn hm

theorem mem_of_hasOnly {names : List String} (h : hasOnly names fields = true) (hfield : (name, value) ∈ fields) :
    name ∈ names := List.contains_iff_mem.mp (List.all_eq_true.mp h _ hfield)

theorem stable_field? (hread : ∀ n, Stable nodes (read n)) : Stable nodes (field? name read fields) := by
  unfold field?
  split
  · exact Reading.stable_pure _
  · exact (hread _).map some
  · exact Reading.stable_fail

theorem stable_required? (hread : ∀ n, Stable nodes (read n)) : Stable nodes (required? name read fields) := by
  refine (stable_field? hread).bind ?_
  intro o
  cases o with
  | none => exact Reading.stable_fail
  | some a => exact Reading.stable_pure a

theorem stable_optional? (hread : ∀ n, Stable nodes (read n)) (n : Node) : Stable nodes (optional? read n) := by
  refine n.stable_resolve.bind ?_
  intro m
  split
  · exact (Reading.stable_pure none).ite ((hread _).map some)
  · exact ((Reading.stable_pure none).ite Reading.stable_fail).ite ((hread _).map some)
  · exact (hread _).map some

theorem stable_optionalField? (hread : ∀ n, Stable nodes (read n)) : Stable nodes (optionalField? name read fields) :=
  (stable_field? (stable_optional? hread)).map Option.join

end

theorem text?_of_names {n : Node} {text : String} (h : n.Names nodes text) (k : Nat) :
    ∃ left, n.text? nodes (k + 1) = some (text, left) ∧ k ≤ left := by
  obtain ⟨tag, style, h⟩ := h
  cases n with
  | scalar =>
    obtain ⟨rfl, rfl, rfl⟩ := scalar.inj (Option.some.inj h)
    exact ⟨k + 1, rfl, Nat.le_succ k⟩
  | sequence | mapping => exact absurd h (by simp [target?])
  | reference number =>
    refine ⟨k, ?_, Nat.le_refl k⟩
    show ((reference number).resolve nodes (k + 1)).bind _ = _
    rw [resolve_reference_succ, show nodes[number]? = some (scalar tag style text) from h]
    rfl

section
variable {read : Node → Reading α} {name other : String} {value value' : Node} {front back : List (String × Node)}

theorem follows_fields?_insert (tag : Option Bytes) (before after : List (Node × Node)) {key : Node}
    (hname : key.Names nodes name) : Follows nodes 1
      (fun fields fields' => ∃ front back, fields = front ++ back ∧ fields' = front ++ (name, value) :: back)
      (mapping tag (before ++ after)).fields? (mapping tag (before ++ (key, value) :: after)).fields? := by
  simp only [fields?_mapping, List.mapM_append, List.mapM_cons]
  refine (Stable.mapM stable_member? before).bind_follows fun front _ => ?_
  rw [bind_assoc, member?, bind_assoc]
  refine Follows.insert (text?_of_names hname) ?_
  rw [pure_bind, bind_assoc]
  refine (Stable.mapM stable_member? after).bind_follows fun back _ => ?_
  exact Reading.follows_pure ⟨front, back, rfl, rfl⟩

theorem follows_fields?_replace (tag : Option Bytes) (before after : List (Node × Node)) (key : Node) : Follows nodes 0
    (fun fields fields' => ∃ front name back, key.Names nodes name ∧ fields = front ++ (name, value) :: back ∧
      fields' = front ++ (name, value') :: back)
    (mapping tag (before ++ (key, value) :: after)).fields? (mapping tag (before ++ (key, value') :: after)).fields? := by
  simp only [fields?_mapping, List.mapM_append, List.mapM_cons, member?, bind_assoc, pure_bind]
  refine (Stable.mapM stable_member? before).bind_follows fun front _ => ?_
  refine key.stable_text?.bind_follows fun name hname => ?_
  refine (Stable.mapM stable_member? after).bind_follows fun back _ => ?_
  exact Reading.follows_pure ⟨front, name, back, names_of_text? hname, rfl, rfl⟩

/-- A field is read the same with one more field of another name. -/
theorem field?_insert (h : other ≠ name) :
    field? name read (front ++ (other, value) :: back) = field? name read (front ++ back) := by
  simp only [field?, List.filter_append, List.filter_cons, h, decide_false, Bool.false_eq_true, if_false]

theorem follows_field?_replace {extra : Nat} (h : Follows nodes extra Eq (read value) (read value')) :
    Follows nodes extra Eq (field? name read (front ++ (name, value) :: back))
      (field? name read (front ++ (name, value') :: back)) := by
  simp only [field?, List.filter_append, List.filter_cons, decide_true, if_true]
  generalize front.filter (fun field => field.1 = name) = front
  generalize back.filter (fun field => field.1 = name) = back
  match front, back with
  | [], [] =>
    simp only [List.nil_append, map_eq_pure_bind]
    refine h.bind_free ?_
    rintro a _ rfl
    exact Reading.stable_pure _
  | [], _ :: _ => exact Reading.follows_fail
  | [_], _ | _ :: _ :: _, _ => exact Reading.follows_fail

theorem follows_required?_replace {extra : Nat} (h : Follows nodes extra Eq (read value) (read value')) :
    Follows nodes extra Eq (required? name read (front ++ (name, value) :: back))
      (required? name read (front ++ (name, value') :: back)) := by
  refine (follows_field?_replace h).bind_free ?_
  rintro o _ rfl
  cases o with
  | none => exact Reading.follows_fail
  | some a => exact Reading.stable_pure a

theorem hasOnly_replace (names : List String) : hasOnly names (front ++ (name, value) :: back) =
    hasOnly names (front ++ (name, value') :: back) := by
  simp only [hasOnly, List.all_append, List.all_cons]

end

theorem stable_choice? (n : Node) : Stable nodes n.choice? := by
  refine n.stable_resolve.bind ?_
  intro m
  split
  · exact Reading.stable_fail.ite (Reading.stable_pure _)
  · exact Reading.stable_fail.ite ((stable_text? _).bind fun name => Reading.stable_pure _)
  · exact Reading.stable_fail

/-- A mapping is a choice only if it has one member. -/
theorem choice?_mapping (tag : Option Bytes) (members : List (Node × Node)) : (mapping tag members).choice? =
    match members with
    | [(name, value)] => if isLocal tag then Reading.fail else do return (← name.text?, some value)
    | _ => Reading.fail := by
  match members with
  | [] | [_] | _ :: _ :: _ => rfl

theorem choice_of_mapping {tag : Option Bytes} {members : List (Node × Node)} {choice : String × Option Node}
    (h : Gives nodes (mapping tag members).choice? choice) :
    ∃ key name value, members = [(key, value)] ∧ key.Names nodes name ∧ choice = (name, some value) := by
  rw [choice?_mapping] at h
  match members with
  | [] => exact absurd h Reading.not_gives_fail
  | [(key, value)] =>
    simp only at h
    split at h
    · exact absurd h Reading.not_gives_fail
    · obtain ⟨name, hname, h⟩ := h.bind
      exact ⟨key, name, value, rfl, names_of_text? hname, (Reading.gives_pure_iff.mp h).symm⟩
  | _ :: _ :: _ => exact absurd h Reading.not_gives_fail

theorem follows_choice?_replace (tag : Option Bytes) (before after : List (Node × Node)) (key value value' : Node) :
    Follows nodes 0 (fun choice choice' => ∃ name, key.Names nodes name ∧ choice = (name, some value) ∧
      choice' = (name, some value'))
      (mapping tag (before ++ (key, value) :: after)).choice? (mapping tag (before ++ (key, value') :: after)).choice? := by
  simp only [choice?_mapping]
  match before, after with
  | [], [] =>
    simp only [List.nil_append]
    split
    · exact Reading.follows_fail
    · refine key.stable_text?.bind_follows fun name hname => ?_
      exact Reading.follows_pure ⟨name, names_of_text? hname, rfl, rfl⟩
  | [], _ :: _ => exact Reading.follows_fail
  | [_], _ | _ :: _ :: _, _ => exact Reading.follows_fail

end Node
end ResponseCache.Yaml
