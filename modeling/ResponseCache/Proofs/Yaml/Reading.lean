import Mathlib.Data.List.Forall2
import ResponseCache.Yaml.Value
/-!
Readings of a YAML document. What a reading gives is said of the nodes that it looks at, and a reading that may follow more
references gives the same.
-/
namespace ResponseCache.Yaml

/-- What a node stands for: itself, or the node that it refers to. -/
def Node.target? (nodes : Array Node) : Node → Option Node
  | .reference number => nodes[number]?
  | n => some n

/-- The node is a sequence or a mapping. -/
def Node.IsCollection : Node → Prop
  | .sequence .. | .mapping .. => True
  | .scalar .. | .reference _ => False

/-- The node stands for that text. -/
def Node.Names (nodes : Array Node) (n : Node) (text : String) : Prop :=
  ∃ tag style, n.target? nodes = some (.scalar tag style text)

theorem Node.IsCollection.target? {nodes : Array Node} {n : Node} (h : n.IsCollection) : n.target? nodes = some n := by
  cases n with
  | sequence | mapping => rfl
  | scalar | reference => exact h.elim

theorem Node.Names.unique {nodes : Array Node} {n : Node} {text text' : String} (h : n.Names nodes text)
    (h' : n.Names nodes text') : text = text' := by
  obtain ⟨tag, style, h⟩ := h
  obtain ⟨tag', style', h'⟩ := h'
  rw [h] at h'
  exact (Node.scalar.inj (Option.some.inj h')).2.2

namespace Reading
variable {α β γ δ : Type} {nodes : Array Node}

theorem bind_apply (r : Reading α) (f : α → Reading β) (k : Nat) :
    (r >>= f) nodes k = (r nodes k).bind fun p => f p.1 nodes p.2 := rfl

/-- The reading gives this, if enough references may be followed. -/
def Gives (nodes : Array Node) (r : Reading α) (a : α) : Prop := ∃ k left, r nodes k = some (a, left)

theorem Gives.bind {r : Reading α} {f : α → Reading β} {b : β} (h : Gives nodes (r >>= f) b) :
    ∃ a, Gives nodes r a ∧ Gives nodes (f a) b := by
  obtain ⟨k, left, h⟩ := h
  rw [bind_apply] at h
  obtain ⟨⟨a, between⟩, ha, hb⟩ := Option.bind_eq_some_iff.mp h
  exact ⟨a, ⟨k, between, ha⟩, between, left, hb⟩

theorem gives_pure_iff {a b : α} : Gives nodes (pure a) b ↔ a = b := by
  constructor
  · rintro ⟨k, left, h⟩
    exact (Prod.mk.inj (Option.some.inj h)).1
  · rintro rfl
    exact ⟨0, 0, rfl⟩

theorem not_gives_fail {a : α} : ¬Gives nodes fail a := by
  rintro ⟨k, left, h⟩
  exact absurd h (by simp [fail])

theorem Gives.map {r : Reading α} {f : α → β} {b : β} (h : Gives nodes (f <$> r) b) : ∃ a, Gives nodes r a ∧ f a = b := by
  rw [map_eq_pure_bind] at h
  obtain ⟨a, ha, hb⟩ := h.bind
  exact ⟨a, ha, gives_pure_iff.mp hb⟩

/-- A list is read item by item. -/
theorem Gives.mapM {f : α → Reading β} : ∀ {l : List α} {bs : List β}, Gives nodes (l.mapM f) bs →
    List.Forall₂ (fun a b => Gives nodes (f a) b) l bs := by
  intro l
  induction l with
  | nil =>
    intro bs h
    rw [List.mapM_nil] at h
    obtain rfl := gives_pure_iff.mp h
    exact .nil
  | cons a rest ih =>
    intro bs h
    rw [List.mapM_cons] at h
    obtain ⟨b, hb, h⟩ := h.bind
    obtain ⟨bs', hbs, h⟩ := h.bind
    obtain rfl := gives_pure_iff.mp h
    exact .cons hb (ih hbs)

theorem Gives.of_mem {f : α → Reading β} {l : List α} {bs : List β} (h : Gives nodes (l.mapM f) bs) {a : α} (ha : a ∈ l) :
    ∃ b ∈ bs, Gives nodes (f a) b := by
  obtain ⟨i, hi, rfl⟩ := List.getElem_of_mem ha
  have hlen := h.mapM.length_eq
  exact ⟨bs[i], List.getElem_mem _, h.mapM.get hi (hlen ▸ hi)⟩

/-- Where the first reading gives something the second one gives something that is related to it, if it may follow so many
references more. Of those that it may follow beyond that it uses none. -/
def Follows (nodes : Array Node) (extra : Nat) (R : α → β → Prop) (r : Reading α) (r' : Reading β) : Prop :=
  ∀ k a left, r nodes k = some (a, left) → ∀ k' more, k + extra + more ≤ k' →
    ∃ b left', r' nodes k' = some (b, left') ∧ left + more ≤ left' ∧ R a b

theorem Follows.mono {extra extra' : Nat} {R R' : α → β → Prop} {r : Reading α} {r' : Reading β}
    (h : Follows nodes extra R r r') (hle : extra ≤ extra') (hR : ∀ a b, R a b → R' a b) : Follows nodes extra' R' r r' := by
  intro k a left ha k' more hk
  obtain ⟨b, left', hb, hleft, hab⟩ := h k a left ha k' more (by omega)
  exact ⟨b, left', hb, hleft, hR a b hab⟩

theorem follows_pure {R : α → β → Prop} {a : α} {b : β} (h : R a b) : Follows nodes 0 R (pure a) (pure b) := by
  intro k a' left ha k' more hk
  obtain ⟨rfl, rfl⟩ := Prod.mk.inj (Option.some.inj ha)
  exact ⟨b, k', rfl, by omega, h⟩

theorem follows_fail {extra : Nat} {R : α → β → Prop} {r' : Reading β} : Follows nodes extra R fail r' := by
  intro k a left ha
  exact absurd ha (by simp [fail])

theorem Follows.bind {extra extra' : Nat} {R : α → β → Prop} {S : γ → δ → Prop} {r : Reading α} {r' : Reading β}
    {f : α → Reading γ} {f' : β → Reading δ} (h : Follows nodes extra R r r')
    (hf : ∀ a b, R a b → Follows nodes extra' S (f a) (f' b)) : Follows nodes (extra + extra') S (r >>= f) (r' >>= f') := by
  intro k c left hc k' more hk
  rw [bind_apply] at hc
  obtain ⟨⟨a, between⟩, ha, hc⟩ := Option.bind_eq_some_iff.mp hc
  -- What the second part needs is spared by the first one.
  obtain ⟨b, between', hb, hbetween, hab⟩ := h k a between ha k' (extra' + more) (by omega)
  obtain ⟨d, left', hd, hleft, hcd⟩ := hf a b hab between c left hc between' more (by omega)
  refine ⟨d, left', ?_, hleft, hcd⟩
  rw [bind_apply, hb]
  exact hd

theorem Follows.free_bind {extra : Nat} {R : α → β → Prop} {S : γ → δ → Prop} {r : Reading α} {r' : Reading β}
    {f : α → Reading γ} {f' : β → Reading δ} (h : Follows nodes 0 R r r')
    (hf : ∀ a b, R a b → Follows nodes extra S (f a) (f' b)) : Follows nodes extra S (r >>= f) (r' >>= f') :=
  (h.bind hf).mono (Nat.le_of_eq (Nat.zero_add extra)) fun _ _ h => h

theorem Follows.bind_free {extra : Nat} {R : α → β → Prop} {S : γ → δ → Prop} {r : Reading α} {r' : Reading β}
    {f : α → Reading γ} {f' : β → Reading δ} (h : Follows nodes extra R r r')
    (hf : ∀ a b, R a b → Follows nodes 0 S (f a) (f' b)) : Follows nodes extra S (r >>= f) (r' >>= f') := h.bind hf

/-- The reading gives the same if it may follow more references, and uses none of those that are added. -/
def Stable (nodes : Array Node) (r : Reading α) : Prop := Follows nodes 0 Eq r r

theorem stable_pure (a : α) : Stable nodes (pure a) := follows_pure rfl

theorem stable_fail : Stable nodes (fail : Reading α) := follows_fail

/-- A stable reading in front of others changes nothing between them. -/
theorem Stable.bind_follows {extra : Nat} {S : γ → δ → Prop} {r : Reading α} {f : α → Reading γ} {f' : α → Reading δ}
    (h : Stable nodes r) (hf : ∀ a, Gives nodes r a → Follows nodes extra S (f a) (f' a)) :
    Follows nodes extra S (r >>= f) (r >>= f') := by
  have hgiven : Follows nodes 0 (fun a b => a = b ∧ Gives nodes r a) r r := by
    intro k a left ha k' more hk
    obtain ⟨b, left', hb, hleft, rfl⟩ := h k a left ha k' more hk
    exact ⟨a, left', hb, hleft, rfl, k, left, ha⟩
  refine hgiven.free_bind ?_
  rintro a _ ⟨rfl, ha⟩
  exact hf a ha

theorem Stable.bind {r : Reading α} {f : α → Reading β} (h : Stable nodes r) (hf : ∀ a, Stable nodes (f a)) :
    Stable nodes (r >>= f) := h.bind_follows fun a _ => hf a

theorem Stable.map {r : Reading α} (h : Stable nodes r) (f : α → β) : Stable nodes (f <$> r) := by
  rw [map_eq_pure_bind]
  exact h.bind fun a => stable_pure (f a)

theorem Stable.ite {p : Prop} [Decidable p] {r r' : Reading α} (h : Stable nodes r) (h' : Stable nodes r') :
    Stable nodes (if p then r else r') := by
  split
  · exact h
  · exact h'

theorem Stable.mapM {f : α → Reading β} (h : ∀ a, Stable nodes (f a)) (l : List α) : Stable nodes (l.mapM f) := by
  induction l with
  | nil => exact stable_pure []
  | cons a rest ih =>
    rw [List.mapM_cons]
    exact (h a).bind fun b => ih.bind fun bs => stable_pure (b :: bs)

/-- Another item in one place of a list. -/
theorem Follows.mapM_replace {f : α → Reading β} (hf : ∀ a, Stable nodes (f a)) {extra : Nat} {a a' : α}
    (h : Follows nodes extra Eq (f a) (f a')) (before after : List α) :
    Follows nodes extra Eq ((before ++ a :: after).mapM f) ((before ++ a' :: after).mapM f) := by
  simp only [List.mapM_append, List.mapM_cons]
  refine (Stable.mapM hf before).bind_follows fun front _ => ?_
  refine Follows.bind_free (h.bind_free (S := Eq) ?_) ?_
  · rintro b _ rfl
    exact (Stable.mapM hf after).bind fun bs => stable_pure (b :: bs)
  · rintro back _ rfl
    exact stable_pure (front ++ back)

/-- A reading between others that needs one reference at most. -/
theorem Follows.insert {extra : Nat} {R : α → γ → Prop} {r : Reading α} {r' : Reading β} {b : β} {f : β → Reading γ}
    (hb : ∀ k, ∃ left, r' nodes (k + 1) = some (b, left) ∧ k ≤ left) (h : Follows nodes extra R r (f b)) :
    Follows nodes (extra + 1) R r (r' >>= f) := by
  intro k a left ha k' more hk
  obtain ⟨k'', rfl⟩ : ∃ k'', k' = k'' + 1 := ⟨k' - 1, by omega⟩
  obtain ⟨between, hbetween, hle⟩ := hb k''
  obtain ⟨c, left', hc, hleft, hac⟩ := h k a left ha between more (by omega)
  refine ⟨c, left', ?_, hleft, hac⟩
  rw [bind_apply, hbetween]
  exact hc

end Reading
end ResponseCache.Yaml
