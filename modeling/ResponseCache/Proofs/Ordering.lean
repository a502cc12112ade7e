import Mathlib.Data.Set.Card
import ResponseCache.Proofs.Axes

namespace ResponseCache.Key
open Table (find)

/-- Pairs in the order of their bytes: the axes decide, and the values where the axes are the same. -/
def Below (p q : String × String) : Prop :=
  Text.toBytes p.1 < Text.toBytes q.1 ∨ (p.1 = q.1 ∧ Text.toBytes p.2 < Text.toBytes q.2)

def comparePairs : String × String → String × String → Ordering := compareLex (compareOn Prod.fst) (compareOn Prod.snd)

theorem comparePairs_eq_lt_iff (p q : String × String) : comparePairs p q = .lt ↔ Below p q := by
  rw [Below, Text.toBytes_lt_iff, Text.toBytes_lt_iff]
  calc comparePairs p q = .lt
      ↔ compare p.1 q.1 = .lt ∨ (compare p.1 q.1 = .eq ∧ compare p.2 q.2 = .lt) := Ordering.then_eq_lt
    _ ↔ p.1 < q.1 ∨ (p.1 = q.1 ∧ p.2 < q.2) := by rw [compare_lt_iff_lt, compare_lt_iff_lt, compare_eq_iff_eq]

theorem comparePairs_eq_eq_iff (p q : String × String) : comparePairs p q = .eq ↔ p = q := by
  calc comparePairs p q = .eq
      ↔ compare p.1 q.1 = .eq ∧ compare p.2 q.2 = .eq := Ordering.then_eq_eq
    _ ↔ p = q := by rw [compare_eq_iff_eq, compare_eq_iff_eq, Prod.ext_iff]

theorem compareAxes_cons (p q : String × String) (rest rest' : List (String × String)) :
    compareAxes (p :: rest) (q :: rest') = (comparePairs p q).then (compareAxes rest rest') := by
  show (compare p.1 q.1).then ((compare p.2 q.2).then (compareAxes rest rest')) = _
  rw [← Ordering.then_assoc]
  rfl

/-- Axes are compared pair by pair. -/
theorem compareAxes_eq (axes axes' : List (String × String)) :
    compareAxes axes axes' = List.compareLex comparePairs axes axes' := by
  induction axes generalizing axes' with
  | nil => cases axes' <;> rfl
  | cons p rest ih =>
    cases axes' with
    | nil => rfl
    | cons q rest' => rw [compareAxes_cons, List.compareLex_cons_cons, ih]

theorem compareAxes_eq_lt_iff (axes axes' : List (String × String)) :
    compareAxes axes axes' = .lt ↔ List.Lex Below axes axes' := by
  induction axes generalizing axes' with
  | nil =>
    cases axes' with
    | nil => simp [compareAxes]
    | cons q rest' => exact iff_of_true rfl .nil
  | cons p rest ih =>
    cases axes' with
    | nil => simp [compareAxes]
    | cons q rest' =>
      rw [compareAxes_cons, Ordering.then_eq_lt, comparePairs_eq_lt_iff, comparePairs_eq_eq_iff, ih, List.cons_lex_cons_iff]

theorem compareAxes_eq_eq_iff (axes axes' : List (String × String)) : compareAxes axes axes' = .eq ↔ axes = axes' := by
  induction axes generalizing axes' with
  | nil => cases axes' <;> simp [compareAxes]
  | cons p rest ih =>
    cases axes' with
    | nil => simp [compareAxes]
    | cons q rest' => rw [compareAxes_cons, Ordering.then_eq_eq, comparePairs_eq_eq_iff, ih, List.cons_eq_cons]

instance : Std.TransCmp comparePairs :=
  inferInstanceAs (Std.TransCmp (compareLex (compareOn Prod.fst) (compareOn Prod.snd)))

instance : Std.TransCmp compareAxes := by
  have h : compareAxes = List.compareLex comparePairs := funext₂ compareAxes_eq
  rw [h]
  infer_instance

/-- The order of keys is total: one of two keys comes first or they compare as equal, and a key that comes before a second one
comes before all that this one comes before. -/
instance : Std.TransCmp order :=
  have : Std.TransCmp fun a b : Key => compareAxes a.variance b.variance :=
    { eq_swap := Std.OrientedCmp.eq_swap, isLE_trans := Std.TransCmp.isLE_trans }
  inferInstanceAs (Std.TransCmp (compareLex (compareOn uri) fun a b => compareAxes a.variance b.variance))

theorem order_eq_lt_iff (a b : Key) :
    order a b = .lt ↔ Text.toBytes a.uri < Text.toBytes b.uri ∨ (a.uri = b.uri ∧ List.Lex Below a.variance b.variance) := by
  rw [order, Ordering.then_eq_lt, compare_lt_iff_lt, compare_eq_iff_eq, compareAxes_eq_lt_iff, Text.toBytes_lt_iff]

theorem order_eq_eq_iff (a b : Key) : order a b = .eq ↔ a.uri = b.uri ∧ a.variance = b.variance := by
  rw [order, Ordering.then_eq_eq, compare_eq_iff_eq, compareAxes_eq_eq_iff]

/-- Whether one key may stand before another. -/
def inOrder (a b : Key) : Bool := (order a b).isLE

theorem inOrder_trans (a b c : Key) (hab : inOrder a b = true) (hbc : inOrder b c = true) : inOrder a c = true :=
  Std.TransCmp.isLE_trans hab hbc

theorem inOrder_total (a b : Key) : (inOrder a b || inOrder b a) = true := by
  have hswap : order b a = (order a b).swap := Std.OrientedCmp.eq_swap
  rw [inOrder, inOrder, hswap]
  cases order a b <;> rfl

/-- Keys with the same parts are the same: they carry the same hash. -/
theorem Obtained.eq_iff {a b : Key} (ha : Obtained a) (hb : Obtained b) :
    a = b ↔ a.uri = b.uri ∧ a.variance = b.variance := by
  constructor
  · rintro rfl
    exact ⟨rfl, rfl⟩
  · rintro ⟨huri, hvariance⟩
    exact ha.ext hb huri fun axis => congrArg (find axis) hvariance

theorem Obtained.eq_iff_order {a b : Key} (ha : Obtained a) (hb : Obtained b) : a = b ↔ order a b = .eq := by
  rw [ha.eq_iff hb, order_eq_eq_iff]

theorem Obtained.antisymm {a b : Key} (ha : Obtained a) (hb : Obtained b) (hab : inOrder a b = true)
    (hba : inOrder b a = true) : a = b := by
  rw [ha.eq_iff_order hb]
  have hswap : order b a = (order a b).swap := Std.OrientedCmp.eq_swap
  rw [inOrder, hswap] at hba
  revert hab hba
  rw [inOrder]
  cases order a b <;> decide

/-- There is one arrangement of keys in their order. -/
theorem eq_mergeSort {keys arranged : List Key} (h : ∀ k ∈ keys, Obtained k) (hperm : arranged.Perm keys)
    (hsorted : arranged.Pairwise fun a b => inOrder a b = true) : arranged = keys.mergeSort inOrder := by
  refine List.Perm.eq_of_pairwise (fun a b ha hb => ?_) hsorted (List.pairwise_mergeSort inOrder_trans inOrder_total keys)
    (hperm.trans (List.mergeSort_perm keys inOrder).symm)
  exact (h a (hperm.mem_iff.mp ha)).antisymm (h b ((List.mergeSort_perm keys inOrder).mem_iff.mp hb))

/-- A hash set of keys has as many members as there are URIs with maps of axes among the keys. -/
theorem size_ofList {keys : List Key} (h : ∀ k ∈ keys, Obtained k) :
    (Std.HashSet.ofList keys).size = {p | ∃ k ∈ keys, p = (k.uri, k.axis?)}.ncard := by
  have hnodup : (Std.HashSet.ofList keys).toList.Nodup :=
    Std.HashSet.distinct_toList.imp fun hne heq => by simp [heq] at hne
  have hmem : (Std.HashSet.ofList keys).toList.toFinset = keys.toFinset := by
    ext k
    rw [List.mem_toFinset, List.mem_toFinset, Std.HashSet.mem_toList, Std.HashSet.mem_ofList, List.contains_iff_mem]
  have himage : {p | ∃ k ∈ keys, p = (k.uri, k.axis?)} = (fun k : Key => (k.uri, k.axis?)) '' keys.toFinset := by
    ext p
    simp [eq_comm]
  -- Of two keys with one URI and one map of axes there is only one.
  have hinj : Set.InjOn (fun k : Key => (k.uri, k.axis?)) keys.toFinset := by
    intro a ha b hb hab
    obtain ⟨huri, haxes⟩ := Prod.ext_iff.mp hab
    exact (h a (List.mem_toFinset.mp ha)).ext (h b (List.mem_toFinset.mp hb)) huri (congrFun haxes)
  calc (Std.HashSet.ofList keys).size
      = (Std.HashSet.ofList keys).toList.length := Std.HashSet.length_toList.symm
    _ = (Std.HashSet.ofList keys).toList.toFinset.card := (List.toFinset_card_of_nodup hnodup).symm
    _ = {p | ∃ k ∈ keys, p = (k.uri, k.axis?)}.ncard := by
      rw [hmem, himage, hinj.ncard_image, Set.ncard_coe_finset]

/-- Equality, order and hash of keys agree, however the keys were made or read. Keys are equal just if their URIs and axes are,
and just if they compare as equal, and then they have one hash, so that neither a hash that is looked at first nor one that
two keys share decides anything. The order is total, and it is the lexicographic one: the bytes of the URIs decide, a proper
beginning first, then the axes pair by pair. So a set of keys has a member for every URI with a map of axes among them, and
keys have one arrangement in order, whatever order they came in. -/
theorem equality_order_and_hash_agree :
    (∀ a b, Obtained a → Obtained b →
      ((a == b) = true ↔ a.uri = b.uri ∧ a.variance = b.variance) ∧
      ((a == b) = true ↔ order a b = .eq) ∧
      ((a == b) = true → a.hash = b.hash ∧ Hashable.hash a = Hashable.hash b) ∧
      ((order a b).isLE = true → (order b a).isLE = true → (a == b) = true)) ∧
    (∀ a b c : Key,
      order b a = (order a b).swap ∧
      ((order a b).isLE = true ∨ (order b a).isLE = true) ∧
      ((order a b).isLE = true → (order b c).isLE = true → (order a c).isLE = true) ∧
      (order a b = .lt ↔
        Text.toBytes a.uri < Text.toBytes b.uri ∨ (a.uri = b.uri ∧ List.Lex Below a.variance b.variance))) ∧
    (∀ keys : List Key, (∀ k ∈ keys, Obtained k) →
      (Std.HashSet.ofList keys).size = {p | ∃ k ∈ keys, p = (k.uri, k.axis?)}.ncard) ∧
    (∀ keys keys' : List Key, (∀ k ∈ keys, Obtained k) → keys.Perm keys' →
      keys.mergeSort inOrder = keys'.mergeSort inOrder ∧
      ∀ arranged : List Key, arranged.Perm keys' → arranged.Pairwise (fun a b => (order a b).isLE = true) →
        arranged = keys.mergeSort inOrder) := by
  refine ⟨fun a b ha hb => ⟨?_, ?_, ?_, ?_⟩, fun a b c => ⟨?_, ?_, ?_, order_eq_lt_iff a b⟩, fun _ => size_ofList,
    fun keys keys' h hperm => ⟨?_, ?_⟩⟩
  · rw [beq_iff_eq, ha.eq_iff hb]
  · rw [beq_iff_eq, ha.eq_iff_order hb]
  · intro heq
    obtain rfl := eq_of_beq heq
    exact ⟨rfl, rfl⟩
  · intro hab hba
    exact beq_iff_eq.mpr (ha.antisymm hb hab hba)
  · exact Std.OrientedCmp.eq_swap
  · exact (Bool.or_eq_true _ _).mp (inOrder_total a b)
  · exact inOrder_trans a b c
  · refine (eq_mergeSort h ?_ (List.pairwise_mergeSort inOrder_trans inOrder_total keys')).symm
    exact (List.mergeSort_perm keys' inOrder).trans hperm.symm
  · intro arranged harranged hsorted
    exact eq_mergeSort h (harranged.trans hperm.symm) hsorted

end ResponseCache.Key
