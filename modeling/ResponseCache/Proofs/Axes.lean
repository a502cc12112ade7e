import Mathlib.Data.List.Count
import Mathlib.Data.List.Induction
import Mathlib.Data.List.Perm.Basic
import ResponseCache.Key
import ResponseCache.Proofs.Encoding
import ResponseCache.Proofs.Table
/-!
Keys as finite maps. The axes of a key are kept in increasing order, so that halving finds them, and to bring them to
normal form again after one is set changes nothing. A key is then its URI and the map from its axes to their values.
-/
namespace ResponseCache.Key
open Table (find find_eq_none_iff find_eq_some_iff)

/-- No capital letter of ASCII. -/
def Small (c : Char) : Prop := ¬('A' ≤ c ∧ c ≤ 'Z')

theorem small_lowerChar (c : Char) : Small (lowerChar c) := by
  unfold lowerChar Small
  split
  · rename_i hc
    simp only [Bool.and_eq_true, decide_eq_true_eq] at hc
    have hcapital : ∀ n ≤ 90, 65 ≤ n → ¬Char.ofNat (n + 32) ≤ 'Z' := by decide
    exact fun hsmall => hcapital c.toNat hc.2 hc.1 hsmall.2
  · rename_i hc
    rwa [Bool.and_eq_true, decide_eq_true_eq, decide_eq_true_eq] at hc

theorem lowerChar_of_small {c : Char} (hc : Small c) : lowerChar c = c := by
  unfold lowerChar
  rw [if_neg]
  rwa [Bool.and_eq_true, decide_eq_true_eq, decide_eq_true_eq]

theorem lowerCase_lowerCase (s : String) : lowerCase (lowerCase s) = lowerCase s := by
  have hmap : (s.toList.map lowerChar).map lowerChar = s.toList.map lowerChar := by
    rw [List.map_map]
    exact List.map_congr_left fun c _ => lowerChar_of_small (small_lowerChar c)
  rw [← String.toList_inj]
  simpa only [lowerCase, String.toList_map] using hmap

/-- The axes come in increasing order, each once. -/
def Increasing (pairs : List (String × String)) : Prop := pairs.Pairwise fun p q => p.1 < q.1

theorem Increasing.nodup {pairs : List (String × String)} (h : Increasing pairs) : (pairs.map (·.1)).Nodup := by
  rw [List.Nodup, List.pairwise_map]
  exact h.imp fun hlt => ne_of_lt hlt

/-- Increasing pairs are known by the value under each axis. -/
theorem Increasing.ext {pairs pairs' : List (String × String)} (h : Increasing pairs) (h' : Increasing pairs')
    (hfind : ∀ axis, find axis pairs = find axis pairs') : pairs = pairs' := by
  have hmem : ∀ p, p ∈ pairs ↔ p ∈ pairs' := by
    rintro ⟨axis, value⟩
    rw [← find_eq_some_iff axis value pairs h.nodup, ← find_eq_some_iff axis value pairs' h'.nodup, hfind]
  have hperm : pairs.Perm pairs' :=
    (List.perm_ext_iff_of_nodup h.nodup.of_map h'.nodup.of_map).mpr hmem
  exact hperm.eq_of_pairwise (fun p q _ _ hpq hqp => absurd hqp (lt_asymm hpq)) h h'

/-- Pairs up to `base` may have the axis or a smaller one, pairs from `base + size` on have larger ones. -/
structure Narrowed (axis : String) (pairs : List (String × String)) (base size : Nat) : Prop where
  positive : 0 < size
  bounded : base + size ≤ pairs.length
  reached : base = 0 ∨ ∀ p, pairs[base]? = some p → p.1 ≤ axis
  beyond : ∀ i p, base + size ≤ i → pairs[i]? = some p → axis < p.1

theorem Increasing.lt_of_getElem? {pairs : List (String × String)} (h : Increasing pairs) {i j : Nat}
    {p q : String × String} (hi : pairs[i]? = some p) (hj : pairs[j]? = some q) (hij : i < j) : p.1 < q.1 := by
  obtain ⟨hi', rfl⟩ := List.getElem?_eq_some_iff.mp hi
  obtain ⟨hj', rfl⟩ := List.getElem?_eq_some_iff.mp hj
  exact List.pairwise_iff_getElem.mp h i j hi' hj' hij

/-- Halving keeps the place of the axis in the range, until one pair is left. -/
theorem narrowed_bisect {axis : String} {pairs : List (String × String)} (h : Increasing pairs) (base size : Nat)
    (hn : Narrowed axis pairs base size) : Narrowed axis pairs (bisect axis pairs base size) 1 := by
  induction base, size using bisect.induct axis pairs with
  | case1 base size hone =>
    obtain rfl : size = 1 := Nat.le_antisymm hone hn.positive
    rw [bisect, if_pos (Nat.le_refl 1)]
    exact hn
  | case2 base size hmore half hpast ih =>
    -- The pair in the middle is too large, and so is everything behind it.
    rw [bisect, if_neg hmore, if_pos hpast]
    have hhalf : half = size / 2 := rfl
    have hbound := hn.bounded
    obtain ⟨mid, hmid, hlt⟩ := (Option.any_eq_true _ _).mp hpast
    have hlt : axis < mid.1 := of_decide_eq_true hlt
    refine ih ⟨by omega, by omega, hn.reached, fun i p hi hp => ?_⟩
    rcases Nat.lt_or_eq_of_le (show base + half ≤ i by omega) with hij | rfl
    · exact lt_trans hlt (h.lt_of_getElem? hmid hp hij)
    · obtain rfl : mid = p := Option.some.inj (hmid.symm.trans hp)
      exact hlt
  | case3 base size hmore half hnot ih =>
    rw [bisect, if_neg hmore, if_neg hnot]
    have hhalf : half = size / 2 := rfl
    have hbound := hn.bounded
    refine ih ⟨by omega, by omega, Or.inr fun p hp => ?_, fun i p hi hp => hn.beyond i p (by omega) hp⟩
    rw [hp] at hnot
    exact not_lt.mp (by simpa using hnot)

theorem insertIdx_eq_take_drop (x : String × String) : ∀ (pairs : List (String × String)) (i : Nat), i ≤ pairs.length →
    pairs.insertIdx i x = pairs.take i ++ x :: pairs.drop i
  | _, 0, _ => rfl
  | p :: rest, i + 1, hi => by
    rw [List.insertIdx_succ_cons, insertIdx_eq_take_drop x rest i (Nat.le_of_succ_le_succ hi)]
    rfl

/-- The pair of an axis is put between those of smaller and those of larger axes, and takes the place of an old one. -/
theorem setAxis_split {pairs : List (String × String)} (h : Increasing pairs) (axis value : String) :
    ∃ before after, (∀ p ∈ before, p.1 < axis) ∧ (∀ p ∈ after, axis < p.1) ∧
      setAxis axis value pairs = before ++ (axis, value) :: after ∧
      (pairs = before ++ after ∨ ∃ old, pairs = before ++ (axis, old) :: after) := by
  cases hlen : pairs.length with
  | zero =>
    obtain rfl : pairs = [] := List.length_eq_zero_iff.mp hlen
    refine ⟨[], [], by simp, by simp, ?_, Or.inl rfl⟩
    unfold setAxis bisect
    rfl
  | succ n =>
    have hstart : Narrowed axis pairs 0 pairs.length :=
      ⟨by omega, by omega, Or.inl rfl, fun i p hi hp => by
        rw [List.getElem?_eq_none (by omega)] at hp
        exact absurd hp (by simp)⟩
    have hend := narrowed_bisect h 0 pairs.length hstart
    unfold setAxis
    generalize bisect axis pairs 0 pairs.length = i at hend ⊢
    have hi : i < pairs.length := hend.bounded
    have hget : pairs[i]? = some pairs[i] := List.getElem?_eq_getElem hi
    -- What stands before and behind the pair where the search ended.
    have hsplit : pairs = pairs.take i ++ pairs[i] :: pairs.drop (i + 1) := by
      rw [← List.drop_eq_getElem_cons hi, List.take_append_drop]
    have hbefore : ∀ p ∈ pairs.take i, p.1 < pairs[i].1 := by
      intro p hp
      obtain ⟨j, hj, rfl⟩ := List.mem_take_iff_getElem.mp hp
      exact h.lt_of_getElem? (List.getElem?_eq_getElem (by omega)) hget (by omega)
    have hbehind : ∀ p ∈ pairs.drop (i + 1), axis < p.1 := by
      intro p hp
      obtain ⟨j, hj⟩ := List.mem_iff_getElem?.mp hp
      rw [List.getElem?_drop] at hj
      exact hend.beyond (i + 1 + j) p (by omega) hj
    simp only [hget]
    rcases lt_trichotomy pairs[i].1 axis with hlt | heq | hgt
    · -- It is the last of those with a smaller axis.
      have hne : pairs[i].1 ≠ axis := ne_of_lt hlt
      refine ⟨pairs.take (i + 1), pairs.drop (i + 1), ?_, hbehind, ?_, Or.inl (List.take_append_drop _ _).symm⟩
      · intro p hp
        rw [List.take_add_one, hget, Option.toList_some, List.mem_append, List.mem_singleton] at hp
        rcases hp with hp | rfl
        · exact lt_trans (hbefore p hp) hlt
        · exact hlt
      · rw [if_neg hne, if_pos hlt, insertIdx_eq_take_drop _ _ _ hi]
    · refine ⟨pairs.take i, pairs.drop (i + 1), fun p hp => heq ▸ hbefore p hp, hbehind, ?_, Or.inr ⟨pairs[i].2, ?_⟩⟩
      · rw [if_pos heq, List.set_eq_take_append_cons_drop, if_pos hi]
      · rw [← heq]
        exact hsplit
    · -- The search went past no pair, and the first one has a larger axis.
      obtain rfl : i = 0 := by
        rcases hend.reached with hzero | hle
        · exact hzero
        · exact absurd (hle _ hget) (not_le.mpr hgt)
      have hne : pairs[0].1 ≠ axis := ne_of_gt hgt
      refine ⟨[], pairs, by simp, ?_, ?_, Or.inl rfl⟩
      · intro p hp
        rw [hsplit] at hp
        rcases List.mem_cons.mp hp with rfl | hp
        · exact hgt
        · exact hbehind p hp
      · rw [if_neg hne, if_neg (lt_asymm hgt)]
        rfl

theorem Increasing.setAxis {pairs : List (String × String)} (h : Increasing pairs) (axis value : String) :
    Increasing (setAxis axis value pairs) := by
  obtain ⟨before, after, hlow, hhigh, hset, hold⟩ := setAxis_split h axis value
  have hsub : (before ++ after).Sublist pairs := by
    rcases hold with rfl | ⟨old, rfl⟩
    · exact List.Sublist.refl _
    · exact List.Sublist.append_left (List.sublist_cons_self _ _) before
  obtain ⟨hbefore, hafter, -⟩ := List.pairwise_append.mp (h.sublist hsub)
  rw [hset]
  refine List.pairwise_append.mpr ⟨hbefore, List.pairwise_cons.mpr ⟨hhigh, hafter⟩, fun p hp q hq => ?_⟩
  rcases List.mem_cons.mp hq with rfl | hq
  · exact hlow p hp
  · exact lt_trans (hlow p hp) (hhigh q hq)

/-- Axes in lower case and in increasing order. -/
structure Normal (pairs : List (String × String)) : Prop where
  lower : ∀ p ∈ pairs, lowerCase p.1 = p.1
  increasing : Increasing pairs

theorem pairLe_iff (p q : String × String) : pairLe p q = true ↔ p.1 < q.1 ∨ (p.1 = q.1 ∧ p.2 ≤ q.2) := by
  simp [pairLe]

theorem pairLe_trans (p q r : String × String) (hpq : pairLe p q = true) (hqr : pairLe q r = true) :
    pairLe p r = true := by
  rw [pairLe_iff] at hpq hqr ⊢
  rcases hpq with hpq | ⟨hpq, hpq'⟩ <;> rcases hqr with hqr | ⟨hqr, hqr'⟩
  · exact Or.inl (lt_trans hpq hqr)
  · exact Or.inl (hqr ▸ hpq)
  · exact Or.inl (hpq ▸ hqr)
  · exact Or.inr ⟨hpq.trans hqr, le_trans hpq' hqr'⟩

theorem pairLe_total (p q : String × String) : (pairLe p q || pairLe q p) = true := by
  rw [Bool.or_eq_true, pairLe_iff, pairLe_iff]
  rcases lt_trichotomy p.1 q.1 with hlt | heq | hgt
  · exact Or.inl (Or.inl hlt)
  · rcases le_total p.2 q.2 with hle | hle
    · exact Or.inl (Or.inr ⟨heq, hle⟩)
    · exact Or.inr (Or.inr ⟨heq.symm, hle⟩)
  · exact Or.inr (Or.inl hgt)

theorem dedup_sublist (pairs : List (String × String)) : (dedup pairs).Sublist pairs := by
  induction pairs using dedup.induct with
  | case1 => rw [dedup]
  | case2 p => rw [dedup]
  | case3 p q rest hpq ih =>
    rw [dedup, if_pos hpq]
    exact ih.trans ((List.sublist_cons_self q rest).cons_cons p)
  | case4 p q rest hpq ih =>
    rw [dedup, if_neg hpq]
    exact ih.cons_cons p

/-- Sorted pairs without repetitions are increasing. -/
theorem increasing_dedup {pairs : List (String × String)} (h : pairs.Pairwise fun p q => pairLe p q = true) :
    Increasing (dedup pairs) := by
  induction pairs using dedup.induct with
  | case1 =>
    rw [dedup]
    exact List.Pairwise.nil
  | case2 p =>
    rw [dedup]
    exact List.pairwise_singleton _ p
  | case3 p q rest hpq ih =>
    rw [dedup, if_pos hpq]
    exact ih (h.sublist ((List.sublist_cons_self q rest).cons_cons p))
  | case4 p q rest hpq ih =>
    rw [dedup, if_neg hpq]
    obtain ⟨hhead, htail⟩ := List.pairwise_cons.mp h
    have hlt : p.1 < q.1 := by
      rcases (pairLe_iff p q).mp (hhead q List.mem_cons_self) with hlt | ⟨heq, -⟩
      · exact hlt
      · exact absurd heq hpq
    refine List.pairwise_cons.mpr ⟨fun r hr => ?_, ih htail⟩
    rcases List.mem_cons.mp ((dedup_sublist (q :: rest)).mem hr) with rfl | hr
    · exact hlt
    · rcases (pairLe_iff q r).mp ((List.pairwise_cons.mp htail).1 r hr) with hqr | ⟨hqr, -⟩
      · exact lt_trans hlt hqr
      · exact hqr ▸ hlt

theorem dedup_of_increasing {pairs : List (String × String)} (h : Increasing pairs) : dedup pairs = pairs := by
  induction pairs using dedup.induct with
  | case1 => rw [dedup]
  | case2 p => rw [dedup]
  | case3 p q rest hpq ih => exact absurd hpq (ne_of_lt ((List.pairwise_cons.mp h).1 q List.mem_cons_self))
  | case4 p q rest hpq ih => rw [dedup, if_neg hpq, ih (List.pairwise_cons.mp h).2]

theorem normal_normalize (pairs : List (String × String)) : Normal (normalize pairs) where
  lower := by
    intro p hp
    have hmem := (List.mergeSort_perm _ pairLe).mem_iff.mp ((dedup_sublist _).mem hp)
    obtain ⟨q, -, rfl⟩ := List.mem_map.mp hmem
    exact lowerCase_lowerCase q.1
  increasing := increasing_dedup (List.pairwise_mergeSort pairLe_trans pairLe_total _)

/-- What is in normal form stays as it is. -/
theorem Normal.normalize_eq {pairs : List (String × String)} (h : Normal pairs) : normalize pairs = pairs := by
  have hid : ∀ p ∈ pairs, (lowerCase p.1, p.2) = p := fun p hp => Prod.ext (h.lower p hp) rfl
  have hlower : normalize pairs = dedup (pairs.mergeSort pairLe) :=
    congrArg (fun l : List (String × String) => dedup (l.mergeSort pairLe)) ((List.map_congr_left hid).trans (List.map_id pairs))
  have hsorted : pairs.Pairwise fun p q => pairLe p q = true :=
    h.increasing.imp fun hlt => (pairLe_iff _ _).mpr (Or.inl hlt)
  rw [hlower, List.mergeSort_of_pairwise hsorted, dedup_of_increasing h.increasing]

theorem Normal.setAxis {pairs : List (String × String)} (h : Normal pairs) (axis value : String) :
    Normal (setAxis (lowerCase axis) value pairs) where
  lower := by
    obtain ⟨before, after, -, -, hset, hold⟩ := setAxis_split h.increasing (lowerCase axis) value
    have hmem : ∀ p ∈ before ++ after, p ∈ pairs := by
      rcases hold with rfl | ⟨old, rfl⟩
      · exact fun p hp => hp
      · exact fun p hp => (List.Sublist.append_left (List.sublist_cons_self _ _) before).mem hp
    intro p hp
    rw [hset, List.mem_append, List.mem_cons] at hp
    rcases hp with hp | rfl | hp
    · exact h.lower p (hmem p (List.mem_append_left _ hp))
    · exact lowerCase_lowerCase axis
    · exact h.lower p (hmem p (List.mem_append_right _ hp))
  increasing := h.increasing.setAxis _ value

/-- The value that a key gives an axis. -/
def axis? (k : Key) (axis : String) : Option String := find axis k.variance

/-- The axes of these pairs, set one after the other. -/
def withAxes (k : Key) (pairs : List (String × String)) : Key := pairs.foldl (fun k p => k.withVariance p.1 p.2) k

/-- The keys that can be had: of a URI, by setting axes, and by reading. -/
inductive Obtained : Key → Prop
  | ofUri (uri : String) : Obtained (ofUri uri)
  | withVariance {k : Key} (h : Obtained k) (axis value : String) : Obtained (k.withVariance axis value)
  | ofJson {json : Json} {k : Key} (h : ofJson? json = some k) : Obtained k

theorem ofParts_of_ofJson? {json : Json} {k : Key} (h : ofJson? json = some k) :
    ∃ uri variance, k = ofParts uri variance := by
  unfold ofJson? at h
  split at h
  · simp only [Option.bind_eq_bind, Option.bind_eq_some_iff] at h
    obtain ⟨fields, -, text, -, uri, -, axes, -, hk⟩ := h
    cases axes with
    | none => exact ⟨uri, [], (Option.some.inj hk).symm⟩
    | some axes =>
      obtain ⟨variance, -, hk⟩ := Option.bind_eq_some_iff.mp hk
      exact ⟨uri, variance, (Option.some.inj hk).symm⟩
  · simp only [Option.bind_eq_bind, Option.bind_eq_some_iff] at h
    obtain ⟨uri, -, hk⟩ := h
    exact ⟨_, _, (Option.some.inj hk).symm⟩
  · simp only [Option.bind_eq_bind, Option.bind_eq_some_iff] at h
    obtain ⟨uri, -, variance, -, hk⟩ := h
    exact ⟨_, _, (Option.some.inj hk).symm⟩
  · exact absurd h (by simp)

/-- Every key is made from parts. -/
theorem Obtained.ofParts {k : Key} (h : Obtained k) : ∃ uri variance, k = ofParts uri variance := by
  cases h with
  | ofUri uri => exact ⟨uri, [], rfl⟩
  | withVariance h axis value => exact ⟨_, _, rfl⟩
  | ofJson h => exact ofParts_of_ofJson? h

theorem Obtained.normal {k : Key} (h : Obtained k) : Normal k.variance := by
  obtain ⟨uri, variance, rfl⟩ := h.ofParts
  exact normal_normalize variance

theorem Obtained.hash_eq {k : Key} (h : Obtained k) : k.hash = digest k.uri k.variance := by
  obtain ⟨uri, variance, rfl⟩ := h.ofParts
  rfl

/-- Keys are known by their URI and the map of their axes. -/
theorem Obtained.ext {k k' : Key} (h : Obtained k) (h' : Obtained k') (huri : k.uri = k'.uri)
    (haxes : ∀ axis, k.axis? axis = k'.axis? axis) : k = k' := by
  have hvariance : k.variance = k'.variance := h.normal.increasing.ext h'.normal.increasing haxes
  have hhash : k.hash = k'.hash := by rw [h.hash_eq, h'.hash_eq, huri, hvariance]
  obtain ⟨u, v, n⟩ := k
  obtain ⟨u', v', n'⟩ := k'
  cases huri
  cases hvariance
  cases hhash
  rfl

theorem withAxes_concat (k : Key) (pairs : List (String × String)) (p : String × String) :
    k.withAxes (pairs ++ [p]) = (k.withAxes pairs).withVariance p.1 p.2 := List.foldl_concat ..

theorem Obtained.withAxes {k : Key} (h : Obtained k) (pairs : List (String × String)) : Obtained (k.withAxes pairs) := by
  induction pairs using List.reverseRec with
  | nil => exact h
  | append_singleton pairs p ih =>
    rw [withAxes_concat]
    exact ih.withVariance p.1 p.2

/-- The values that these pairs give an axis, in the order in which they give them. -/
def given (axis : String) (pairs : List (String × String)) : List String :=
  (pairs.filter fun p => lowerCase p.1 = axis).map (·.2)

end ResponseCache.Key
