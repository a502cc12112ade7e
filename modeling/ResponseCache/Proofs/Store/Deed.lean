import Mathlib.Data.List.Induction
import ResponseCache.Store

namespace ResponseCache

/-- What a successful call did. -/
inductive Deed
  | replaced (key : Key) (identity : Identity) (primary : StreamId) (alternative : Option Alternative)
  | attached (key : Key) (alternative : Alternative)
  | cleared (key : Key)
  | evicted (key : Key)
  | evictedAll

/-- What is remembered of a key. -/
structure Generation where
  identity : Identity
  primary : StreamId
  alternative : Option Alternative
  deriving DecidableEq, Repr

def Entry.generation (e : Entry) : Generation := ⟨e.identity, e.primary, e.alternative⟩

namespace Deed

def Replaces (key : Key) : Deed → Prop
  | replaced k _ _ _ => k = key
  | _ => False

def Evicts (key : Key) : Deed → Prop
  | evicted k => k = key
  | evictedAll => True
  | _ => False

/-- What the deed makes of the alternative of a key, if it is about that. -/
def alternative? (key : Key) : Deed → Option (Option Alternative)
  | attached k a => if k = key then some (some a) else none
  | cleared k => if k = key then some none else none
  | _ => none

/-- The deed of a decision about a key that a store went along with, with the identity that it answered. -/
def ofAnswer (key : Key) (r : Reconciliation) : Except Error Decision → List Deed
  | .error _ => []
  | .ok .keep => []
  | .ok (.attach a) => [attached key a]
  | .ok .clear => [cleared key]
  | .ok (.replace primary alternative) => [replaced key r.entry.identity primary alternative]

/-- What one more deed makes of what is remembered of a key. -/
def remember (key : Key) (g : Option Generation) : Deed → Option Generation
  | replaced k identity primary alternative => if k = key then some ⟨identity, primary, alternative⟩ else g
  | attached k a => if k = key then g.map fun g => { g with alternative := some a } else g
  | cleared k => if k = key then g.map fun g => { g with alternative := none } else g
  | evicted k => if k = key then none else g
  | evictedAll => none

section
variable {key : Key} {d : Deed}

theorem exists_of_replaces (h : d.Replaces key) :
    ∃ identity primary alternative, d = replaced key identity primary alternative := by
  cases d with
  | replaced k identity primary alternative =>
    have hk : k = key := h
    exact ⟨identity, primary, alternative, hk ▸ rfl⟩
  | attached | cleared | evicted | evictedAll => exact h.elim

theorem remember_replaced (g : Option Generation) (identity : Identity) (primary : StreamId)
    (alternative : Option Alternative) :
    (replaced key identity primary alternative).remember key g = some ⟨identity, primary, alternative⟩ := by
  rw [remember, if_pos rfl]

theorem remember_of_evicts (h : d.Evicts key) (g : Option Generation) : d.remember key g = none := by
  cases d with
  | evicted k =>
    have hk : k = key := h
    rw [remember, if_pos hk]
  | evictedAll => rfl
  | replaced | attached | cleared => exact h.elim

/-- A deed that neither replaces nor evicts can change the alternative only. -/
theorem remember_of_neither (hr : ¬d.Replaces key) (he : ¬d.Evicts key) (g : Option Generation) :
    d.remember key g = g.map fun g => { g with alternative := (d.alternative? key).getD g.alternative } := by
  cases d with
  | replaced k identity primary alternative =>
    have hk : ¬k = key := hr
    simp [remember, alternative?, hk]
  | attached k a => by_cases hk : k = key <;> simp [remember, alternative?, hk]
  | cleared k => by_cases hk : k = key <;> simp [remember, alternative?, hk]
  | evicted k =>
    have hk : ¬k = key := he
    simp [remember, alternative?, hk]
  | evictedAll => exact absurd trivial he

/-- Only the decision to replace has a deed that replaces. -/
theorem of_mem_ofAnswer {k : Key} {r : Reconciliation} {decided : Except Error Decision}
    (hd : d ∈ ofAnswer k r decided) (h : d.Replaces key) :
    k = key ∧ ∃ primary alternative, decided = .ok (.replace primary alternative) := by
  obtain ⟨identity, primary, alternative, rfl⟩ := exists_of_replaces h
  cases decided with
  | error e => exact absurd hd List.not_mem_nil
  | ok decision =>
    cases decision with
    | replace primary' alternative' =>
      have heq := List.mem_singleton.mp hd
      rw [replaced.injEq] at heq
      exact ⟨heq.1.symm, primary', alternative', rfl⟩
    | keep | attach a | clear => simp [ofAnswer] at hd

theorem ofAnswer_eq_singleton {k : Key} {r : Reconciliation} {decided : Except Error Decision}
    (hd : d ∈ ofAnswer k r decided) : ofAnswer k r decided = [d] := by
  cases decided with
  | error e => exact absurd hd List.not_mem_nil
  | ok decision =>
    cases decision with
    | keep => exact absurd hd List.not_mem_nil
    | attach | clear | replace =>
      rw [List.mem_singleton.mp hd]
      rfl

end

section
variable (key : Key)

/-- The last replacement of a key in a history, with the alternative that was set last after it, is this. -/
def Leaves (deeds : List Deed) (g : Generation) : Prop :=
  ∃ before identity primary alternative after,
    deeds = before ++ replaced key identity primary alternative :: after ∧
    (∀ d ∈ after, ¬d.Replaces key ∧ ¬d.Evicts key) ∧
    g = ⟨identity, primary, ((after.filterMap (·.alternative? key)).getLast?).getD alternative⟩

/-- One more deed behind the replacement sets the alternative or leaves it. -/
theorem Leaves.concat {deeds : List Deed} {g : Generation} (h : Leaves key deeds g) {d : Deed} (hr : ¬d.Replaces key)
    (he : ¬d.Evicts key) :
    Leaves key (deeds ++ [d]) { g with alternative := (d.alternative? key).getD g.alternative } := by
  obtain ⟨before, identity, primary, alternative, after, rfl, hafter, rfl⟩ := h
  refine ⟨before, identity, primary, alternative, after ++ [d], by simp, ?_, ?_⟩
  · intro d' hd'
    rcases List.mem_append.mp hd' with hold | hnew
    · exact hafter d' hold
    · rw [List.mem_singleton.mp hnew]
      exact ⟨hr, he⟩
  · rw [List.filterMap_append]
    cases halternative : d.alternative? key with
    | none => simp [halternative]
    | some a => simp [halternative]

/-- What is remembered is the last replacement, with the alternative that was set last after it. -/
theorem leaves_of_remember {deeds : List Deed} {g : Generation} (h : deeds.foldl (remember key) none = some g) :
    Leaves key deeds g := by
  -- The induction takes deeds off the end, where `remember` works.
  induction deeds using List.reverseRecOn generalizing g with
  | nil => exact absurd h (by simp)
  | append_singleton deeds d ih =>
    rw [List.foldl_append, List.foldl_cons, List.foldl_nil] at h
    by_cases hr : d.Replaces key
    · obtain ⟨identity, primary, alternative, rfl⟩ := exists_of_replaces hr
      rw [remember_replaced, Option.some.injEq] at h
      exact ⟨deeds, identity, primary, alternative, [], rfl, by simp, h.symm⟩
    · by_cases he : d.Evicts key
      · rw [remember_of_evicts he] at h
        exact absurd h (by simp)
      · rw [remember_of_neither hr he, Option.map_eq_some_iff] at h
        obtain ⟨g', hg', rfl⟩ := h
        exact (ih hg').concat key hr he

theorem remember_isSome (deeds : List Deed) (h : ∀ d ∈ deeds, ¬d.Evicts key) :
    ∀ g : Option Generation, g.isSome → (deeds.foldl (remember key) g).isSome := by
  induction deeds with
  | nil => exact fun g hg => hg
  | cons d rest ih =>
    intro g hg
    refine ih (fun d' hd' => h d' (List.mem_cons_of_mem d hd')) _ ?_
    by_cases hr : d.Replaces key
    · obtain ⟨identity, primary, alternative, rfl⟩ := exists_of_replaces hr
      rw [remember_replaced]
      rfl
    · rw [remember_of_neither hr (h d List.mem_cons_self), Option.isSome_map]
      exact hg

/-- Nothing is remembered when every replacement was followed by an eviction. -/
theorem remember_eq_none_iff (deeds : List Deed) : deeds.foldl (remember key) none = none ↔
    ∀ before d after, deeds = before ++ d :: after → d.Replaces key → ∃ d' ∈ after, d'.Evicts key := by
  constructor
  · rintro hnone before d after rfl hd
    by_contra hno
    have hkept : ∀ d' ∈ after, ¬d'.Evicts key := fun d' hin hev => hno ⟨d', hin, hev⟩
    obtain ⟨identity, primary, alternative, rfl⟩ := exists_of_replaces hd
    rw [List.foldl_append, List.foldl_cons, remember_replaced] at hnone
    have hsome := remember_isSome key after hkept (some ⟨identity, primary, alternative⟩) rfl
    rw [hnone] at hsome
    exact absurd hsome (by simp)
  · intro hall
    cases hrec : deeds.foldl (remember key) none with
    | none => rfl
    | some g =>
      obtain ⟨before, identity, primary, alternative, after, hdeeds, hafter, -⟩ := leaves_of_remember key hrec
      obtain ⟨d, hd, hev⟩ := hall before _ after hdeeds rfl
      exact absurd hev (hafter d hd).2

/-- Without a replacement nothing new is remembered, and identity and primary stay. -/
theorem remember_keeps (deeds : List Deed) (h : ∀ d ∈ deeds, ¬d.Replaces key) : ∀ (g : Option Generation) (g' : Generation),
    deeds.foldl (remember key) g = some g' →
    ∃ g₀, g = some g₀ ∧ g'.identity = g₀.identity ∧ g'.primary = g₀.primary := by
  induction deeds with
  | nil => exact fun g g' hg => ⟨g', hg, rfl, rfl⟩
  | cons d rest ih =>
    intro g g' hg
    obtain ⟨g₁, hg₁, hidentity, hprimary⟩ := ih (fun d' hd' => h d' (List.mem_cons_of_mem d hd')) _ g' hg
    by_cases he : d.Evicts key
    · rw [remember_of_evicts he] at hg₁
      exact absurd hg₁ (by simp)
    · rw [remember_of_neither (h d List.mem_cons_self) he, Option.map_eq_some_iff] at hg₁
      obtain ⟨g₀, hg₀, rfl⟩ := hg₁
      exact ⟨g₀, hg₀, hidentity, hprimary⟩

/-- An identity that no replacement gives out is there no longer than until the next replacement or eviction. -/
theorem remember_identity_iff (identity : Identity) (deeds : List Deed)
    (h : ∀ i primary alternative, replaced key i primary alternative ∈ deeds → i ≠ identity) : ∀ g : Option Generation,
    (deeds.foldl (remember key) g).map (·.identity) = some identity ↔
      g.map (·.identity) = some identity ∧ ∀ d ∈ deeds, ¬d.Replaces key ∧ ¬d.Evicts key := by
  induction deeds with
  | nil => simp
  | cons d rest ih =>
    intro g
    have hrest := ih (fun i primary alternative hd => h i primary alternative (List.mem_cons_of_mem d hd)) (d.remember key g)
    rw [List.foldl_cons, hrest, List.forall_mem_cons]
    by_cases hr : d.Replaces key
    · obtain ⟨i, primary, alternative, rfl⟩ := exists_of_replaces hr
      have hne : i ≠ identity := h i primary alternative List.mem_cons_self
      simp [remember_replaced, hne, hr]
    · by_cases he : d.Evicts key
      · simp [remember_of_evicts he, he]
      · rw [remember_of_neither hr he, Option.map_map]
        simp [hr, he, Function.comp_def]

end

end Deed
end ResponseCache
