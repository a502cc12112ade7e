import ResponseCache.Proofs.Mint
import ResponseCache.Proofs.Store.Resolution

namespace ResponseCache.Mint

/-- A store that replaces an entry calls the mint once, and only its own check of the identity comes in between. -/
theorem resolve_replace_eq_mint {streams : Streams} {now : Moment} {key : Key} {current : Option Entry} (m : Mint)
    (primary : StreamId) (alternative : Option Alternative) (hp : streams.ensureSealed primary = .ok ())
    (ha : ∀ a, alternative = some a → streams.ensureSealed a.stream = .ok ()) :
    Store.resolve streams now key current m (.replace primary alternative) =
      (m.mint.1.bind fun i =>
        if i ≤ identityOf current then .error (.identityCollision key.display (identityOf current) i)
        else .ok (.fresh key i primary alternative now.date, true), m.mint.2) := by
  rw [Store.resolve_replace_of_sealed streams now key current m primary alternative hp ha, mint]
  cases m.mint? with
  | none => rfl
  | some p =>
    simp only [Except.bind]
    split <;> rfl

/-- The mint after calls. -/
def after (m : Mint) (calls : List Call) : Mint := calls.foldl (fun m call => (m.perform call).2) m

/-- The number that a call brings up: that of the identity it is answered with, or of the one that it moves the mint past. -/
def Call.numbers : Call → Except Error (Option Identity) → List Nat
  | .mint, .ok (some i) => [i.raw.toNat]
  | .mint, _ => []
  | .advancePast seen, _ => [seen.raw.toNat]

/-- The highest number that the calls of a log bring up, if it is above `least`. -/
def highest (least : Nat) (log : List (Call × Except Error (Option Identity))) : Nat :=
  (log.flatMap fun entry => entry.1.numbers entry.2).foldl max least

/-- The mint stands one past that number, as far as numbers go. -/
def Stands (m : Mint) (top : Nat) : Prop := m.next.toNat = min (top + 1) (identityLimit - 1)

theorem stands_new : ({} : Mint).Stands 0 := rfl

section
variable {m : Mint} {top : Nat}

theorem Stands.mint?_eq_none_iff (h : m.Stands top) : m.mint? = none ↔ identityLimit - 1 ≤ top + 1 := by
  have hlimit : identityLimit - 1 = 18446744073709551615 := rfl
  unfold Stands at h
  rw [Mint.mint?_eq_none_iff, h]
  omega

theorem mint_of_mint?_eq_none (h : m.mint? = none) : m.mint = (.error (.internal "identity space exhausted"), m) := by
  rw [mint, h]

theorem mint_of_mint?_eq_some {m' : Mint} {i : Identity} (h : m.mint? = some (i, m')) : m.mint = (.ok i, m') := by
  rw [mint, h]

/-- The next identity is the one past the highest number, unless that is the last number or beyond. -/
theorem Stands.mint_eq (h : m.Stands top) : (m.mint.1.map fun i => i.raw.toNat) =
    if top + 1 < identityLimit - 1 then .ok (top + 1) else .error (.internal "identity space exhausted") := by
  have hnone := h.mint?_eq_none_iff
  cases hm : m.mint? with
  | none =>
    rw [if_neg (Nat.not_lt.mpr (hnone.mp hm)), mint_of_mint?_eq_none hm]
    rfl
  | some p =>
    obtain ⟨i, m'⟩ := p
    have hlt : top + 1 < identityLimit - 1 := by
      rw [hm] at hnone
      exact Nat.lt_of_not_le fun hle => by simpa using hnone.mpr hle
    obtain ⟨hraw, -⟩ := of_mint? hm
    have hnumber : i.raw.toNat = top + 1 := by
      rw [hraw, h, Nat.min_eq_left (Nat.le_of_lt hlt)]
    rw [if_pos hlt, mint_of_mint?_eq_some hm, ← hnumber]
    rfl

theorem Stands.advancePast (h : m.Stands top) (seen : Identity) : (m.advancePast seen).Stands (max top seen.raw.toNat) := by
  have hlimit : identityLimit - 1 = 18446744073709551615 := rfl
  unfold Stands at h ⊢
  rw [toNat_next_advancePast, h]
  omega

theorem Stands.of_mint? {m' : Mint} {i : Identity} (h : m.Stands top) (hm : m.mint? = some (i, m')) :
    m'.Stands (max top i.raw.toNat) := by
  have hlimit : identityLimit - 1 = 18446744073709551615 := rfl
  have hlt : m'.next.toNat < 18446744073709551616 := m'.next.toNat_lt
  obtain ⟨hraw, hnext⟩ := Mint.of_mint? hm
  unfold Stands at h ⊢
  rw [hnext, hraw, h]
  omega

/-- After a call the mint stands one past what the call brought up, or where it stood if that is higher. -/
theorem Stands.perform (h : m.Stands top) (call : Call) :
    (m.perform call).2.Stands ((call.numbers (m.perform call).1).foldl max top) := by
  cases call with
  | advancePast seen => exact h.advancePast seen
  | mint =>
    cases hm : m.mint? with
    | none =>
      simp only [Mint.perform, mint_of_mint?_eq_none hm]
      exact h
    | some p =>
      simp only [Mint.perform, mint_of_mint?_eq_some hm]
      exact h.of_mint? hm

theorem Stands.after (calls : List Call) : ∀ {m : Mint} {top : Nat}, m.Stands top →
    (m.after calls).Stands (highest top (m.log calls)) := by
  induction calls with
  | nil => exact fun h => h
  | cons call rest ih =>
    intro m top h
    have hhighest : highest top (m.log (call :: rest)) =
        highest ((call.numbers (m.perform call).1).foldl max top) ((m.perform call).2.log rest) := by
      simp only [highest, log, List.flatMap_cons, List.foldl_append]
    rw [hhighest]
    exact ih (h.perform call)

end

theorem le_next_advancePast (m : Mint) (seen : Identity) : m.next ≤ (m.advancePast seen).next := by
  rw [UInt64.le_iff_toNat_le, toNat_next_advancePast]
  exact Nat.le_max_left _ _

/-- An exhausted mint is not changed by any call. -/
theorem perform_of_exhausted {m : Mint} (h : m.mint? = none) (call : Call) : (m.perform call).2 = m := by
  cases call with
  | mint => rw [perform, mint_of_mint?_eq_none h]
  | advancePast seen =>
    have hnext := (mint?_eq_none_iff m).mp h
    have hlt : (m.advancePast seen).next.toNat < 18446744073709551616 := (m.advancePast seen).next.toNat_lt
    have hle := UInt64.le_iff_toNat_le.mp (m.le_next_advancePast seen)
    have hsame : (m.advancePast seen).next.toNat = m.next.toNat := by omega
    exact congrArg Mint.mk (UInt64.toNat_inj.mp hsame)

theorem after_of_exhausted {m : Mint} (h : m.mint? = none) (calls : List Call) : m.after calls = m := by
  induction calls with
  | nil => rfl
  | cons call rest ih =>
    show (m.perform call).2.after rest = m
    rw [perform_of_exhausted h call, ih]

theorem mint?_eq_none_of_error {m : Mint} {e : Error} (h : m.mint.1 = .error e) : m.mint? = none := by
  cases hm : m.mint? with
  | none => rfl
  | some p =>
    rw [mint_of_mint?_eq_some hm] at h
    exact absurd h (by simp)

/-- After any calls on a new mint, with `top` the highest number that was given out or moved past, the next identity is the
one past `top`, or there is none if that is the last number. So neither the first nor the last number is given out. A mint
never goes back, and one that has failed fails for ever. -/
theorem new_mint_counts_past_highest (calls : List Call) :
    let start : Mint := {}
    let m := start.after calls
    let top := highest 0 (start.log calls)
    (m.mint.1.map fun i => i.raw.toNat) =
        (if top + 1 < identityLimit - 1 then .ok (top + 1) else .error (.internal "identity space exhausted")) ∧
      (∀ i, m.mint.1 = .ok i → i ≠ .absent ∧ i.raw.toNat ≠ identityLimit - 1) ∧
      (∀ seen, m.next ≤ (m.advancePast seen).next) ∧
      (∀ e, m.mint.1 = .error e → ∀ later,
        ((m.after (.mint :: later)).mint).1 = .error (.internal "identity space exhausted")) := by
  intro start m top
  have hlaw := (stands_new.after calls).mint_eq
  refine ⟨hlaw, ?_, m.le_next_advancePast, ?_⟩
  · intro i hi
    -- The number that is given out is the one that the law speaks of.
    have hgiven : (Except.ok i.raw.toNat : Except Error Nat) =
        if top + 1 < identityLimit - 1 then .ok (top + 1) else .error (.internal "identity space exhausted") := by
      rw [← hlaw]
      show _ = m.mint.1.map _
      rw [hi]
      rfl
    split at hgiven
    case isTrue hlt =>
      have hnumber : i.raw.toNat = top + 1 := Except.ok.inj hgiven
      refine ⟨?_, by omega⟩
      rintro rfl
      exact absurd hnumber (by simp [Identity.absent])
    case isFalse => exact absurd hgiven (by simp)
  · intro e he later
    have hnone := mint?_eq_none_of_error he
    rw [after_of_exhausted hnone, mint_of_mint?_eq_none hnone]

/-- Moved past the third number from the end, a mint gives out one more identity, the last but one. -/
example : ({} : Mint).log [.mint, .advancePast ⟨0xfffffffffffffffd⟩, .mint, .mint] =
    [(.mint, .ok (some ⟨1⟩)), (.advancePast ⟨0xfffffffffffffffd⟩, .ok none), (.mint, .ok (some ⟨0xfffffffffffffffe⟩)),
      (.mint, .error (.internal "identity space exhausted"))] := rfl

end ResponseCache.Mint
