import ResponseCache.Identity

namespace ResponseCache

theorem Identity.lt_iff (i k : Identity) : i < k ↔ i.raw.toNat < k.raw.toNat := UInt64.lt_iff_toNat_lt

theorem Identity.le_iff (i k : Identity) : i ≤ k ↔ i.raw.toNat ≤ k.raw.toNat := UInt64.le_iff_toNat_le

namespace Mint

/-- The mint gives out larger identities only, or none at all. -/
def Past (m : Mint) (i : Identity) : Prop := i.raw < m.next ∨ m.mint? = none

theorem mint?_eq_none_iff (m : Mint) : m.mint? = none ↔ m.next.toNat = 18446744073709551615 := by
  unfold mint?
  -- The equation is moved to natural numbers, where `omega` takes over later.
  have hinj : m.next = 0xffffffffffffffff ↔ m.next.toNat = 18446744073709551615 := UInt64.toNat_inj.symm
  by_cases hmax : m.next = 0xffffffffffffffff
  · simp only [hmax, if_true, true_iff]
    rfl
  · rw [if_neg hmax, ← hinj]
    simp [hmax]

theorem past_iff (m : Mint) (i : Identity) :
    m.Past i ↔ i.raw.toNat < m.next.toNat ∨ m.next.toNat = 18446744073709551615 := by
  unfold Past
  rw [UInt64.lt_iff_toNat_lt, mint?_eq_none_iff]

/-- What a mint gives out, and what it is afterwards. -/
theorem of_mint? {m m' : Mint} {i : Identity} (h : m.mint? = some (i, m')) :
    i.raw = m.next ∧ m'.next.toNat = m.next.toNat + 1 := by
  have hsome : m.mint? ≠ none := by simp [h]
  have hlt : m.next.toNat < 18446744073709551616 := m.next.toNat_lt
  have hmax : m.next.toNat ≠ 18446744073709551615 := fun hn => hsome ((m.mint?_eq_none_iff).mpr hn)
  unfold mint? at h
  split at h
  · exact absurd h (by simp)
  · simp only [Option.some.injEq, Prod.mk.injEq] at h
    obtain ⟨rfl, rfl⟩ := h
    refine ⟨rfl, ?_⟩
    show (m.next + 1).toNat = m.next.toNat + 1
    rw [UInt64.toNat_add, UInt64.toNat_one]
    omega

theorem past_self_of_mint? {m m' : Mint} {i : Identity} (h : m.mint? = some (i, m')) : m'.Past i := by
  obtain ⟨hraw, hnext⟩ := of_mint? h
  rw [past_iff, hraw]
  omega

theorem Past.of_mint? {m m' : Mint} {i k : Identity} (hk : m.Past k) (h : m.mint? = some (i, m')) : m'.Past k := by
  obtain ⟨hraw, hnext⟩ := Mint.of_mint? h
  have hlt : m'.next.toNat < 18446744073709551616 := m'.next.toNat_lt
  rw [past_iff] at hk ⊢
  omega

/-- A mint that is past an identity gives out larger ones. -/
theorem Past.lt {m m' : Mint} {i k : Identity} (hk : m.Past k) (h : m.mint? = some (i, m')) : k < i := by
  obtain ⟨hraw, hnext⟩ := Mint.of_mint? h
  have hlt : m'.next.toNat < 18446744073709551616 := m'.next.toNat_lt
  rw [past_iff] at hk
  rw [Identity.lt_iff, hraw]
  omega

theorem toNat_next_advancePast (m : Mint) (seen : Identity) :
    (m.advancePast seen).next.toNat = max m.next.toNat (min (seen.raw.toNat + 1) 18446744073709551615) := by
  have hlt : seen.raw.toNat < 18446744073709551616 := seen.raw.toNat_lt
  have hinj : seen.raw = 0xffffffffffffffff ↔ seen.raw.toNat = 18446744073709551615 := UInt64.toNat_inj.symm
  have hmax (a b : UInt64) : (max a b).toNat = max a.toNat b.toNat := by
    show (if a ≤ b then b else a).toNat = _
    rw [Nat.max_def]
    simp only [UInt64.le_iff_toNat_le]
    split <;> rfl
  simp only [advancePast, hmax]
  by_cases hs : seen.raw = 0xffffffffffffffff
  · rw [if_pos hs, hinj.mp hs]
    omega
  · have hne : seen.raw.toNat ≠ 18446744073709551615 := fun h => hs (hinj.mpr h)
    rw [if_neg hs, UInt64.toNat_add, UInt64.toNat_one]
    omega

/-- A mint is past what it was moved past. -/
theorem past_advancePast (m : Mint) (seen : Identity) : (m.advancePast seen).Past seen := by
  have hlt : seen.raw.toNat < 18446744073709551616 := seen.raw.toNat_lt
  rw [past_iff, toNat_next_advancePast]
  omega

theorem Past.advancePast {m : Mint} {k : Identity} (hk : m.Past k) (seen : Identity) : (m.advancePast seen).Past k := by
  have hlt : m.next.toNat < 18446744073709551616 := m.next.toNat_lt
  rw [past_iff] at hk ⊢
  rw [toNat_next_advancePast]
  omega

end Mint
end ResponseCache
