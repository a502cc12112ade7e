import Mathlib.Algebra.Ring.Nat
import Mathlib.Data.List.Basic
import Mathlib.Data.List.TakeWhile
import ResponseCache.Proofs.Calendar

namespace ResponseCache

theorem bind_eq_of_eq {α β : Type} {read : Option α} {a : α} {f : α → Option β} (h : read = some a) :
    (read >>= f) = f a := by
  rw [h]
  rfl

/-- Whatever is read has a property. -/
def Reads {α : Type} (p : α → Prop) (read : Option α) : Prop := ∀ a, read = some a → p a

namespace Reads
variable {α β : Type} {p : β → Prop}

theorem none : Reads p none := fun _ h => nomatch h

theorem some {b : β} (h : p b) : Reads p (some b) := by
  rintro _ ⟨⟩
  exact h

theorem bind {read : Option α} {f : α → Option β} (h : ∀ a, read = .some a → Reads p (f a)) : Reads p (read >>= f) := by
  intro b hb
  obtain ⟨a, ha, hf⟩ := Option.bind_eq_some_iff.mp hb
  exact h a ha b hf

theorem ite {q : Prop} [Decidable q] {read read' : Option β} (h : Reads p read) (h' : Reads p read') :
    Reads p (if q then read else read') := by
  split
  · exact h
  · exact h'

end Reads
end ResponseCache

namespace ResponseCache.Text

theorem ofDigits_padded (width n : Nat) : ofDigits (padded width n) = n := by
  rw [ofDigits, padded, Nat.ofDigitChars_append, Nat.ofDigitChars_replicate_zero, Nat.mul_zero]
  exact Nat.ofDigitChars_toDigits (by decide) (by decide)

theorem length_padded {width n : Nat} (hpos : 0 < width) (h : n < 10 ^ width) : (padded width n).length = width := by
  have hlength : (Nat.toDigits 10 n).length ≤ width := (Nat.length_toDigits_le_iff (by decide) hpos).mpr h
  rw [padded, List.length_append, List.length_replicate]
  omega

theorem isDigit_of_mem_padded {width n : Nat} {c : Char} (h : c ∈ padded width n) : c.isDigit = true := by
  rcases List.mem_append.mp h with hzero | hdigit
  · rw [List.eq_of_mem_replicate hzero]
    rfl
  · exact Nat.isDigit_of_mem_toDigits (by decide) (by decide) hdigit

theorem exists_padded_eq_cons (width n : Nat) : ∃ d ds, padded width n = d :: ds ∧ d.isDigit = true := by
  have hne : padded width n ≠ [] := fun h => Nat.toDigits_ne_nil (List.append_eq_nil_iff.mp h).2
  obtain ⟨d, ds, hds⟩ := List.exists_cons_of_ne_nil hne
  have hmem : d ∈ padded width n := hds ▸ List.mem_cons_self
  exact ⟨d, ds, hds, isDigit_of_mem_padded hmem⟩

theorem takeNumber_padded {width n : Nat} (hpos : 0 < width) (h : n < 10 ^ width) (rest : List Char) :
    takeNumber width (padded width n ++ rest) = some (n, rest) := by
  obtain ⟨d, ds, hds, -⟩ := exists_padded_eq_cons width n
  have hdigits : (padded width n).takeWhile Char.isDigit = padded width n :=
    List.takeWhile_eq_self_iff.mpr fun _ hc => isDigit_of_mem_padded hc
  have hsome : (padded width n).isEmpty = false := by rw [hds]; rfl
  rw [takeNumber, List.take_left' (length_padded hpos h), hdigits, hsome, if_neg Bool.false_ne_true, List.drop_left,
    ofDigits_padded]

theorem isBlank_of_isDigit {d : Char} (h : d.isDigit = true) : isBlank d = false := by
  have hrange : 48 ≤ d.toNat ∧ d.toNat ≤ 57 := by
    simpa [Char.isDigit, UInt32.le_iff_toNat_le] using h
  simp only [isBlank, Bool.or_eq_false_iff, Bool.and_eq_false_iff, decide_eq_false_iff_not]
  omega

theorem trimStart_padded (width n : Nat) (rest : List Char) : trimStart (padded width n ++ rest) = padded width n ++ rest := by
  obtain ⟨d, ds, hds, hd⟩ := exists_padded_eq_cons width n
  rw [hds, List.cons_append, trimStart, List.dropWhile_cons_of_neg (by simp [isBlank_of_isDigit hd])]

theorem ofDigits_lt {ds : List Char} (h : ∀ c ∈ ds, c.isDigit = true) : ofDigits ds < 10 ^ ds.length := by
  have hstep : ∀ (ds : List Char) (init : Nat), (∀ c ∈ ds, c.isDigit = true) →
      Nat.ofDigitChars 10 ds init < 10 ^ ds.length * (init + 1) := by
    intro ds
    induction ds with
    | nil => intro init _; simp
    | cons d ds ih =>
      intro init h
      have hd : d.toNat - '0'.toNat ≤ 9 := by
        have hrange : 48 ≤ d.toNat ∧ d.toNat ≤ 57 := by
          simpa [Char.isDigit, UInt32.le_iff_toNat_le] using h d List.mem_cons_self
        have hzero : '0'.toNat = 48 := rfl
        omega
      calc Nat.ofDigitChars 10 (d :: ds) init
          = Nat.ofDigitChars 10 ds (10 * init + (d.toNat - '0'.toNat)) := Nat.ofDigitChars_cons
        _ < 10 ^ ds.length * (10 * init + (d.toNat - '0'.toNat) + 1) := ih _ fun c hc => h c (List.mem_cons_of_mem _ hc)
        _ ≤ 10 ^ ds.length * (10 * (init + 1)) := Nat.mul_le_mul_left _ (by omega)
        _ = 10 ^ (d :: ds).length * (init + 1) := by rw [List.length_cons, Nat.pow_succ, Nat.mul_assoc]
  simpa [ofDigits] using hstep ds 0 h

end ResponseCache.Text

namespace ResponseCache.Timestamp
open Text (padded takeNumber trimStart takeNumber_padded trimStart_padded ofDigits_lt)

/-- An offset from universal time in minutes as text, hours and minutes apart. -/
def zoneText (minutes : Int) : String :=
  String.ofList ((if minutes < 0 then '-' else '+') ::
    (padded 2 (minutes.natAbs / 60) ++ ':' :: padded 2 (minutes.natAbs % 60)))

/-- A mark that is read as an offset of whole minutes, and is not taken for more of what stands before it. -/
structure Marks (zone : List Char) (offset : Int) : Prop where
  read : offset? zone = some (offset, [])
  head : ∃ c rest, zone = c :: rest ∧ (c = 'Z' ∨ c = '+' ∨ c = '-')
  whole : offset % 60 = 0
  bound : offset.natAbs < 86400

theorem marks_universal : Marks ['Z'] 0 := ⟨rfl, ⟨'Z', [], rfl, Or.inl rfl⟩, rfl, by decide⟩

/-- Two digits are what is written for their number. -/
theorem exists_padded_two {n : Nat} (h : n < 100) : ∃ d₁ d₂, padded 2 n = [d₁, d₂] ∧ d₁.isDigit = true ∧
    d₂.isDigit = true ∧ Text.ofDigits [d₁, d₂] = n := by
  have hlength : (padded 2 n).length = 2 := Text.length_padded (by decide) h
  obtain ⟨d₁, d₂, hds⟩ := List.length_eq_two.mp hlength
  have hdigit : ∀ d ∈ [d₁, d₂], d.isDigit = true := fun d hd => Text.isDigit_of_mem_padded (hds ▸ hd)
  exact ⟨d₁, d₂, hds, hdigit d₁ (by simp), hdigit d₂ (by simp), by rw [← hds, Text.ofDigits_padded]⟩

theorem offsetSize?_padded {hours minutes : Nat} (hhours : hours < 100) (hminutes : minutes < 60) :
    offsetSize? (padded 2 hours ++ ':' :: padded 2 minutes) = some (hours * 3600 + minutes * 60, []) := by
  obtain ⟨h₁, h₂, hh, hh₁, hh₂, hhval⟩ := exists_padded_two hhours
  obtain ⟨m₁, m₂, hm, hm₁, hm₂, hmval⟩ := exists_padded_two (show minutes < 100 by omega)
  have hlead : m₁ < '6' := by
    have hvalue : 10 * (10 * 0 + (m₁.toNat - '0'.toNat)) + (m₂.toNat - '0'.toNat) = minutes := hmval
    have hzero : '0'.toNat = 48 := rfl
    show m₁.toNat < 54
    omega
  have hskip : (':' :: [m₁, m₂]).dropWhile (fun c => c = ':' || Text.isBlank c) = [m₁, m₂] := by
    rw [List.dropWhile_cons_of_pos (by simp), List.dropWhile_cons_of_neg]
    rw [Bool.not_eq_true, Bool.or_eq_false_iff]
    refine ⟨decide_eq_false ?_, Text.isBlank_of_isDigit hm₁⟩
    rintro rfl
    exact absurd hm₁ (by decide)
  rw [hh, hm]
  simp only [List.cons_append, List.nil_append, offsetSize?, hskip, hh₁, hh₂, hm₁, hm₂, hlead, hhval, hmval, decide_true,
    Bool.and_self, if_true]

theorem marks_zoneText {minutes : Int} (h : minutes.natAbs < 1440) : Marks (zoneText minutes).toList (60 * minutes) := by
  have hsize := offsetSize?_padded (show minutes.natAbs / 60 < 100 by omega) (show minutes.natAbs % 60 < 60 by omega)
  have htext : (zoneText minutes).toList = (if minutes < 0 then '-' else '+') ::
      (padded 2 (minutes.natAbs / 60) ++ ':' :: padded 2 (minutes.natAbs % 60)) := String.toList_ofList
  rw [htext]
  by_cases hneg : minutes < 0
  · rw [if_pos hneg]
    refine ⟨?_, ⟨_, _, rfl, Or.inr (Or.inr rfl)⟩, by omega, by omega⟩
    rw [offset?, hsize]
    simp only [Option.map_some, Option.some.injEq, Prod.mk.injEq, and_true]
    omega
  · rw [if_neg hneg]
    refine ⟨?_, ⟨_, _, rfl, Or.inr (Or.inl rfl)⟩, by omega, by omega⟩
    rw [offset?, hsize]
    simp only [Option.map_some, Option.some.injEq, Prod.mk.injEq, and_true]
    omega

theorem fraction?_padded {width n : Nat} (hpos : 0 < width) (hwidth : width ≤ 9) (h : n < 10 ^ width) {zone : List Char}
    {offset : Int} (hzone : Marks zone offset) :
    fraction? ('.' :: padded width n ++ zone) = some (n * 10 ^ (9 - width), zone) := by
  obtain ⟨c, rest, rfl, hc⟩ := hzone.head
  have hlength : (padded width n).length = width := Text.length_padded hpos h
  have hdigits : (padded width n ++ c :: rest).takeWhile Char.isDigit = padded width n := by
    have hstop : c.isDigit = false := by rcases hc with rfl | rfl | rfl <;> rfl
    rw [List.takeWhile_append_of_pos fun _ hd => Text.isDigit_of_mem_padded hd,
      List.takeWhile_cons_of_neg (by simp [hstop]), List.append_nil]
  have hsome : (padded width n).isEmpty = false := by
    obtain ⟨d, ds, hds, -⟩ := Text.exists_padded_eq_cons width n
    rw [hds]
    rfl
  have hall : (padded width n).take 9 = padded width n := List.take_of_length_le (by omega)
  have hdrop : (padded width n ++ c :: rest).drop width = c :: rest := List.drop_left' hlength
  rw [List.cons_append, fraction?, hdigits]
  simp only [hsome, hall, hlength, hdrop, Text.ofDigits_padded, Bool.false_eq_true, if_false]
  rfl

/-- The shortest of the three widths that holds a fraction holds all of it. -/
theorem fraction?_fractionText {nanos : Nat} (h : nanos < 1000000000) {zone : List Char} {offset : Int}
    (hzone : Marks zone offset) : fraction? (fractionText nanos ++ zone) = some (nanos, zone) := by
  unfold fractionText
  split
  · next hnone =>
    obtain ⟨c, rest, rfl, hc⟩ := hzone.head
    rw [hnone]
    rcases hc with rfl | rfl | rfl <;> rfl
  · split
    · rw [fraction?_padded (by decide) (by decide) (by omega) hzone]
      simp only [Option.some.injEq, Prod.mk.injEq, and_true]
      omega
    · split
      · rw [fraction?_padded (by decide) (by decide) (by omega) hzone]
        simp only [Option.some.injEq, Prod.mk.injEq, and_true]
        omega
      · rw [fraction?_padded (by decide) (by decide) h hzone]
        simp

/-- The year that a moment is in. -/
def year (t : Timestamp) : Int := (civil (t.seconds / 86400)).1

/-- The same moment by clocks that are ahead of universal time. -/
def ahead (t : Timestamp) (offset : Int) : Timestamp := ⟨t.seconds + offset, t.nanos⟩

/-- A moment has less than a second behind its seconds, or is in a leap second, which only ends a minute. -/
def Exists (t : Timestamp) : Prop :=
  t.nanos < 1000000000 ∨ (t.nanos < 2000000000 ∧ t.seconds % 60 = 59)

theorem year?_yearText {year : Int} (hlow : 0 ≤ year) (hhigh : year ≤ 9999) (rest : List Char) :
    year? (yearText year ++ rest) = some (year, rest) := by
  obtain ⟨d, ds, hds, hd⟩ := Text.exists_padded_eq_cons 4 year.toNat
  have hyear : yearText year = padded 4 year.toNat := if_pos (by simp [hlow, hhigh])
  have hsign {c : Char} (hc : c.isDigit = false) (tail : List Char) : d :: (ds ++ rest) ≠ c :: tail := by
    intro htail
    rw [(List.cons.inj htail).1, hc] at hd
    exact absurd hd (by decide)
  have hnumber : takeNumber 4 (padded 4 year.toNat ++ rest) = some (year.toNat, rest) :=
    takeNumber_padded (by decide) (by omega) rest
  rw [year?, hyear, trimStart_padded]
  rw [hds, List.cons_append] at hnumber ⊢
  split
  · next tail htail => exact absurd htail (hsign rfl tail)
  · next tail htail => exact absurd htail (hsign rfl tail)
  · rw [hnumber]
    simp only [Option.map_some, Option.some.injEq, Prod.mk.injEq, and_true]
    omega

theorem twoDigits_padded {n : Nat} (h : n < 100) (rest : List Char) : twoDigits (padded 2 n ++ rest) = some (n, rest) := by
  rw [twoDigits, trimStart_padded, takeNumber_padded (by decide) h]

theorem expect_cons (c : Char) (h : Text.isBlank c = false) (rest : List Char) :
    expect c (trimStart (c :: rest)) = some rest := by
  rw [trimStart, List.dropWhile_cons_of_neg (by simp [h]), expect, if_pos rfl]

theorem Marks.trimStart {zone : List Char} {offset : Int} (h : Marks zone offset) : Text.trimStart zone = zone := by
  obtain ⟨c, rest, rfl, hc⟩ := h.head
  have hblank : Text.isBlank c = false := by rcases hc with rfl | rfl | rfl <;> decide
  rw [Text.trimStart, List.dropWhile_cons_of_neg (by simp [hblank])]

/-- The parts of a moment as text. -/
def partsText (year : Int) (month day hour minute second nanos : Nat) (zone : List Char) : List Char :=
  yearText year ++ '-' :: (padded 2 month ++ '-' :: (padded 2 day ++ 'T' :: (padded 2 hour ++ ':' :: (padded 2 minute ++
    ':' :: (padded 2 second ++ (fractionText nanos ++ zone))))))

theorem toList_render (t : Timestamp) (zone : String) :
    (t.render zone).toList = partsText t.year (civil (t.seconds / 86400)).2.1 (civil (t.seconds / 86400)).2.2
      ((t.seconds % 86400).toNat / 3600) ((t.seconds % 86400).toNat / 60 % 60)
      ((t.seconds % 86400).toNat % 60 + t.nanos / 1000000000) (t.nanos % 1000000000) zone.toList := by
  simp only [render, partsText, year, String.toList_ofList, List.append_assoc, List.cons_append]

/-- Each part is read up to where the next one begins. -/
theorem parse?_partsText {year offset : Int} {month day hour minute second nanos : Nat} {zone : List Char} {text : String}
    (htext : text.toList = partsText year month day hour minute second nanos zone) (hlow : 0 ≤ year) (hhigh : year ≤ 9999)
    (hmonth : month < 100) (hday : day < 100) (hhour : hour < 100) (hminute : minute < 100) (hsecond : second < 100)
    (hnanos : nanos < 1000000000) (hzone : Marks zone offset) :
    parse? text = ofParts? year month day hour minute second nanos offset := by
  rw [parse?, htext]
  refine (bind_eq_of_eq (year?_yearText hlow hhigh _)).trans ?_
  refine (bind_eq_of_eq (expect_cons '-' (by decide) _)).trans ?_
  refine (bind_eq_of_eq (twoDigits_padded hmonth _)).trans ?_
  refine (bind_eq_of_eq (expect_cons '-' (by decide) _)).trans ?_
  refine (bind_eq_of_eq (twoDigits_padded hday _)).trans ?_
  -- The letter between the date and the time of day stands for nothing.
  refine (bind_eq_of_eq rfl).trans ?_
  refine (bind_eq_of_eq (twoDigits_padded hhour _)).trans ?_
  refine (bind_eq_of_eq (expect_cons ':' (by decide) _)).trans ?_
  refine (bind_eq_of_eq (twoDigits_padded hminute _)).trans ?_
  refine (bind_eq_of_eq (expect_cons ':' (by decide) _)).trans ?_
  refine (bind_eq_of_eq (twoDigits_padded hsecond _)).trans ?_
  refine (bind_eq_of_eq (fraction?_fractionText hnanos hzone)).trans ?_
  refine (bind_eq_of_eq (hzone.trimStart.symm ▸ hzone.read)).trans ?_
  rfl

/-- Less than a day away from a year with four digits, days are counted. -/
theorem yearInRange_of_near {near number : Int} (hlow : 0 ≤ (civil near).1) (hhigh : (civil near).1 ≤ 9999)
    (hbefore : number ≤ near + 1) (hbehind : near ≤ number + 1) : yearInRange (civil number).1 = true := by
  have hnear := civil_year_bounds near
  have hnumber := civil_year_bounds number
  simp only [yearInRange, Bool.and_eq_true, decide_eq_true_eq]
  omega

theorem ofParts?_eq {t : Timestamp} {year offset : Int} {month day hour minute second nanos : Nat}
    (hdate : IsDate year month day) (hhour : hour ≤ 23) (hminute : minute ≤ 59) (hsecond : second ≤ 60)
    (hyear : yearInRange year = true) (hbound : offset.natAbs < 86400) (htyear : yearInRange t.year = true)
    (hseconds : t.seconds =
      dayNumber year month day * 86400 + hour * 3600 + minute * 60 + (min second 59 : Nat) - offset)
    (hnanos : t.nanos = nanos + (second - 59) * 1000000000) :
    ofParts? year month day hour minute second nanos offset = some t := by
  obtain ⟨seconds, nanos'⟩ := t
  dsimp only at hseconds hnanos
  subst hseconds hnanos
  rw [ofParts?, if_pos]
  simp only [Bool.and_eq_true, decide_eq_true_eq]
  exact ⟨⟨⟨⟨⟨⟨⟨⟨⟨hdate.month_pos, hdate.month_le⟩, hdate.day_pos⟩, hdate.day_le⟩, hhour⟩, hminute⟩, hsecond⟩, hyear⟩,
    hbound⟩, htyear⟩

/-- The parts of a moment make it up, a leap second as the sixtieth of its minute. -/
theorem ofParts?_render {t : Timestamp} (ht : t.Exists) {offset : Int} (hwhole : offset % 60 = 0)
    (hbound : offset.natAbs < 86400) (hlow : 0 ≤ (t.ahead offset).year) (hhigh : (t.ahead offset).year ≤ 9999) :
    ofParts? (t.ahead offset).year (civil ((t.ahead offset).seconds / 86400)).2.1
      (civil ((t.ahead offset).seconds / 86400)).2.2 (((t.ahead offset).seconds % 86400).toNat / 3600)
      (((t.ahead offset).seconds % 86400).toNat / 60 % 60)
      (((t.ahead offset).seconds % 86400).toNat % 60 + t.nanos / 1000000000) (t.nanos % 1000000000) offset = some t := by
  obtain ⟨hdate, hnumber⟩ := civil_spec ((t.ahead offset).seconds / 86400)
  have hseconds : (t.ahead offset).seconds = t.seconds + offset := rfl
  have hleap : t.nanos / 1000000000 = 0 ∨ (t.nanos / 1000000000 = 1 ∧ t.seconds % 60 = 59) := by
    rcases ht with ht | ⟨ht, hend⟩ <;> omega
  have hyear : yearInRange (t.ahead offset).year = true :=
    yearInRange_of_near hlow hhigh (Int.le_add_one (Int.le_refl _)) (Int.le_add_one (Int.le_refl _))
  refine ofParts?_eq hdate (by omega) (by omega) (by omega) hyear hbound
    (yearInRange_of_near hlow hhigh (by omega) (by omega)) ?_ (by omega)
  rw [year, hnumber]
  omega

/-- A moment in a year of four digits is read as it was written, by whichever clocks. -/
theorem parse?_render {t : Timestamp} (ht : t.Exists) {zone : String} {offset : Int} (hzone : Marks zone.toList offset)
    (hlow : 0 ≤ (t.ahead offset).year) (hhigh : (t.ahead offset).year ≤ 9999) :
    parse? ((t.ahead offset).render zone) = some t := by
  obtain ⟨hdate, -⟩ := civil_spec ((t.ahead offset).seconds / 86400)
  have hmonth := hdate.month_le
  have hday := hdate.day_le.trans (daysIn_le _ _)
  have hnanos : t.nanos / 1000000000 < 2 := by
    rcases ht with ht | ⟨ht, -⟩ <;> omega
  have hsame : (t.ahead offset).nanos = t.nanos := rfl
  rw [parse?_partsText (toList_render _ _) hlow hhigh (by omega) (by omega) (by omega) (by omega) (by omega) (by omega) hzone]
  exact ofParts?_render ht hzone.whole hzone.bound hlow hhigh

theorem fraction?_lt {cs rest : List Char} {nanos : Nat} (h : fraction? cs = some (nanos, rest)) : nanos < 1000000000 := by
  unfold fraction? at h
  split at h
  · rename_i tail
    dsimp only at h
    split at h
    · exact absurd h (by simp)
    · have hnanos : Text.ofDigits ((tail.takeWhile Char.isDigit).take 9) * 10 ^ (9 - (tail.takeWhile Char.isDigit).length) =
          nanos := (Prod.ext_iff.mp (Option.some.inj h)).1
      have hdigits : ∀ c ∈ (tail.takeWhile Char.isDigit).take 9, c.isDigit = true := fun c hc =>
        List.mem_takeWhile_imp (List.mem_of_mem_take hc)
      have hvalue := ofDigits_lt hdigits
      rw [List.length_take] at hvalue
      calc nanos
          < 10 ^ min 9 (tail.takeWhile Char.isDigit).length * 10 ^ (9 - (tail.takeWhile Char.isDigit).length) := by
            rw [← hnanos]
            exact Nat.mul_lt_mul_of_pos_right hvalue (Nat.pow_pos (by decide))
        _ = 10 ^ 9 := by rw [← Nat.pow_add]; congr 1; omega
  · have hnanos : 0 = nanos := (Prod.ext_iff.mp (Option.some.inj h)).1
    omega

theorem offsetSize?_whole {cs rest : List Char} {size : Nat} (h : offsetSize? cs = some (size, rest)) : size % 60 = 0 := by
  unfold offsetSize? at h
  split at h
  · split at h
    · split at h
      · have hsize := (Prod.ext_iff.mp (Option.some.inj h)).1
        dsimp only at hsize
        omega
      · exact absurd h (by simp)
    · exact absurd h (by simp)
  · exact absurd h (by simp)

/-- Offsets are whole minutes. -/
theorem offset?_whole {cs rest : List Char} {offset : Int} (h : offset? cs = some (offset, rest)) : offset % 60 = 0 := by
  have hsigned {sign : Int} (hsign : sign = 1 ∨ sign = -1) {tail : List Char}
      (hread : (offsetSize? tail).map (fun p => (sign * (p.1 : Int), p.2)) = some (offset, rest)) : offset % 60 = 0 := by
    obtain ⟨⟨size, _⟩, hsize, heq⟩ := Option.map_eq_some_iff.mp hread
    have hwhole := offsetSize?_whole hsize
    have hoffset := (Prod.ext_iff.mp heq).1
    dsimp only at hoffset
    rcases hsign with rfl | rfl <;> omega
  unfold offset? at h
  split at h
  · cases h; rfl
  · cases h; rfl
  · exact hsigned (Or.inl rfl) (by simpa using h)
  · exact hsigned (Or.inr rfl) (by simpa using h)
  · exact hsigned (Or.inr rfl) (by simpa using h)
  · split at h
    · cases h; rfl
    · exact absurd h (by simp)
  · exact absurd h (by simp)

theorem exists_of_ofParts? {t : Timestamp} {year offset : Int} {month day hour minute second nanos : Nat}
    (h : ofParts? year month day hour minute second nanos offset = some t) (hnanos : nanos < 1000000000)
    (hwhole : offset % 60 = 0) : t.Exists := by
  simp only [ofParts?] at h
  split at h
  · rename_i hvalid
    simp only [Bool.and_eq_true, decide_eq_true_eq] at hvalid
    obtain rfl := Option.some.inj h
    simp only [Exists]
    omega
  · exact absurd h (by simp)

/-- What is read exists: a sixtieth second is the last one of its minute by any clocks. -/
theorem reads_parse? (text : String) : Reads Exists (parse? text) := by
  -- A year, a month and a day with hyphens between them stand before the letter that the time of day follows.
  refine .bind fun _ _ => .bind fun _ _ => .bind fun _ _ => .bind fun _ _ => .bind fun _ _ => ?_
  dsimp only
  split
  · refine .ite (.bind fun _ _ => ?_) (.bind fun _ h => nomatch h)
    refine .bind fun _ _ => .bind fun _ _ => .bind fun _ _ => .bind fun _ _ => .bind fun _ _ => ?_
    exact .bind fun _ hfraction => .bind fun _ hoffset => .ite
      (fun _ h => exists_of_ofParts? h (fraction?_lt hfraction) (offset?_whole hoffset)) .none
  · exact .bind fun _ h => nomatch h

end ResponseCache.Timestamp
