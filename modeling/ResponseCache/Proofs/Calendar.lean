import ResponseCache.Time
/-!
The calendar. Days are counted in eras of four hundred years, whose years begin in March so that a leap day comes last. A day
of an era lies in one century, one group of four years and one year of it, and that determines its date: the date of a day
exists, and it counts as that day.
-/
namespace ResponseCache.Timestamp

/-- A day of an era by the century, the group of four years in it, the year in that and the day in that year. Only the last
year of a group has a leap day, and in the last group of a century only if the century is the last one. -/
structure Falls (ofEra century group year day : Int) : Prop where
  sum : ofEra = 36524 * century + 1461 * group + 365 * year + day
  ofCentury : 0 ≤ century ∧ century ≤ 3
  ofGroup : 0 ≤ group ∧ group ≤ 24
  ofYear : 0 ≤ year ∧ year ≤ 3
  ofDay : 0 ≤ day ∧ day ≤ 365
  leap : day = 365 → year = 3 ∧ (group = 24 → century = 3)

theorem exists_falls {ofEra : Int} (hlow : 0 ≤ ofEra) (hhigh : ofEra < 146097) :
    ∃ century group year day, Falls ofEra century group year day := by
  -- The last day of an era is the leap day of its last year, one day more than its last century would have room for.
  by_cases hlast : ofEra = 146096
  · exact ⟨3, 24, 3, 365, by omega, by omega, by omega, by omega, by omega, by omega⟩
  · have hcentury : 0 ≤ ofEra / 36524 ∧ ofEra / 36524 ≤ 3 := by omega
    have hgroup : 0 ≤ ofEra % 36524 / 1461 ∧ ofEra % 36524 / 1461 ≤ 24 := by omega
    by_cases hleap : ofEra % 36524 % 1461 = 1460
    · exact ⟨ofEra / 36524, ofEra % 36524 / 1461, 3, 365, by omega, hcentury, hgroup, by omega, by omega, by omega⟩
    · exact ⟨ofEra / 36524, ofEra % 36524 / 1461, ofEra % 36524 % 1461 / 365, ofEra % 36524 % 1461 % 365,
        by omega, hcentury, hgroup, by omega, by omega, by omega⟩

/-- The year of the era that a day falls in is what the corrected quotient says. -/
theorem Falls.yearOfEra_eq {ofEra century group year day : Int} (h : Falls ofEra century group year day) :
    (ofEra - ofEra / 1460 + ofEra / 36524 - ofEra / 146096) / 365 = 100 * century + 4 * group + year := by
  obtain ⟨hsum, hcentury, hgroup, hyear, hday, hleap⟩ := h
  have hcenturies : ofEra / 36524 - ofEra / 146096 = century := by
    have hlast : 1461 * group + 365 * year + day < 36524 ∨ (ofEra = 146096 ∧ century = 3) := by omega
    rcases hlast with hlast | ⟨rfl, rfl⟩
    · have hquotient : ofEra / 36524 = century := by omega
      have hshort : ofEra / 146096 = 0 := by omega
      omega
    · rfl
  have hgroups : ofEra / 1460 = 25 * century + group + (24 * century + group + 365 * year + day) / 1460 := by omega
  -- The remainder reaches a whole group only in its last year, late in it, and then there is a day to take back.
  have hlate : 0 ≤ day - (24 * century + group + 365 * year + day) / 1460 ∧
      day - (24 * century + group + 365 * year + day) / 1460 ≤ 364 := by omega
  omega

theorem Falls.dayOfYear_eq {ofEra century group year day yearOfEra : Int} (h : Falls ofEra century group year day)
    (hyearOfEra : yearOfEra = 100 * century + 4 * group + year) :
    ofEra - (365 * yearOfEra + yearOfEra / 4 - yearOfEra / 100) = day := by
  obtain ⟨hsum, hcentury, hgroup, hyear, hday, hleap⟩ := h
  omega

/-- The year in which an era began, and at most four hundred years more. -/
theorem civil_year_bounds (number : Int) :
    400 * ((number + 719468) / 146097) ≤ (civil number).1 ∧ (civil number).1 ≤ 400 * ((number + 719468) / 146097) + 400 := by
  obtain ⟨century, group, year, dayOfYear, hfalls⟩ :=
    exists_falls (show 0 ≤ (number + 719468) % 146097 by omega) (by omega)
  have hcivil : (civil number).1 = 100 * century + 4 * group + year + (number + 719468) / 146097 * 400 +
      (if (civil number).2.1 ≤ 2 then 1 else 0) := by
    rw [← hfalls.yearOfEra_eq]
    rfl
  obtain ⟨hsum, hcentury, hgroup, hyear, hday, hleap⟩ := hfalls
  clear hsum hday hleap
  split at hcivil <;> omega

/-- The month, and the day of it, that a day of a year falls in which begins in March. -/
structure Within (dayOfYear : Int) (month day : Nat) : Prop where
  month_pos : 1 ≤ month
  month_le : month ≤ 12
  day_pos : 1 ≤ day
  count : (153 * ((month + 9) % 12) + 2) / 5 + day - 1 = dayOfYear
  day_le : day ≤ 28 ∨ (day = 29 ∧ (month = 2 → dayOfYear = 365)) ∨ (day = 30 ∧ month ≠ 2) ∨
    (day = 31 ∧ month ≠ 2 ∧ month ≠ 4 ∧ month ≠ 6 ∧ month ≠ 9 ∧ month ≠ 11)

theorem within {dayOfYear shifted : Int} {month day : Nat} (hlow : 0 ≤ dayOfYear) (hhigh : dayOfYear ≤ 365)
    (hshifted : shifted = (5 * dayOfYear + 2) / 153)
    (hmonth : month = if shifted < 10 then (shifted + 3).toNat else (shifted - 9).toNat)
    (hday : day = (dayOfYear - (153 * shifted + 2) / 5 + 1).toNat) : Within dayOfYear month day := by
  have hbound : 0 ≤ shifted ∧ shifted ≤ 11 := by omega
  have hmonth' : (shifted < 10 → month = shifted + 3) ∧ (10 ≤ shifted → month = shifted - 9) := by
    split at hmonth <;> omega
  have hback : (month + 9 : Int) % 12 = shifted := by omega
  have hlast : 153 * shifted ≤ 5 * dayOfYear + 2 ∧ 5 * dayOfYear + 2 < 153 * shifted + 153 := by omega
  have hday' : (day : Int) = dayOfYear - (153 * shifted + 2) / 5 + 1 := by omega
  clear hshifted hmonth hday
  -- The lengths are those of the twelve months one by one; February comes last and is cut off by the end of the year.
  refine ⟨by omega, by omega, by omega, by rw [hback]; omega, ?_⟩
  obtain rfl | rfl | rfl | rfl | rfl | rfl | rfl | rfl | rfl | rfl | rfl | rfl : shifted = 0 ∨ shifted = 1 ∨ shifted = 2 ∨
      shifted = 3 ∨ shifted = 4 ∨ shifted = 5 ∨ shifted = 6 ∨ shifted = 7 ∨ shifted = 8 ∨ shifted = 9 ∨ shifted = 10 ∨
      shifted = 11 := by omega
  all_goals omega

/-- A date that the calendar has. -/
structure IsDate (year : Int) (month day : Nat) : Prop where
  month_pos : 1 ≤ month
  month_le : month ≤ 12
  day_pos : 1 ≤ day
  day_le : day ≤ daysIn year month

theorem daysIn_le (year : Int) (month : Nat) : daysIn year month ≤ 31 := by
  unfold daysIn
  split <;> split <;> decide

/-- The last day of February is there in just the years that end with a leap day. -/
theorem Within.isDate {dayOfYear year : Int} {month day : Nat} (h : Within dayOfYear month day)
    (hleap : dayOfYear = 365 → isLeapYear year = true) : IsDate year month day where
  month_pos := h.month_pos
  month_le := h.month_le
  day_pos := h.day_pos
  day_le := by
    have hday := h.day_le
    have hfebruary : 28 ≤ daysIn year month := by
      unfold daysIn
      split <;> split <;> decide
    rcases hday with hday | ⟨hday, hleapDay⟩ | ⟨hday, hmonth⟩ | ⟨hday, hmonth⟩
    · omega
    · by_cases hmonth : month = 2
      · simp [daysIn, hmonth, hleap (hleapDay hmonth), hday]
      · simp only [daysIn, hmonth, if_false]
        split <;> omega
    · simp only [daysIn, hmonth, if_false]
      split <;> omega
    · simp [daysIn, hmonth, hday]

/-- A day of a year that begins in March, and the date of it: January and February belong to the next year. -/
theorem dayNumber_within {era yearOfEra dayOfYear : Int} {month day : Nat} (h : Within dayOfYear month day)
    (hlow : 0 ≤ yearOfEra) (hhigh : yearOfEra < 400) :
    dayNumber (yearOfEra + era * 400 + (if month ≤ 2 then 1 else 0)) month day =
      era * 146097 + (365 * yearOfEra + yearOfEra / 4 - yearOfEra / 100) + dayOfYear - 719468 := by
  have hyear : (if month ≤ 2 then yearOfEra + era * 400 + (if month ≤ 2 then 1 else 0) - 1
      else yearOfEra + era * 400 + (if month ≤ 2 then 1 else 0)) = yearOfEra + era * 400 := by
    split <;> omega
  have hera : (yearOfEra + era * 400) / 400 = era := by omega
  have hofEra : (yearOfEra + era * 400) % 400 = yearOfEra := by omega
  have hcount := h.count
  simp only [dayNumber, hyear, hera, hofEra]
  omega

/-- The date of a day is in the calendar and counts as that day. -/
theorem civil_spec (number : Int) :
    IsDate (civil number).1 (civil number).2.1 (civil number).2.2 ∧
      dayNumber (civil number).1 (civil number).2.1 (civil number).2.2 = number := by
  obtain ⟨century, group, year, dayOfYear, hfalls⟩ :=
    exists_falls (show 0 ≤ (number + 719468) % 146097 by omega) (by omega)
  have hwithin := within hfalls.ofDay.1 hfalls.ofDay.2 rfl rfl rfl
  simp only [civil, hfalls.yearOfEra_eq, hfalls.dayOfYear_eq rfl]
  generalize (if (5 * dayOfYear + 2) / 153 < 10 then ((5 * dayOfYear + 2) / 153 + 3).toNat
    else ((5 * dayOfYear + 2) / 153 - 9).toNat) = month at hwithin ⊢
  generalize (dayOfYear - (153 * ((5 * dayOfYear + 2) / 153) + 2) / 5 + 1).toNat = day at hwithin ⊢
  obtain ⟨hsum, hcentury, hgroup, hyear, hday, hleap⟩ := hfalls
  refine ⟨hwithin.isDate fun hlast => ?_, ?_⟩
  -- The leap day is in the calendar year behind the one that begins in March, and that one is a leap year.
  · have hlate : month ≤ 2 := by
      have hcount := hwithin.count
      have hdays : day ≤ 31 := by have hle := hwithin.day_le; omega
      have hmonths := hwithin.month_le
      omega
    obtain ⟨rfl, hcentury'⟩ := hleap hlast
    simp only [isLeapYear, hlate, if_true, Bool.and_eq_true, Bool.or_eq_true, decide_eq_true_eq, ne_eq]
    omega
  · have hgroups : (100 * century + 4 * group + year) / 4 = 25 * century + group := by omega
    have hcenturies : (100 * century + 4 * group + year) / 100 = century := by omega
    rw [dayNumber_within hwithin (by omega) (by omega), hgroups, hcenturies]
    omega

example : civil 11016 = (2000, 2, 29) := by decide

end ResponseCache.Timestamp
