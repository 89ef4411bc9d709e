import Decommission.Calendar
import Mathlib.Tactic.IntervalCases
import Mathlib.Tactic.SplitIfs

/-!
Days are numbered one after the other by the rules of the Gregorian calendar, before 1970 as well.
The date found for a day is the one with its number. What has to be shown for this is that years
counted from March in eras of 400 years come to the same numbers.
-/
namespace Decommission.Calendar

/-- A year with a 29th of February. -/
def IsLeap (year : Int) : Prop := year % 4 = 0 ∧ (year % 100 = 0 → year % 400 = 0)

instance (year : Int) : Decidable (IsLeap year) := inferInstanceAs (Decidable (_ ∧ _))

def monthLength (year : Int) (month : Nat) : Nat :=
  if month = 2 then if IsLeap year then 29 else 28
  else if month ∈ [4, 6, 9, 11] then 30
  else 31

def yearLength (year : Int) : Nat := if IsLeap year then 366 else 365

/-- The days of the year before the month. -/
def daysBeforeMonth (year : Int) : Nat → Nat
  | 0 => 0
  | 1 => 0
  | month + 2 => daysBeforeMonth year (month + 1) + monthLength year (month + 1)

/-- The days from the start of the year 1 to the start of the year: every fourth year has one more
than 365, every hundredth has not, and every four hundredth has. -/
def daysBeforeYear (year : Int) : Int :=
  365 * (year - 1) + ((year - 1) / 4 - (year - 1) / 100 + (year - 1) / 400)

theorem daysBeforeYear_succ (year : Int) :
    daysBeforeYear (year + 1) = daysBeforeYear year + yearLength year := by
  have hlength : (yearLength year : Int) = 365 + (year / 4 - (year - 1) / 4) -
      (year / 100 - (year - 1) / 100) + (year / 400 - (year - 1) / 400) := by
    by_cases hleap : IsLeap year
    · rw [yearLength, if_pos hleap]
      unfold IsLeap at hleap
      omega
    · rw [yearLength, if_neg hleap]
      unfold IsLeap at hleap
      omega
  unfold daysBeforeYear
  rw [hlength, Int.add_sub_cancel]
  omega

theorem daysBeforeYear_le {year later : Int} (h : year ≤ later) :
    daysBeforeYear year ≤ daysBeforeYear later := by
  unfold daysBeforeYear
  omega

/-- From March on the months follow a rule that February has no part in. -/
theorem daysBeforeMonth_of_le (year : Int) {month : Nat} (hlow : 3 ≤ month) (hhigh : month ≤ 12) :
    daysBeforeMonth year month + 306 = (153 * (month - 3) + 2) / 5 + yearLength year := by
  by_cases hleap : IsLeap year
  · interval_cases month <;> simp [daysBeforeMonth, monthLength, yearLength, hleap]
  · interval_cases month <;> simp [daysBeforeMonth, monthLength, yearLength, hleap]

theorem daysBeforeMonth_add_le (year : Int) {month : Nat} (hlow : 1 ≤ month)
    (hhigh : month ≤ 12) :
    daysBeforeMonth year month + monthLength year month ≤ yearLength year := by
  by_cases hleap : IsLeap year
  · interval_cases month <;> simp [daysBeforeMonth, monthLength, yearLength, hleap]
  · interval_cases month <;> simp [daysBeforeMonth, monthLength, yearLength, hleap]

namespace Date

/-- The month and the day are those of a calendar. -/
structure IsValid (d : Date) : Prop where
  month : 1 ≤ d.month ∧ d.month ≤ 12
  day : 1 ≤ d.day ∧ d.day ≤ monthLength d.year d.month

/-- The days from the first of January 1970 to the date. -/
def dayNumber (d : Date) : Int :=
  daysBeforeYear d.year - daysBeforeYear 1970 + daysBeforeMonth d.year d.month + (d.day - 1)

/-- The date of a day of the twelve months that begin with the March of the year. -/
def ofMarch (year : Int) (dayOfYear : Nat) : Date :=
  let monthFromMarch := (5 * dayOfYear + 2) / 153
  let month := if monthFromMarch < 10 then monthFromMarch + 3 else monthFromMarch - 9
  { year := if month ≤ 2 then year + 1 else year
    month := month
    day := dayOfYear - (153 * monthFromMarch + 2) / 5 + 1 }

theorem dayNumber_ofMarch (year : Int) {dayOfYear : Nat} (h : dayOfYear < 366) :
    (ofMarch year dayOfYear).dayNumber =
      daysBeforeYear (year + 1) - daysBeforeYear 1970 - 306 + dayOfYear := by
  unfold ofMarch dayNumber
  generalize hmonth : (5 * dayOfYear + 2) / 153 = m
  by_cases hten : m < 10
  · have hbefore := daysBeforeMonth_of_le year (Nat.le_add_left 3 m) (by omega)
    have hnext := daysBeforeYear_succ year
    simp only [if_pos hten, if_neg (show ¬m + 3 ≤ 2 by omega)]
    rw [Nat.add_sub_cancel] at hbefore
    omega
  -- January and February are those of the next year
  · have hjanuary : daysBeforeMonth (year + 1) 1 = 0 := rfl
    have hfebruary : daysBeforeMonth (year + 1) 2 = 31 := rfl
    simp only [if_neg hten, if_pos (show m - 9 ≤ 2 by omega)]
    obtain rfl | rfl : m = 10 ∨ m = 11 := by omega
    · simp only [hjanuary]
      omega
    · simp only [hfebruary]
      omega

theorem isValid_ofMarch {year : Int} {dayOfYear : Nat} (h : dayOfYear < yearLength (year + 1)) :
    (ofMarch year dayOfYear).IsValid := by
  have hfebruary : yearLength (year + 1) = 337 + monthLength (year + 1) 2 := by
    by_cases hleap : IsLeap (year + 1) <;> simp [yearLength, monthLength, hleap]
  have hlongest : monthLength (year + 1) 2 ≤ 29 := by
    by_cases hleap : IsLeap (year + 1) <;> simp [monthLength, hleap]
  have hmonths (m : Nat) (hm : m < 10) :
      (153 * (m + 1) + 2) / 5 = (153 * m + 2) / 5 + monthLength year (m + 3) := by
    interval_cases m <;> rfl
  unfold ofMarch
  generalize hmonth : (5 * dayOfYear + 2) / 153 = m
  by_cases hten : m < 10
  · have hnext := hmonths m hten
    simp only [if_pos hten, if_neg (show ¬m + 3 ≤ 2 by omega)]
    constructor <;> dsimp only <;> omega
  · simp only [if_neg hten, if_pos (show m - 9 ≤ 2 by omega)]
    obtain rfl | rfl : m = 10 ∨ m = 11 := by omega
    · have hjanuary : monthLength (year + 1) (10 - 9) = 31 := rfl
      constructor <;> dsimp only <;> omega
    · have hlast : monthLength (year + 1) (11 - 9) = monthLength (year + 1) 2 := rfl
      constructor <;> dsimp only <;> omega

theorem dayNumber_first (year : Int) :
    (Date.mk year 1 1).dayNumber = daysBeforeYear year - daysBeforeYear 1970 := by
  simp [dayNumber, daysBeforeMonth]

/-- A day of the calendar lies in its year. -/
theorem IsValid.dayNumber_bounds {d : Date} (hd : d.IsValid) :
    (Date.mk d.year 1 1).dayNumber ≤ d.dayNumber ∧
      d.dayNumber < (Date.mk (d.year + 1) 1 1).dayNumber := by
  obtain ⟨hlow, hhigh⟩ := hd.month
  obtain ⟨hfirst, hlast⟩ := hd.day
  have hmonth := daysBeforeMonth_add_le d.year hlow hhigh
  rw [dayNumber_first, dayNumber_first, daysBeforeYear_succ, dayNumber]
  omega

theorem dayNumber_le {year later : Int} (h : year ≤ later) :
    (Date.mk year 1 1).dayNumber ≤ (Date.mk later 1 1).dayNumber := by
  rw [dayNumber_first, dayNumber_first]
  exact Int.sub_le_sub_right (daysBeforeYear_le h) _

end Date

/-- The year within an era of 400 years, both counted from March. -/
def yearOfEra (dayOfEra : Nat) : Nat :=
  (dayOfEra - dayOfEra / 1460 + dayOfEra / 36524 - dayOfEra / 146096) / 365

/-- A day of an era, by its century, the four years in it, the year of these and the day. -/
theorem yearOfEra_eq {n c q k s : Nat} (hc : c ≤ 3) (hq : q ≤ 24) (hk : k ≤ 3) (hs : s ≤ 365)
    (hleap : s = 365 → k = 3 ∧ (q = 24 → c = 3)) (hn : n = 36524 * c + 1461 * q + 365 * k + s) :
    yearOfEra n = 100 * c + 4 * q + k := by
  have hera : n / 146096 = (1461 * q + 365 * k + s) / 36524 := by omega
  -- a leap day may be counted before it comes, but only so late in the year that it does not matter
  have hmore : (24 * c + q + 365 * k + s) / 1460 ≤ s := by omega
  have hrest : s - (24 * c + q + 365 * k + s) / 1460 < 365 := by omega
  have hfour : n / 1460 = 25 * c + q + (24 * c + q + 365 * k + s) / 1460 := by
    rw [← Nat.mul_add_div (by decide)]
    congr 1
    omega
  have hcentury : n / 36524 = c + (1461 * q + 365 * k + s) / 36524 := by
    rw [← Nat.mul_add_div (by decide)]
    congr 1
    omega
  have hdays (d e : Nat) (hd : d ≤ s) :
      n - (25 * c + q + d) + (c + e) - e = 365 * (100 * c + 4 * q + k) + (s - d) := by
    clear hfour hcentury hera hmore hrest hleap
    omega
  rw [yearOfEra, hfour, hcentury, hera, hdays _ _ hmore, Nat.mul_add_div (by decide),
    Nat.div_eq_of_lt hrest, Nat.add_zero]

/-- Of pieces of one length the last one takes the day that is left over. -/
theorem exists_piece {length last n : Nat} (hlength : 0 < length) (hn : n ≤ length * (last + 1)) :
    ∃ piece rest, piece ≤ last ∧ (rest < length ∨ rest = length ∧ piece = last) ∧
      n = length * piece + rest := by
  rcases Nat.lt_or_eq_of_le hn with hlt | rfl
  · have hpiece : n / length < last + 1 := Nat.div_lt_of_lt_mul hlt
    exact ⟨n / length, n % length, Nat.le_of_lt_succ hpiece, .inl (Nat.mod_lt n hlength),
      (Nat.div_add_mod n length).symm⟩
  · exact ⟨last, length, Nat.le_refl last, .inr ⟨rfl, rfl⟩, Nat.mul_succ length last⟩

theorem exists_yearOfEra {n : Nat} (hn : n < 146097) : ∃ c q k s, c ≤ 3 ∧ q ≤ 24 ∧ k ≤ 3 ∧
    s ≤ 365 ∧ (s = 365 → k = 3 ∧ (q = 24 → c = 3)) ∧ n = 36524 * c + 1461 * q + 365 * k + s := by
  -- the day that is left over of an era, and of four years
  obtain ⟨c, r, hc, hr, hcr⟩ :=
    exists_piece (show 0 < 36524 by decide) (show n ≤ 36524 * 4 by omega)
  obtain ⟨k, s, hk, hs, hks⟩ :=
    exists_piece (show 0 < 365 by decide) (show r % 1461 ≤ 365 * 4 by omega)
  exact ⟨c, r / 1461, k, s, hc, by omega, hk, by omega, by omega, by omega⟩

theorem yearLength_of_era {era : Int} {c q k : Nat} (hc : c ≤ 3) (hq : q ≤ 24) (hk : k ≤ 3) :
    yearLength (era * 400 + (100 * c + 4 * q + k : Nat) + 1) =
      if k = 3 ∧ (q = 24 → c = 3) then 366 else 365 := by
  have hfour : (era * 400 + (100 * c + 4 * q + k : Nat) + 1) % 4 = 0 ↔ k = 3 := by omega
  have hhundred : (era * 400 + (100 * c + 4 * q + k : Nat) + 1) % 100 = 0 ↔ k = 3 ∧ q = 24 := by
    omega
  have hera : (era * 400 + (100 * c + 4 * q + k : Nat) + 1) % 400 = 0 ↔
      k = 3 ∧ q = 24 ∧ c = 3 := by
    omega
  have hleap : IsLeap (era * 400 + (100 * c + 4 * q + k : Nat) + 1) ↔ k = 3 ∧ (q = 24 → c = 3) := by
    rw [IsLeap, hfour, hhundred, hera]
    omega
  rw [yearLength, if_congr hleap rfl rfl]

theorem daysBeforeYear_of_era {era : Int} {c q k : Nat} (hc : c ≤ 3) (hq : q ≤ 24) (hk : k ≤ 3) :
    daysBeforeYear (era * 400 + (100 * c + 4 * q + k : Nat) + 1) =
      146097 * era + (36524 * c + 1461 * q + 365 * k : Nat) := by
  unfold daysBeforeYear
  omega

/-- The date is found by the year, counted from March, and the day of it. -/
theorem ofDays_eq_ofMarch (days : Int) : ∃ (year : Int) (dayOfYear : Nat),
    dayOfYear < yearLength (year + 1) ∧ Date.ofDays days = Date.ofMarch year dayOfYear ∧
      days = daysBeforeYear (year + 1) - daysBeforeYear 1970 - 306 + dayOfYear := by
  have hera : (days + 719468).fdiv 146097 = (days + 719468) / 146097 :=
    Int.fdiv_eq_ediv_of_nonneg _ (by decide)
  have hday : (days + 719468).fmod 146097 = (days + 719468) % 146097 :=
    Int.fmod_eq_emod_of_nonneg _ (by decide)
  obtain ⟨era, hera'⟩ : ∃ era, era = (days + 719468) / 146097 := ⟨_, rfl⟩
  obtain ⟨n, hn'⟩ : ∃ n : Nat, n = ((days + 719468) % 146097).toNat := ⟨_, rfl⟩
  have hn : n < 146097 := by omega
  have hdays : days + 719468 = 146097 * era + n := by omega
  obtain ⟨c, q, k, s, hc, hq, hk, hs, hleap, hsplit⟩ := exists_yearOfEra hn
  have hyear : yearOfEra n = 100 * c + 4 * q + k := yearOfEra_eq hc hq hk hs hleap hsplit
  have hfour : (100 * c + 4 * q + k) / 4 = 25 * c + q := by omega
  have hhundred : (100 * c + 4 * q + k) / 100 = c := by omega
  have hdayOfYear : n - (365 * (100 * c + 4 * q + k) + (25 * c + q) - c) = s := by
    clear hyear hfour hhundred
    omega
  refine ⟨era * 400 + (100 * c + 4 * q + k : Nat), s, ?_, ?_, ?_⟩
  · rw [yearLength_of_era hc hq hk]
    split_ifs <;> omega
  · unfold Date.ofDays
    simp only [hera, hday, ← hera', ← hn']
    rw [← yearOfEra, hyear, hfour, hhundred, hdayOfYear]
    rfl
  · have h1970 : daysBeforeYear 1970 = 719162 := rfl
    rw [daysBeforeYear_of_era hc hq hk, h1970]
    omega

theorem dayNumber_ofDays (days : Int) : (Date.ofDays days).dayNumber = days := by
  obtain ⟨year, dayOfYear, hlt, hdate, hdays⟩ := ofDays_eq_ofMarch days
  have hlength : yearLength (year + 1) ≤ 366 := by
    unfold yearLength
    split_ifs <;> decide
  rw [hdate, Date.dayNumber_ofMarch year (by omega), ← hdays]

theorem isValid_ofDays (days : Int) : (Date.ofDays days).IsValid := by
  obtain ⟨year, dayOfYear, hlt, hdate, -⟩ := ofDays_eq_ofMarch days
  rw [hdate]
  exact Date.isValid_ofMarch hlt

end Decommission.Calendar
