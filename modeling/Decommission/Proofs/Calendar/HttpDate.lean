import Decommission.Proofs.Calendar.DayNumber
import Decommission.Proofs.Text.Numerals

/-!
The date text is read back: the second that it names is the one it was written for. So one text
stands for one second.
-/
namespace Decommission

namespace Text

/-- What follows the mark that the text starts with. -/
def mark? (mark : String) (text : List Char) : Option (List Char) :=
  if mark.toList.isPrefixOf text then some (text.drop mark.toList.length) else none

/-- What the three letters mean that the text starts with, and what follows them. -/
def name? {α : Type} (meaning : String → Option α) (text : List Char) : Option (α × List Char) :=
  (meaning (String.ofList (text.take 3))).map (·, text.drop 3)

theorem mark?_append (mark : String) (rest : List Char) :
    mark? mark (mark.toList ++ rest) = some rest := by
  have hstart : mark.toList.isPrefixOf (mark.toList ++ rest) = true :=
    List.isPrefixOf_iff_prefix.mpr (List.prefix_append _ _)
  rw [mark?, if_pos hstart, List.drop_left]

theorem name?_append {α : Type} {meaning : String → Option α} {name : String} {x : α}
    (hname : meaning name = some x) (hlength : name.toList.length = 3) (rest : List Char) :
    name? meaning (name.toList ++ rest) = some (x, rest) := by
  rw [name?, List.take_left' hlength, String.ofList_toList, hname, List.drop_left' hlength]
  rfl

end Text

namespace Calendar

open Text

/-- The day of the week with this short name, counted from Sunday. -/
def weekdayNamed? : String → Option Nat
  | "Sun" => some 0
  | "Mon" => some 1
  | "Tue" => some 2
  | "Wed" => some 3
  | "Thu" => some 4
  | "Fri" => some 5
  | "Sat" => some 6
  | _ => none

/-- The month with this short name, counted from one. -/
def monthNamed? : String → Option Nat
  | "Jan" => some 1
  | "Feb" => some 2
  | "Mar" => some 3
  | "Apr" => some 4
  | "May" => some 5
  | "Jun" => some 6
  | "Jul" => some 7
  | "Aug" => some 8
  | "Sep" => some 9
  | "Oct" => some 10
  | "Nov" => some 11
  | "Dec" => some 12
  | _ => none

theorem weekdayNames_spec {w : Nat} (hw : w < 7) :
    weekdayNamed? (weekdayNames.getD w "") = some w ∧
      (weekdayNames.getD w "").toList.length = 3 := by
  interval_cases w <;> exact ⟨rfl, rfl⟩

theorem monthNames_spec {month : Nat} (hlow : 1 ≤ month) (hhigh : month ≤ 12) :
    monthNamed? (monthNames.getD (month - 1) "") = some month ∧
      (monthNames.getD (month - 1) "").toList.length = 3 := by
  interval_cases month <;> exact ⟨rfl, rfl⟩

/-- What the date text of a second says. -/
structure Stamp where
  weekday : Nat
  date : Date
  hour : Nat
  minute : Nat
  second : Nat
  deriving DecidableEq, Repr

namespace Stamp

/-- The stamp that a text of the form `Fri, 26 Jun 2015 23:39:12 GMT` gives. -/
def read? (text : String) : Option Stamp := do
  let (weekday, rest) ← name? weekdayNamed? text.toList
  let (day, rest) ← mark? ", " rest >>= number? 2
  let (month, rest) ← mark? " " rest >>= name? monthNamed?
  let (year, rest) ← mark? " " rest >>= number? 4
  let (hour, rest) ← mark? " " rest >>= number? 2
  let (minute, rest) ← mark? ":" rest >>= number? 2
  let (second, rest) ← mark? ":" rest >>= number? 2
  if rest = " GMT".toList then
    some { weekday, date := { year, month, day }, hour, minute, second }
  else none

/-- The stamp names a day of the calendar, its day of the week and a second of the day. -/
structure IsValid (s : Stamp) : Prop where
  date : s.date.IsValid
  /-- The first of January 1970 was a Thursday. -/
  weekday : s.weekday < 7 ∧ (s.weekday : Int) = (s.date.dayNumber + 4) % 7
  time : s.hour < 24 ∧ s.minute < 60 ∧ s.second < 60

/-- The seconds from the start of 1970 to the second of the stamp. -/
def seconds (s : Stamp) : Int :=
  86400 * s.date.dayNumber + (3600 * s.hour + 60 * s.minute + s.second : Nat)

/-- The stamp in the form of a date text, for a year of four digits. -/
def text (s : Stamp) : List Char :=
  (weekdayNames.getD s.weekday "").toList ++ (", ".toList ++ (paddedDigits 2 s.date.day ++
    (" ".toList ++ ((monthNames.getD (s.date.month - 1) "").toList ++ (" ".toList ++
    (paddedDigits 4 s.date.year.natAbs ++ (" ".toList ++ (paddedDigits 2 s.hour ++ (":".toList ++
    (paddedDigits 2 s.minute ++ (":".toList ++ (paddedDigits 2 s.second ++ " GMT".toList))))))))))))

section

variable {s : Stamp}

theorem IsValid.day_lt (hs : s.IsValid) : s.date.day < 100 := by
  have hlongest : monthLength s.date.year s.date.month ≤ 31 := by
    unfold monthLength
    split_ifs <;> decide
  have hday := hs.date.day.2
  omega

theorem length_text (hs : s.IsValid) (hyear : s.date.year.natAbs < 10000) :
    s.text.length = 29 := by
  obtain ⟨hhour, hminute, hsecond⟩ := hs.time
  have htwo {n : Nat} (hn : n < 100) : (paddedDigits 2 n).length = 2 :=
    length_paddedDigits (by decide) hn
  rw [text]
  simp only [List.length_append, (weekdayNames_spec hs.weekday.1).2,
    (monthNames_spec hs.date.month.1 hs.date.month.2).2, htwo hs.day_lt,
    length_paddedDigits (by decide) (show s.date.year.natAbs < 10 ^ 4 from hyear),
    htwo (hhour.trans (by decide)), htwo (hminute.trans (by decide)),
    htwo (hsecond.trans (by decide))]
  rfl

theorem read?_text (hs : s.IsValid) (hlow : 0 ≤ s.date.year) (hhigh : s.date.year ≤ 9999) :
    read? (String.ofList s.text) = some s := by
  obtain ⟨hhour, hminute, hsecond⟩ := hs.time
  obtain ⟨hname, hnameLength⟩ := weekdayNames_spec hs.weekday.1
  obtain ⟨hmonth, hmonthLength⟩ := monthNames_spec hs.date.month.1 hs.date.month.2
  have htwo {n : Nat} (hn : n < 100) (rest : List Char) :
      number? 2 (paddedDigits 2 n ++ rest) = some (n, rest) :=
    number?_paddedDigits (by decide) hn rest
  have hyear (rest : List Char) : number? 4 (paddedDigits 4 s.date.year.natAbs ++ rest) =
      some (s.date.year.natAbs, rest) :=
    number?_paddedDigits (by decide) (show s.date.year.natAbs < 10 ^ 4 by omega) rest
  rw [read?, text, String.toList_ofList, name?_append hname hnameLength]
  simp only [Option.bind_eq_bind, Option.bind_some, mark?_append, htwo hs.day_lt,
    name?_append hmonth hmonthLength, hyear, htwo (hhour.trans (by decide)),
    htwo (hminute.trans (by decide)), htwo (hsecond.trans (by decide)),
    Int.natAbs_of_nonneg hlow, if_true]

end

end Stamp

namespace Instant

/-- The instant lies in the year. -/
def InYear (i : Instant) (year : Int) : Prop :=
  86400 * (Date.mk year 1 1).dayNumber ≤ i.seconds ∧
    i.seconds < 86400 * (Date.mk (year + 1) 1 1).dayNumber

instance (i : Instant) (year : Int) : Decidable (i.InYear year) :=
  inferInstanceAs (Decidable (_ ∧ _))

/-- The year of the instant has four digits at most, and the instant is not in a leap second. -/
structure IsPlain (i : Instant) : Prop where
  year : ∃ year, 0 ≤ year ∧ year ≤ 9999 ∧ i.InYear year
  nanos : i.nanos < Nat.pow 10 9

/-- What the date text of the instant is to say. -/
def stamp (i : Instant) : Stamp :=
  let days := i.seconds / 86400
  let secondOfDay := (i.seconds % 86400).toNat
  { weekday := ((days + 4) % 7).toNat
    date := Date.ofDays days
    hour := secondOfDay / 3600
    minute := secondOfDay / 60 % 60
    second := secondOfDay % 60 }

theorem isValid_stamp (i : Instant) : i.stamp.IsValid where
  date := isValid_ofDays _
  weekday := by
    simp only [stamp, dayNumber_ofDays]
    omega
  time := by
    simp only [stamp]
    omega

theorem seconds_stamp (i : Instant) : i.stamp.seconds = i.seconds := by
  simp only [stamp, Stamp.seconds, dayNumber_ofDays]
  omega

end Instant

namespace Instant

variable {i : Instant} {year : Int}

theorem inYear_stamp (i : Instant) : i.InYear i.stamp.date.year := by
  have hbounds := (isValid_stamp i).date.dayNumber_bounds
  have hday : i.stamp.date.dayNumber = i.seconds / 86400 := dayNumber_ofDays _
  unfold InYear
  omega

theorem InYear.unique {other : Int} (h : i.InYear year) (hother : i.InYear other) :
    year = other := by
  have hle {y z : Int} (hy : i.InYear y) (hz : i.InYear z) : y ≤ z := by
    by_contra hlt
    have hyears := Date.dayNumber_le (show z + 1 ≤ y by omega)
    unfold InYear at hy hz
    omega
  exact Int.le_antisymm (hle h hother) (hle hother h)

theorem IsPlain.year_bounds (hi : i.IsPlain) :
    0 ≤ i.stamp.date.year ∧ i.stamp.date.year ≤ 9999 := by
  obtain ⟨year, hlow, hhigh, hyear⟩ := hi.year
  rw [← hyear.unique i.inYear_stamp]
  exact ⟨hlow, hhigh⟩

/-- The text is that of the stamp, whatever part of the second has passed. -/
theorem IsPlain.httpDate_eq (hi : i.IsPlain) : i.httpDate = String.ofList i.stamp.text := by
  obtain ⟨hlow, hhigh⟩ := hi.year_bounds
  have hdays : i.seconds.fdiv 86400 = i.seconds / 86400 :=
    Int.fdiv_eq_ediv_of_nonneg _ (by decide)
  have hsecond : i.seconds.fmod 86400 = i.seconds % 86400 :=
    Int.fmod_eq_emod_of_nonneg _ (by decide)
  have hweekday : weekday (i.seconds / 86400) = i.stamp.weekday := by
    rw [weekday, Int.fmod_eq_emod_of_nonneg _ (by decide)]
    rfl
  have hdate : Date.ofDays (i.seconds / 86400) = i.stamp.date := rfl
  have hhour : (i.seconds % 86400).toNat / 3600 = i.stamp.hour := rfl
  have hminute : (i.seconds % 86400).toNat / 60 % 60 = i.stamp.minute := rfl
  have hlast : (i.seconds % 86400).toNat % 60 + i.nanos / Nat.pow 10 9 = i.stamp.second := by
    rw [Nat.div_eq_of_lt hi.nanos]
    rfl
  have hyear : yearText i.stamp.date.year = Text.padded 4 i.stamp.date.year.natAbs := by
    rw [yearText, if_neg (by omega), if_neg (by omega)]
  apply String.toList_injective
  simp only [httpDate, hdays, hsecond, hweekday, hdate, hhour, hminute, hlast, hyear,
    String.toList_append, Text.padded, String.toList_ofList, List.append_assoc, Stamp.text]

theorem IsPlain.read?_httpDate (hi : i.IsPlain) : Stamp.read? i.httpDate = some i.stamp := by
  rw [hi.httpDate_eq]
  exact Stamp.read?_text i.isValid_stamp hi.year_bounds.1 hi.year_bounds.2

/-- In the years 0 to 9999 the date text has 29 characters and says nothing of the part of the
second that has passed. Read back it gives a day of the calendar with its day of the week and a
time, and these are those of the second that the instant lies in, before 1970 as well. So different
seconds have different texts. -/
theorem httpDate_reads_back (hi : i.IsPlain) :
    i.httpDate.length = 29 ∧
      (∀ nanos < Nat.pow 10 9, Instant.httpDate { i with nanos } = i.httpDate) ∧
      (∃ s, Stamp.read? i.httpDate = some s ∧ s.IsValid ∧ i.InYear s.date.year ∧
        s.seconds = i.seconds) ∧
      ∀ j : Instant, j.IsPlain → j.seconds ≠ i.seconds → j.httpDate ≠ i.httpDate := by
  obtain ⟨hlow, hhigh⟩ := hi.year_bounds
  refine ⟨?_, fun nanos hnanos => ?_, ⟨i.stamp, hi.read?_httpDate, i.isValid_stamp,
    i.inYear_stamp, i.seconds_stamp⟩, fun j hj hseconds htext => hseconds ?_⟩
  · rw [hi.httpDate_eq, String.length_ofList]
    exact Stamp.length_text i.isValid_stamp (by omega)
  · have hsame : IsPlain { i with nanos } := ⟨hi.year, hnanos⟩
    rw [hsame.httpDate_eq, hi.httpDate_eq]
    rfl
  · have hread := hj.read?_httpDate
    rw [htext, hi.read?_httpDate] at hread
    rw [← j.seconds_stamp, ← Option.some.inj hread, i.seconds_stamp]

theorem httpDate_reads_back_leap_day :
    IsPlain ⟨-11670912001, 999999999⟩ ∧
      Instant.httpDate ⟨-11670912001, 999999999⟩ = "Tue, 29 Feb 1600 23:59:59 GMT" ∧
      Instant.httpDate ⟨-11670912001, 0⟩ = "Tue, 29 Feb 1600 23:59:59 GMT" ∧
      ∃ s, Stamp.read? "Tue, 29 Feb 1600 23:59:59 GMT" = some s ∧ s.seconds = -11670912001 := by
  have hplain : IsPlain ⟨-11670912001, 999999999⟩ := ⟨⟨1600, by decide⟩, by decide⟩
  obtain ⟨-, hnanos, ⟨s, hread, -, -, hseconds⟩, -⟩ := httpDate_reads_back hplain
  have htext :
      Instant.httpDate ⟨-11670912001, 999999999⟩ = "Tue, 29 Feb 1600 23:59:59 GMT" := by
    decide +kernel
  rw [htext] at hnanos hread
  exact ⟨hplain, htext, hnanos 0 (by decide), s, hread, hseconds⟩

example : Instant.httpDate ⟨1435361952, 0⟩ = "Fri, 26 Jun 2015 23:39:12 GMT" := by decide +kernel

end Instant

end Calendar

end Decommission
