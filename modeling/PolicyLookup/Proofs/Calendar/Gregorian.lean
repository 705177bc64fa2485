/-
  PolicyLookup.Proofs.Calendar.Gregorian — the days of the proleptic Gregorian calendar.

  A leap year is a year that four divides and that a hundred does not divide, or that four hundred
  does.  The number of a day counts from 1970-01-01, by the days of the years before, the days of
  the months before in its year, and the days before in its month.  `Date.ofDays` computes with
  years that begin in March; the results say that this is the same calendar:

    * `Date.isValid_ofDays`, `Date.dayNumber_ofDays` — the date is one of the calendar, and its
      number is the one that was asked for, on either side of 1970.
    * `Date.ofDays_dayNumber` — no date but this one has the number.
    * `Date.ofDays_add_one` — the next number is the number of the next date.
    * `Date.dayNumber_lt_iff` — dates in their order have numbers in their order.
-/

import Mathlib.Tactic.ByContra
import Mathlib.Tactic.IntervalCases
import PolicyLookup.Calendar.Instant

namespace PolicyLookup

namespace Calendar

/-! ## §1. Years, months and days. -/

def IsLeap (year : Int) : Prop := year % 4 = 0 ∧ (year % 100 ≠ 0 ∨ year % 400 = 0)

instance (year : Int) : Decidable (IsLeap year) := inferInstanceAs (Decidable (_ ∧ _))

/-- One in a leap year, and zero in any other. -/
def leapDay (year : Int) : Nat := if IsLeap year then 1 else 0

def daysInMonth (year : Int) (month : Nat) : Nat :=
  if month = 2 then 28 + leapDay year
  else if month = 4 ∨ month = 6 ∨ month = 9 ∨ month = 11 then 30
  else 31

/-- The days of a year before one of its months, of which January has the number one. -/
def daysBeforeMonth (year : Int) : Nat → Nat
  | 0 => 0
  | 1 => 0
  | month + 2 => daysBeforeMonth year (month + 1) + daysInMonth year (month + 1)

/-- The days before a year, from the beginning of the year one on; before it they are negative. -/
def daysBeforeYear (year : Int) : Int :=
  365 * (year - 1) + (year - 1) / 4 - (year - 1) / 100 + (year - 1) / 400

namespace Date

/-- The month exists, and it has the day. -/
structure IsValid (d : Date) : Prop where
  month_pos : 1 ≤ d.month
  month_le : d.month ≤ 12
  day_pos : 1 ≤ d.day
  day_le : d.day ≤ daysInMonth d.year d.month

/-- The days from 1970-01-01 to a date. -/
def dayNumber (d : Date) : Int :=
  daysBeforeYear d.year + daysBeforeMonth d.year d.month + (d.day - 1) - daysBeforeYear 1970

/-- A date comes before another one. -/
def Before (d e : Date) : Prop :=
  d.year < e.year ∨ d.year = e.year ∧ (d.month < e.month ∨ d.month = e.month ∧ d.day < e.day)

/-- The day after a date. -/
def next (d : Date) : Date :=
  if d.day < daysInMonth d.year d.month then { d with day := d.day + 1 }
  else if d.month < 12 then { d with month := d.month + 1, day := 1 }
  else { year := d.year + 1, month := 1, day := 1 }

end Date

/-! ## §2. How long years and months are. -/

theorem leapDay_le (year : Int) : leapDay year ≤ 1 := by
  unfold leapDay
  split <;> omega

theorem daysInMonth_pos (year : Int) (month : Nat) : 1 ≤ daysInMonth year month := by
  unfold daysInMonth
  split
  · omega
  · split <;> omega

theorem daysInMonth_le (year : Int) (month : Nat) : daysInMonth year month ≤ 31 := by
  have hleap := leapDay_le year
  unfold daysInMonth
  split
  · omega
  · split <;> omega

theorem daysBeforeYear_add_one (year : Int) :
    daysBeforeYear (year + 1) = daysBeforeYear year + 365 + leapDay year := by
  unfold daysBeforeYear leapDay
  by_cases hleap : IsLeap year
  · rw [if_pos hleap]
    unfold IsLeap at hleap
    omega
  · rw [if_neg hleap]
    unfold IsLeap at hleap
    omega

theorem daysBeforeYear_mono {y z : Int} (h : y ≤ z) : daysBeforeYear y ≤ daysBeforeYear z := by
  unfold daysBeforeYear
  omega

theorem daysBeforeMonth_add_one (year : Int) {month : Nat} (h : 1 ≤ month) :
    daysBeforeMonth year (month + 1) = daysBeforeMonth year month + daysInMonth year month := by
  obtain ⟨m, rfl⟩ := Nat.exists_eq_add_of_le' h
  rfl

theorem daysBeforeMonth_mono (year : Int) {m n : Nat} (h : m ≤ n) :
    daysBeforeMonth year m ≤ daysBeforeMonth year n := by
  induction h with
  | refl => exact Nat.le_refl _
  | @step n _ ih =>
    refine Nat.le_trans ih ?_
    cases n with
    | zero => exact Nat.le_refl _
    | succ n => exact Nat.le_add_right _ _

/-- Twelve months are a year. -/
theorem daysBeforeMonth_thirteen (year : Int) :
    daysBeforeMonth year 13 = 365 + leapDay year := by
  simp [daysBeforeMonth, daysInMonth]
  omega

/-- From March on, months last from one multiple of 153/5 days to the next. -/
theorem months_from_march (year : Int) {m : Nat} (h : m < 10) :
    daysBeforeMonth year (m + 3) = 59 + leapDay year + (153 * m + 2) / 5
      ∧ (153 * m + 2) / 5 + daysInMonth year (m + 3) = (153 * (m + 1) + 2) / 5 := by
  interval_cases m <;> simp [daysBeforeMonth, daysInMonth] <;> omega

/-! ## §3. Years from March to February, in cycles of 400. -/

/-- The days of a cycle before one of its years. -/
def marchDay (y : Nat) : Nat := 365 * y + y / 4 - y / 100 + y / 400

/-- The year of a cycle in which a day lies. -/
def marchYear (d : Nat) : Nat := (d - d / 1460 + d / 36524 - d / 146096) / 365

theorem marchYear_mono {d e : Nat} (h : d ≤ e) : marchYear d ≤ marchYear e := by
  -- A leap day is added for each fourth century, and the other three lose one.
  have hdays : ∀ n : Nat, n - n / 1460 + n / 36524 - n / 146096
      = (n - n / 1460) + (n / 36524 - n / 36524 / 4) := by
    intro n
    omega
  unfold marchYear
  rw [hdays, hdays]
  apply Nat.div_le_div_right
  have hcentury : d / 36524 ≤ e / 36524 := Nat.div_le_div_right h
  have hfour : d - d / 1460 ≤ e - e / 1460 := by omega
  have hcenturies : d / 36524 - d / 36524 / 4 ≤ e / 36524 - e / 36524 / 4 := by omega
  exact Nat.add_le_add hfour hcenturies

theorem marchYear_first : ∀ y < 400, marchYear (marchDay y) = y := by decide +kernel

theorem marchYear_last : ∀ y < 400, marchYear (marchDay (y + 1) - 1) = y := by decide +kernel

/-- A day of a cycle lies in its year. -/
theorem marchYear_spec {d : Nat} (h : d < 146097) :
    marchYear d < 400 ∧ marchDay (marchYear d) ≤ d ∧ d < marchDay (marchYear d + 1) := by
  have hlt : marchYear d < 400 := by
    have hlast : marchYear 146096 = 399 := by decide
    have := marchYear_mono (show d ≤ 146096 by omega)
    omega
  refine ⟨hlt, ?_, ?_⟩
  · by_contra hbefore
    obtain ⟨y, hy⟩ : ∃ y, marchYear d = y + 1 := by
      apply Nat.exists_eq_succ_of_ne_zero
      intro hzero
      rw [hzero] at hbefore
      exact hbefore (Nat.zero_le d)
    -- The last day of the year before would come no later than this year's.
    have hlast := marchYear_last y (by omega)
    rw [hy] at hbefore
    have := marchYear_mono (show d ≤ marchDay (y + 1) - 1 by omega)
    omega
  · by_contra hafter
    have hle : marchDay (marchYear d + 1) ≤ d := Nat.le_of_not_lt hafter
    by_cases hend : marchYear d = 399
    · rw [hend] at hle
      have : marchDay (399 + 1) = 146097 := by decide
      omega
    · have hfirst := marchYear_first (marchYear d + 1) (by omega)
      have := marchYear_mono hle
      omega

/-- The February that ends a year from March on is that of the next calendar year. -/
theorem marchDay_add_one {y : Nat} (hy : y < 400) (c : Int) :
    marchDay (y + 1) = marchDay y + 365 + leapDay (c * 400 + y + 1) := by
  unfold marchDay leapDay
  by_cases hleap : IsLeap (c * 400 + y + 1)
  · rw [if_pos hleap]
    unfold IsLeap at hleap
    omega
  · rw [if_neg hleap]
    unfold IsLeap at hleap
    omega

theorem daysBeforeYear_eq_marchDay {y : Nat} (hy : y < 400) (c : Int) :
    daysBeforeYear (c * 400 + y + 1) = 146097 * c + marchDay y := by
  unfold daysBeforeYear marchDay
  omega

/-- The day `n` is the day `k`, counted from zero, of the year `y` of the cycle `c`. -/
structure MarchDay (n c : Int) (y k : Nat) : Prop where
  year_lt : y < 400
  day_lt : k < 365 + leapDay (c * 400 + y + 1)
  eq : n = 146097 * c + marchDay y + k - 719468

theorem exists_marchDay (n : Int) : ∃ c y k, MarchDay n c y k := by
  obtain ⟨d, hd⟩ : ∃ d, d = ((n + 719468) % 146097).toNat := ⟨_, rfl⟩
  have hdlt : d < 146097 := by omega
  obtain ⟨hy, hfirst, hlast⟩ := marchYear_spec hdlt
  rw [marchDay_add_one hy ((n + 719468) / 146097)] at hlast
  exact ⟨(n + 719468) / 146097, marchYear d, d - marchDay (marchYear d), hy, by omega, by omega⟩

/-- The date of a day, by its place among years that begin in March. -/
theorem MarchDay.ofDays_eq {n c : Int} {y k : Nat} (h : MarchDay n c y k) :
    let m := (5 * k + 2) / 153
    Date.ofDays n =
      { year := if m < 10 then c * 400 + y else c * 400 + y + 1
        month := if m < 10 then m + 3 else m - 9
        day := k - (153 * m + 2) / 5 + 1 } := by
  intro m
  obtain ⟨hy, hk, hn⟩ := h
  have hnext := marchDay_add_one hy c
  have hleap := leapDay_le (c * 400 + y + 1)
  have hcycleLength : marchDay y + k < 146097 := by
    unfold marchDay at *
    omega
  -- So the number gives back the cycle, the day of the cycle, and the year.
  have hcycle : (n + 719468) / 146097 = c := by omega
  have hday : ((n + 719468) % 146097).toNat = marchDay y + k := by omega
  have hyear : marchYear (marchDay y + k) = y := by
    have hfirst := marchYear_first y hy
    have hlast := marchYear_last y hy
    have hlow := marchYear_mono (Nat.le_add_right (marchDay y) k)
    have hhigh := marchYear_mono (show marchDay y + k ≤ marchDay (y + 1) - 1 by omega)
    omega
  have hstart : 365 * y + y / 4 - y / 100 = marchDay y := by
    unfold marchDay
    omega
  have hm : m < 12 := by omega
  unfold marchYear at hyear
  unfold Date.ofDays
  simp only [hcycle, hday, hyear, hstart, Nat.add_sub_cancel_left]
  show Date.mk (if (if m < 10 then m + 3 else m - 9) ≤ 2 then _ else _) _ _ = _
  by_cases hlt : m < 10
  · rw [if_pos hlt, if_pos hlt, if_neg (by omega)]
  · rw [if_neg hlt, if_neg hlt, if_pos (by omega)]

/-! ## §4. The date of a day number. -/

theorem daysBeforeYear_1970 : daysBeforeYear 1970 = 719162 := by decide

theorem MarchDay.spec {n c : Int} {y k : Nat} (h : MarchDay n c y k) :
    (Date.ofDays n).IsValid ∧ (Date.ofDays n).dayNumber = n := by
  have hday := h.day_lt
  have hn := h.eq
  have hyear := daysBeforeYear_eq_marchDay h.year_lt c
  have hepoch := daysBeforeYear_1970
  have hleap := leapDay_le (c * 400 + y + 1)
  obtain ⟨m, hm⟩ : ∃ m, m = (5 * k + 2) / 153 := ⟨_, rfl⟩
  obtain ⟨j, hj⟩ : ∃ j, j = k - (153 * m + 2) / 5 := ⟨_, rfl⟩
  rw [h.ofDays_eq, ← hm, ← hj]
  by_cases hlt : m < 10
  · -- From March to December, of the year in which the years from March on began.
    obtain ⟨hbefore, hmonth⟩ := months_from_march (c * 400 + y) hlt
    have hsucc := daysBeforeYear_add_one (c * 400 + y)
    rw [if_pos hlt, if_pos hlt]
    refine ⟨⟨by simp, by simp; omega, by simp, ?_⟩, ?_⟩
    · show j + 1 ≤ daysInMonth (c * 400 + y) (m + 3)
      omega
    · show daysBeforeYear (c * 400 + y) + daysBeforeMonth (c * 400 + y) (m + 3)
        + ((j + 1 : Nat) - 1) - daysBeforeYear 1970 = n
      omega
  · -- January and February belong to the year after.
    rw [if_neg hlt, if_neg hlt]
    have hcases : m = 10 ∨ m = 11 := by omega
    rcases hcases with rfl | rfl
    · refine ⟨⟨by simp, by simp, by simp, ?_⟩, ?_⟩
      · show j + 1 ≤ 31
        omega
      · show daysBeforeYear (c * 400 + y + 1) + (0 : Nat) + ((j + 1 : Nat) - 1)
          - daysBeforeYear 1970 = n
        omega
    · refine ⟨⟨by simp, by simp, by simp, ?_⟩, ?_⟩
      · show j + 1 ≤ 28 + leapDay (c * 400 + y + 1)
        omega
      · show daysBeforeYear (c * 400 + y + 1) + (31 : Nat) + ((j + 1 : Nat) - 1)
          - daysBeforeYear 1970 = n
        omega

namespace Date

theorem isValid_ofDays (n : Int) : (ofDays n).IsValid := by
  obtain ⟨c, y, k, h⟩ := exists_marchDay n
  exact h.spec.1

/-- **The date of a day number has this number.** -/
theorem dayNumber_ofDays (n : Int) : (ofDays n).dayNumber = n := by
  obtain ⟨c, y, k, h⟩ := exists_marchDay n
  exact h.spec.2

/-! ## §5. The order of the dates. -/

/-- A valid day lies in its month. -/
theorem IsValid.day_bounds {d : Date} (h : d.IsValid) :
    daysBeforeMonth d.year d.month + d.day ≤ daysBeforeMonth d.year (d.month + 1) := by
  have hday := h.day_le
  rw [daysBeforeMonth_add_one d.year h.month_pos]
  omega

/-- A valid day lies in its year. -/
theorem IsValid.year_bounds {d : Date} (h : d.IsValid) :
    daysBeforeYear d.year - daysBeforeYear 1970 ≤ d.dayNumber
      ∧ d.dayNumber < daysBeforeYear (d.year + 1) - daysBeforeYear 1970 := by
  have hpos := h.day_pos
  have hmonth := h.month_le
  have hday := h.day_bounds
  have hend := daysBeforeMonth_mono d.year (show d.month + 1 ≤ 13 by omega)
  have hsucc := daysBeforeYear_add_one d.year
  rw [daysBeforeMonth_thirteen] at hend
  unfold dayNumber
  omega

/-- **The day numbers of the years up to a given one** end with its last day. -/
theorem IsValid.year_le_iff {d : Date} (h : d.IsValid) (year : Int) :
    d.year ≤ year ↔ d.dayNumber < daysBeforeYear (year + 1) - daysBeforeYear 1970 := by
  obtain ⟨hfirst, hlast⟩ := h.year_bounds
  constructor
  · intro hle
    have := daysBeforeYear_mono (show d.year + 1 ≤ year + 1 by omega)
    omega
  · intro hlt
    by_contra hgt
    have := daysBeforeYear_mono (show year + 1 ≤ d.year by omega)
    omega

theorem IsValid.dayNumber_lt {d e : Date} (hd : d.IsValid) (he : e.IsValid) (h : d.Before e) :
    d.dayNumber < e.dayNumber := by
  rcases h with hyear | ⟨hyear, hmonth | ⟨hmonth, hday⟩⟩
  · have hend := hd.year_bounds
    have hfirst := he.year_bounds
    have hmono := daysBeforeYear_mono (show d.year + 1 ≤ e.year by omega)
    omega
  · have hend := hd.day_bounds
    have hpos := he.day_pos
    have hmono := daysBeforeMonth_mono d.year (show d.month + 1 ≤ e.month by omega)
    unfold dayNumber
    rw [← hyear]
    omega
  · unfold dayNumber
    rw [← hyear, ← hmonth]
    omega

theorem before_trichotomy (d e : Date) : d.Before e ∨ d = e ∨ e.Before d := by
  obtain ⟨dy, dm, dd⟩ := d
  obtain ⟨ey, em, ed⟩ := e
  simp only [Before, mk.injEq]
  omega

/-- **Dates in their order have day numbers in their order.** -/
theorem dayNumber_lt_iff {d e : Date} (hd : d.IsValid) (he : e.IsValid) :
    d.dayNumber < e.dayNumber ↔ d.Before e := by
  constructor
  · intro h
    rcases before_trichotomy d e with hlt | rfl | hgt
    · exact hlt
    · exact absurd h (Int.lt_irrefl _)
    · have := he.dayNumber_lt hd hgt
      omega
  · exact hd.dayNumber_lt he

theorem IsValid.eq_of_dayNumber_eq {d e : Date} (hd : d.IsValid) (he : e.IsValid)
    (h : d.dayNumber = e.dayNumber) : d = e := by
  rcases before_trichotomy d e with hlt | heq | hgt
  · have := hd.dayNumber_lt he hlt
    omega
  · exact heq
  · have := he.dayNumber_lt hd hgt
    omega

/-- **Every date of the calendar is the date of its day number.** -/
theorem ofDays_dayNumber {d : Date} (h : d.IsValid) : ofDays d.dayNumber = d :=
  (isValid_ofDays _).eq_of_dayNumber_eq h (dayNumber_ofDays _)

/-! ## §6. The next day. -/

theorem IsValid.next {d : Date} (h : d.IsValid) : d.next.IsValid := by
  obtain ⟨hmonth, hmonthLe, hday, hdayLe⟩ := h
  unfold Date.next
  split
  · next hlt => exact ⟨hmonth, hmonthLe, Nat.succ_pos _, hlt⟩
  · split
    · next hlt => exact ⟨Nat.succ_pos _, hlt, Nat.le_refl 1, daysInMonth_pos _ _⟩
    · exact ⟨Nat.le_refl 1, Nat.le_add_left 1 11, Nat.le_refl 1, daysInMonth_pos _ _⟩

theorem IsValid.dayNumber_next {d : Date} (h : d.IsValid) : d.next.dayNumber = d.dayNumber + 1 := by
  obtain ⟨hmonth, hmonthLe, hday, hdayLe⟩ := h
  have hstep := daysBeforeMonth_add_one d.year hmonth
  unfold Date.next dayNumber
  by_cases hlt : d.day < daysInMonth d.year d.month
  · rw [if_pos hlt]
    show daysBeforeYear d.year + daysBeforeMonth d.year d.month + ((d.day + 1 : Nat) - 1) - _ = _
    omega
  · rw [if_neg hlt]
    by_cases hend : d.month < 12
    · rw [if_pos hend]
      show daysBeforeYear d.year + daysBeforeMonth d.year (d.month + 1) + ((1 : Nat) - 1) - _ = _
      omega
    · -- The last day of December.
      rw [if_neg hend]
      have hdecember : d.month + 1 = 13 := by omega
      have hyear := daysBeforeMonth_thirteen d.year
      have hsucc := daysBeforeYear_add_one d.year
      rw [hdecember] at hstep
      show daysBeforeYear (d.year + 1) + (0 : Nat) + ((1 : Nat) - 1) - _ = _
      omega

/-- **The date of the next number is the next date.** -/
theorem ofDays_add_one (n : Int) : ofDays (n + 1) = (ofDays n).next := by
  have hvalid := isValid_ofDays n
  apply (isValid_ofDays (n + 1)).eq_of_dayNumber_eq hvalid.next
  rw [dayNumber_ofDays, hvalid.dayNumber_next, dayNumber_ofDays]

example : (ofDays (-1)).next = ⟨1970, 1, 1⟩ := by decide

end Date

end Calendar

end PolicyLookup
