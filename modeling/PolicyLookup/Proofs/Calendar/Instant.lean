/-
  PolicyLookup.Proofs.Calendar.Instant — the text of a date.

  A reading is a date of the calendar and a time of its day.  Every number of milliseconds belongs
  to one reading, before 1970 as well as after it, and the text spells the parts of this reading
  in a fixed form: the text determines the reading (`Parts.Spell.reading_eq`), and as long as years
  have four digits it is smaller in the order of characters where the reading is earlier
  (`Parts.Spell.chars_lt_iff`).

    * `decode_date` — which dates can be decoded, that their texts name the very millisecond, and
      that these texts tell the dates apart and keep their order.
-/

import PolicyLookup.Bson.Decoding
import PolicyLookup.Proofs.Calendar.Gregorian
import PolicyLookup.Proofs.Number.Digits
import PolicyLookup.Proofs.Text.Bytes

namespace PolicyLookup

namespace Calendar

open Number

/-! ## §1. Readings of the calendar and of the clock. -/

/-- A date and a time of the day. -/
structure Reading where
  date : Date
  hour : Nat
  minute : Nat
  second : Nat
  millisecond : Nat
deriving DecidableEq

namespace Reading

/-- The date is one of the calendar, and the time is one of the clock. -/
structure IsValid (r : Reading) : Prop where
  date : r.date.IsValid
  hour_lt : r.hour < 24
  minute_lt : r.minute < 60
  second_lt : r.second < 60
  millisecond_lt : r.millisecond < 1000

/-- The milliseconds from 1970-01-01T00:00:00Z to a reading. -/
def millis (r : Reading) : Int :=
  (((r.date.dayNumber * 24 + r.hour) * 60 + r.minute) * 60 + r.second) * 1000 + r.millisecond

/-- A reading comes before another one. -/
def Before (r s : Reading) : Prop :=
  r.date.Before s.date ∨ r.date = s.date ∧
    (r.hour < s.hour ∨ r.hour = s.hour ∧
      (r.minute < s.minute ∨ r.minute = s.minute ∧
        (r.second < s.second ∨ r.second = s.second ∧ r.millisecond < s.millisecond)))

/-- The reading of a time. -/
def ofMillis (ms : Int) : Reading :=
  let ofDay := (ms % dayLength).toNat
  { date := Date.ofDays (ms / dayLength)
    hour := ofDay / 3600000
    minute := ofDay / 60000 % 60
    second := ofDay / 1000 % 60
    millisecond := ofDay % 1000 }

theorem isValid_ofMillis (ms : Int) : (ofMillis ms).IsValid := by
  have hofDay : (ms % dayLength).toNat < 86400000 := by
    unfold dayLength
    omega
  refine ⟨Date.isValid_ofDays _, ?_, ?_, ?_, ?_⟩
  · show (ms % dayLength).toNat / 3600000 < 24
    omega
  · exact Nat.mod_lt _ (by decide)
  · exact Nat.mod_lt _ (by decide)
  · exact Nat.mod_lt _ (by decide)

/-- **The reading of a time is that many milliseconds away from 1970.** -/
theorem millis_ofMillis (ms : Int) : (ofMillis ms).millis = ms := by
  have hday := Date.dayNumber_ofDays (ms / dayLength)
  unfold millis ofMillis
  simp only [hday]
  unfold dayLength
  omega

theorem IsValid.millis_lt_iff {r s : Reading} (hr : r.IsValid) (hs : s.IsValid) :
    r.millis < s.millis ↔ r.Before s := by
  have hlt := Date.dayNumber_lt_iff hr.date hs.date
  have heq : r.date = s.date ↔ r.date.dayNumber = s.date.dayNumber := by
    constructor
    · intro h
      rw [h]
    · exact hr.date.eq_of_dayNumber_eq hs.date
  obtain ⟨-, hrh, hrm, hrs, hrf⟩ := hr
  obtain ⟨-, hsh, hsm, hss, hsf⟩ := hs
  -- The parts of the clock stay below their units, so an earlier part outweighs all later ones.
  unfold Before millis
  rw [← hlt, heq]
  omega

/-- The time of a reading determines the reading. -/
theorem IsValid.eq_of_millis_eq {r s : Reading} (hr : r.IsValid) (hs : s.IsValid)
    (h : r.millis = s.millis) : r = s := by
  obtain ⟨hrd, hrh, hrm, hrs, hrf⟩ := hr
  obtain ⟨hsd, hsh, hsm, hss, hsf⟩ := hs
  unfold millis at h
  have hdate : r.date = s.date := hrd.eq_of_dayNumber_eq hsd (by omega)
  rw [hdate] at h
  have hclock : r.hour = s.hour ∧ r.minute = s.minute ∧ r.second = s.second
      ∧ r.millisecond = s.millisecond := by omega
  obtain ⟨hhour, hminute, hsecond, hmillisecond⟩ := hclock
  cases r
  cases s
  simp only at hdate hhour hminute hsecond hmillisecond
  rw [hdate, hhour, hminute, hsecond, hmillisecond]

/-- **The times with a text are those of the years -262143 to 262142**, from the first millisecond
to the last. -/
theorem isRepresentable_iff (ms : Int) : isRepresentable ms = true ↔
    -262143 ≤ (ofMillis ms).date.year ∧ (ofMillis ms).date.year ≤ 262142 := by
  have hvalid := Date.isValid_ofDays (ms / dayLength)
  have hfirst := hvalid.year_le_iff (-262144)
  have hlast := hvalid.year_le_iff 262142
  -- The bounds are the days before the first of these years and before the first one after them.
  have hlow : daysBeforeYear (-262144 + 1) - daysBeforeYear 1970 = -96465292 := by decide
  have hhigh : daysBeforeYear (262142 + 1) - daysBeforeYear 1970 = 95026237 := by decide
  rw [Date.dayNumber_ofDays] at hfirst hlast
  rw [hlow] at hfirst
  rw [hhigh] at hlast
  show _ ↔ -262143 ≤ (Date.ofDays (ms / dayLength)).year
    ∧ (Date.ofDays (ms / dayLength)).year ≤ 262142
  unfold isRepresentable
  rw [Bool.and_eq_true, decide_eq_true_iff, decide_eq_true_iff, hlast]
  unfold dayLength at *
  omega

end Reading

/-! ## §2. Numerals in a text. -/

theorem numeral_padded (width n : Nat) :
    Numeral (max width (digits n).length) n (padded width n) := by
  unfold padded
  refine ⟨?_, ?_, ?_⟩
  · rw [List.length_append, List.length_replicate]
    omega
  · intro c hc
    rcases List.mem_append.mp hc with hzero | hdigit
    · exact isDigit_of_mem_replicate c hzero
    · exact isDigit_of_mem_digits n c hdigit
  · rw [ofDigits_zeros_append, ofDigits_digits]

/-- A number that fits is written in the width that is asked for. -/
theorem numeral_padded_of_lt {width n : Nat} (hwidth : 1 ≤ width) (h : n < 10 ^ width) :
    Numeral width n (padded width n) := by
  have hnumeral := numeral_padded width n
  rw [Nat.max_eq_left (length_digits_le hwidth h)] at hnumeral
  exact hnumeral

/-- Two parts of one width with the same separator after them. -/
theorem numeral_append_eq {width m n : Nat} {as bs cs ds : List Char} {c : Char}
    (ha : Numeral width m as) (hb : Numeral width n bs) (h : as ++ c :: cs = bs ++ c :: ds) :
    m = n ∧ cs = ds := by
  obtain ⟨hparts, hrest⟩ := List.append_inj h (ha.length_eq.trans hb.length_eq.symm)
  exact ⟨(ha.eq_iff hb).mp hparts, (List.cons.inj hrest).2⟩

theorem numeral_append_lt_iff {width m n : Nat} {as bs : List Char} (ha : Numeral width m as)
    (hb : Numeral width n bs) (c : Char) (cs ds : List Char) :
    as ++ c :: cs < bs ++ c :: ds ↔ m < n ∨ m = n ∧ cs < ds := by
  rw [Text.append_lt_append_iff (ha.length_eq.trans hb.length_eq.symm), ha.lt_iff hb, ha.eq_iff hb,
    List.cons_lt_cons_iff]
  simp

theorem numeral_toNat_lt {width n : Nat} {ds : List Char} (h : Numeral width n ds) :
    ∀ c ∈ ds, c.toNat < 128 := by
  intro c hc
  have hdigit := isDigit_iff.mp (h.digits c hc)
  omega

/-- A numeral does not begin with a sign. -/
theorem ne_cons_of_numeral {width n : Nat} {ds : List Char} (h : Numeral width n ds) {c : Char}
    (hc : isDigit c = false) (cs : List Char) : ds ≠ c :: cs := by
  intro heq
  have hdigit := h.digits c (heq ▸ List.mem_cons_self)
  rw [hc] at hdigit
  cases hdigit

/-! ## §3. Years. -/

/-- The text of a year: four digits from 0000 to 9999, and for any other year a sign and as many
digits as it has, but four at least. -/
inductive YearText : Int → List Char → Prop
  | plain {n : Nat} {ds : List Char} (h : Numeral 4 n ds) : YearText n ds
  | later {n : Nat} {ds : List Char} (hn : 9999 < n) (h : Numeral (digits n).length n ds) :
    YearText n ('+' :: ds)
  | earlier {n : Nat} {ds : List Char} (hn : 0 < n) (h : Numeral (max 4 (digits n).length) n ds) :
    YearText (-n) ('-' :: ds)

theorem yearText_yearChars (year : Int) : YearText year (yearChars year) := by
  unfold yearChars
  by_cases hplain : 0 ≤ year ∧ year ≤ 9999
  · rw [if_pos hplain]
    have hnumeral : Numeral 4 year.toNat (padded 4 year.toNat) :=
      numeral_padded_of_lt (by decide) (by omega)
    have htext := YearText.plain hnumeral
    rw [Int.toNat_of_nonneg hplain.1] at htext
    exact htext
  · rw [if_neg hplain]
    by_cases hneg : year < 0
    · rw [if_pos hneg]
      have htext := YearText.earlier (n := year.natAbs) (by omega) (numeral_padded 4 year.natAbs)
      rw [show -(year.natAbs : Int) = year by omega] at htext
      exact htext
    · rw [if_neg hneg]
      have hnumeral := numeral_padded 4 year.natAbs
      have hlong : 4 ≤ (digits year.natAbs).length := by
        by_contra hshort
        have hlt := lt_ten_pow_length_digits year.natAbs
        have hpow : 10 ^ (digits year.natAbs).length ≤ 10 ^ 4 :=
          Nat.pow_le_pow_right (by decide) (by omega)
        omega
      rw [Nat.max_eq_right hlong] at hnumeral
      have htext := YearText.later (n := year.natAbs) (by omega) hnumeral
      rw [show (year.natAbs : Int) = year by omega] at htext
      exact htext

namespace YearText

variable {y z : Int} {cs : List Char}

/-- The text of a year determines the year. -/
theorem unique (hy : YearText y cs) (hz : YearText z cs) : y = z := by
  -- The first character is a digit, a plus or a minus, and so says which of the forms it is.
  cases hy with
  | plain h =>
    cases hz with
    | plain h' => rw [← h.value, ← h'.value]
    | later hn' h' => exact absurd rfl (ne_cons_of_numeral h (by decide) _)
    | earlier hn' h' => exact absurd rfl (ne_cons_of_numeral h (by decide) _)
  | later hn h =>
    cases hz with
    | plain h' => exact absurd rfl (ne_cons_of_numeral h' (by decide) _)
    | later hn' h' => rw [← h.value, ← h'.value]
  | earlier hn h =>
    cases hz with
    | plain h' => exact absurd rfl (ne_cons_of_numeral h' (by decide) _)
    | earlier hn' h' => rw [← h.value, ← h'.value]

/-- The text of a year from 0 to 9999 is a numeral of four digits. -/
theorem numeral (h : YearText y cs) (hy : 0 ≤ y ∧ y ≤ 9999) : Numeral 4 y.toNat cs := by
  cases h with
  | plain h => exact h
  | later hn h => omega
  | earlier hn h => omega

theorem toNat_lt (h : YearText y cs) : ∀ c ∈ cs, c.toNat < 128 := by
  cases h with
  | plain h => exact numeral_toNat_lt h
  | later hn h => exact List.forall_mem_cons.mpr ⟨by decide, numeral_toNat_lt h⟩
  | earlier hn h => exact List.forall_mem_cons.mpr ⟨by decide, numeral_toNat_lt h⟩

end YearText

/-! ## §4. What a text says. -/

/-- The parts between the separators of a text. -/
structure Parts where
  year : List Char
  month : List Char
  day : List Char
  hour : List Char
  minute : List Char
  second : List Char
  millisecond : List Char

namespace Parts

/-- The text of some parts. -/
def chars (p : Parts) : List Char :=
  p.year ++ '-' :: p.month ++ '-' :: p.day
    ++ 'T' :: p.hour ++ ':' :: p.minute ++ ':' :: p.second ++ '.' :: p.millisecond ++ ['Z']

/-- The parts are those of a reading. -/
structure Spell (p : Parts) (r : Reading) : Prop where
  year : YearText r.date.year p.year
  month : Numeral 2 r.date.month p.month
  day : Numeral 2 r.date.day p.day
  hour : Numeral 2 r.hour p.hour
  minute : Numeral 2 r.minute p.minute
  second : Numeral 2 r.second p.second
  millisecond : Numeral 3 r.millisecond p.millisecond

/-- The text of some parts after the year. -/
def rest (p : Parts) : List Char :=
  '-' :: (p.month ++ '-' :: (p.day ++ 'T' :: (p.hour ++ ':' :: (p.minute ++ ':' ::
    (p.second ++ '.' :: (p.millisecond ++ ['Z']))))))

theorem chars_eq (p : Parts) : p.chars = p.year ++ p.rest := by
  unfold chars rest
  simp only [List.append_assoc, List.cons_append]

namespace Spell

variable {p q : Parts} {r s : Reading}

/-- The text after the year has always the same length. -/
theorem length_rest (h : p.Spell r) : p.rest.length = 20 := by
  unfold rest
  simp only [List.length_cons, List.length_append, List.length_nil, h.month.length_eq,
    h.day.length_eq, h.hour.length_eq, h.minute.length_eq, h.second.length_eq,
    h.millisecond.length_eq]

/-- **A text says one date and one time.** -/
theorem reading_eq (hp : p.Spell r) (hq : q.Spell s) (h : p.chars = q.chars) : r = s := by
  rw [chars_eq, chars_eq] at h
  -- The year may have any width, so the text is split from its end.
  obtain ⟨hyearText, hrest⟩ := List.append_inj' h (hp.length_rest.trans hq.length_rest.symm)
  have hyear := hp.year.unique (hyearText ▸ hq.year)
  unfold rest at hrest
  obtain ⟨hmonth, hrest⟩ := numeral_append_eq hp.month hq.month (List.cons.inj hrest).2
  obtain ⟨hday, hrest⟩ := numeral_append_eq hp.day hq.day hrest
  obtain ⟨hhour, hrest⟩ := numeral_append_eq hp.hour hq.hour hrest
  obtain ⟨hminute, hrest⟩ := numeral_append_eq hp.minute hq.minute hrest
  obtain ⟨hsecond, hrest⟩ := numeral_append_eq hp.second hq.second hrest
  obtain ⟨hmillisecond, -⟩ := numeral_append_eq hp.millisecond hq.millisecond hrest
  obtain ⟨⟨ry, rm, rd⟩, rh, rmin, rs, rf⟩ := r
  obtain ⟨⟨sy, sm, sd⟩, sh, smin, ss, sf⟩ := s
  simp only at hyear hmonth hday hhour hminute hsecond hmillisecond
  rw [hyear, hmonth, hday, hhour, hminute, hsecond, hmillisecond]

/-- **Between the years 0000 and 9999 the order of the texts is that of the readings.** -/
theorem chars_lt_iff (hp : p.Spell r) (hq : q.Spell s)
    (hr : 0 ≤ r.date.year ∧ r.date.year ≤ 9999) (hs : 0 ≤ s.date.year ∧ s.date.year ≤ 9999) :
    p.chars < q.chars ↔ r.Before s := by
  have hpyear := hp.year.numeral hr
  have hqyear := hq.year.numeral hs
  have hdate : r.date = s.date ↔ r.date.year = s.date.year ∧ r.date.month = s.date.month
      ∧ r.date.day = s.date.day := by
    cases r.date
    cases s.date
    simp
  rw [chars_eq, chars_eq]
  unfold rest
  rw [numeral_append_lt_iff hpyear hqyear, numeral_append_lt_iff hp.month hq.month,
    numeral_append_lt_iff hp.day hq.day, numeral_append_lt_iff hp.hour hq.hour,
    numeral_append_lt_iff hp.minute hq.minute, numeral_append_lt_iff hp.second hq.second,
    numeral_append_lt_iff hp.millisecond hq.millisecond]
  unfold Reading.Before Date.Before
  rw [hdate]
  simp only [List.lt_irrefl, and_false, or_false]
  omega

/-- All characters of a text have one byte. -/
theorem toNat_lt (h : p.Spell r) : ∀ c ∈ p.chars, c.toNat < 128 := by
  have hdash : '-'.toNat < 128 := by decide
  have htime : 'T'.toNat < 128 := by decide
  have hcolon : ':'.toNat < 128 := by decide
  have hpoint : '.'.toNat < 128 := by decide
  have hzone : 'Z'.toNat < 128 := by decide
  rw [chars_eq]
  unfold rest
  simp only [List.forall_mem_append, List.forall_mem_cons]
  exact ⟨h.year.toNat_lt, hdash, numeral_toNat_lt h.month, hdash,
    numeral_toNat_lt h.day, htime, numeral_toNat_lt h.hour, hcolon, numeral_toNat_lt h.minute,
    hcolon, numeral_toNat_lt h.second, hpoint, numeral_toNat_lt h.millisecond, hzone,
    List.forall_mem_nil _⟩

end Spell

end Parts

/-- The parts of a reading. -/
def Reading.parts (r : Reading) : Parts where
  year := yearChars r.date.year
  month := padded 2 r.date.month
  day := padded 2 r.date.day
  hour := padded 2 r.hour
  minute := padded 2 r.minute
  second := padded 2 r.second
  millisecond := padded 3 r.millisecond

theorem Reading.IsValid.spell_parts {r : Reading} (h : r.IsValid) : r.parts.Spell r := by
  obtain ⟨⟨-, hmonth, -, hday⟩, hhour, hminute, hsecond, hmillisecond⟩ := h
  have hlength := daysInMonth_le r.date.year r.date.month
  exact {
    year := yearText_yearChars _
    month := numeral_padded_of_lt (by decide) (by omega)
    day := numeral_padded_of_lt (by decide) (by omega)
    hour := numeral_padded_of_lt (by decide) (by omega)
    minute := numeral_padded_of_lt (by decide) (by omega)
    second := numeral_padded_of_lt (by decide) (by omega)
    millisecond := numeral_padded_of_lt (by decide) (by omega) }

theorem instantChars_eq (ms : Int) : instantChars ms = (Reading.ofMillis ms).parts.chars := rfl

/-- A text says a reading. -/
def Reading.HasText (r : Reading) (text : String) : Prop :=
  ∃ p : Parts, p.Spell r ∧ text.toList = p.chars

theorem Reading.HasText.reading_eq {r s : Reading} {text : String} (hr : r.HasText text)
    (hs : s.HasText text) : r = s := by
  obtain ⟨p, hp, hptext⟩ := hr
  obtain ⟨q, hq, hqtext⟩ := hs
  exact hp.reading_eq hq (hptext.symm.trans hqtext)

/-- Between the years 0000 and 9999 the bytes of texts are in the order of the readings. -/
theorem Reading.HasText.bytes_lt_iff {r s : Reading} {a b : String} (hr : r.HasText a)
    (hs : s.HasText b) (hry : 0 ≤ r.date.year ∧ r.date.year ≤ 9999)
    (hsy : 0 ≤ s.date.year ∧ s.date.year ≤ 9999) :
    a.toUTF8.toList < b.toUTF8.toList ↔ r.Before s := by
  obtain ⟨p, hp, hptext⟩ := hr
  obtain ⟨q, hq, hqtext⟩ := hs
  rw [← hp.chars_lt_iff hq hry hsy, ← Text.toUTF8_lt_iff hp.toNat_lt hq.toNat_lt, ← hptext,
    ← hqtext, String.ofList_toList, String.ofList_toList]

/-! ## §5. Decoding. -/

/-- The text that a date is decoded to. -/
def dateText (ms : Int64) : String := String.ofList (instantChars ms.toInt)

theorem hasText_dateText (ms : Int64) : (Reading.ofMillis ms.toInt).HasText (dateText ms) := by
  refine ⟨_, (Reading.isValid_ofMillis ms.toInt).spell_parts, ?_⟩
  unfold dateText
  rw [String.toList_ofList, instantChars_eq]

theorem decode_date_of_representable {ms : Int64} (h : isRepresentable ms.toInt = true) :
    Bson.decode (.date ms) = .ok (.str (dateText ms)) := by
  unfold Bson.decode Bson.toValue
  rw [if_pos h]
  rfl

theorem decode_date_of_not_representable {ms : Int64} (h : ¬ isRepresentable ms.toInt = true) :
    Bson.decode (.date ms) = .error (.encoding
      s!"datetime {ms.toInt}ms is outside the representable range" "<root>") := by
  unfold Bson.decode Bson.toValue
  rw [if_neg h, ← ofList_intDigits]
  rfl

/-- What a date is decoded to is its text. -/
theorem eq_dateText_of_decode {ms : Int64} {v : Value} (h : Bson.decode (.date ms) = .ok v) :
    v = .str (dateText ms) := by
  by_cases hrange : isRepresentable ms.toInt = true
  · rw [decode_date_of_representable hrange] at h
    exact (Except.ok.inj h).symm
  · rw [decode_date_of_not_representable hrange] at h
    cases h

/-- Dates with the same text are the same. -/
theorem dateText_injective {m n : Int64} (h : dateText m = dateText n) : m = n := by
  have hreading := (hasText_dateText m).reading_eq (h ▸ hasText_dateText n)
  have hmillis := congrArg Reading.millis hreading
  rw [Reading.millis_ofMillis, Reading.millis_ofMillis] at hmillis
  exact Int64.toInt_inj.mp hmillis

/-- **Dates are decoded to the millisecond, and in their order.**  A date whose year lies from
-262143 to 262142 becomes the text of the valid reading that is so many milliseconds away from 1970,
and any other date is refused; different dates have different texts; from the year 0000 to the year
9999 the earlier of two dates has the smaller text, byte by byte. -/
theorem decode_date :
    (∀ ms : Int64, ∃ r : Reading, r.IsValid ∧ r.millis = ms.toInt ∧
      if -262143 ≤ r.date.year ∧ r.date.year ≤ 262142 then
        ∃ text, Bson.decode (.date ms) = .ok (.str text) ∧ r.HasText text
      else
        Bson.decode (.date ms) = .error (.encoding
          s!"datetime {ms.toInt}ms is outside the representable range" "<root>")) ∧
    (∀ (m n : Int64) (v : Value), Bson.decode (.date m) = .ok v → Bson.decode (.date n) = .ok v →
      m = n) ∧
    (∀ (m n : Int64) (r s : Reading), r.IsValid → s.IsValid →
      r.millis = m.toInt → s.millis = n.toInt →
      0 ≤ r.date.year ∧ r.date.year ≤ 9999 → 0 ≤ s.date.year ∧ s.date.year ≤ 9999 →
      ∃ a b, Bson.decode (.date m) = .ok (.str a) ∧ Bson.decode (.date n) = .ok (.str b) ∧
        (m < n ↔ a.toUTF8.toList < b.toUTF8.toList)) := by
  refine ⟨?_, ?_, ?_⟩
  · intro ms
    refine ⟨Reading.ofMillis ms.toInt, Reading.isValid_ofMillis _, Reading.millis_ofMillis _, ?_⟩
    have hrange := Reading.isRepresentable_iff ms.toInt
    by_cases h : isRepresentable ms.toInt = true
    · rw [if_pos (hrange.mp h)]
      exact ⟨dateText ms, decode_date_of_representable h, hasText_dateText ms⟩
    · rw [if_neg (fun hyear => h (hrange.mpr hyear))]
      exact decode_date_of_not_representable h
  · intro m n v hm hn
    have htext := (eq_dateText_of_decode hm).symm.trans (eq_dateText_of_decode hn)
    exact dateText_injective (Value.str.inj htext)
  · intro m n r s hr hs hm hn hry hsy
    -- The readings are those of the two times, since no others are as far away from 1970.
    have hrm : Reading.ofMillis m.toInt = r :=
      (Reading.isValid_ofMillis _).eq_of_millis_eq hr ((Reading.millis_ofMillis _).trans hm.symm)
    have hsn : Reading.ofMillis n.toInt = s :=
      (Reading.isValid_ofMillis _).eq_of_millis_eq hs ((Reading.millis_ofMillis _).trans hn.symm)
    have hmrange := Reading.isRepresentable_iff m.toInt
    have hnrange := Reading.isRepresentable_iff n.toInt
    rw [hrm] at hmrange
    rw [hsn] at hnrange
    refine ⟨dateText m, dateText n, decode_date_of_representable (hmrange.mpr (by omega)),
      decode_date_of_representable (hnrange.mpr (by omega)), ?_⟩
    have hmtext : r.HasText (dateText m) := hrm ▸ hasText_dateText m
    have hntext : s.HasText (dateText n) := hsn ▸ hasText_dateText n
    rw [hmtext.bytes_lt_iff hntext hry hsy, ← hr.millis_lt_iff hs, hm, hn, Int64.lt_iff_toInt_lt]

/-- Around the beginning of 1970. -/
theorem decode_date_around_1970 :
    ∃ a b, Bson.decode (.date (-1)) = .ok (.str a) ∧ Bson.decode (.date 0) = .ok (.str b) ∧
      ((-1 : Int64) < 0 ↔ a.toUTF8.toList < b.toUTF8.toList) :=
  decode_date.2.2 (-1) 0 ⟨⟨1969, 12, 31⟩, 23, 59, 59, 999⟩ ⟨⟨1970, 1, 1⟩, 0, 0, 0, 0⟩
    ⟨⟨by decide, by decide, by decide, by decide⟩, by decide, by decide, by decide, by decide⟩
    ⟨⟨by decide, by decide, by decide, by decide⟩, by decide, by decide, by decide, by decide⟩
    (by decide) (by decide) (by decide) (by decide)

example : dateText (-62198755200000) = "-0001-01-01T00:00:00.000Z" := by decide +kernel

end Calendar

end PolicyLookup
