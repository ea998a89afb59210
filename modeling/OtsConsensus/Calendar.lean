import OtsConsensus.Bytes

/-!
# UTC calendar readings of Unix times

`isTriggerBlock` converts block timestamps with `time.Unix(int64(t), 0).UTC()` and reads
`Year()`, `YearDay()` and `Hour()`. Go's `time` package reads the proleptic Gregorian calendar;
`civilYearDay` computes it from a day count by the standard era decomposition (400-year eras of
146097 days, years counted from March so that the leap day falls last).

`toInt64` is Go's conversion `int64(t)` of a `uint64`, which wraps to a negative value from
`2 ^ 63` on.

The main result is `civilYearDay_lt`: a later day reads later, by year and then by day of the
year. Year `k` of an era starts on its day `eraYearStart k` and lasts `eraYearLength k` days; the
year count of `civilYearDay` takes out the four-year, century and era leap days and gives `k` back
on every day of that year (`yearOfEra_eq`), so each day is read as its year and its day of that
year (`civilYearDay_eq`), and the next day as the next day of the year or as the first day of the
next year (`civilYearDay_lt_succ`).
-/

namespace Ots

/-- Go's `int64(x)` of a `uint64`: two's complement. -/
def toInt64 (x : UInt64) : Int :=
  if x.toNat < 2 ^ 63 then x.toNat else (x.toNat : Int) - 2 ^ 64

/-- Whether a Gregorian year has 366 days. -/
def isLeapYear (y : Int) : Bool := y % 4 == 0 && (y % 100 != 0 || y % 400 == 0)

/-- The Gregorian year and the day of the year (from 1) of a day number, day 0 being
1970-01-01. -/
def civilYearDay (days : Int) : Int × Nat :=
  let z := days + 719468
  let era := z / 146097
  let doe := (z - era * 146097).toNat
  let yoe := (doe - doe / 1460 + doe / 36524 - doe / 146096) / 365
  let doy := doe - (365 * yoe + yoe / 4 - yoe / 100)
  let y : Int := yoe + era * 400
  if doy ≥ 306 then (y + 1, doy - 305)
  else (y, doy + 60 + if isLeapYear y then 1 else 0)

/-- The readings of a `time.Time` in UTC that `isTriggerBlock` uses. -/
structure UtcReading where
  year : Int
  yearDay : Nat
  hour : Nat

/-- `time.Unix(sec, 0).UTC()`, read as year, day of the year and hour. -/
def unixUTC (sec : Int) : UtcReading :=
  let (year, yearDay) := civilYearDay (sec / 86400)
  { year := year, yearDay := yearDay, hour := (sec % 86400).toNat / 3600 }

/-- The UTC year of a time is the year of its day number. -/
@[simp] theorem unixUTC_year (sec : Int) : (unixUTC sec).year = (civilYearDay (sec / 86400)).1 := rfl

/-- The UTC day of the year of a time is that of its day number. -/
@[simp] theorem unixUTC_yearDay (sec : Int) :
    (unixUTC sec).yearDay = (civilYearDay (sec / 86400)).2 := rfl

/-! ## Later days read later -/

/-- The day of a 400-year era (from 1 March of a year divisible by 400) on which its year `k`,
counted from March, starts. -/
def eraYearStart (k : Nat) : Nat := 365 * k + k / 4 - k / 100

/-- The length of year `k` of an era: 366 days when the February it ends with has a 29th. -/
def eraYearLength (k : Nat) : Nat := if k % 4 = 3 ∧ (k % 100 ≠ 99 ∨ k = 399) then 366 else 365

/-- Each year of an era starts where the one before ends. -/
theorem eraYearStart_succ {k : Nat} (hk : k < 399) :
    eraYearStart (k + 1) = eraYearStart k + eraYearLength k := by
  unfold eraYearStart eraYearLength
  split_ifs <;> omega

/-- A year has 365 or 366 days. -/
theorem eraYearLength_bounds (k : Nat) : 365 ≤ eraYearLength k ∧ eraYearLength k ≤ 366 := by
  unfold eraYearLength; split_ifs <;> omega

/-- The leap-year test, as a proposition. -/
theorem isLeapYear_iff (y : Int) :
    isLeapYear y = true ↔ y % 4 = 0 ∧ (y % 100 ≠ 0 ∨ y % 400 = 0) := by
  simp [isLeapYear]

/-- **The year count of `civilYearDay`** gives back `k` on every day of year `k` of an era: the
four-year, century and era corrections take out exactly the leap days before it. -/
theorem yearOfEra_eq {k j : Nat} (hk : k ≤ 399) (hj : j < eraYearLength k) :
    (eraYearStart k + j - (eraYearStart k + j) / 1460 + (eraYearStart k + j) / 36524 -
      (eraYearStart k + j) / 146096) / 365 = k := by
  obtain ⟨c, a, b, hb, ha, rfl⟩ : ∃ c a b, b < 4 ∧ a < 25 ∧ k = 100 * c + 4 * a + b :=
    ⟨k / 100, k % 100 / 4, k % 4, by omega, by omega, by omega⟩
  have hdoe : eraYearStart (100 * c + 4 * a + b) = 36524 * c + 1461 * a + 365 * b := by
    unfold eraYearStart; omega
  have hlen : j ≤ 365 ∧ (j = 365 → b = 3 ∧ (a ≠ 24 ∨ c = 3)) := by
    unfold eraYearLength at hj; split_ifs at hj <;> omega
  rw [hdoe]
  have q1 : ∀ t, 1460 * t ≤ 24 * c + a + 365 * b + j → 24 * c + a + 365 * b + j < 1460 * (t + 1) →
      (36524 * c + 1461 * a + 365 * b + j) / 1460 = 25 * c + a + t := fun t h1 h2 =>
    Nat.div_eq_of_lt_le (by omega) (by omega)
  have q2 : ∀ t, 36524 * t ≤ 1461 * a + 365 * b + j → 1461 * a + 365 * b + j < 36524 * (t + 1) →
      (36524 * c + 1461 * a + 365 * b + j) / 36524 = c + t := fun t h1 h2 =>
    Nat.div_eq_of_lt_le (by omega) (by omega)
  have q3 : ∀ t, 146096 * t ≤ 36524 * c + 1461 * a + 365 * b + j →
      36524 * c + 1461 * a + 365 * b + j < 146096 * (t + 1) →
      (36524 * c + 1461 * a + 365 * b + j) / 146096 = t := fun t h1 h2 =>
    Nat.div_eq_of_lt_le (by omega) (by omega)
  have q4 : ∀ n, 365 * (100 * c + 4 * a + b) ≤ n → n < 365 * (100 * c + 4 * a + b + 1) →
      n / 365 = 100 * c + 4 * a + b := fun n h1 h2 => Nat.div_eq_of_lt_le (by omega) (by omega)
  by_cases hj' : j ≤ 364
  · rw [q2 0 (by omega) (by omega), q3 0 (by omega) (by omega)]
    by_cases ht : 1460 ≤ 24 * c + a + 365 * b + j
    · rw [q1 1 (by omega) (by omega)]; exact q4 _ (by omega) (by omega)
    · rw [q1 0 (by omega) (by omega)]; exact q4 _ (by omega) (by omega)
  · obtain ⟨rfl, hac⟩ := hlen.2 (by omega)
    rw [q1 1 (by omega) (by omega)]
    by_cases h24 : a = 24
    · rw [q2 1 (by omega) (by omega), q3 1 (by omega) (by omega)]; exact q4 _ (by omega) (by omega)
    · rw [q2 0 (by omega) (by omega), q3 0 (by omega) (by omega)]; exact q4 _ (by omega) (by omega)

/-- Every day of an era falls in one of its 400 years. -/
theorem eraYear_exists :
    ∀ doe, doe ≤ 146096 → ∃ k ≤ 399, ∃ j < eraYearLength k, doe = eraYearStart k + j
  | 0, _ => ⟨0, by omega, 0, by have := eraYearLength_bounds 0; omega, rfl⟩
  | n + 1, hn => by
    obtain ⟨k, hk, j, hj, rfl⟩ := eraYear_exists n (by omega)
    by_cases hj' : j + 1 < eraYearLength k
    · exact ⟨k, hk, j + 1, hj', by omega⟩
    have hk' : k < 399 := by
      by_contra h
      obtain rfl : k = 399 := by omega
      have : eraYearLength 399 = 366 := rfl
      have : eraYearStart 399 = 145731 := rfl
      omega
    exact ⟨k + 1, hk', 0, by have := eraYearLength_bounds (k + 1); omega,
      by rw [eraYearStart_succ hk']; omega⟩

/-- The last step of `civilYearDay`: day `j` of year `k` of an era, as the calendar year and the
day of that year. Days from the 306th of a year counted from March are in January or February of
the next calendar year. -/
def civilOfEra (era : Int) (k j : Nat) : Int × Nat :=
  let y : Int := k + era * 400
  if j ≥ 306 then (y + 1, j - 305) else (y, j + 60 + if isLeapYear y then 1 else 0)

/-- `civilYearDay` of a day given by its era, year and day. -/
theorem civilYearDay_eq {d era : Int} {k j : Nat} (hk : k ≤ 399) (hj : j < eraYearLength k)
    (hd : d + 719468 = 146097 * era + (eraYearStart k + j)) :
    civilYearDay d = civilOfEra era k j := by
  have hb : eraYearStart k ≤ 145731 := by unfold eraYearStart; omega
  have hl := eraYearLength_bounds k
  have hera : (d + 719468) / 146097 = era := by omega
  have hdoe : (d + 719468 - era * 146097).toNat = eraYearStart k + j := by omega
  have hday : eraYearStart k + j - (365 * k + k / 4 - k / 100) = j := by unfold eraYearStart; omega
  unfold civilYearDay civilOfEra
  dsimp only
  rw [hera, hdoe, yearOfEra_eq hk hj, hday]

/-- Every day has its era, its year of the era and its day of that year. -/
theorem civilYearDay_exists (d : Int) :
    ∃ era : Int, ∃ k ≤ 399, ∃ j < eraYearLength k,
      d + 719468 = 146097 * era + (eraYearStart k + j) := by
  obtain ⟨k, hk, j, hj, h⟩ := eraYear_exists ((d + 719468) % 146097).toNat (by omega)
  exact ⟨(d + 719468) / 146097, k, hk, j, hj, by omega⟩

/-- The next day of one year reads later. -/
theorem civilOfEra_lt_succ (era : Int) (k j : Nat) :
    Prod.Lex (· < ·) (· < ·) (civilOfEra era k j) (civilOfEra era k (j + 1)) := by
  unfold civilOfEra
  dsimp only
  by_cases h1 : j ≥ 306
  · rw [if_pos h1, if_pos (by omega)]; exact .right _ (by omega)
  by_cases h2 : j + 1 ≥ 306
  · rw [if_neg h1, if_pos h2]; exact .left _ _ (by omega)
  · rw [if_neg h1, if_neg h2]; exact .right _ (by omega)

/-- **The next day reads later**: the next day of the year, or the first day of the next year.
The last day of a year counted from March is in February, and it is the 60th only when the
calendar year it falls in is a leap year, whose 1 March is then the 61st. -/
theorem civilYearDay_lt_succ (d : Int) :
    Prod.Lex (· < ·) (· < ·) (civilYearDay d) (civilYearDay (d + 1)) := by
  obtain ⟨era, k, hk, j, hj, hd⟩ := civilYearDay_exists d
  rw [civilYearDay_eq hk hj hd]
  by_cases hj' : j + 1 < eraYearLength k
  · rw [@civilYearDay_eq (d + 1) era k (j + 1) hk hj' (by omega)]
    exact civilOfEra_lt_succ era k j
  have hlast : 364 ≤ j ∧ j ≤ 365 := by have := eraYearLength_bounds k; omega
  by_cases hk' : k < 399
  · rw [@civilYearDay_eq (d + 1) era (k + 1) 0 hk'
      (by have := eraYearLength_bounds (k + 1); omega) (by rw [eraYearStart_succ hk']; omega)]
    have hleap : j = 365 → isLeapYear ((k + 1 : Nat) + era * 400) = true := by
      unfold eraYearLength at hj hj'; rw [isLeapYear_iff]; split_ifs at hj hj' <;> omega
    unfold civilOfEra
    dsimp only
    rw [if_pos (by omega), if_neg (by omega), Prod.lex_def]
    refine .inr ⟨by push_cast; ring, ?_⟩
    split_ifs with h
    · omega
    · have := mt hleap h; omega
  · obtain rfl : k = 399 := by omega
    have : eraYearStart 399 = 145731 := rfl
    have : eraYearLength 399 = 366 := rfl
    rw [@civilYearDay_eq (d + 1) (era + 1) 0 0 (by norm_num) (by decide)
      (by rw [show eraYearStart 0 = 0 from rfl]; omega)]
    have hleap : isLeapYear ((0 : Nat) + (era + 1) * 400) = true := by rw [isLeapYear_iff]; omega
    unfold civilOfEra
    dsimp only
    rw [if_pos (by omega), if_neg (by omega), hleap, if_pos rfl, Prod.lex_def]
    exact .inr ⟨by push_cast; ring, by omega⟩

/-- **Later days read later**: `civilYearDay` is strictly increasing for the order of years, then
days of the year. -/
theorem civilYearDay_lt {d d' : Int} (h : d < d') :
    Prod.Lex (· < ·) (· < ·) (civilYearDay d) (civilYearDay d') := by
  obtain ⟨n, rfl⟩ : ∃ n : Nat, d' = d + 1 + n := ⟨(d' - d - 1).toNat, by omega⟩
  induction n with
  | zero => simpa using civilYearDay_lt_succ d
  | succ n ih =>
    have step := civilYearDay_lt_succ (d + 1 + n)
    rw [show d + 1 + n + 1 = d + 1 + (n + 1 : Nat) by push_cast; ring] at step
    exact Prod.Lex.trans (ih (by omega)) step

end Ots
