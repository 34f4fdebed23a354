import Mathlib.Tactic.Linarith
import Socle.Gregorian
import Socle.PythonJson

/-!
Python's `datetime` with its ISO 8601 texts.  A date and time is the reading of a wall
clock, in microseconds since the 1st of January of the year 1, and the offset of that
clock from UTC when it has one.  `fromisoformat` reads calendar and week dates, with
dashes and colons or without them; `isoformat` writes the first of these forms.
-/

namespace Socle.IsoDates

open Socle.Gregorian Socle.PythonText Socle.PythonJson

/-! ### Dates and times -/

/-- The days of the years 1 to 9999. -/
def dayCount : Nat := monthStart (9999 * 12)

def microsPerSecond : Nat := 1000000

def microsPerDay : Nat := 86400 * microsPerSecond

@[ext]
structure Datetime where
  clock : Nat
  offset : Option Int
  clock_lt : clock < dayCount * microsPerDay
  offset_lt : ∀ o ∈ offset, o.natAbs < microsPerDay
  deriving DecidableEq

/-- The constructor of `datetime`, which raises outside the years 1 to 9999. -/
def Datetime.make (clock : Nat) (offset : Option Int) : Option Datetime :=
  if h : clock < dayCount * microsPerDay ∧ ∀ o ∈ offset, o.natAbs < microsPerDay then
    some ⟨clock, offset, h.1, h.2⟩
  else none

/-- The instant, in microseconds, of a clock that has an offset. -/
def Datetime.instant (d : Datetime) : Option Int := d.offset.map fun o => d.clock - o

/-! ### Writing -/

def digit (n : Nat) : CodePoint := Fin.ofNat _ (48 + n)

/-- `f"{n:0k}"`, for a number of at most `k` digits. -/
def padded : Nat → Nat → Str
  | 0, _ => []
  | k + 1, n => padded k (n / 10) ++ [digit (n % 10)]

/-- `YYYY-MM-DD`. -/
def isoDate (day : Nat) : Str :=
  padded 4 (monthOf day / 12 + 1) ++ 45 :: (padded 2 (monthOf day % 12 + 1) ++
    45 :: padded 2 (day - monthStart (monthOf day) + 1))

/-- `HH:MM`. -/
def isoMinutes (seconds : Nat) : Str :=
  padded 2 (seconds / 3600) ++ 58 :: padded 2 (seconds / 60 % 60)

/-- `HH:MM:SS`. -/
def isoSeconds (seconds : Nat) : Str := isoMinutes seconds ++ 58 :: padded 2 (seconds % 60)

/-- `.ffffff`, or nothing. -/
def isoFraction (micros : Nat) : Str := if micros = 0 then [] else 46 :: padded 6 micros

/-- `+HH:MM[:SS[.ffffff]]`. -/
def isoOffset (offset : Int) : Str :=
  let micros := offset.natAbs
  let seconds := micros / microsPerSecond
  (if offset < 0 then 45 else 43) ::
    if micros % (60 * microsPerSecond) = 0 then isoMinutes seconds
    else isoSeconds seconds ++ isoFraction (micros % microsPerSecond)

/-- `strftime("%Y-%m-%dT%H:%M:%S")`. -/
def Datetime.strftimeSeconds (d : Datetime) : Str :=
  isoDate (d.clock / microsPerDay) ++
    84 :: isoSeconds (d.clock % microsPerDay / microsPerSecond)

def Datetime.isoformat (d : Datetime) : Str :=
  d.strftimeSeconds ++ (isoFraction (d.clock % microsPerSecond) ++
    (d.offset.map isoOffset).getD [])

/-! ### Reading -/

/-- The number in the first `k` characters, which are digits, and the rest. -/
def readDigits (k : Nat) (s : Str) : Option (Nat × Str) :=
  if (s.take k).length = k ∧ (s.take k).all isDigit = true then
    some (digitsValue (s.take k), s.drop k)
  else none

def skip (c : CodePoint) : Str → Option Str
  | [] => none
  | first :: rest => if first = c then some rest else none

/-- The separator, in a text that has separators. -/
def skipIf (separated : Bool) (c : CodePoint) (s : Str) : Option Str :=
  if separated then skip c s else some s

/-- A year, a month and a day, as the day they are. -/
def calendarDay (year month day : Nat) : Option Nat :=
  if 1 ≤ year ∧ 1 ≤ month ∧ month ≤ 12 ∧ 1 ≤ day ∧ day ≤ daysInMonth year month then
    some (monthStart ((year - 1) * 12 + (month - 1)) + (day - 1))
  else none

/-- The 1st of January of a year. -/
def newYear (year : Nat) : Nat := monthStart ((year - 1) * 12)

/-- Days from a Monday; the first of all the days is one. -/
def weekday (day : Nat) : Nat := day % 7

/-- The Monday of the first week of a year, which is the one of its first Thursday. -/
def firstMonday (year : Nat) : Nat :=
  newYear year - weekday (newYear year) + if 3 < weekday (newYear year) then 7 else 0

/-- The years of 53 weeks. -/
def isLong (year : Nat) : Bool :=
  weekday (newYear year) = 3 ∨ weekday (newYear year) = 2 ∧ isLeap year

/-- A year, a week and a day of the week, as the day they are: `_isoweek_to_gregorian`. -/
def weekDay (year week day : Nat) : Option Nat :=
  if 1 ≤ year ∧ (1 ≤ week ∧ week ≤ 52 ∨ week = 53 ∧ isLong year) ∧ 1 ≤ day ∧ day ≤ 7 then
    some (firstMonday year + (week - 1) * 7 + (day - 1))
  else none

/-- `YYYY-MM-DD`, `YYYY-Www` or `YYYY-Www-D`, or one of these without the dashes, as its
day: `_parse_isoformat_date`, which leaves what follows a day. -/
def readDate (s : Str) : Option Nat := do
  let (year, s) ← readDigits 4 s
  let dashed := decide (s.head? = some 45)
  let s ← skipIf dashed 45 s
  if s.head? = some 87 then
    let (week, s) ← readDigits 2 (s.drop 1)
    if s = [] then weekDay year week 1
    else
      let s ← skipIf dashed 45 s
      let (day, _) ← readDigits 1 s
      weekDay year week day
  else
    let (month, s) ← readDigits 2 s
    let s ← skipIf dashed 45 s
    let (day, _) ← readDigits 2 s
    calendarDay year month day

/-- `date.fromisoformat`. -/
def dateFromisoformat (s : Str) : Option Nat :=
  if s.length = 7 ∨ s.length = 8 ∨ s.length = 10 then readDate s else none

/-- Where the date of a date and time ends: `_find_isoformat_datetime_separator`. -/
def dateLength (s : Str) : Nat :=
  if s.length = 7 then 7
  else if s[4]? = some 45 then
    if s[5]? = some 87 ∧ (s[8]? ≠ some 45 ∨ (s[10]?).any isDigit = true) then 8 else 10
  else if s[4]? = some 87 then
    -- hours and minutes have two digits each, so the parity tells whose the first one is
    let digits := ((s.drop 7).takeWhile isDigit).length
    if digits < 2 then 7 + digits else if digits % 2 = 1 then 7 else 8
  else 8

/-- Microseconds from the digits of a fraction; those after the sixth are dropped. -/
def readFraction (s : Str) : Option Nat :=
  if s ≠ [] ∧ s.all isDigit = true then
    some (digitsValue (s.take 6 ++ List.replicate (6 - s.length) 48))
  else none

structure Fields where
  hours : Nat
  minutes : Nat := 0
  seconds : Nat := 0
  micros : Nat := 0

def Fields.total (f : Fields) : Nat :=
  ((f.hours * 60 + f.minutes) * 60 + f.seconds) * microsPerSecond + f.micros

/-- `HH[:MM[:SS[.f…]]]`, or this without the colons: `_parse_hh_mm_ss_ff`. -/
def readFields (s : Str) : Option Fields := do
  let (hours, s) ← readDigits 2 s
  if s = [] then return { hours := hours }
  let colons := decide (s.head? = some 58)
  let s ← skipIf colons 58 s
  let (minutes, s) ← readDigits 2 s
  if s = [] then return { hours := hours, minutes := minutes }
  let s ← skipIf colons 58 s
  let (seconds, s) ← readDigits 2 s
  if s = [] then return { hours := hours, minutes := minutes, seconds := seconds }
  let s ← (skip 46 s).orElse fun _ => skip 44 s
  let micros ← readFraction s
  return { hours := hours, minutes := minutes, seconds := seconds, micros := micros }

/-- Where the offset begins. -/
def isSign (c : CodePoint) : Bool := c = 43 || c = 45 || c = 90

/-- An offset, or none. -/
def readOffset : Str → Option (Option Int)
  | [] => some none
  | sign :: rest =>
      if sign = 90 then if rest = [] then some (some 0) else none
      else do
        let f ← readFields rest
        return some (if sign = 45 then -(f.total : Int) else f.total)

/-- `datetime.fromisoformat`. -/
def fromisoformat (s : Str) : Option Datetime := do
  let day ← readDate (s.take (dateLength s))
  let s := s.drop (dateLength s + 1)
  if s = [] then Datetime.make (day * microsPerDay) none
  else
    let f ← readFields (s.takeWhile fun c => !isSign c)
    let offset ← readOffset (s.dropWhile fun c => !isSign c)
    if f.hours < 24 ∧ f.minutes < 60 ∧ f.seconds < 60 then
      Datetime.make (day * microsPerDay + f.total) offset
    else none

section Digits

variable {k n : Nat} {rest : Str}

theorem val_digit (h : n < 10) : (digit n).val = 48 + n := by
  show (48 + n) % 0x110000 = 48 + n
  exact Nat.mod_eq_of_lt (by omega)

theorem isDigit_digit (h : n < 10) : isDigit (digit n) = true := by
  simp only [isDigit, val_digit h, Bool.and_eq_true, decide_eq_true_eq]
  omega

@[simp] theorem length_padded (k n : Nat) : (padded k n).length = k := by
  induction k generalizing n with
  | zero => rfl
  | succ k ih => rw [padded, List.length_append, ih, List.length_singleton]

theorem all_isDigit_padded (k n : Nat) : (padded k n).all isDigit = true := by
  induction k generalizing n with
  | zero => rfl
  | succ k ih =>
      rw [padded, List.all_append, ih, Bool.true_and, List.all_cons,
        isDigit_digit (Nat.mod_lt _ (by decide)), List.all_nil, Bool.true_and]

theorem digitsValue_padded (h : n < 10 ^ k) : digitsValue (padded k n) = n := by
  induction k generalizing n with
  | zero => exact (Nat.lt_one_iff.mp h).symm
  | succ k ih =>
      have hlast : n % 10 < 10 := Nat.mod_lt _ (by decide)
      have hfirst : digitsValue (padded k (n / 10)) = n / 10 := by
        refine ih (Nat.div_lt_of_lt_mul ?_)
        rwa [pow_succ, mul_comm] at h
      unfold digitsValue at hfirst ⊢
      rw [padded, List.foldl_append, hfirst, List.foldl_cons, List.foldl_nil, val_digit hlast]
      omega

theorem readDigits_padded (h : n < 10 ^ k) : readDigits k (padded k n ++ rest) = some (n, rest) := by
  have htake : (padded k n ++ rest).take k = padded k n := List.take_left' (length_padded k n)
  have hdrop : (padded k n ++ rest).drop k = rest := List.drop_left' (length_padded k n)
  rw [readDigits, htake, hdrop, digitsValue_padded h]
  exact if_pos ⟨length_padded k n, all_isDigit_padded k n⟩

theorem readDigits_padded_nil (h : n < 10 ^ k) : readDigits k (padded k n) = some (n, []) := by
  have hread : readDigits k (padded k n ++ []) = some (n, []) := readDigits_padded h
  rwa [List.append_nil] at hread

theorem padded_ne_nil (k n : Nat) : padded (k + 1) n ≠ [] := by
  intro h
  have hlength := length_padded (k + 1) n
  rw [h] at hlength
  cases hlength

theorem head_padded_ne {c : CodePoint} (hc : isDigit c = false) :
    (padded (k + 1) n ++ rest).head? ≠ some c := by
  obtain ⟨first, digits, hfirst⟩ := List.exists_cons_of_ne_nil (padded_ne_nil k n)
  rw [hfirst, List.cons_append, List.head?_cons]
  rintro h
  have hdigit := List.all_eq_true.mp (all_isDigit_padded (k + 1) n) first
    (hfirst ▸ List.mem_cons_self)
  rw [Option.some.inj h, hc] at hdigit
  cases hdigit

theorem skip_cons (c : CodePoint) (rest : Str) : skip c (c :: rest) = some rest := if_pos rfl

theorem skipIf_cons (c : CodePoint) (rest : Str) : skipIf true c (c :: rest) = some rest :=
  skip_cons c rest

end Digits

section RoundTrips

variable {day seconds micros : Nat} {rest : Str}

theorem day_in_month (day : Nat) : monthStart (monthOf day) ≤ day ∧
    day - monthStart (monthOf day) <
      daysInMonth (monthOf day / 12 + 1) (monthOf day % 12 + 1) := by
  have hstart : monthStart (monthOf day) ≤ day := monthStart_le_iff.mpr le_rfl
  have hend : ¬ monthStart (monthOf day + 1) ≤ day := by
    rw [monthStart_le_iff]
    exact Nat.not_succ_le_self _
  rw [monthStart_succ] at hend
  exact ⟨hstart, by omega⟩

theorem length_isoDate (day : Nat) : (isoDate day).length = 10 := by
  simp [isoDate]

theorem dateLength_isoDate : dateLength (isoDate day ++ rest) = 10 := by
  have hlength : (isoDate day ++ rest).length ≠ 7 := by
    rw [List.length_append, length_isoDate]
    omega
  have hdash : (isoDate day ++ rest)[4]? = some 45 := rfl
  have hweek : (isoDate day ++ rest)[5]? ≠ some 87 := by
    have hmonth : (isoDate day ++ rest)[5]? = (padded 2 (monthOf day % 12 + 1) ++
        45 :: (padded 2 (day - monthStart (monthOf day) + 1) ++ rest)).head? := rfl
    rw [hmonth]
    exact head_padded_ne (by decide)
  rw [dateLength, if_neg hlength, if_pos hdash, if_neg fun h => hweek h.1]

theorem readDate_isoDate (h : day < dayCount) : readDate (isoDate day) = some day := by
  obtain ⟨hstart, hlength⟩ := day_in_month day
  have hmonth : monthOf day < 9999 * 12 := by
    rw [← not_le, ← monthStart_le_iff]
    exact not_le.mpr h
  have hbound := (daysInMonth_bounds (monthOf day / 12 + 1) (monthOf day % 12 + 1)).2
  have hindex : (monthOf day / 12 + 1 - 1) * 12 + (monthOf day % 12 + 1 - 1) = monthOf day := by
    omega
  have hvalid : 1 ≤ monthOf day / 12 + 1 ∧ 1 ≤ monthOf day % 12 + 1 ∧ monthOf day % 12 + 1 ≤ 12 ∧
      1 ≤ day - monthStart (monthOf day) + 1 ∧ day - monthStart (monthOf day) + 1 ≤
        daysInMonth (monthOf day / 12 + 1) (monthOf day % 12 + 1) :=
    ⟨by omega, by omega, by omega, by omega, by omega⟩
  have hday : monthStart (monthOf day) + (day - monthStart (monthOf day) + 1 - 1) = day := by omega
  have hlast : readDigits 2 (padded 2 (day - monthStart (monthOf day) + 1)) =
      some (day - monthStart (monthOf day) + 1, []) := readDigits_padded_nil (by omega)
  have hcalendar : ∀ rest, (padded 2 (monthOf day % 12 + 1) ++ rest).head? ≠ some 87 :=
    fun rest => head_padded_ne (by decide)
  simp only [readDate, isoDate]
  rw [readDigits_padded (by omega)]
  simp only [Option.bind_eq_bind, Option.bind_some, List.head?_cons, decide_true, skipIf_cons]
  rw [if_neg (hcalendar _), readDigits_padded (by omega)]
  simp only [Option.bind_some, skipIf_cons, hlast]
  rw [calendarDay, if_pos hvalid, hindex, hday]

theorem readFields_isoMinutes (h : seconds < 86400) : readFields (isoMinutes seconds) =
    some { hours := seconds / 3600, minutes := seconds / 60 % 60 } := by
  have hminutes : readDigits 2 (padded 2 (seconds / 60 % 60)) = some (seconds / 60 % 60, []) :=
    readDigits_padded_nil (by omega)
  rw [isoMinutes, readFields, readDigits_padded (by omega)]
  simp only [Option.bind_eq_bind, Option.bind_some, List.head?_cons, decide_true, skipIf_cons,
    hminutes]
  rfl

theorem readFraction_padded (h : micros < microsPerSecond) :
    readFraction (padded 6 micros) = some micros := by
  rw [readFraction, if_pos ⟨padded_ne_nil 5 micros, all_isDigit_padded 6 micros⟩, length_padded,
    List.take_of_length_le (length_padded 6 micros).le]
  show some (digitsValue (padded 6 micros ++ [])) = some micros
  rw [List.append_nil, digitsValue_padded h]

theorem readFields_isoSeconds (h : seconds < 86400) (hmicros : micros < microsPerSecond) :
    readFields (isoSeconds seconds ++ isoFraction micros) =
      some { hours := seconds / 3600, minutes := seconds / 60 % 60, seconds := seconds % 60
             micros := micros } := by
  have hseconds : ∀ rest, readDigits 2 (padded 2 (seconds % 60) ++ rest) =
      some (seconds % 60, rest) := fun rest => readDigits_padded (by omega)
  simp only [isoSeconds, isoMinutes, readFields, List.append_assoc, List.cons_append]
  rw [readDigits_padded (by omega)]
  simp only [Option.bind_eq_bind, Option.bind_some, List.head?_cons, decide_true, skipIf_cons]
  rw [if_neg (List.cons_ne_nil _ _), readDigits_padded (by omega)]
  simp only [Option.bind_some]
  rw [if_neg (List.cons_ne_nil _ _)]
  simp only [Option.bind_some, skipIf_cons, hseconds]
  by_cases hzero : micros = 0
  · subst hzero
    rfl
  · have hfraction : isoFraction micros = 46 :: padded 6 micros := if_neg hzero
    rw [hfraction, if_neg (List.cons_ne_nil _ _)]
    simp only [skip_cons, Option.orElse_some, Option.bind_some, readFraction_padded hmicros]
    rfl

theorem total_isoSeconds (seconds micros : Nat) :
    ({ hours := seconds / 3600, minutes := seconds / 60 % 60, seconds := seconds % 60
       micros := micros } : Fields).total = seconds * microsPerSecond + micros := by
  have hseconds : (seconds / 3600 * 60 + seconds / 60 % 60) * 60 + seconds % 60 = seconds := by omega
  rw [Fields.total, hseconds]

theorem readOffset_isoOffset {offset : Int} (h : offset.natAbs < microsPerDay) :
    readOffset (isoOffset offset) = some (some offset) := by
  have hseconds : offset.natAbs / microsPerSecond < 86400 := Nat.div_lt_of_lt_mul (by
    rwa [microsPerDay, mul_comm] at h)
  have hmicros : offset.natAbs % microsPerSecond < microsPerSecond := Nat.mod_lt _ (by decide)
  have hsign : ∀ {rest f}, readFields rest = some f → f.total = offset.natAbs →
      readOffset ((if offset < 0 then 45 else 43) :: rest) = some (some offset) := by
    intro rest f hread htotal
    by_cases hneg : offset < 0
    · rw [if_pos hneg, readOffset, if_neg (by decide), hread, Option.bind_eq_bind, Option.bind_some,
        if_pos rfl, htotal, Int.ofNat_natAbs_of_nonpos hneg.le, Int.neg_neg]
      rfl
    · rw [if_neg hneg, readOffset, if_neg (by decide), hread, Option.bind_eq_bind, Option.bind_some,
        if_neg (by decide), htotal, Int.natAbs_of_nonneg (not_lt.mp hneg)]
      rfl
  unfold isoOffset
  by_cases hwhole : offset.natAbs % (60 * microsPerSecond) = 0
  · simp only [if_pos hwhole]
    refine hsign (readFields_isoMinutes hseconds) ?_
    rw [Fields.total]
    simp only [microsPerSecond] at hwhole ⊢
    omega
  · simp only [if_neg hwhole]
    refine hsign (readFields_isoSeconds hseconds hmicros) ?_
    rw [total_isoSeconds]
    exact Nat.div_add_mod' _ _

theorem isSign_digit {n : Nat} (h : n < 10) : isSign (digit n) = false := by
  have hval := val_digit h
  have hne : ∀ c : CodePoint, c.val < 48 ∨ 57 < c.val → digit n ≠ c := by
    rintro c hc rfl
    omega
  simp only [isSign, hne 43 (by decide), hne 45 (by decide), hne 90 (by decide), decide_false,
    Bool.or_false]

theorem isSign_padded {k n : Nat} : ∀ c ∈ padded k n, isSign c = false := by
  induction k generalizing n with
  | zero => nofun
  | succ k ih =>
      intro c hc
      rcases List.mem_append.mp hc with hc | hc
      · exact ih c hc
      · rw [List.mem_singleton.mp hc]
        exact isSign_digit (Nat.mod_lt _ (by decide))

theorem isSign_time : ∀ c ∈ isoSeconds seconds ++ isoFraction micros, isSign c = false := by
  intro c hc
  simp only [isoSeconds, isoMinutes, List.mem_append, List.mem_cons] at hc
  rcases hc with ((hc | rfl | hc) | rfl | hc) | hc
  · exact isSign_padded c hc
  · rfl
  · exact isSign_padded c hc
  · rfl
  · exact isSign_padded c hc
  · unfold isoFraction at hc
    split at hc
    · cases hc
    · rcases List.mem_cons.mp hc with rfl | hc
      · rfl
      · exact isSign_padded c hc

theorem splits_at_sign {time zone : Str} (htime : ∀ c ∈ time, isSign c = false)
    (hzone : ∀ c ∈ zone.head?, isSign c = true) :
    (time ++ zone).takeWhile (fun c => !isSign c) = time ∧
      (time ++ zone).dropWhile (fun c => !isSign c) = zone := by
  have hall : ∀ c ∈ time, (!isSign c) = true := fun c hc => by rw [htime c hc]; rfl
  rw [List.takeWhile_append_of_pos hall, List.dropWhile_append_of_pos hall]
  cases zone with
  | nil => simp
  | cons c rest =>
      have hsign : (!isSign c) = false := by rw [hzone c rfl]; rfl
      simp [hsign]

theorem point_notMem_strftimeSeconds (d : Datetime) : (46 : CodePoint) ∉ d.strftimeSeconds := by
  have hpadded : ∀ k n, (46 : CodePoint) ∉ padded k n := fun k n hmem =>
    absurd (List.all_eq_true.mp (all_isDigit_padded k n) 46 hmem) (by decide)
  simp only [Datetime.strftimeSeconds, isoDate, isoSeconds, isoMinutes, List.mem_append,
    List.mem_cons, hpadded, false_or, or_false]
  decide

/-- What `isoformat` writes is read back. -/
theorem fromisoformat_isoformat (d : Datetime) : fromisoformat d.isoformat = some d := by
  let seconds := d.clock % microsPerDay / microsPerSecond
  let micros := d.clock % microsPerSecond
  let zone : Str := (d.offset.map isoOffset).getD []
  have htext : d.isoformat = isoDate (d.clock / microsPerDay) ++
      84 :: ((isoSeconds seconds ++ isoFraction micros) ++ zone) := by
    simp only [Datetime.isoformat, Datetime.strftimeSeconds, List.append_assoc, List.cons_append]
    rfl
  have hday : d.clock / microsPerDay < dayCount := by
    refine Nat.div_lt_of_lt_mul ?_
    rw [mul_comm]
    exact d.clock_lt
  have hseconds : seconds < 86400 := by
    refine Nat.div_lt_of_lt_mul ?_
    rw [mul_comm]
    exact Nat.mod_lt _ (by decide)
  have hmicros : micros < microsPerSecond := Nat.mod_lt _ (by decide)
  have hoffset : readOffset zone = some d.offset := by
    cases hd : d.offset with
    | none => simp only [zone, hd]; rfl
    | some o =>
        simp only [zone, hd]
        exact readOffset_isoOffset (d.offset_lt o hd)
  have hzone : ∀ c ∈ zone.head?, isSign c = true := by
    cases hd : d.offset with
    | none => simp only [zone, hd]; exact nofun
    | some o =>
        simp only [zone, hd]
        intro c hc
        cases hc
        split
        · rfl
        · rfl
  have hsigns : ∀ c ∈ isoSeconds seconds ++ isoFraction micros, isSign c = false := isSign_time
  obtain ⟨htime, hrest⟩ := splits_at_sign hsigns hzone
  have hne : (isoSeconds seconds ++ isoFraction micros) ++ zone ≠ [] := by
    simp [isoSeconds, isoMinutes]
  have hfields : seconds / 3600 < 24 ∧ seconds / 60 % 60 < 60 ∧ seconds % 60 < 60 := by omega
  have hclock : d.clock / microsPerDay * microsPerDay + (seconds * microsPerSecond + micros) =
      d.clock := by
    simp only [seconds, micros, microsPerDay, microsPerSecond]
    omega
  have hdate : (isoDate (d.clock / microsPerDay) ++
      84 :: ((isoSeconds seconds ++ isoFraction micros) ++ zone)).take 10 =
        isoDate (d.clock / microsPerDay) := List.take_left' (length_isoDate _)
  have hafter : (isoDate (d.clock / microsPerDay) ++
      84 :: ((isoSeconds seconds ++ isoFraction micros) ++ zone)).drop (10 + 1) =
        (isoSeconds seconds ++ isoFraction micros) ++ zone := by
    rw [← List.drop_drop, List.drop_left' (length_isoDate _), List.drop_succ_cons, List.drop_zero]
  rw [htext, fromisoformat, dateLength_isoDate, hdate, hafter, readDate_isoDate hday]
  simp only [Option.bind_eq_bind, Option.bind_some]
  rw [if_neg hne, htime, hrest, readFields_isoSeconds hseconds hmicros, hoffset]
  simp only [Option.bind_some]
  rw [if_pos hfields, total_isoSeconds, hclock]
  exact dif_pos ⟨d.clock_lt, d.offset_lt⟩

/-- The format without fraction and offset keeps the whole seconds of the clock. -/
theorem fromisoformat_strftimeSeconds (d : Datetime) :
    ∃ d', fromisoformat d.strftimeSeconds = some d' ∧
      d'.clock = d.clock / microsPerSecond * microsPerSecond ∧ d'.offset = none := by
  have hle : d.clock / microsPerSecond * microsPerSecond ≤ d.clock := Nat.div_mul_le_self _ _
  let whole : Datetime := ⟨d.clock / microsPerSecond * microsPerSecond, none,
    hle.trans_lt d.clock_lt, nofun⟩
  refine ⟨whole, ?_, rfl, rfl⟩
  have hday : d.clock / microsPerSecond * microsPerSecond / microsPerDay =
      d.clock / microsPerDay := by
    simp only [microsPerDay, microsPerSecond]
    omega
  have hseconds : d.clock / microsPerSecond * microsPerSecond % microsPerDay / microsPerSecond =
      d.clock % microsPerDay / microsPerSecond := by
    simp only [microsPerDay, microsPerSecond]
    omega
  have hfraction : isoFraction (whole.clock % microsPerSecond) = [] :=
    if_pos (Nat.mul_mod_left _ _)
  have htext : whole.isoformat = d.strftimeSeconds := by
    rw [Datetime.isoformat, hfraction]
    show whole.strftimeSeconds ++ [] = d.strftimeSeconds
    rw [List.append_nil, Datetime.strftimeSeconds, Datetime.strftimeSeconds]
    show isoDate (d.clock / microsPerSecond * microsPerSecond / microsPerDay) ++ 84 :: isoSeconds
      (d.clock / microsPerSecond * microsPerSecond % microsPerDay / microsPerSecond) = _
    rw [hday, hseconds]
  rw [← htext]
  exact fromisoformat_isoformat whole

end RoundTrips

end Socle.IsoDates
