import StarNextImport.Basic

/-!
# StarNextImport.Time — `time_bin` over the `time` crate's `Time`

`Time` keeps the invariants of `time::Time` in its field types: an hour below 24, a minute and a
second below 60, a nanosecond below `10 ^ 9`.  `Time::replace_second` and `Time::replace_minute`
replace one field and keep the others, the nanosecond included, and fail with `ComponentRange`
on a value out of range.

`time_bin` zeroes the second and floors the minute to its quarter (`timeBin_eq`), so its `Err`
branch is dead.  The nanosecond is left as it was: two instants of one quarter-hour bin together
exactly when their nanoseconds agree (`timeBin_eq_timeBin_iff`).
-/

namespace StarNextImport

/-- `time::Time`, a clock time with its ranges carried by the field types. -/
structure Time where
  hour : Fin 24
  minute : Fin 60
  second : Fin 60
  nanosecond : Fin 1000000000
  deriving DecidableEq, Repr

/-- `time::Date`.  Dates are only compared, so a year and a day of that year stand for one. -/
structure Date where
  year : Int
  ordinal : Nat
  deriving DecidableEq, Repr

/-- `time::PrimitiveDateTime`. -/
structure PrimitiveDateTime where
  date : Date
  time : Time
  deriving DecidableEq, Repr

/-- `time::error::ComponentRange`: the component that was out of range and the value given. -/
structure ComponentRange where
  name : List Char
  value : Nat
  deriving DecidableEq, Repr

/-- `Time::replace_second`: replace the seconds within the minute. -/
def Time.replaceSecond (t : Time) (second : Nat) : Except ComponentRange Time :=
  if h : second < 60 then .ok { t with second := ⟨second, h⟩ }
  else .error ⟨"second".toList, second⟩

/-- `Time::replace_minute`: replace the minutes within the hour. -/
def Time.replaceMinute (t : Time) (minute : Nat) : Except ComponentRange Time :=
  if h : minute < 60 then .ok { t with minute := ⟨minute, h⟩ }
  else .error ⟨"minute".toList, minute⟩

/-- `time_bin`: put time into four bins per hour. -/
def timeBin (time : Time) : Except ComponentRange Time := do
  let time ← time.replaceSecond 0
  if time.minute.val ≤ 14 then time.replaceMinute 0
  else if time.minute.val ≤ 29 then time.replaceMinute 15
  else if time.minute.val ≤ 44 then time.replaceMinute 30
  else time.replaceMinute 45

/-- The start of the quarter-hour of `t`, keeping its nanosecond as `time_bin` does. -/
def Time.quarterStart (t : Time) : Time :=
  { t with minute := ⟨15 * (t.minute.val / 15), by omega⟩, second := 0 }

@[simp] theorem Time.quarterStart_hour (t : Time) : t.quarterStart.hour = t.hour := rfl
@[simp] theorem Time.quarterStart_minute (t : Time) :
    t.quarterStart.minute.val = 15 * (t.minute.val / 15) := rfl
@[simp] theorem Time.quarterStart_second (t : Time) : t.quarterStart.second = 0 := rfl
@[simp] theorem Time.quarterStart_nanosecond (t : Time) :
    t.quarterStart.nanosecond = t.nanosecond := rfl

theorem Time.ext_iff' {t u : Time} : t = u ↔
    t.hour = u.hour ∧ t.minute.val = u.minute.val ∧ t.second = u.second ∧
      t.nanosecond = u.nanosecond := by
  cases t; cases u; simp [Fin.ext_iff]

/-- **`time_bin` never fails**: it returns the start of the quarter-hour, second zero, with the
hour and the nanosecond of its argument. -/
theorem timeBin_eq (t : Time) : timeBin t = .ok t.quarterStart := by
  have hm := t.minute.isLt
  simp only [timeBin, Time.replaceSecond, Time.replaceMinute, Time.quarterStart,
    show (0 : Nat) < 60 by omega, dite_true, bind, Except.bind]
  split_ifs <;> first | omega | (simp [Time.ext_iff']; omega)

theorem quarterStart_quarterStart (t : Time) : t.quarterStart.quarterStart = t.quarterStart := by
  simp only [Time.ext_iff', Time.quarterStart_hour, Time.quarterStart_minute,
    Time.quarterStart_second, Time.quarterStart_nanosecond, true_and, and_true]
  omega

/-- `time_bin` is idempotent. -/
theorem timeBin_idem (t : Time) : (timeBin t >>= timeBin) = timeBin t := by
  simp only [timeBin_eq, bind, Except.bind, quarterStart_quarterStart]

/-- **Two instants share a bin** exactly when they have the same hour, the same quarter and the
same nanosecond. -/
theorem timeBin_eq_timeBin_iff (t u : Time) : timeBin t = timeBin u ↔
    t.hour = u.hour ∧ t.minute.val / 15 = u.minute.val / 15 ∧ t.nanosecond = u.nanosecond := by
  simp only [timeBin_eq, Except.ok.injEq, Time.ext_iff', Time.quarterStart_hour,
    Time.quarterStart_minute, Time.quarterStart_second, Time.quarterStart_nanosecond, true_and]
  constructor
  · rintro ⟨h1, h2, h3⟩; exact ⟨h1, by omega, h3⟩
  · rintro ⟨h1, h2, h3⟩; exact ⟨h1, by omega, h3⟩

/-- At `10:07:00.5` the half second survives the binning, so that instant and `10:07:00` land in
different bins of the same quarter-hour. -/
theorem timeBin_keeps_nanosecond :
    timeBin ⟨10, 7, 0, 500000000⟩ = .ok ⟨10, 0, 0, 500000000⟩ ∧
      timeBin ⟨10, 7, 0, 500000000⟩ ≠ timeBin ⟨10, 7, 0, 0⟩ := by
  refine ⟨rfl, ?_⟩
  rw [Ne, timeBin_eq_timeBin_iff]
  decide

end StarNextImport
