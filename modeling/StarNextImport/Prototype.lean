import StarNextImport.Time
import StarNextImport.Counts
import Mathlib.Tactic.IntervalCases

/-!
# StarNextImport.Prototype — the binning of the prototype binary `main.rs`

`main.rs` bins with its own functions, which `lib.rs` replaced: `SpeedBins::bin` casts the speed
to an `i32` and matches whole-number ranges `0..=14`, `15..=19`, ..., `75..`, and `time_bin`
unwraps the calls that `lib.rs` propagates with `?`.

* `timeBin_agrees`: the prototype's `time_bin` never panics and agrees with the one of `lib.rs`.
* `bin_index`: a speed without the sign bit lands in the range of its `i32` cast, and so
  (`SpeedBins.bin_eq_error_iff`) the only error is the one on the sign bit.
* `bin_index_of_speedRange`, `bin_index_of_inGap`: against `SpeedRangeCount::insert`, the two
  binnings differ only on the upper end `5k` of a range, which the prototype puts one range
  higher, and on the gaps below the `f32` literals, which `insert` rejects and the prototype bins
  with the range above.
-/

namespace StarNextImport

namespace Prototype

/-! ### `time_bin` -/

/-- `time_bin` of `main.rs`: `none` is a panic of one of its `unwrap`s. -/
def timeBin (time : Time) : Option (Except (List Char) Time) := do
  let time ← (time.replaceSecond 0).toOption
  if time.minute.val ≤ 14 then (time.replaceMinute 0).toOption.map .ok
  else if time.minute.val ≤ 29 then (time.replaceMinute 15).toOption.map .ok
  else if time.minute.val ≤ 44 then (time.replaceMinute 30).toOption.map .ok
  else if time.minute.val ≤ 59 then (time.replaceMinute 45).toOption.map .ok
  else some (.error "Invalid minute".toList)

/-- **The prototype's `time_bin` never panics** and returns what `time_bin` of `lib.rs` does. -/
theorem timeBin_agrees (t : Time) :
    timeBin t = some (.ok t.quarterStart) ∧ StarNextImport.timeBin t = .ok t.quarterStart := by
  refine ⟨?_, StarNextImport.timeBin_eq t⟩
  have hm := t.minute.isLt
  simp only [timeBin, Time.replaceSecond, Time.replaceMinute, Time.quarterStart, Nat.reduceLT,
    dite_true, Except.toOption, bind, Option.bind, Option.map_some']
  split_ifs <;> first | omega | (simp only [Option.some.injEq, Except.ok.injEq, Time.ext_iff',
    Fin.zero_eta, true_and, and_true]; omega)

/-! ### `SpeedBins::bin` -/

/-- The 14 speed ranges of `main.rs`: 0-15, 5-mph increments to 75, more than 75.  In the
`TC_SPECOUNT` table, the fieldnames for this are `S1` to `S14`. -/
inductive SpeedBins where
  | zeroToFourteen
  | fifteenToNineteen
  | twentyToTwentyFour
  | twentyFiveToTwentyNine
  | thirtyToThirtyFour
  | thirtyFiveToThirtyNine
  | fourtyToFourtyFour
  | fourtyFiveToFourtyNine
  | fiftyToFiftyFour
  | fiftyFiveToFiftyNine
  | sixtyToSixtyFour
  | sixtyFiveToSixtyNine
  | seventyToSeventyFour
  | seventyFivePlus
  deriving DecidableEq, Repr

/-- The field `S1` to `S14` of a bin. -/
def SpeedBins.index : SpeedBins → Nat
  | .zeroToFourteen => 1 | .fifteenToNineteen => 2 | .twentyToTwentyFour => 3
  | .twentyFiveToTwentyNine => 4 | .thirtyToThirtyFour => 5 | .thirtyFiveToThirtyNine => 6
  | .fourtyToFourtyFour => 7 | .fourtyFiveToFourtyNine => 8 | .fiftyToFiftyFour => 9
  | .fiftyFiveToFiftyNine => 10 | .sixtyToSixtyFour => 11 | .sixtyFiveToSixtyNine => 12
  | .seventyToSeventyFour => 13 | .seventyFivePlus => 14

/-- The two `Err`s of `SpeedBins::bin`, `invalid speed '{speed}'` on the `f32` and on the `i32`. -/
inductive BinError where
  | invalidSpeed (speed : F32)
  | invalidCast (speed : Int)
  deriving DecidableEq, Repr

/-- `speed as i32` for an `f32`: rounded towards zero, saturating at the ends of `i32`, and `0`
for a NaN. -/
def castI32 : F32 → Int
  | .finite x => if x < 0 then max ⌈x⌉ (-2 ^ 31) else min ⌊x⌋ (2 ^ 31 - 1)
  | .negZero | .nan _ => 0
  | .infinity negative => if negative then -2 ^ 31 else 2 ^ 31 - 1

/-- `SpeedBins::bin`: a speed with the sign bit is an error; otherwise the range of its `i32`
cast. -/
def SpeedBins.bin (speed : F32) : Except BinError SpeedBins :=
  if speed.isSignNegative then .error (.invalidSpeed speed)
  else
    let speed := castI32 speed
    if 0 ≤ speed ∧ speed ≤ 14 then .ok .zeroToFourteen
    else if 15 ≤ speed ∧ speed ≤ 19 then .ok .fifteenToNineteen
    else if 20 ≤ speed ∧ speed ≤ 24 then .ok .twentyToTwentyFour
    else if 25 ≤ speed ∧ speed ≤ 29 then .ok .twentyFiveToTwentyNine
    else if 30 ≤ speed ∧ speed ≤ 34 then .ok .thirtyToThirtyFour
    else if 35 ≤ speed ∧ speed ≤ 39 then .ok .thirtyFiveToThirtyNine
    else if 40 ≤ speed ∧ speed ≤ 44 then .ok .fourtyToFourtyFour
    else if 45 ≤ speed ∧ speed ≤ 49 then .ok .fourtyFiveToFourtyNine
    else if 50 ≤ speed ∧ speed ≤ 54 then .ok .fiftyToFiftyFour
    else if 55 ≤ speed ∧ speed ≤ 59 then .ok .fiftyFiveToFiftyNine
    else if 60 ≤ speed ∧ speed ≤ 64 then .ok .sixtyToSixtyFour
    else if 65 ≤ speed ∧ speed ≤ 69 then .ok .sixtyFiveToSixtyNine
    else if 70 ≤ speed ∧ speed ≤ 74 then .ok .seventyToSeventyFour
    else if 75 ≤ speed then .ok .seventyFivePlus
    else .error (.invalidCast speed)

theorem castI32_nonneg {s : F32} (hs : s.isSignNegative = false) : 0 ≤ castI32 s := by
  cases s with
  | finite x =>
    have hx : 0 ≤ x := by simpa [F32.isSignNegative] using hs
    rw [castI32, if_neg (not_lt.2 hx)]
    exact le_min (Int.floor_nonneg.2 hx) (by norm_num)
  | negZero | nan => exact le_rfl
  | infinity negative => cases hs; decide

/-- The range a whole-number speed `n ≥ 0` falls in: `n / 5 - 1` between 15 and 74. -/
def wholeIndex (n : Int) : Nat :=
  if n ≤ 14 then 1 else if 75 ≤ n then 14 else (n / 5 - 1).toNat

/-- **A speed without the sign bit lands in the range of its `i32` cast.** -/
theorem bin_index {s : F32} (hs : s.isSignNegative = false) :
    (SpeedBins.bin s).map SpeedBins.index = .ok (wholeIndex (castI32 s)) := by
  have h0 := castI32_nonneg hs
  rw [SpeedBins.bin, if_neg (by simp [hs])]
  generalize castI32 s = m at h0 ⊢
  dsimp only
  unfold wholeIndex
  rcases show 75 ≤ m ∨ m ≤ 74 by omega with hhi | hlo
  · simp (disch := omega) only [if_pos, if_neg, Except.map, SpeedBins.index]
  · interval_cases m <;> rfl

/-- **The prototype rejects exactly the speeds with the sign bit**, `-0.0` among them: its second
error, on the `i32`, is never reached. -/
theorem SpeedBins.bin_eq_error_iff (s : F32) (e : BinError) :
    SpeedBins.bin s = .error e ↔ s.isSignNegative = true ∧ e = .invalidSpeed s := by
  cases hs : s.isSignNegative
  · refine ⟨fun he => ?_, fun h => absurd h.1 (by simp)⟩
    have h := bin_index hs
    rw [he] at h
    cases h
  · rw [SpeedBins.bin, if_pos hs]
    exact ⟨fun h => ⟨rfl, (Except.error.inj h).symm⟩, fun h => h.2 ▸ rfl⟩

/-! ### Against `SpeedRangeCount::insert` -/

theorem wholeIndex_castI32_finite {x : ℚ} (hx : 0 ≤ x) :
    wholeIndex (castI32 (.finite x)) = wholeIndex ⌊x⌋ := by
  rw [castI32, if_neg (not_lt.2 hx)]
  unfold wholeIndex
  split_ifs <;> omega

theorem wholeIndex_of_bounds {i : Nat} {n : Int} (hi1 : 1 ≤ i) (hi14 : i ≤ 14)
    (hlo : (if i = 1 then 0 else 5 * (i : Int) + 5) ≤ n)
    (hhi : i = 14 ∨ n ≤ 5 * (i : Int) + 10) :
    wholeIndex n = if i < 14 ∧ n = 5 * ((i : Int) + 2) then i + 1 else i := by
  unfold wholeIndex
  split_ifs at hlo ⊢ <;> omega

theorem floor_bounds_of_rangeBounds {r : SpeedRange} {x : ℚ} (hb : rangeBounds r x) :
    (if r.index = 1 then 0 else 5 * (r.index : Int) + 5) ≤ ⌊x⌋ ∧
      (r.index = 14 ∨ ⌊x⌋ ≤ 5 * (r.index : Int) + 10) := by
  obtain ⟨hlo, hhi⟩ := hb
  refine ⟨Int.le_floor.2 ?_, ?_⟩
  · split_ifs with h1
    · simpa using rangeBounds_nonneg ⟨hlo, hhi⟩
    · have hr : r ≠ .s1 := by rintro rfl; exact h1 rfl
      push_cast; linarith [r.start_bounds.1 hr]
  · rcases hhi with rfl | h
    · exact .inl rfl
    · exact .inr (Int.floor_le_iff.2 (by push_cast; linarith))

/-- Within a range, the whole part is the range's end `5 (i + 2)` only at the end itself. -/
theorem floor_eq_end_iff {r : SpeedRange} {x : ℚ} (hb : rangeBounds r x) :
    r.index < 14 ∧ ⌊x⌋ = 5 * ((r.index : Int) + 2) ↔
      r.index < 14 ∧ x = 5 * ((r.index : ℚ) + 2) := by
  refine and_congr_right fun hi => ⟨fun h => ?_, fun h => ?_⟩
  · have hle := Int.floor_le x
    rw [h] at hle
    push_cast at hle
    rcases hb.2 with rfl | hs
    · exact absurd hi (by decide)
    · linarith
  · rw [h, show 5 * ((r.index : ℚ) + 2) = ((5 * ((r.index : Int) + 2) : Int) : ℚ) by push_cast; ring,
      Int.floor_intCast]

/-- **The prototype bins a speed that `insert` tallies in the same range**, except the end `5k` of
a range below `s14`, which it puts one range higher. -/
theorem bin_index_of_speedRange {s : F32} {r : SpeedRange} (h : speedRange s = some r) :
    (SpeedBins.bin s).map SpeedBins.index =
      .ok (if r.index < 14 ∧ s = .finite (5 * (r.index + 2)) then r.index + 1 else r.index) := by
  have hb := (speedRange_eq_some_iff s r).1 h
  rw [bin_index (SpeedRange.isSignNegative_of_holds hb)]
  cases s with
  | finite x =>
    obtain ⟨hi1, hi14⟩ := r.index_mem
    obtain ⟨hlo, hhi⟩ := floor_bounds_of_rangeBounds hb
    rw [wholeIndex_castI32_finite (rangeBounds_nonneg hb), wholeIndex_of_bounds hi1 hi14 hlo hhi]
    exact congrArg Except.ok (if_congr ((floor_eq_end_iff hb).trans (by simp)) rfl rfl)
  | infinity negative =>
    obtain ⟨rfl, rfl⟩ := hb
    rfl
  | negZero | nan => exact hb.elim

theorem bin_fifteen :
    speedRange 15 = some .s1 ∧ (SpeedBins.bin 15).map SpeedBins.index = .ok 2 := by
  have h : speedRange 15 = some .s1 := (speedRange_eq_some_iff 15 .s1).2
    (show rangeBounds .s1 15 by norm_num [rangeBounds, SpeedRange.start, SpeedRange.index])
  refine ⟨h, (bin_index_of_speedRange h).trans ?_⟩
  rw [if_pos ⟨by decide, by norm_num [SpeedRange.index]; rfl⟩]
  rfl

/-- **A speed in the gap before range `r`, which `insert` rejects, the prototype bins in `r`**:
between the end `5i + 5` of the range before and the `f32` literal that starts `r`, the whole
part of the speed is `5i + 5`, the first whole number of the bin of `r`. -/
theorem bin_index_of_inGap {x : ℚ} {r : SpeedRange} (hr : r ≠ .s1)
    (h1 : 5 * (r.index : ℚ) + 5 < x) (h2 : x < r.start) :
    speedRange (.finite x) = none ∧ (SpeedBins.bin (.finite x)).map SpeedBins.index = .ok r.index := by
  have hfl : ⌊x⌋ = 5 * (r.index : Int) + 5 :=
    Int.floor_eq_iff.2 ⟨by push_cast; linarith, by push_cast; linarith [r.start_bounds.2]⟩
  have hx : 0 ≤ x := by linarith [(Nat.cast_nonneg r.index : (0 : ℚ) ≤ r.index)]
  refine ⟨(speedRange_eq_none_iff _).2 (.inr ⟨r, hr, h1, h2⟩), ?_⟩
  rw [bin_index (by simpa [F32.isSignNegative] using hx), wholeIndex_castI32_finite hx, hfl]
  obtain ⟨hi1, hi14⟩ := r.index_mem
  have hi2 : 2 ≤ r.index := by
    by_contra h
    exact hr (SpeedRange.index_injective (show r.index = 1 by omega))
  unfold wholeIndex
  exact congrArg Except.ok (by split_ifs <;> omega)

theorem bin_fifteen_point_zero_five :
    SpeedRange.s2 ≠ .s1 ∧ 5 * (SpeedRange.s2.index : ℚ) + 5 < 15781069 / 1048576 ∧
      (15781069 / 1048576 : ℚ) < SpeedRange.s2.start ∧
      speedRange (.finite (15781069 / 1048576)) = none ∧
      (SpeedBins.bin (.finite (15781069 / 1048576))).map SpeedBins.index = .ok SpeedRange.s2.index :=
  have h1 : 5 * (SpeedRange.s2.index : ℚ) + 5 < 15781069 / 1048576 := by
    norm_num [SpeedRange.index]
  have h2 : (15781069 / 1048576 : ℚ) < SpeedRange.s2.start := by norm_num [SpeedRange.start]
  ⟨by decide, h1, h2, bin_index_of_inGap (by decide) h1 h2⟩

end Prototype

end StarNextImport
