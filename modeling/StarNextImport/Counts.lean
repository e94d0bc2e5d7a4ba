import StarNextImport.Basic
import Mathlib.Tactic.Linarith
import Mathlib.Tactic.NormNum
import Mathlib.Tactic.Ring
import Mathlib.Tactic.DeriveFintype

/-!
# StarNextImport.Counts — the per-bucket tallies `VehicleClassCount` and `SpeedRangeCount`

`VehicleClassCount::insert` adds one to the counter of the vehicle's class and to `total`; an
unclassified vehicle is added to `c2` as well as to `c15`.  `SpeedRangeCount::insert` rejects a
negative speed, tests the fourteen ranges in order and adds one to the first that contains the
speed and to `total`, or returns `InvalidSpeed` when none does.

Each counter is read through one accessor (`VehicleClassCount.get`, `SpeedRangeCount.get`), and
one lemma per insert says what an insert does to every counter (`get_insert`).  Over a sequence
of inserts each counter is the number of inserts that hit it, modulo `2 ^ 32`; below `2 ^ 31`
inserts that is its `i32` value, which gives the sum laws of the two records (`counts_sum_laws`).
-/

namespace StarNextImport

/-! ### `VehicleClassCount` -/

/-- Count of vehicles by vehicle class in some non-specific time period.

Unclassified vehicles are counted in `c15`, but also in `c2` (Passenger Cars), so a sum of `c1`
through `c15` double-counts them. -/
structure VehicleClassCount where
  dvrpcNum : BitVec 32
  direction : Direction
  c1 : BitVec 32
  c2 : BitVec 32
  c3 : BitVec 32
  c4 : BitVec 32
  c5 : BitVec 32
  c6 : BitVec 32
  c7 : BitVec 32
  c8 : BitVec 32
  c9 : BitVec 32
  c10 : BitVec 32
  c11 : BitVec 32
  c12 : BitVec 32
  c13 : BitVec 32
  c15 : BitVec 32
  total : BitVec 32
  deriving DecidableEq, Repr

/-- `VehicleClassCount::new`: create a new, empty count. -/
def VehicleClassCount.new (dvrpcNum : BitVec 32) (direction : Direction) : VehicleClassCount :=
  { dvrpcNum, direction, c1 := 0, c2 := 0, c3 := 0, c4 := 0, c5 := 0, c6 := 0, c7 := 0,
    c8 := 0, c9 := 0, c10 := 0, c11 := 0, c12 := 0, c13 := 0, c15 := 0, total := 0 }

/-- `VehicleClassCount::insert`: insert individual counted vehicles into count.  The method
mutates `self` and returns it; this is `self` after the call. -/
def VehicleClassCount.insert (self : VehicleClassCount) (vehicleClass : VehicleClass) :
    VehicleClassCount :=
  let self := match vehicleClass with
    | .motorcycles => { self with c1 := self.c1 + 1 }
    | .passengerCars => { self with c2 := self.c2 + 1 }
    | .otherFourTireSingleUnitVehicles => { self with c3 := self.c3 + 1 }
    | .buses => { self with c4 := self.c4 + 1 }
    | .twoAxleSixTireSingleUnitTrucks => { self with c5 := self.c5 + 1 }
    | .threeAxleSingleUnitTrucks => { self with c6 := self.c6 + 1 }
    | .fourOrMoreAxleSingleUnitTrucks => { self with c7 := self.c7 + 1 }
    | .fourOrFewerAxleSingleTrailerTrucks => { self with c8 := self.c8 + 1 }
    | .fiveAxleSingleTrailerTrucks => { self with c9 := self.c9 + 1 }
    | .sixOrMoreAxleSingleTrailerTrucks => { self with c10 := self.c10 + 1 }
    | .fiveOrFewerAxleMultiTrailerTrucks => { self with c11 := self.c11 + 1 }
    | .sixAxleMultiTrailerTrucks => { self with c12 := self.c12 + 1 }
    | .sevenOrMoreAxleMultiTrailerTrucks => { self with c13 := self.c13 + 1 }
    | .unclassifiedVehicle =>
      -- Unclassified vehicles get included with class 2 and also counted on their own.
      { self with c2 := self.c2 + 1, c15 := self.c15 + 1 }
  { self with total := self.total + 1 }

/-- The counters of a `VehicleClassCount`. -/
inductive ClassField where
  | c1 | c2 | c3 | c4 | c5 | c6 | c7 | c8 | c9 | c10 | c11 | c12 | c13 | c15 | total
  deriving DecidableEq, Repr

/-- Read one counter. -/
def VehicleClassCount.get (c : VehicleClassCount) : ClassField → BitVec 32
  | .c1 => c.c1 | .c2 => c.c2 | .c3 => c.c3 | .c4 => c.c4 | .c5 => c.c5 | .c6 => c.c6
  | .c7 => c.c7 | .c8 => c.c8 | .c9 => c.c9 | .c10 => c.c10 | .c11 => c.c11 | .c12 => c.c12
  | .c13 => c.c13 | .c15 => c.c15 | .total => c.total

/-- The counters a vehicle of class `v` is to be tallied in: the counter of its class, `c2` and
`c15` for an unclassified vehicle, and `total`. -/
def ClassField.tallies : ClassField → VehicleClass → Bool
  | .c1, v => v == .motorcycles
  | .c2, v => v == .passengerCars || v == .unclassifiedVehicle
  | .c3, v => v == .otherFourTireSingleUnitVehicles
  | .c4, v => v == .buses
  | .c5, v => v == .twoAxleSixTireSingleUnitTrucks
  | .c6, v => v == .threeAxleSingleUnitTrucks
  | .c7, v => v == .fourOrMoreAxleSingleUnitTrucks
  | .c8, v => v == .fourOrFewerAxleSingleTrailerTrucks
  | .c9, v => v == .fiveAxleSingleTrailerTrucks
  | .c10, v => v == .sixOrMoreAxleSingleTrailerTrucks
  | .c11, v => v == .fiveOrFewerAxleMultiTrailerTrucks
  | .c12, v => v == .sixAxleMultiTrailerTrucks
  | .c13, v => v == .sevenOrMoreAxleMultiTrailerTrucks
  | .c15, v => v == .unclassifiedVehicle
  | .total, _ => true

namespace VehicleClassCount

@[simp] theorem get_new (n : BitVec 32) (d : Direction) (f : ClassField) :
    (new n d).get f = 0 := by
  cases f <;> rfl

/-- **The insert rule**: one more in every counter that tallies the class, the rest unchanged. -/
theorem get_insert (c : VehicleClassCount) (v : VehicleClass) (f : ClassField) :
    (c.insert v).get f = if f.tallies v then c.get f + 1 else c.get f := by
  cases v <;> cases f <;> rfl

@[simp] theorem dvrpcNum_insert (c : VehicleClassCount) (v : VehicleClass) :
    (c.insert v).dvrpcNum = c.dvrpcNum := by
  cases v <;> rfl

@[simp] theorem direction_insert (c : VehicleClassCount) (v : VehicleClass) :
    (c.insert v).direction = c.direction := by
  cases v <;> rfl

/-- After a sequence of inserts each counter has grown by the number of inserts it tallies. -/
theorem get_foldl_insert (vs : List VehicleClass) (c : VehicleClassCount) (f : ClassField) :
    (vs.foldl insert c).get f = c.get f + (vs.countP (f.tallies ·) : BitVec 32) := by
  induction vs generalizing c with
  | nil => simp
  | cons v vs ih =>
    rw [List.foldl_cons, ih, get_insert, List.countP_cons]
    split <;> push_cast <;> ring

end VehicleClassCount

/-! ### `SpeedRangeCount` -/

/-- The fourteen speed ranges, the fields `s1` to `s14` of `SpeedRangeCount`. -/
inductive SpeedRange where
  | s1 | s2 | s3 | s4 | s5 | s6 | s7 | s8 | s9 | s10 | s11 | s12 | s13 | s14
  deriving DecidableEq, Repr, Fintype

/-- The lower end of a range's test in `SpeedRangeCount::insert`, its literal as an `f32`. -/
def SpeedRange.lo : SpeedRange → F32
  | .s1 => .round 0.0 | .s2 => .round 15.1 | .s3 => .round 20.1 | .s4 => .round 25.1
  | .s5 => .round 30.1 | .s6 => .round 35.1 | .s7 => .round 40.1 | .s8 => .round 45.1
  | .s9 => .round 50.1 | .s10 => .round 55.1 | .s11 => .round 60.1 | .s12 => .round 65.1
  | .s13 => .round 70.1 | .s14 => .round 75.1

/-- The inclusive upper end of a range's test; `s14` is the open range `(75.1..)`. -/
def SpeedRange.hi : SpeedRange → Option F32
  | .s1 => some (.round 15.0) | .s2 => some (.round 20.0) | .s3 => some (.round 25.0)
  | .s4 => some (.round 30.0) | .s5 => some (.round 35.0) | .s6 => some (.round 40.0)
  | .s7 => some (.round 45.0) | .s8 => some (.round 50.0) | .s9 => some (.round 55.0)
  | .s10 => some (.round 60.0) | .s11 => some (.round 65.0) | .s12 => some (.round 70.0)
  | .s13 => some (.round 75.0) | .s14 => none

/-- `(lo..=hi).contains(&speed)`, and `(75.1..).contains(&speed)` for `s14`. -/
def SpeedRange.contains (r : SpeedRange) (speed : F32) : Bool :=
  r.lo.le speed && r.hi.all speed.le

/-- The ranges in the order the `if` chain of `insert` tests them. -/
def SpeedRange.chain : List SpeedRange :=
  [.s1, .s2, .s3, .s4, .s5, .s6, .s7, .s8, .s9, .s10, .s11, .s12, .s13, .s14]

/-- The range `SpeedRangeCount::insert` tallies `speed` in: after the test of the sign bit, the
first range of the chain whose test passes; `none` where `insert` returns `InvalidSpeed`. -/
def speedRange (speed : F32) : Option SpeedRange :=
  if speed.isSignNegative then none else SpeedRange.chain.find? (·.contains speed)

/-- Count of vehicles by speed range in some non-specific time period. -/
structure SpeedRangeCount where
  dvrpcNum : BitVec 32
  direction : Direction
  s1 : BitVec 32
  s2 : BitVec 32
  s3 : BitVec 32
  s4 : BitVec 32
  s5 : BitVec 32
  s6 : BitVec 32
  s7 : BitVec 32
  s8 : BitVec 32
  s9 : BitVec 32
  s10 : BitVec 32
  s11 : BitVec 32
  s12 : BitVec 32
  s13 : BitVec 32
  s14 : BitVec 32
  total : BitVec 32
  deriving DecidableEq, Repr

/-- `SpeedRangeCount::new`: create a `SpeedRangeCount` with 0 count for all speed ranges. -/
def SpeedRangeCount.new (dvrpcNum : BitVec 32) (direction : Direction) : SpeedRangeCount :=
  { dvrpcNum, direction, s1 := 0, s2 := 0, s3 := 0, s4 := 0, s5 := 0, s6 := 0, s7 := 0,
    s8 := 0, s9 := 0, s10 := 0, s11 := 0, s12 := 0, s13 := 0, s14 := 0, total := 0 }

/-- Read one range counter. -/
def SpeedRangeCount.get (c : SpeedRangeCount) : SpeedRange → BitVec 32
  | .s1 => c.s1 | .s2 => c.s2 | .s3 => c.s3 | .s4 => c.s4 | .s5 => c.s5 | .s6 => c.s6
  | .s7 => c.s7 | .s8 => c.s8 | .s9 => c.s9 | .s10 => c.s10 | .s11 => c.s11 | .s12 => c.s12
  | .s13 => c.s13 | .s14 => c.s14

/-- `self.s_r += 1`, the body of the branch of range `r`. -/
def SpeedRangeCount.bump (self : SpeedRangeCount) : SpeedRange → SpeedRangeCount
  | .s1 => { self with s1 := self.s1 + 1 } | .s2 => { self with s2 := self.s2 + 1 }
  | .s3 => { self with s3 := self.s3 + 1 } | .s4 => { self with s4 := self.s4 + 1 }
  | .s5 => { self with s5 := self.s5 + 1 } | .s6 => { self with s6 := self.s6 + 1 }
  | .s7 => { self with s7 := self.s7 + 1 } | .s8 => { self with s8 := self.s8 + 1 }
  | .s9 => { self with s9 := self.s9 + 1 } | .s10 => { self with s10 := self.s10 + 1 }
  | .s11 => { self with s11 := self.s11 + 1 } | .s12 => { self with s12 := self.s12 + 1 }
  | .s13 => { self with s13 := self.s13 + 1 } | .s14 => { self with s14 := self.s14 + 1 }

/-- `SpeedRangeCount::insert`: insert individual vehicle into count.  The method mutates `self`
and returns `Ok(self)` or an error; this is the result of the call, with `Ok` holding no more
than the unit (the reference it returns is `self`), and `self` after the call. -/
def SpeedRangeCount.insert (self : SpeedRangeCount) (speed : F32) :
    Except CountError Unit × SpeedRangeCount :=
  match speedRange speed with
  | none => (.error (.invalidSpeed speed), self)
  | some r =>
    let self := self.bump r
    (.ok (), { self with total := self.total + 1 })

namespace SpeedRangeCount

@[simp] theorem get_new (n : BitVec 32) (d : Direction) (r : SpeedRange) :
    (new n d).get r = 0 := by
  cases r <;> rfl

@[simp] theorem total_new (n : BitVec 32) (d : Direction) : (new n d).total = 0 := rfl

theorem get_bump (c : SpeedRangeCount) (r r' : SpeedRange) :
    (c.bump r).get r' = if r = r' then c.get r' + 1 else c.get r' := by
  cases r <;> cases r' <;> rfl

@[simp] theorem total_bump (c : SpeedRangeCount) (r : SpeedRange) :
    (c.bump r).total = c.total := by
  cases r <;> rfl

@[simp] theorem dvrpcNum_bump (c : SpeedRangeCount) (r : SpeedRange) :
    (c.bump r).dvrpcNum = c.dvrpcNum := by
  cases r <;> rfl

@[simp] theorem direction_bump (c : SpeedRangeCount) (r : SpeedRange) :
    (c.bump r).direction = c.direction := by
  cases r <;> rfl

@[simp] theorem get_setTotal (c : SpeedRangeCount) (t : BitVec 32) (r : SpeedRange) :
    ({ c with total := t } : SpeedRangeCount).get r = c.get r := by
  cases r <;> rfl

theorem insert_of_none {c : SpeedRangeCount} {s : F32} (h : speedRange s = none) :
    c.insert s = (.error (.invalidSpeed s), c) := by
  simp [insert, h]

theorem insert_of_some {c : SpeedRangeCount} {s : F32} {r : SpeedRange}
    (h : speedRange s = some r) :
    c.insert s = (.ok (), { c.bump r with total := c.total + 1 }) := by
  simp [insert, h]

/-- **The insert rule**: one more in the range of the speed, nothing else among the ranges. -/
theorem get_insert (c : SpeedRangeCount) (s : F32) (r : SpeedRange) :
    (c.insert s).2.get r = if speedRange s = some r then c.get r + 1 else c.get r := by
  cases h : speedRange s with
  | none => simp [insert_of_none h]
  | some r' =>
    simp only [insert_of_some h, get_setTotal, Option.some.injEq]
    exact get_bump c r' r

theorem total_insert (c : SpeedRangeCount) (s : F32) :
    (c.insert s).2.total = if (speedRange s).isSome then c.total + 1 else c.total := by
  cases h : speedRange s with
  | none => simp [insert_of_none h]
  | some r' => simp [insert_of_some h]

theorem isOk_insert (c : SpeedRangeCount) (s : F32) :
    (c.insert s).1.isOk = (speedRange s).isSome := by
  cases h : speedRange s with
  | none => simp [insert_of_none h, Except.isOk, Except.toBool]
  | some r' => simp [insert_of_some h, Except.isOk, Except.toBool]

/-- `self` after a sequence of `insert` calls, failing calls included. -/
def insertAll (c : SpeedRangeCount) (speeds : List F32) : SpeedRangeCount :=
  speeds.foldl (fun c s => (c.insert s).2) c

/-- The number of calls of such a sequence that returned `Ok`. -/
def okCalls : SpeedRangeCount → List F32 → Nat
  | _, [] => 0
  | c, s :: ss => (c.insert s).1.isOk.toNat + okCalls (c.insert s).2 ss

theorem get_insertAll (ss : List F32) (c : SpeedRangeCount) (r : SpeedRange) :
    (c.insertAll ss).get r = c.get r + (ss.countP (speedRange · = some r) : BitVec 32) := by
  induction ss generalizing c with
  | nil => simp [insertAll]
  | cons s ss ih =>
    rw [insertAll, List.foldl_cons, ← insertAll, ih, get_insert, List.countP_cons]
    split <;> simp_all; ring

theorem total_insertAll (ss : List F32) (c : SpeedRangeCount) :
    (c.insertAll ss).total = c.total + (ss.countP (speedRange · |>.isSome) : BitVec 32) := by
  induction ss generalizing c with
  | nil => simp [insertAll]
  | cons s ss ih =>
    rw [insertAll, List.foldl_cons, ← insertAll, ih, total_insert, List.countP_cons]
    split <;> simp_all; ring

theorem okCalls_eq (ss : List F32) (c : SpeedRangeCount) :
    c.okCalls ss = ss.countP (speedRange · |>.isSome) := by
  induction ss generalizing c with
  | nil => rfl
  | cons s ss ih => rw [okCalls, ih, isOk_insert, List.countP_cons]; cases (speedRange s).isSome <;> simp; omega

end SpeedRangeCount

/-! ### What `insert` does to a speed

The ranges as the comment in `insert` describes them: `s1` is `0.0` to `15.0`, and range `i` from
`s2` on runs from its literal `5i + 5.1` to `5i + 10.0`, with no end for `s14`.  A literal is an
`f32`: `15.1` to `30.1` lie a little above their decimals, `35.1` to `75.1` a little below.
Between the end of one range and the `f32` that starts the next no test passes, and there
`insert` rejects a speed, as it rejects every speed with the sign bit (`-0.0` too) and a NaN. -/

/-- The position of a range, `1` for `s1` to `14` for `s14`. -/
def SpeedRange.index : SpeedRange → Nat
  | .s1 => 1 | .s2 => 2 | .s3 => 3 | .s4 => 4 | .s5 => 5 | .s6 => 6 | .s7 => 7 | .s8 => 8
  | .s9 => 9 | .s10 => 10 | .s11 => 11 | .s12 => 12 | .s13 => 13 | .s14 => 14

/-- The `f32`s of the literals that start the ranges, each the nearest `f32` to its decimal. -/
def SpeedRange.start : SpeedRange → ℚ
  | .s1 => 0 | .s2 => 7916749 / 524288 | .s3 => 10538189 / 524288 | .s4 => 13159629 / 524288
  | .s5 => 15781069 / 524288 | .s6 => 4600627 / 131072 | .s7 => 5255987 / 131072
  | .s8 => 5911347 / 131072 | .s9 => 6566707 / 131072 | .s10 => 7222067 / 131072
  | .s11 => 7877427 / 131072 | .s12 => 8532787 / 131072 | .s13 => 9188147 / 131072
  | .s14 => 9843507 / 131072

/-- The finite speeds range `r` holds: from the `f32` that starts it to its end `5i + 10`. -/
def rangeBounds (r : SpeedRange) (x : ℚ) : Prop :=
  r.start ≤ x ∧ (r = .s14 ∨ x ≤ 5 * (r.index : ℚ) + 10)

instance (r : SpeedRange) (x : ℚ) : Decidable (rangeBounds r x) :=
  inferInstanceAs (Decidable (_ ∧ _))

/-- A finite speed in the gap before range `r`: above the end `5i + 5` of the range before it,
below the `f32` that starts `r`. -/
def InGap (x : ℚ) : Prop :=
  ∃ r : SpeedRange, r ≠ .s1 ∧ 5 * (r.index : ℚ) + 5 < x ∧ x < r.start

/-- The speeds range `r` holds: the finite ones within its bounds, and `inf` for `s14`. -/
def SpeedRange.Holds (r : SpeedRange) : F32 → Prop
  | .finite x => rangeBounds r x
  | .infinity negative => negative = false ∧ r = .s14
  | _ => False

instance (r : SpeedRange) : (s : F32) → Decidable (r.Holds s)
  | .finite x => inferInstanceAs (Decidable (rangeBounds r x))
  | .negZero => inferInstanceAs (Decidable False)
  | .infinity negative => inferInstanceAs (Decidable (negative = false ∧ r = .s14))
  | .nan _ => inferInstanceAs (Decidable False)

/-- The speeds `insert` rejects: those with the sign bit, `-0.0` and `-inf` among them, the NaNs,
and the finite speeds in a gap. -/
def Rejected : F32 → Prop
  | .finite x => x < 0 ∨ InGap x
  | .negZero => True
  | .infinity negative => negative = true
  | .nan _ => True

namespace SpeedRange

theorem index_mem (r : SpeedRange) : 1 ≤ r.index ∧ r.index ≤ 14 := by
  cases r <;> decide

theorem exists_index : ∀ i ≤ 14, 1 ≤ i → ∃ r : SpeedRange, r.index = i := by
  decide

theorem index_injective : Function.Injective index := by
  decide

theorem mem_chain (r : SpeedRange) : r ∈ chain := by
  cases r <;> decide

/-- The literals that start the ranges are these `f32`s. -/
theorem lo_eq : ∀ r : SpeedRange, r.lo = .finite r.start
  | .s1 => F32.round_whole (n := 0) (by norm_num) (by norm_num) |>.trans (by norm_num [start])
  | .s2 => F32.round_literal (k := 15833498) (e := -20) (by norm_num) (by norm_num)
      (by norm_num [start]) (by norm_num) (by norm_num)
  | .s3 => F32.round_literal (k := 10538189) (e := -19) (by norm_num) (by norm_num)
      (by norm_num [start]) (by norm_num) (by norm_num)
  | .s4 => F32.round_literal (k := 13159629) (e := -19) (by norm_num) (by norm_num)
      (by norm_num [start]) (by norm_num) (by norm_num)
  | .s5 => F32.round_literal (k := 15781069) (e := -19) (by norm_num) (by norm_num)
      (by norm_num [start]) (by norm_num) (by norm_num)
  | .s6 => F32.round_literal (k := 9201254) (e := -18) (by norm_num) (by norm_num)
      (by norm_num [start]) (by norm_num) (by norm_num)
  | .s7 => F32.round_literal (k := 10511974) (e := -18) (by norm_num) (by norm_num)
      (by norm_num [start]) (by norm_num) (by norm_num)
  | .s8 => F32.round_literal (k := 11822694) (e := -18) (by norm_num) (by norm_num)
      (by norm_num [start]) (by norm_num) (by norm_num)
  | .s9 => F32.round_literal (k := 13133414) (e := -18) (by norm_num) (by norm_num)
      (by norm_num [start]) (by norm_num) (by norm_num)
  | .s10 => F32.round_literal (k := 14444134) (e := -18) (by norm_num) (by norm_num)
      (by norm_num [start]) (by norm_num) (by norm_num)
  | .s11 => F32.round_literal (k := 15754854) (e := -18) (by norm_num) (by norm_num)
      (by norm_num [start]) (by norm_num) (by norm_num)
  | .s12 => F32.round_literal (k := 8532787) (e := -17) (by norm_num) (by norm_num)
      (by norm_num [start]) (by norm_num) (by norm_num)
  | .s13 => F32.round_literal (k := 9188147) (e := -17) (by norm_num) (by norm_num)
      (by norm_num [start]) (by norm_num) (by norm_num)
  | .s14 => F32.round_literal (k := 9843507) (e := -17) (by norm_num) (by norm_num)
      (by norm_num [start]) (by norm_num) (by norm_num)

/-- The ends of the ranges are whole numbers, which their literals hold exactly. -/
theorem hi_eq (r : SpeedRange) :
    r.hi = if r = .s14 then none else some (.finite ((5 * r.index + 10 : ℕ) : ℚ)) := by
  cases r <;> simp only [hi, index, reduceCtorEq, if_false, if_true] <;>
    exact congrArg some (F32.round_whole (by norm_num) (by norm_num))

/-- The `f32` that starts a range lies a little above the end of the range before it. -/
theorem start_bounds (r : SpeedRange) :
    (r ≠ .s1 → 5 * (r.index : ℚ) + 5 < r.start) ∧ r.start < 5 * (r.index : ℚ) + 6 := by
  cases r <;> norm_num [start, index]

theorem contains_finite (r : SpeedRange) (x : ℚ) :
    r.contains (.finite x) = true ↔ rangeBounds r x := by
  rw [contains, lo_eq, hi_eq]
  by_cases h : r = .s14 <;> simp [h, rangeBounds]

theorem contains_infinity (r : SpeedRange) (negative : Bool) :
    r.contains (.infinity negative) = true ↔ negative = false ∧ r = .s14 := by
  rw [contains, lo_eq, hi_eq]
  cases negative <;> by_cases h : r = .s14 <;> simp [h, F32.le]

theorem contains_nan (r : SpeedRange) (negative : Bool) : r.contains (.nan negative) = false := by
  rw [contains, lo_eq]; simp [F32.le]

/-- Without the sign bit, a range's test passes on exactly the speeds it holds. -/
theorem contains_iff_holds (r : SpeedRange) {s : F32} (hs : s.isSignNegative = false) :
    r.contains s = true ↔ r.Holds s := by
  cases s with
  | finite x => exact contains_finite r x
  | negZero => cases hs
  | infinity negative => exact contains_infinity r negative
  | nan negative => simp [contains_nan, Holds]

end SpeedRange

theorem rangeBounds_nonneg {r : SpeedRange} {x : ℚ} (h : rangeBounds r x) : 0 ≤ x := by
  refine le_trans ?_ h.1
  cases r <;> norm_num [SpeedRange.start]

theorem rangeBounds_lt_absurd {r r' : SpeedRange} {x : ℚ} (hij : r.index < r'.index)
    (h : rangeBounds r x) (h' : rangeBounds r' x) : False := by
  have h14 := r'.index_mem.2
  obtain ⟨-, hr | hx⟩ := h
  · subst hr; exact absurd h14 (not_le.2 hij)
  have hr' : r' ≠ .s1 := by rintro rfl; exact absurd hij (Nat.not_lt.2 r.index_mem.1)
  have hij' : (r.index : ℚ) + 1 ≤ r'.index := by exact_mod_cast hij
  linarith [(r'.start_bounds).1 hr', h'.1]

/-- The ranges do not overlap. -/
theorem rangeBounds_unique {r r' : SpeedRange} {x : ℚ} (h : rangeBounds r x)
    (h' : rangeBounds r' x) : r = r' := by
  rcases Nat.lt_trichotomy r.index r'.index with hlt | heq | hgt
  · exact (rangeBounds_lt_absurd hlt h h').elim
  · exact SpeedRange.index_injective heq
  · exact (rangeBounds_lt_absurd hgt h' h).elim

theorem SpeedRange.holds_unique {r r' : SpeedRange} {s : F32} (h : r.Holds s)
    (h' : r'.Holds s) : r = r' := by
  cases s with
  | finite x => exact rangeBounds_unique h h'
  | infinity negative => exact h.2.trans h'.2.symm
  | negZero | nan => exact h.elim

theorem SpeedRange.isSignNegative_of_holds {r : SpeedRange} {s : F32} (h : r.Holds s) :
    s.isSignNegative = false := by
  cases s with
  | finite x => simpa [F32.isSignNegative] using rangeBounds_nonneg h
  | infinity negative => exact h.1
  | negZero | nan => exact h.elim

/-- No range holds a speed in a gap. -/
theorem not_rangeBounds_of_inGap {x : ℚ} (hs : InGap x) (r' : SpeedRange) :
    ¬ rangeBounds r' x := by
  obtain ⟨r, hr, h1, h2⟩ := hs
  intro h'
  have hb := r.start_bounds
  rcases Nat.lt_trichotomy r'.index r.index with hlt | heq | hgt
  · -- a range before `r` ends at `5i + 5` or below
    obtain ⟨-, h14 | hx⟩ := h'
    · subst h14; exact absurd hlt (Nat.not_lt.2 r.index_mem.2)
    have : (r'.index : ℚ) + 1 ≤ r.index := by exact_mod_cast hlt
    linarith
  · exact absurd h'.1 (by rw [SpeedRange.index_injective heq]; exact not_le.2 h2)
  · -- a range after `r` starts above `5i + 10`
    have hr' : r' ≠ .s1 := by rintro rfl; exact absurd hgt (Nat.not_lt.2 r.index_mem.1)
    have : (r.index : ℚ) + 1 ≤ r'.index := by exact_mod_cast hgt
    linarith [(r'.start_bounds).1 hr', h'.1]

/-- A non-negative finite speed that no range holds is in a gap. -/
theorem inGap_of_not_rangeBounds {x : ℚ} (hs : 0 ≤ x) (h : ∀ r, ¬ rangeBounds r x) :
    InGap x := by
  have h1 : 15 < x := not_le.1 fun h' =>
    h .s1 ⟨by norm_num [SpeedRange.start]; exact hs, .inr (by norm_num [SpeedRange.index]; exact h')⟩
  have h14 : x < SpeedRange.s14.start := not_le.1 fun h' => h .s14 ⟨h', .inl rfl⟩
  have h14' : x < 76 := lt_trans h14 (by norm_num [SpeedRange.start])
  obtain ⟨k, hk1, hk2⟩ : ∃ k : Nat, (k : ℚ) ≤ x / 5 ∧ x / 5 < k + 1 :=
    ⟨⌊x / 5⌋₊, Nat.floor_le (by positivity), Nat.lt_floor_add_one _⟩
  have hk3 : 3 ≤ k := by
    by_contra hlt
    have : (k : ℚ) ≤ 2 := by exact_mod_cast (show k ≤ 2 by omega)
    linarith only [this, hk2, h1]
  have hk15 : k ≤ 15 := by
    by_contra hlt
    have : (16 : ℚ) ≤ k := by exact_mod_cast (show 16 ≤ k by omega)
    linarith only [this, hk1, h14']
  rcases (show 5 * (k : ℚ) ≤ x by linarith only [hk1]).eq_or_lt with heq | hlt
  · -- `x = 5k` is the end of range `k - 2`
    obtain ⟨r, hr⟩ := SpeedRange.exists_index (k - 2) (by omega) (by omega)
    have hri : (r.index : ℚ) = k - 2 := by rw [hr]; push_cast [show 2 ≤ k by omega]; ring
    exact absurd ⟨by linarith only [r.start_bounds.2, hri, heq],
      .inr (by linarith only [hri, heq])⟩ (h r)
  · -- range `k - 1` would start at `5k + 0.1`
    obtain ⟨r, hr⟩ := SpeedRange.exists_index (k - 1) (by omega) (by omega)
    have hri : (r.index : ℚ) = k - 1 := by rw [hr]; push_cast [show 1 ≤ k by omega]; ring
    have hr1 : r ≠ .s1 := by rintro rfl; simp only [SpeedRange.index] at hr; omega
    exact ⟨r, hr1, by linarith only [hri, hlt],
      not_le.1 fun h' => h r ⟨h', .inr (by linarith only [hri, hk2])⟩⟩

/-- The range `insert` picks for a speed is the one that holds it. -/
theorem speedRange_eq_some_iff (s : F32) (r : SpeedRange) :
    speedRange s = some r ↔ r.Holds s := by
  unfold speedRange
  split_ifs with hs
  · simp only [reduceCtorEq, false_iff]
    exact fun h => absurd (SpeedRange.isSignNegative_of_holds h) (by simp [hs])
  have hs' : s.isSignNegative = false := by simpa using hs
  constructor
  · intro h
    have hc : r.contains s = true := by have := List.find?_some h; exact this
    exact (SpeedRange.contains_iff_holds r hs').1 hc
  · intro h
    cases hf : SpeedRange.chain.find? (·.contains s) with
    | none =>
      have := List.find?_eq_none.1 hf r (SpeedRange.mem_chain r)
      exact absurd ((SpeedRange.contains_iff_holds r hs').2 h) (by simpa using this)
    | some r' =>
      have hc : r'.contains s = true := by have := List.find?_some hf; exact this
      rw [SpeedRange.holds_unique ((SpeedRange.contains_iff_holds r' hs').1 hc) h]

/-- `insert` rejects a speed exactly when no range holds it, and that is `Rejected`. -/
theorem speedRange_eq_none_iff (s : F32) : speedRange s = none ↔ Rejected s := by
  have hnone : speedRange s = none ↔ ∀ r : SpeedRange, ¬ r.Holds s := by
    refine ⟨fun h r hr => ?_, fun h => ?_⟩
    · rw [(speedRange_eq_some_iff s r).2 hr] at h; cases h
    · cases hs : speedRange s with
      | none => rfl
      | some r => exact absurd ((speedRange_eq_some_iff s r).1 hs) (h r)
  rw [hnone]
  cases s with
  | finite x =>
    refine ⟨fun h => or_iff_not_imp_left.2 fun hx => inGap_of_not_rangeBounds (not_lt.1 hx) h,
      ?_⟩
    rintro (hx | hg) r hr
    · exact absurd (rangeBounds_nonneg hr) (not_le.2 hx)
    · exact not_rangeBounds_of_inGap hg r hr
  | negZero => exact iff_of_true (fun _ h => h) trivial
  | infinity negative =>
    cases negative
    · exact iff_of_false (fun h => h .s14 ⟨rfl, rfl⟩) (by simp [Rejected])
    · exact iff_of_true (fun _ h => absurd h.1 (by simp)) rfl
  | nan => exact iff_of_true (fun _ h => h) trivial

/-- **What `insert` does to a speed**: it fails with `InvalidSpeed`, leaving the count as it was,
exactly on a speed with the sign bit (`-0.0` among them), a NaN, or a finite speed in a gap
between the end of one range and the `f32` literal that starts the next.  Otherwise exactly one
range holds the speed, and `insert` returns `Ok`, adds one to that range's counter and to
`total`, and changes nothing else. -/
theorem insert_speed_spec (c : SpeedRangeCount) (s : F32) :
    (((c.insert s).1 = .error (.invalidSpeed s) ∧ (c.insert s).2 = c) ↔ Rejected s) ∧
    (¬ Rejected s →
      (c.insert s).1 = .ok () ∧ (∃! r : SpeedRange, r.Holds s) ∧
      (∀ r, (c.insert s).2.get r = if r.Holds s then c.get r + 1 else c.get r) ∧
      (c.insert s).2.total = c.total + 1 ∧ (c.insert s).2.dvrpcNum = c.dvrpcNum ∧
      (c.insert s).2.direction = c.direction) := by
  cases h : speedRange s with
  | none =>
    have hn := (speedRange_eq_none_iff s).1 h
    exact ⟨iff_of_true ⟨by rw [SpeedRangeCount.insert_of_none h], by
      rw [SpeedRangeCount.insert_of_none h]⟩ hn, fun hn' => absurd hn hn'⟩
  | some r =>
    have hr := (speedRange_eq_some_iff s r).1 h
    have hn : ¬ Rejected s := by rw [← speedRange_eq_none_iff, h]; simp
    refine ⟨iff_of_false (by simp [SpeedRangeCount.insert_of_some h]) hn, fun _ => ?_⟩
    refine ⟨by simp [SpeedRangeCount.insert_of_some h],
      ⟨r, hr, fun r' hr' => SpeedRange.holds_unique hr' hr⟩, fun r' => ?_,
      by simp [SpeedRangeCount.total_insert, h], by simp [SpeedRangeCount.insert_of_some h],
      by simp [SpeedRangeCount.insert_of_some h]⟩
    simp only [SpeedRangeCount.get_insert, speedRange_eq_some_iff]

/-- The `f32` of `15.05` lies above the end `15.0` of `s1` and below the `f32` of `15.1` that
starts `s2`: `insert` rejects it and leaves the count as it was, where the ranges `0 ≤ s ≤ 15`
and `5k + 5 < s ≤ 5k + 10` put it in `s2`. -/
theorem insert_rejects_15_05 :
    F32.round 15.05 = .finite (15781069 / 1048576) ∧
      (15 : ℚ) < 15781069 / 1048576 ∧ (15781069 / 1048576 : ℚ) ≤ 20 ∧
      (SpeedRangeCount.new 0 .north).insert (F32.round 15.05) =
        (.error (.invalidSpeed (F32.round 15.05)), SpeedRangeCount.new 0 .north) := by
  have h : F32.round 15.05 = .finite (15781069 / 1048576) :=
    F32.round_literal (k := 15781069) (e := -20) (by norm_num) (by norm_num) (by norm_num)
      (by norm_num) (by norm_num)
  refine ⟨h, by norm_num, by norm_num, SpeedRangeCount.insert_of_none ?_⟩
  rw [speedRange_eq_none_iff, h]
  exact .inr ⟨.s2, by decide, by norm_num [SpeedRange.index], by norm_num [SpeedRange.start]⟩

/-! ### The sum laws over a sequence of inserts -/

/-- Every class is tallied in exactly one of `c1` to `c13`. -/
theorem countP_classes (vs : List VehicleClass) :
    vs.countP (ClassField.c1.tallies ·) + vs.countP (ClassField.c2.tallies ·) +
      vs.countP (ClassField.c3.tallies ·) + vs.countP (ClassField.c4.tallies ·) +
      vs.countP (ClassField.c5.tallies ·) + vs.countP (ClassField.c6.tallies ·) +
      vs.countP (ClassField.c7.tallies ·) + vs.countP (ClassField.c8.tallies ·) +
      vs.countP (ClassField.c9.tallies ·) + vs.countP (ClassField.c10.tallies ·) +
      vs.countP (ClassField.c11.tallies ·) + vs.countP (ClassField.c12.tallies ·) +
      vs.countP (ClassField.c13.tallies ·) = vs.length := by
  induction vs with
  | nil => rfl
  | cons v vs ih =>
    have hv : (if ClassField.c1.tallies v then 1 else 0) + (if ClassField.c2.tallies v then 1 else 0) +
        (if ClassField.c3.tallies v then 1 else 0) + (if ClassField.c4.tallies v then 1 else 0) +
        (if ClassField.c5.tallies v then 1 else 0) + (if ClassField.c6.tallies v then 1 else 0) +
        (if ClassField.c7.tallies v then 1 else 0) + (if ClassField.c8.tallies v then 1 else 0) +
        (if ClassField.c9.tallies v then 1 else 0) + (if ClassField.c10.tallies v then 1 else 0) +
        (if ClassField.c11.tallies v then 1 else 0) + (if ClassField.c12.tallies v then 1 else 0) +
        (if ClassField.c13.tallies v then 1 else 0) = 1 := by
      cases v <;> rfl
    simp only [List.countP_cons, List.length_cons]
    omega

/-- Every accepted speed is tallied in exactly one range. -/
theorem countP_ranges {α : Type} (g : α → Option SpeedRange) (xs : List α) :
    xs.countP (g · = some .s1) + xs.countP (g · = some .s2) + xs.countP (g · = some .s3) +
      xs.countP (g · = some .s4) + xs.countP (g · = some .s5) + xs.countP (g · = some .s6) +
      xs.countP (g · = some .s7) + xs.countP (g · = some .s8) + xs.countP (g · = some .s9) +
      xs.countP (g · = some .s10) + xs.countP (g · = some .s11) +
      xs.countP (g · = some .s12) + xs.countP (g · = some .s13) +
      xs.countP (g · = some .s14) = xs.countP (g · |>.isSome) := by
  induction xs with
  | nil => rfl
  | cons x xs ih =>
    have hx : (if g x = some .s1 then 1 else 0) + (if g x = some .s2 then 1 else 0) +
        (if g x = some .s3 then 1 else 0) + (if g x = some .s4 then 1 else 0) +
        (if g x = some .s5 then 1 else 0) + (if g x = some .s6 then 1 else 0) +
        (if g x = some .s7 then 1 else 0) + (if g x = some .s8 then 1 else 0) +
        (if g x = some .s9 then 1 else 0) + (if g x = some .s10 then 1 else 0) +
        (if g x = some .s11 then 1 else 0) + (if g x = some .s12 then 1 else 0) +
        (if g x = some .s13 then 1 else 0) + (if g x = some .s14 then 1 else 0) =
          if (g x).isSome then 1 else 0 := by
      rcases g x with _ | r
      · rfl
      · cases r <;> rfl
    simp only [List.countP_cons, decide_eq_true_eq]
    omega

theorem VehicleClassCount.toInt_get_foldl (n : BitVec 32) (d : Direction) (vs : List VehicleClass)
    (hvs : vs.length < 2 ^ 31) (f : ClassField) :
    ((vs.foldl insert (new n d)).get f).toInt = vs.countP (f.tallies ·) := by
  rw [get_foldl_insert, get_new, zero_add, BitVec.natCast_eq_ofNat,
    toInt_ofNat_of_lt (lt_of_le_of_lt (List.countP_le_length _) hvs)]

theorem SpeedRangeCount.toInt_get_insertAll (n : BitVec 32) (d : Direction) (ss : List F32)
    (hss : ss.length < 2 ^ 31) (r : SpeedRange) :
    (((new n d).insertAll ss).get r).toInt = ss.countP (speedRange · = some r) := by
  rw [get_insertAll, get_new, zero_add, BitVec.natCast_eq_ofNat,
    toInt_ofNat_of_lt (lt_of_le_of_lt (List.countP_le_length _) hss)]

theorem SpeedRangeCount.toInt_total_insertAll (n : BitVec 32) (d : Direction) (ss : List F32)
    (hss : ss.length < 2 ^ 31) :
    ((new n d).insertAll ss).total.toInt = ss.countP (speedRange · |>.isSome) := by
  rw [total_insertAll, total_new, zero_add, BitVec.natCast_eq_ofNat,
    toInt_ofNat_of_lt (lt_of_le_of_lt (List.countP_le_length _) hss)]

theorem VehicleClassCount.sum_laws (n : BitVec 32) (d : Direction) (vs : List VehicleClass)
    (hvs : vs.length < 2 ^ 31) :
    let c := vs.foldl VehicleClassCount.insert (VehicleClassCount.new n d)
    c.c1.toInt + c.c2.toInt + c.c3.toInt + c.c4.toInt + c.c5.toInt + c.c6.toInt + c.c7.toInt +
        c.c8.toInt + c.c9.toInt + c.c10.toInt + c.c11.toInt + c.c12.toInt + c.c13.toInt =
        c.total.toInt ∧
      0 ≤ c.c15.toInt ∧ c.c15.toInt ≤ c.c2.toInt ∧
      c.c15.toInt = vs.count .unclassifiedVehicle ∧
      c.c1.toInt + c.c2.toInt + c.c3.toInt + c.c4.toInt + c.c5.toInt + c.c6.toInt + c.c7.toInt +
        c.c8.toInt + c.c9.toInt + c.c10.toInt + c.c11.toInt + c.c12.toInt + c.c13.toInt +
        c.c15.toInt = c.total.toInt + vs.count .unclassifiedVehicle := by
  have hc := toInt_get_foldl n d vs hvs
  have h1 := hc .c1; have h2 := hc .c2; have h3 := hc .c3; have h4 := hc .c4; have h5 := hc .c5
  have h6 := hc .c6; have h7 := hc .c7; have h8 := hc .c8; have h9 := hc .c9
  have h10 := hc .c10; have h11 := hc .c11; have h12 := hc .c12; have h13 := hc .c13
  have h15 := hc .c15; have htot := hc .total
  have hsum := countP_classes vs
  have hall : vs.countP (ClassField.total.tallies ·) = vs.length := congrFun List.countP_true vs
  have hcount : vs.countP (ClassField.c15.tallies ·) = vs.count .unclassifiedVehicle := rfl
  have hle : vs.countP (ClassField.c15.tallies ·) ≤ vs.countP (ClassField.c2.tallies ·) :=
    List.countP_mono_left fun v _ => by cases v <;> decide
  simp only [get] at h1 h2 h3 h4 h5 h6 h7 h8 h9 h10 h11 h12 h13 h15 htot
  omega

theorem SpeedRangeCount.sum_laws (n : BitVec 32) (d : Direction) (ss : List F32)
    (hss : ss.length < 2 ^ 31) :
    let t := (SpeedRangeCount.new n d).insertAll ss
    t.s1.toInt + t.s2.toInt + t.s3.toInt + t.s4.toInt + t.s5.toInt + t.s6.toInt + t.s7.toInt +
        t.s8.toInt + t.s9.toInt + t.s10.toInt + t.s11.toInt + t.s12.toInt + t.s13.toInt +
        t.s14.toInt = t.total.toInt ∧
      t.total.toInt = (SpeedRangeCount.new n d).okCalls ss := by
  have ht := toInt_get_insertAll n d ss hss
  have g1 := ht .s1; have g2 := ht .s2; have g3 := ht .s3; have g4 := ht .s4; have g5 := ht .s5
  have g6 := ht .s6; have g7 := ht .s7; have g8 := ht .s8; have g9 := ht .s9
  have g10 := ht .s10; have g11 := ht .s11; have g12 := ht .s12; have g13 := ht .s13
  have g14 := ht .s14
  have gtot := toInt_total_insertAll n d ss hss
  have gsum := countP_ranges speedRange ss
  rw [okCalls_eq]
  simp only [get] at g1 g2 g3 g4 g5 g6 g7 g8 g9 g10 g11 g12 g13 g14
  omega

/-- **The sum laws of the two tallies.**  After fewer than `2 ^ 31` inserts into a new
`VehicleClassCount`, `c1 + … + c13 = total`, `0 ≤ c15 ≤ c2`, `c15` is the number of unclassified
vehicles, and so `c1 + … + c13 + c15` exceeds `total` by that number.  After fewer than `2 ^ 31`
calls of `SpeedRangeCount::insert` on a new count, failing calls included,
`s1 + … + s14 = total` and `total` is the number of calls that returned `Ok`. -/
theorem counts_sum_laws (n : BitVec 32) (d : Direction) (vs : List VehicleClass)
    (hvs : vs.length < 2 ^ 31) (ss : List F32) (hss : ss.length < 2 ^ 31) :
    let c := vs.foldl VehicleClassCount.insert (VehicleClassCount.new n d)
    let t := (SpeedRangeCount.new n d).insertAll ss
    (c.c1.toInt + c.c2.toInt + c.c3.toInt + c.c4.toInt + c.c5.toInt + c.c6.toInt + c.c7.toInt +
        c.c8.toInt + c.c9.toInt + c.c10.toInt + c.c11.toInt + c.c12.toInt + c.c13.toInt =
        c.total.toInt ∧
      0 ≤ c.c15.toInt ∧ c.c15.toInt ≤ c.c2.toInt ∧
      c.c15.toInt = vs.count .unclassifiedVehicle ∧
      c.c1.toInt + c.c2.toInt + c.c3.toInt + c.c4.toInt + c.c5.toInt + c.c6.toInt + c.c7.toInt +
        c.c8.toInt + c.c9.toInt + c.c10.toInt + c.c11.toInt + c.c12.toInt + c.c13.toInt +
        c.c15.toInt = c.total.toInt + vs.count .unclassifiedVehicle) ∧
    (t.s1.toInt + t.s2.toInt + t.s3.toInt + t.s4.toInt + t.s5.toInt + t.s6.toInt + t.s7.toInt +
        t.s8.toInt + t.s9.toInt + t.s10.toInt + t.s11.toInt + t.s12.toInt + t.s13.toInt +
        t.s14.toInt = t.total.toInt ∧
      t.total.toInt = (SpeedRangeCount.new n d).okCalls ss) :=
  ⟨VehicleClassCount.sum_laws n d vs hvs, SpeedRangeCount.sum_laws n d ss hss⟩

theorem counts_sum_laws_small :
    [VehicleClass.unclassifiedVehicle].length < 2 ^ 31 ∧ [(30 : F32), -1].length < 2 ^ 31 ∧
      ((SpeedRangeCount.new 0 .north).insertAll [30, -1]).total.toInt =
        (SpeedRangeCount.new 0 .north).okCalls [30, -1] :=
  ⟨by decide, by decide,
    (counts_sum_laws 0 .north [.unclassifiedVehicle] (by decide) [30, -1] (by decide)).2.2⟩

end StarNextImport
