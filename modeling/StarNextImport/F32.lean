import Mathlib.Data.Int.Log
import Mathlib.Data.Rat.Floor
import Mathlib.Tactic.Linarith
import Mathlib.Tactic.NormNum

/-!
# StarNextImport.F32 — the `f32`s of the code

The code computes with `f32`s in two places.  `SpeedRangeCount::insert` and `SpeedBins::bin` test
the sign of a speed and compare it with the literals of the speed ranges; `check` casts `u32`
counts to `f32`, divides them, multiplies by `100.0` and compares the result with a literal.  An
`f32` is what it stands for: a finite value as the exact rational, `-0.0` apart from `0.0` (only
`is_sign_negative` tells them apart), an infinity, or a NaN.  Every `f32` the code makes from a
number, a literal, a cast or the result of an operation, is that number rounded to nearest, ties
to even (`F32.round`): the significand has 24 bits, the weight of its last bit is `2 ^ (e - 23)`
in the binade `2 ^ e ≤ x < 2 ^ (e + 1)`, and never below `2 ^ -149`.

* `roundMag_le_of_lt`, `le_roundMag_of_lt`: a magnitude below the midpoint between two
  neighbouring `f32`s rounds to the lower one or less, one above it to the upper one or more;
* `roundMag_mono`: rounding keeps the order of two magnitudes;
* `roundMag_of_grid`: an `f32` rounds to itself, and so (`ofNat_of_lt`) a count below `2 ^ 24`
  is cast exactly.
-/

namespace StarNextImport

/-- An `f32`: a finite value, kept as the exact rational it stands for (`0.0` is `finite 0`), the
zero `-0.0`, an infinity with its sign, or a NaN with its sign bit.  `finite` takes every
rational, so what holds of every `F32` holds of every `f32`. -/
inductive F32 where
  | finite (x : ℚ)
  | negZero
  | infinity (negative : Bool)
  | nan (negative : Bool)
  deriving DecidableEq, Repr

namespace F32

/-! ### Rounding -/

/-- The integer nearest to `t`, the even one of two at the same distance. -/
def rne (t : ℚ) : ℤ :=
  if Int.fract t < 1 / 2 then ⌊t⌋
  else if 1 / 2 < Int.fract t then ⌊t⌋ + 1
  else if ⌊t⌋ % 2 = 0 then ⌊t⌋ else ⌊t⌋ + 1

/-- The exponent of the weight of the last bit of the significand of an `f32` of magnitude
`a > 0`: `e - 23` in the binade `2 ^ e ≤ a < 2 ^ (e + 1)`, and `-149` for the subnormals. -/
def ulpExp (a : ℚ) : ℤ := max (Int.log 2 a - 23) (-149)

/-- A magnitude rounded to the nearest multiple of the weight of its last bit, ties to an even
multiple: the magnitude of the nearest `f32`, when that is finite. -/
def roundMag (a : ℚ) : ℚ := rne (a / 2 ^ ulpExp a) * 2 ^ ulpExp a

/-- The largest finite `f32`, `(2 ^ 24 - 1) · 2 ^ 104`. -/
def maxFinite : ℚ := (2 ^ 24 - 1) * 2 ^ 104

/-- A rational rounded to an `f32`, to nearest, ties to even, as every literal, cast and
operation of `f32` rounds: the rounded magnitude with the rational's sign, an infinity past the
largest finite `f32`, and `-0.0` for a negative rational that rounds to zero. -/
def round (x : ℚ) : F32 :=
  if maxFinite < roundMag |x| then infinity (decide (x < 0))
  else if x < 0 then (if roundMag |x| = 0 then negZero else finite (-roundMag |x|))
  else finite (roundMag |x|)

/-- `n as f32` for a count. -/
def ofNat (n : Nat) : F32 := round n

/-! ### Operations -/

/-- `is_sign_negative`: the sign bit, which `-0.0` has, and a NaN may have. -/
def isSignNegative : F32 → Bool
  | finite x => decide (x < 0)
  | negZero => true
  | infinity negative => negative
  | nan negative => negative

/-- The value of a finite `f32`, the same for `-0.0` as for `0.0`. -/
def value : F32 → ℚ
  | finite x => x
  | _ => 0

/-- `0.0` or `-0.0`. -/
def isZero : F32 → Bool
  | finite x => x == 0
  | negZero => true
  | _ => false

/-- A zero with its sign. -/
def zero (negative : Bool) : F32 := if negative then negZero else finite 0

/-- The NaN of an invalid operation, `0.0 / 0.0`, `inf / inf` or `0.0 * inf`.  Its sign bit is
the platform's (x86 sets it); nothing modelled reads the sign of such a NaN. -/
def invalid : F32 := nan true

/-- `a <= b`: false when either is a NaN. -/
def le : F32 → F32 → Bool
  | nan _, _ | _, nan _ => false
  | infinity true, _ | _, infinity false => true
  | infinity false, _ | _, infinity true => false
  | a, b => decide (a.value ≤ b.value)

/-- `a < b`: false when either is a NaN. -/
def lt (a b : F32) : Bool := a.le b && !b.le a

/-- `a / b`: a NaN is passed on, `0 / 0` and `inf / inf` are invalid, a non-zero value over a
zero is an infinity; otherwise the quotient rounded, with the sign of the two. -/
def div : F32 → F32 → F32
  | nan n, _ | _, nan n => nan n
  | infinity _, infinity _ => invalid
  | infinity n, b => infinity (n != b.isSignNegative)
  | a, infinity n => zero (a.isSignNegative != n)
  | a, b =>
    if b.isZero then (if a.isZero then invalid else infinity (a.isSignNegative != b.isSignNegative))
    else if a.isZero then zero (a.isSignNegative != b.isSignNegative)
    else round (a.value / b.value)

/-- `a * b`: a NaN is passed on, `0 * inf` is invalid; otherwise the product rounded, with the
sign of the two. -/
def mul : F32 → F32 → F32
  | nan n, _ | _, nan n => nan n
  | infinity n, b => if b.isZero then invalid else infinity (n != b.isSignNegative)
  | a, infinity n => if a.isZero then invalid else infinity (a.isSignNegative != n)
  | a, b =>
    if a.isZero || b.isZero then zero (a.isSignNegative != b.isSignNegative)
    else round (a.value * b.value)

/-- `-x`: the sign bit flipped. -/
instance : Neg F32 where
  neg
    | finite x => if x = 0 then negZero else finite (-x)
    | negZero => finite 0
    | infinity negative => infinity !negative
    | nan negative => nan !negative

/-- A whole-number literal, which an `f32` holds exactly below `2 ^ 24`. -/
instance (n : Nat) : OfNat F32 n := ⟨finite n⟩

@[simp] theorem le_finite (x y : ℚ) : (finite x).le (finite y) = decide (x ≤ y) := rfl

@[simp] theorem lt_finite (x y : ℚ) : (finite x).lt (finite y) = decide (x < y) := by
  rw [lt, le_finite, le_finite]
  by_cases h : x < y
  · simp [h, h.le, not_le.2 h]
  · simp [h, not_lt.1 h]

/-! ### Round to nearest, ties to even -/

theorem rne_sub_half_le (t : ℚ) : (rne t : ℚ) - 1 / 2 ≤ t := by
  have h0 := Int.fract_nonneg t
  have h1 := Int.fract_lt_one t
  have ht := Int.floor_add_fract t
  unfold rne
  split_ifs <;> push_cast <;> linarith

theorem le_rne_add_half (t : ℚ) : t ≤ rne t + 1 / 2 := by
  have h0 := Int.fract_nonneg t
  have h1 := Int.fract_lt_one t
  have ht := Int.floor_add_fract t
  unfold rne
  split_ifs <;> push_cast <;> linarith

theorem rne_le_of_lt {t : ℚ} {n : ℤ} (h : t < n + 1 / 2) : rne t ≤ n := by
  have := rne_sub_half_le t
  have : (rne t : ℚ) < n + 1 := by linarith
  exact_mod_cast Int.lt_add_one_iff.1 (by exact_mod_cast this)

theorem le_rne_of_lt {t : ℚ} {n : ℤ} (h : n - 1 / 2 < t) : n ≤ rne t := by
  have := le_rne_add_half t
  have : (n : ℚ) - 1 < rne t := by linarith
  have : n - 1 < rne t := by exact_mod_cast this
  omega

theorem rne_mono {s t : ℚ} (h : s ≤ t) : rne s ≤ rne t := by
  by_contra hlt
  have h1 := rne_sub_half_le s
  have h2 := le_rne_add_half t
  have h3 : (rne t : ℚ) + 1 ≤ rne s := by exact_mod_cast (show rne t + 1 ≤ rne s by omega)
  have hst : s = t := by linarith
  exact hlt (hst ▸ le_rfl)

theorem rne_intCast (n : ℤ) : rne n = n :=
  le_antisymm (rne_le_of_lt (by linarith)) (le_rne_of_lt (by linarith))

/-! ### The binade of a magnitude -/

theorem two_zpow_pos (e : ℤ) : (0 : ℚ) < 2 ^ e := zpow_pos (by norm_num) e

theorem zpow_log_le {a : ℚ} (ha : 0 < a) : (2 : ℚ) ^ Int.log 2 a ≤ a := by
  simpa using Int.zpow_log_le_self (b := 2) (by norm_num) ha

theorem lt_zpow_log_succ (a : ℚ) : a < (2 : ℚ) ^ (Int.log 2 a + 1) := by
  simpa using Int.lt_zpow_succ_log_self (b := 2) (by norm_num) a

theorem log_lt_of_lt {a : ℚ} {e : ℤ} (ha : 0 < a) (h : a < 2 ^ e) : Int.log 2 a < e :=
  (Int.lt_zpow_iff_log_lt (b := 2) (by norm_num) ha).1 (by simpa using h)

theorem le_log_of_le {a : ℚ} {e : ℤ} (ha : 0 < a) (h : 2 ^ e ≤ a) : e ≤ Int.log 2 a :=
  (Int.zpow_le_iff_le_log (b := 2) (by norm_num) ha).1 (by simpa using h)

@[simp] theorem roundMag_zero : roundMag 0 = 0 := by
  simp [roundMag, show rne 0 = 0 from rne_intCast 0]

theorem roundMag_nonneg {a : ℚ} (ha : 0 ≤ a) : 0 ≤ roundMag a := by
  have : (0 : ℤ) ≤ rne (a / 2 ^ ulpExp a) :=
    le_rne_of_lt (by push_cast; linarith [div_nonneg ha (two_zpow_pos (ulpExp a)).le])
  exact mul_nonneg (by exact_mod_cast this) (two_zpow_pos _).le

/-- A magnitude rounds to at most the power of two that ends its binade. -/
theorem roundMag_le_zpow (a : ℚ) : roundMag a ≤ 2 ^ (Int.log 2 a + 1) := by
  have hu := two_zpow_pos (ulpExp a)
  have ht : a / 2 ^ ulpExp a < 2 ^ (Int.log 2 a + 1 - ulpExp a) := by
    rw [div_lt_iff₀ hu, ← zpow_add₀ (by norm_num), sub_add_cancel]
    exact lt_zpow_log_succ a
  rcases le_or_lt 0 (Int.log 2 a + 1 - ulpExp a) with hj | hj
  · obtain ⟨j, hj'⟩ := Int.eq_ofNat_of_zero_le hj
    have hr : rne (a / 2 ^ ulpExp a) ≤ 2 ^ j :=
      rne_le_of_lt (by rw [hj', zpow_natCast] at ht; push_cast; linarith only [ht])
    calc roundMag a ≤ (2 : ℚ) ^ j * 2 ^ ulpExp a :=
          mul_le_mul_of_nonneg_right (by exact_mod_cast hr) hu.le
      _ = 2 ^ (Int.log 2 a + 1) := by
          rw [← zpow_natCast, ← hj', ← zpow_add₀ (by norm_num), sub_add_cancel]
  · -- below the subnormals' last bit the magnitude rounds to zero
    have hr : rne (a / 2 ^ ulpExp a) ≤ 0 := by
      refine rne_le_of_lt (lt_of_lt_of_le ht ?_)
      have : (2 : ℚ) ^ (Int.log 2 a + 1 - ulpExp a) ≤ 2 ^ (-1 : ℤ) :=
        zpow_le_zpow_right₀ (by norm_num) (by omega)
      exact this.trans (by norm_num)
    calc roundMag a ≤ 0 := mul_nonpos_of_nonpos_of_nonneg (by exact_mod_cast hr) hu.le
      _ ≤ _ := (two_zpow_pos _).le

/-- A normal magnitude rounds to at least the power of two that starts its binade. -/
theorem zpow_le_roundMag {a : ℚ} (ha : 0 < a) (hn : -149 ≤ Int.log 2 a - 23) :
    2 ^ Int.log 2 a ≤ roundMag a := by
  have hu : ulpExp a = Int.log 2 a - 23 := max_eq_left hn
  have ht : (2 : ℚ) ^ 23 ≤ a / 2 ^ ulpExp a := by
    rw [le_div_iff₀ (two_zpow_pos _), hu, ← zpow_natCast, ← zpow_add₀ (by norm_num)]
    simpa using zpow_log_le ha
  have hr : (2 ^ 23 : ℤ) ≤ rne (a / 2 ^ ulpExp a) := le_rne_of_lt (by push_cast; linarith only [ht])
  calc (2 : ℚ) ^ Int.log 2 a = 2 ^ (23 : ℤ) * 2 ^ ulpExp a := by
        rw [hu, ← zpow_add₀ (by norm_num)]; ring_nf
    _ ≤ roundMag a := mul_le_mul_of_nonneg_right (by exact_mod_cast hr) (two_zpow_pos _).le

theorem ulpExp_mono {a b : ℚ} (ha : 0 < a) (hab : a ≤ b) : ulpExp a ≤ ulpExp b :=
  max_le_max (by linarith [Int.log_mono_right (b := 2) ha hab]) le_rfl

/-- **Rounding keeps the order** of two magnitudes. -/
theorem roundMag_mono {a b : ℚ} (ha : 0 ≤ a) (hab : a ≤ b) : roundMag a ≤ roundMag b := by
  rcases ha.eq_or_lt with rfl | ha
  · rw [roundMag_zero]; exact roundMag_nonneg hab
  rcases (ulpExp_mono ha hab).eq_or_lt with hu | hu
  · unfold roundMag
    rw [hu]
    refine mul_le_mul_of_nonneg_right ?_ (two_zpow_pos _).le
    exact_mod_cast rne_mono (div_le_div_of_nonneg_right hab (two_zpow_pos _).le)
  · -- `b` is in a higher binade, which starts above every rounding of `a`
    have hlog : Int.log 2 a + 1 ≤ Int.log 2 b := by unfold ulpExp at hu; omega
    calc roundMag a ≤ 2 ^ (Int.log 2 a + 1) := roundMag_le_zpow a
      _ ≤ 2 ^ Int.log 2 b := zpow_le_zpow_right₀ (by norm_num) hlog
      _ ≤ roundMag b := zpow_le_roundMag (by linarith) (by unfold ulpExp at hu; omega)

section Midpoint

variable {k : ℕ} {e : ℤ} {a : ℚ}

/-- **Below the midpoint** between `k · 2 ^ e` and the next `f32` up, a magnitude rounds to at
most `k · 2 ^ e`. -/
theorem roundMag_le_of_lt (hk : 2 ^ 23 ≤ k) (hk' : k < 2 ^ 24) (he : -149 ≤ e) (ha : 0 ≤ a)
    (h : a < (k + 1 / 2) * 2 ^ e) : roundMag a ≤ k * 2 ^ e := by
  rcases ha.eq_or_lt with rfl | ha
  · rw [roundMag_zero]; exact mul_nonneg (Nat.cast_nonneg k) (two_zpow_pos e).le
  have hk24 : (k : ℚ) + 1 / 2 ≤ 2 ^ 24 := by
    have : (k : ℚ) + 1 ≤ 2 ^ 24 := by exact_mod_cast hk'
    linarith only [this]
  have hlog : Int.log 2 a < e + 24 := by
    refine log_lt_of_lt ha (lt_of_lt_of_le h ?_)
    rw [zpow_add₀ (by norm_num), mul_comm]
    exact mul_le_mul_of_nonneg_left (by exact_mod_cast hk24) (two_zpow_pos e).le
  rcases (show ulpExp a = e ∨ ulpExp a < e by unfold ulpExp; omega) with hu | hu
  · unfold roundMag
    rw [hu]
    refine mul_le_mul_of_nonneg_right ?_ (two_zpow_pos e).le
    have : rne (a / 2 ^ e) ≤ k :=
      rne_le_of_lt (by rw [div_lt_iff₀ (two_zpow_pos e)]; push_cast; exact h)
    exact_mod_cast this
  · calc roundMag a ≤ 2 ^ (Int.log 2 a + 1) := roundMag_le_zpow a
      _ ≤ 2 ^ (e + 23) := zpow_le_zpow_right₀ (by norm_num) (by unfold ulpExp at hu; omega)
      _ = 2 ^ 23 * 2 ^ e := by rw [zpow_add₀ (by norm_num), mul_comm]; norm_num
      _ ≤ k * 2 ^ e := mul_le_mul_of_nonneg_right (by exact_mod_cast hk) (two_zpow_pos e).le

/-- **Above the midpoint** between `k · 2 ^ e` and the next `f32` down, a magnitude rounds to at
least `k · 2 ^ e`. -/
theorem le_roundMag_of_lt (hk : 2 ^ 23 < k) (hk' : k ≤ 2 ^ 24) (he : -149 ≤ e)
    (h : (k - 1 / 2) * 2 ^ e < a) : k * 2 ^ e ≤ roundMag a := by
  have hk23 : (2 : ℚ) ^ 23 ≤ k - 1 / 2 := by
    have : (2 : ℚ) ^ 23 + 1 ≤ k := by exact_mod_cast hk
    linarith only [this]
  have hpow : (2 : ℚ) ^ (e + 23) ≤ a := by
    rw [zpow_add₀ (by norm_num), mul_comm]
    exact le_trans (mul_le_mul_of_nonneg_right (by exact_mod_cast hk23) (two_zpow_pos e).le) h.le
  have ha : 0 < a := lt_of_lt_of_le (two_zpow_pos _) hpow
  have hlog := le_log_of_le ha hpow
  have hu : ulpExp a = Int.log 2 a - 23 := max_eq_left (by omega)
  rcases (show Int.log 2 a - 23 = e ∨ e < Int.log 2 a - 23 by omega) with he' | he'
  · unfold roundMag
    rw [hu, he']
    refine mul_le_mul_of_nonneg_right ?_ (two_zpow_pos e).le
    have : (k : ℤ) ≤ rne (a / 2 ^ e) :=
      le_rne_of_lt (by rw [lt_div_iff₀ (two_zpow_pos e)]; push_cast; exact h)
    exact_mod_cast this
  · calc (k : ℚ) * 2 ^ e ≤ 2 ^ 24 * 2 ^ e :=
          mul_le_mul_of_nonneg_right (by exact_mod_cast hk') (two_zpow_pos e).le
      _ = 2 ^ (e + 24) := by rw [zpow_add₀ (by norm_num), mul_comm]; norm_num
      _ ≤ 2 ^ Int.log 2 a := zpow_le_zpow_right₀ (by norm_num) (by omega)
      _ ≤ roundMag a := zpow_le_roundMag ha (by omega)

/-- A magnitude within half a step of `k · 2 ^ e` rounds to it. -/
theorem roundMag_eq_of_near (hk : 2 ^ 23 < k) (hk' : k < 2 ^ 24) (he : -149 ≤ e)
    (h1 : (k - 1 / 2) * 2 ^ e < a) (h2 : a < (k + 1 / 2) * 2 ^ e) : roundMag a = k * 2 ^ e :=
  le_antisymm (roundMag_le_of_lt hk.le hk' he
      (le_trans (mul_nonneg (by linarith [(show (2 : ℚ) ^ 23 < k by exact_mod_cast hk)])
        (two_zpow_pos e).le) h1.le) h2)
    (le_roundMag_of_lt hk hk'.le he h1)

/-- `roundMag_le_of_lt` with the midpoint `m` and the `f32` `v` as rationals. -/
theorem roundMag_le_of_lt_midpoint {m v : ℚ} (hk : 2 ^ 23 ≤ k ∧ k < 2 ^ 24 ∧ -149 ≤ e)
    (hmv : (k + 1 / 2) * 2 ^ e = m ∧ k * 2 ^ e = v) (ha : 0 ≤ a) (h : a < m) : roundMag a ≤ v :=
  hmv.2 ▸ roundMag_le_of_lt hk.1 hk.2.1 hk.2.2 ha (hmv.1 ▸ h)

/-- `le_roundMag_of_lt` with the midpoint `m` and the `f32` `v` as rationals. -/
theorem le_roundMag_of_midpoint_lt {m v : ℚ} (hk : 2 ^ 23 < k ∧ k ≤ 2 ^ 24 ∧ -149 ≤ e)
    (hmv : (k - 1 / 2) * 2 ^ e = m ∧ k * 2 ^ e = v) (h : m < a) : v ≤ roundMag a :=
  hmv.2 ▸ le_roundMag_of_lt hk.1 hk.2.1 hk.2.2 (hmv.1 ▸ h)

end Midpoint

/-- **An `f32` rounds to itself**: a multiple `m · 2 ^ e` with `m < 2 ^ 24` and `e ≥ -149`. -/
theorem roundMag_of_grid {m : ℕ} {e : ℤ} (hm : m < 2 ^ 24) (he : -149 ≤ e) :
    roundMag (m * 2 ^ e) = m * 2 ^ e := by
  rcases Nat.eq_zero_or_pos m with rfl | hm0
  · simp
  have ha : (0 : ℚ) < m * 2 ^ e := mul_pos (by exact_mod_cast hm0) (two_zpow_pos e)
  have hlog : Int.log 2 ((m : ℚ) * 2 ^ e) < e + 24 := by
    refine log_lt_of_lt ha ?_
    rw [zpow_add₀ (by norm_num), mul_comm]
    exact mul_lt_mul_of_pos_left (by exact_mod_cast hm) (two_zpow_pos e)
  obtain ⟨j, hj⟩ := Int.eq_ofNat_of_zero_le (show 0 ≤ e - ulpExp ((m : ℚ) * 2 ^ e) by
    unfold ulpExp; omega)
  have ht : (m : ℚ) * 2 ^ e / 2 ^ ulpExp ((m : ℚ) * 2 ^ e) = ((m * 2 ^ j : ℤ) : ℚ) := by
    rw [mul_div_assoc, ← zpow_sub₀ (by norm_num), hj, zpow_natCast]; push_cast; ring
  rw [roundMag, ht, rne_intCast, ← ht, div_mul_cancel₀ _ (two_zpow_pos _).ne']

theorem roundMag_natCast {n : ℕ} (hn : n < 2 ^ 24) : roundMag n = n := by
  simpa using roundMag_of_grid (e := 0) hn (by norm_num)

theorem roundMag_le_two_mul {a : ℚ} (ha : 0 ≤ a) : roundMag a ≤ 2 * a := by
  rcases ha.eq_or_lt with rfl | ha
  · simp
  calc roundMag a ≤ 2 ^ (Int.log 2 a + 1) := roundMag_le_zpow a
    _ = 2 * 2 ^ Int.log 2 a := by rw [zpow_add₀ (by norm_num), zpow_one, mul_comm]
    _ ≤ 2 * a := by linarith [zpow_log_le ha]

/-! ### Rounding a non-negative rational -/

theorem round_of_nonneg {x : ℚ} (hx : 0 ≤ x) (hm : roundMag x ≤ maxFinite) :
    round x = finite (roundMag x) := by
  simp only [round, abs_of_nonneg hx, not_lt.2 hm, not_lt.2 hx, if_false]

/-- A non-negative rational below a quarter of the largest `f32` rounds to a finite one. -/
theorem round_of_le {x : ℚ} (hx : 0 ≤ x) (hm : x ≤ 2 ^ 126) : round x = finite (roundMag x) :=
  round_of_nonneg hx (by
    have := roundMag_le_two_mul hx
    unfold maxFinite; norm_num at this ⊢; linarith)

theorem ofNat_eq (n : Nat) (hn : n < 2 ^ 32) : ofNat n = finite (roundMag n) :=
  round_of_le (Nat.cast_nonneg n) (by
    have : (n : ℚ) < 2 ^ 32 := by exact_mod_cast hn
    linarith [show (2 : ℚ) ^ 32 ≤ 2 ^ 126 by norm_num])

/-- **A count below `2 ^ 24` is cast exactly.** -/
theorem ofNat_of_lt {n : Nat} (hn : n < 2 ^ 24) : ofNat n = finite n := by
  rw [ofNat_eq n (by omega), roundMag_natCast hn]

theorem round_natCast {n : Nat} (hn : n < 2 ^ 24) : round n = finite n := ofNat_of_lt hn

/-- A literal within half a step of `k · 2 ^ e` is that `f32`. -/
theorem round_eq_of_near {k : ℕ} {e : ℤ} {a : ℚ} (hk : 2 ^ 23 < k) (hk' : k < 2 ^ 24)
    (he : -149 ≤ e) (h1 : (k - 1 / 2) * 2 ^ e < a) (h2 : a < (k + 1 / 2) * 2 ^ e)
    (ha : a ≤ 2 ^ 126) : round a = finite (k * 2 ^ e) := by
  have ha0 : 0 ≤ a := le_trans (mul_nonneg (by
    linarith [(show (2 : ℚ) ^ 23 < k by exact_mod_cast hk)]) (two_zpow_pos e).le) h1.le
  rw [round_of_le ha0 ha, roundMag_eq_of_near hk hk' he h1 h2]

/-- A literal within half a step of `k · 2 ^ e` is the `f32` `q = k · 2 ^ e`. -/
theorem round_literal {k : ℕ} {e : ℤ} {a q : ℚ} (hk : 2 ^ 23 < k ∧ k < 2 ^ 24)
    (h : (k - 1 / 2) * 2 ^ e < a ∧ a < (k + 1 / 2) * 2 ^ e) (hq : k * 2 ^ e = q)
    (he : -149 ≤ e) (ha : a ≤ 2 ^ 126) : round a = finite q :=
  hq ▸ round_eq_of_near hk.1 hk.2 he h.1 h.2 ha

/-- A whole-number literal is its `f32`. -/
theorem round_whole {n : ℕ} {a : ℚ} (ha : a = n) (hn : n < 2 ^ 24) : round a = finite n := by
  rw [ha]; exact round_natCast hn

/-- A whole number `n` an `f32` holds is a lower bound of the rounding of every magnitude above
it. -/
theorem natCast_le_roundMag {n : ℕ} {x : ℚ} (hn : n < 2 ^ 24) (h : (n : ℚ) ≤ x) :
    (n : ℚ) ≤ roundMag x :=
  roundMag_natCast hn ▸ roundMag_mono (Nat.cast_nonneg n) h

theorem div_finite {x y : ℚ} (hx : 0 ≤ x) (hy : 0 < y) (hq : x / y ≤ 2 ^ 126) :
    (finite x).div (finite y) = finite (roundMag (x / y)) := by
  rcases hx.eq_or_lt with rfl | hx
  · simp [div, isZero, hy.ne', zero, isSignNegative, not_lt.2 hy.le]
  · simp only [div, isZero, beq_iff_eq, hy.ne', hx.ne', decide_False, if_false,
      Bool.false_eq_true, value]
    exact round_of_le (div_nonneg hx.le hy.le) hq

theorem mul_finite {x y : ℚ} (hx : 0 ≤ x) (hy : 0 ≤ y) (hq : x * y ≤ 2 ^ 126) :
    (finite x).mul (finite y) = finite (roundMag (x * y)) := by
  by_cases h0 : x = 0 ∨ y = 0
  · rcases h0 with rfl | rfl <;>
      simp [mul, isZero, zero, isSignNegative, not_lt.2 hx, not_lt.2 hy]
  · simp only [mul, isZero, value]
    rw [if_neg (by simpa using h0)]
    exact round_of_le (mul_nonneg hx hy) hq

end F32

end StarNextImport
