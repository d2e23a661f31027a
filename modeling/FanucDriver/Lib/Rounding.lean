import Mathlib.Algebra.Order.Field.Power
import Mathlib.Data.Int.Log
import Mathlib.Data.Rat.Floor
import Mathlib.Tactic.Positivity
import Mathlib.Tactic.Ring
import Mathlib.Tactic.Linarith
import Mathlib.Tactic.NormNum

/-!
# Rounding to a binary format

Rational numbers stand for the real numbers computed with.

* `Rounding p` — what every rounding to a binary format with `p` digits does: it is monotone, and
  exact on the numbers of the format.
* `Rounding.le_fl`, `Rounding.fl_le` — a rounded number stays on its side of the numbers of the
  format.
* `roundEven`, `flNearest`, `Rounding.nearest` — to the nearest number, ties to even.
-/

set_option autoImplicit false

/-- A rounding to `p` binary digits, of unbounded exponent. -/
structure Rounding (p : ℕ) where
  fl : ℚ → ℚ
  mono : Monotone fl
  exact : ∀ m k : ℤ, |m| < 2 ^ p → fl (m * 2 ^ k) = m * 2 ^ k

namespace Rounding

variable {p : ℕ}

/-! ## Every rounding -/

theorem fl_int (r : Rounding p) {m : ℤ} (h : |m| < 2 ^ p) : r.fl m = m := by
  simpa using r.exact m 0 h

theorem fl_zero (r : Rounding p) : r.fl 0 = 0 := by
  simpa using r.fl_int (m := 0) (by positivity)

/-- A number of the format that bounds `x` from below bounds its rounding. -/
theorem le_fl (r : Rounding p) {x : ℚ} {m k : ℤ} (hm : |m| < 2 ^ p) (h : m * 2 ^ k ≤ x) :
    m * 2 ^ k ≤ r.fl x := by
  rw [← r.exact m k hm]
  exact r.mono h

theorem fl_le (r : Rounding p) {x : ℚ} {m k : ℤ} (hm : |m| < 2 ^ p) (h : x ≤ m * 2 ^ k) :
    r.fl x ≤ m * 2 ^ k := by
  rw [← r.exact m k hm]
  exact r.mono h

theorem int_le_fl (r : Rounding p) {x m : ℤ} (hm : |m| < 2 ^ p) (h : m ≤ x) :
    (m : ℚ) ≤ r.fl x := by
  rw [← r.fl_int hm]
  exact r.mono (by exact_mod_cast h)

theorem fl_le_int (r : Rounding p) {x m : ℤ} (hm : |m| < 2 ^ p) (h : x ≤ m) : r.fl x ≤ m := by
  rw [← r.fl_int hm]
  exact r.mono (by exact_mod_cast h)

end Rounding

/-! ## To the nearest integer -/

/-- The nearest integer; halfway between two, the even one. -/
def roundEven (x : ℚ) : ℤ :=
  if x - ⌊x⌋ < 1 / 2 then ⌊x⌋
  else if 1 / 2 < x - ⌊x⌋ then ⌊x⌋ + 1
  else if ⌊x⌋ % 2 = 0 then ⌊x⌋ else ⌊x⌋ + 1

theorem roundEven_int (n : ℤ) : roundEven n = n := by
  simp [roundEven]

theorem floor_le_roundEven (x : ℚ) : ⌊x⌋ ≤ roundEven x := by
  unfold roundEven
  split_ifs <;> omega

theorem roundEven_le_floor (x : ℚ) : roundEven x ≤ ⌊x⌋ + 1 := by
  unfold roundEven
  split_ifs <;> omega

theorem roundEven_mono {x y : ℚ} (hxy : x ≤ y) : roundEven x ≤ roundEven y := by
  rcases (Int.floor_mono hxy).lt_or_eq with hlt | heq
  · calc
      roundEven x ≤ ⌊x⌋ + 1 := roundEven_le_floor x
      _ ≤ ⌊y⌋ := hlt
      _ ≤ roundEven y := floor_le_roundEven y
  · have hfract : x - ⌊x⌋ ≤ y - ⌊y⌋ := by
      rw [heq]
      linarith
    unfold roundEven
    rw [heq] at hfract ⊢
    split_ifs <;> first | omega | linarith

theorem le_roundEven {x : ℚ} {n : ℤ} (h : n ≤ x) : n ≤ roundEven x := by
  simpa only [roundEven_int] using roundEven_mono h

theorem roundEven_le {x : ℚ} {n : ℤ} (h : x ≤ n) : roundEven x ≤ n := by
  simpa only [roundEven_int] using roundEven_mono h

theorem abs_roundEven_le {x : ℚ} {n : ℤ} (h : |x| ≤ n) : |roundEven x| ≤ n := by
  rw [abs_le] at h ⊢
  exact ⟨le_roundEven (by exact_mod_cast h.1), roundEven_le h.2⟩

theorem le_abs_roundEven {x : ℚ} {n : ℤ} (h : n ≤ |x|) : n ≤ |roundEven x| := by
  rcases le_abs.mp h with hpos | hneg
  · exact (le_roundEven hpos).trans (le_abs_self _)
  · have hx : x ≤ ((-n : ℤ) : ℚ) := by
      push_cast
      linarith
    have hr := roundEven_le hx
    exact (show n ≤ -roundEven x by omega).trans (neg_le_abs _)

/-! ## To the nearest number of a format -/

/-- The exponent of the last of the `p` digits of `x`. -/
def ulpExp (p : ℕ) (x : ℚ) : ℤ :=
  Int.log 2 |x| + 1 - p

/-- `x` to `p` binary digits, to nearest with ties to even. -/
def flNearest (p : ℕ) (x : ℚ) : ℚ :=
  roundEven (x / 2 ^ ulpExp p x) * 2 ^ ulpExp p x

theorem flNearest_zero (p : ℕ) : flNearest p 0 = 0 := by
  simp [flNearest, roundEven]

theorem flNearest_nonneg (p : ℕ) {x : ℚ} (h : 0 ≤ x) : 0 ≤ flNearest p x := by
  have hr : (0 : ℤ) ≤ roundEven (x / 2 ^ ulpExp p x) := le_roundEven (by positivity)
  unfold flNearest
  positivity

theorem flNearest_nonpos (p : ℕ) {x : ℚ} (h : x ≤ 0) : flNearest p x ≤ 0 := by
  have hr : roundEven (x / 2 ^ ulpExp p x) ≤ (0 : ℤ) :=
    roundEven_le (div_nonpos_of_nonpos_of_nonneg h (by positivity))
  exact mul_nonpos_of_nonpos_of_nonneg (by exact_mod_cast hr) (by positivity)

/-- The size of the format's numbers in the binade of `x`. -/
theorem pow_mul_ulp (p n : ℕ) (x : ℚ) :
    (2 : ℚ) ^ n * 2 ^ ulpExp p x = 2 ^ (Int.log 2 |x| + 1 + n - p) := by
  rw [← zpow_natCast, ← zpow_add₀ (by norm_num), ulpExp]
  congr 1
  ring

theorem abs_flNearest_le (p : ℕ) (x : ℚ) : |flNearest p x| ≤ 2 ^ (Int.log 2 |x| + 1) := by
  have hlt := Int.lt_zpow_succ_log_self (R := ℚ) (b := 2) (by decide) |x|
  have hx : |x / 2 ^ ulpExp p x| ≤ ((2 ^ p : ℤ) : ℚ) := by
    rw [abs_div, abs_of_pos (show (0 : ℚ) < 2 ^ ulpExp p x by positivity),
      div_le_iff₀ (by positivity)]
    push_cast at hlt ⊢
    rw [pow_mul_ulp, add_sub_cancel_right]
    exact hlt.le
  have hr : |(roundEven (x / 2 ^ ulpExp p x) : ℚ)| ≤ 2 ^ p := by
    exact_mod_cast abs_roundEven_le hx
  calc
    |flNearest p x| = |(roundEven (x / 2 ^ ulpExp p x) : ℚ)| * 2 ^ ulpExp p x := by
      rw [flNearest, abs_mul, abs_of_pos (show (0 : ℚ) < 2 ^ ulpExp p x by positivity)]
    _ ≤ 2 ^ p * 2 ^ ulpExp p x := mul_le_mul_of_nonneg_right hr (by positivity)
    _ = 2 ^ (Int.log 2 |x| + 1) := by rw [pow_mul_ulp, add_sub_cancel_right]

theorem le_abs_flNearest {p : ℕ} (hp : 0 < p) {x : ℚ} (hx : x ≠ 0) :
    2 ^ Int.log 2 |x| ≤ |flNearest p x| := by
  obtain ⟨n, rfl⟩ : ∃ n, p = n + 1 := ⟨p - 1, by omega⟩
  have hle := Int.zpow_log_le_self (R := ℚ) (b := 2) (by decide) (abs_pos.mpr hx)
  have hulp : (2 : ℚ) ^ n * 2 ^ ulpExp (n + 1) x = 2 ^ Int.log 2 |x| := by
    rw [pow_mul_ulp]
    congr 1
    push_cast
    ring
  have hge : ((2 ^ n : ℤ) : ℚ) ≤ |x / 2 ^ ulpExp (n + 1) x| := by
    rw [abs_div, abs_of_pos (show (0 : ℚ) < 2 ^ ulpExp (n + 1) x by positivity),
      le_div_iff₀ (by positivity)]
    push_cast at hle ⊢
    rw [hulp]
    exact hle
  have hr : (2 : ℚ) ^ n ≤ |(roundEven (x / 2 ^ ulpExp (n + 1) x) : ℚ)| := by
    exact_mod_cast le_abs_roundEven hge
  calc
    (2 : ℚ) ^ Int.log 2 |x| = 2 ^ n * 2 ^ ulpExp (n + 1) x := hulp.symm
    _ ≤ |(roundEven (x / 2 ^ ulpExp (n + 1) x) : ℚ)| * 2 ^ ulpExp (n + 1) x :=
      mul_le_mul_of_nonneg_right hr (by positivity)
    _ = |flNearest (n + 1) x| := by
      rw [flNearest, abs_mul, abs_of_pos (show (0 : ℚ) < 2 ^ ulpExp (n + 1) x by positivity)]

/-- In one binade. -/
theorem flNearest_le_of_log_eq (p : ℕ) {x y : ℚ} (hlog : Int.log 2 |x| = Int.log 2 |y|)
    (h : x ≤ y) : flNearest p x ≤ flNearest p y := by
  have hulp : ulpExp p x = ulpExp p y := by rw [ulpExp, hlog, ulpExp]
  have hr := roundEven_mono (div_le_div_of_nonneg_right h
    (show (0 : ℚ) ≤ 2 ^ ulpExp p y by positivity))
  unfold flNearest
  rw [hulp]
  exact mul_le_mul_of_nonneg_right (by exact_mod_cast hr) (by positivity)

/-- A smaller magnitude of a lower binade. -/
theorem abs_flNearest_le_of_log_lt {p : ℕ} (hp : 0 < p) {x y : ℚ} (hy : y ≠ 0)
    (hlog : Int.log 2 |x| < Int.log 2 |y|) : |flNearest p x| ≤ |flNearest p y| := by
  calc
    |flNearest p x| ≤ 2 ^ (Int.log 2 |x| + 1) := abs_flNearest_le p x
    _ ≤ 2 ^ Int.log 2 |y| := zpow_le_zpow_right₀ (by norm_num) hlog
    _ ≤ |flNearest p y| := le_abs_flNearest hp hy

theorem flNearest_mono {p : ℕ} (hp : 0 < p) : Monotone (flNearest p) := by
  intro x y hxy
  rcases le_or_gt x 0 with hx | hx
  · rcases le_or_gt 0 y with hy | hy
    · exact (flNearest_nonpos p hx).trans (flNearest_nonneg p hy)
    · -- both negative: the magnitudes are the other way round
      have habs : |y| ≤ |x| := by
        rw [abs_of_neg hy, abs_of_nonpos hx]
        linarith
      rcases (Int.log_mono_right (b := 2) (abs_pos.mpr hy.ne) habs).lt_or_eq with hlt | heq
      · have hle := abs_flNearest_le_of_log_lt hp (hxy.trans_lt hy).ne hlt
        rw [abs_of_nonpos (flNearest_nonpos p hy.le), abs_of_nonpos (flNearest_nonpos p hx)] at hle
        linarith
      · exact flNearest_le_of_log_eq p heq.symm hxy
  · have hy : 0 < y := hx.trans_le hxy
    have habs : |x| ≤ |y| := by rwa [abs_of_pos hx, abs_of_pos hy]
    rcases (Int.log_mono_right (b := 2) (abs_pos.mpr hx.ne') habs).lt_or_eq with hlt | heq
    · have hle := abs_flNearest_le_of_log_lt hp hy.ne' hlt
      rwa [abs_of_nonneg (flNearest_nonneg p hx.le),
        abs_of_nonneg (flNearest_nonneg p hy.le)] at hle
    · exact flNearest_le_of_log_eq p heq hxy

/-- The numbers of the format stay. -/
theorem flNearest_exact {p : ℕ} {m : ℤ} (k : ℤ) (hm : |m| < 2 ^ p) :
    flNearest p (m * 2 ^ k) = m * 2 ^ k := by
  rcases eq_or_ne m 0 with rfl | hne
  · simp [flNearest_zero]
  have habs : |(m : ℚ) * 2 ^ k| < (2 : ℚ) ^ (p + k) := by
    rw [abs_mul, abs_of_pos (show (0 : ℚ) < 2 ^ k by positivity), zpow_add₀ (by norm_num),
      zpow_natCast]
    exact mul_lt_mul_of_pos_right (by exact_mod_cast hm) (by positivity)
  have hlog : Int.log 2 |(m : ℚ) * 2 ^ k| < p + k := by
    refine (Int.lt_zpow_iff_log_lt (R := ℚ) (b := 2) (by decide) ?_).mp (by exact_mod_cast habs)
    exact abs_pos.mpr (mul_ne_zero (by exact_mod_cast hne) (by positivity))
  -- the last digit of the format is not above `2 ^ k`
  obtain ⟨n, hn⟩ : ∃ n : ℕ, k = n + ulpExp p (m * 2 ^ k) :=
    ⟨(k - ulpExp p (m * 2 ^ k)).toNat, by rw [ulpExp]; omega⟩
  have hint : (m : ℚ) * 2 ^ k / 2 ^ ulpExp p (m * 2 ^ k) = ((m * 2 ^ n : ℤ) : ℚ) := by
    rw [div_eq_iff (by positivity)]
    push_cast
    rw [mul_assoc, ← zpow_natCast, ← zpow_add₀ (by norm_num), ← hn]
  unfold flNearest
  rw [hint, roundEven_int, ← hint, div_mul_cancel₀ _ (by positivity)]

/-- Rounding to nearest is a rounding. -/
def Rounding.nearest {p : ℕ} (hp : 0 < p) : Rounding p where
  fl := flNearest p
  mono := flNearest_mono hp
  exact := fun _ k hm => flNearest_exact k hm
