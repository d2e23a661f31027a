import Mathlib.Analysis.SpecialFunctions.Trigonometric.Inverse
import Mathlib.Tactic.Positivity

/-!
# Sampled signals

Exact arithmetic on set-points: truncation to an integer, random draws and periodic signals.

* `trunc` — rounding towards zero: monotone, and which numbers it takes to a negative integer.
* `Draw`, `uniform` — a draw from [0, 1) and the one between two bounds it stands for;
  `exists_uniform_iff` — when a drawn offset can reach an interval.
* `exists_second_half` — a periodic signal that is not constant has a second half.
* `exists_sin_of` — a sampled sine reaches every interval its amplitude reaches.
-/

set_option autoImplicit false

namespace Signal

section OrderedField

variable {K : Type} [Field K] [LinearOrder K]

/-! ## Truncation -/

section Truncation

variable [FloorRing K]

/-- Rounding towards zero. -/
def trunc (x : K) : Int := if 0 ≤ x then ⌊x⌋ else ⌈x⌉

theorem trunc_mono {x y : K} (h : x ≤ y) : trunc x ≤ trunc y := by
  unfold trunc
  split
  · rename_i hx
    rw [if_pos (hx.trans h)]
    exact Int.floor_mono h
  · rename_i hx
    have hx0 : ⌈x⌉ ≤ 0 := Int.ceil_nonpos.mpr (not_le.mp hx).le
    split
    · rename_i hy
      exact hx0.trans (Int.floor_nonneg.mpr hy)
    · exact Int.ceil_mono h

variable [IsStrictOrderedRing K]

/-- A negative integer is the truncation of the numbers down to the next one. -/
theorem trunc_eq_iff_of_neg {x : K} {n : Int} (hn : n < 0) :
    trunc x = n ↔ (n : K) - 1 < x ∧ x ≤ n := by
  have hn' : (n : K) < 0 := by exact_mod_cast hn
  unfold trunc
  split
  · rename_i hx
    have hfloor : 0 ≤ ⌊x⌋ := Int.floor_nonneg.mpr hx
    constructor
    · intro heq
      omega
    · rintro ⟨-, hle⟩
      linarith
  · exact Int.ceil_eq_iff

end Truncation

/-! ## Draws -/

/-- A random number from [0, 1). -/
abbrev Draw (K : Type) [Field K] [LinearOrder K] : Type := {u : K // 0 ≤ u ∧ u < 1}

/-- A draw between two bounds, in either order. -/
def uniform (a b : K) (u : Draw K) : K := a + (b - a) * u.val

variable [IsStrictOrderedRing K]

theorem abs_uniform_le (a : K) (u : Draw K) : |uniform (-a) a u| ≤ |a| := by
  obtain ⟨u, h0, h1⟩ := u
  have hfactor : uniform (-a) a ⟨u, h0, h1⟩ = a * (2 * u - 1) := by
    simp only [uniform]
    ring
  have hunit : |2 * u - 1| ≤ 1 := abs_le.mpr ⟨by linarith, by linarith⟩
  rw [hfactor, abs_mul]
  exact mul_le_of_le_one_right (abs_nonneg a) hunit

theorem uniform_half (a : K) : uniform (-a) a ⟨1 / 2, by norm_num⟩ = 0 := by
  simp only [uniform]
  ring

/-- A number within the bounds is drawn, the first bound included and the second not. -/
theorem exists_uniform_of_lt {a b v : K} (hab : a < b) (ha : a ≤ v) (hb : v < b) :
    ∃ u, uniform a b u = v := by
  have hpos : 0 < b - a := sub_pos.mpr hab
  refine ⟨⟨(v - a) / (b - a), div_nonneg (by linarith) hpos.le, ?_⟩, ?_⟩
  · rw [div_lt_one hpos]
    linarith
  · simp only [uniform]
    rw [mul_div_cancel₀ _ hpos.ne']
    ring

theorem exists_uniform_of_gt {a b v : K} (hab : b < a) (ha : v ≤ a) (hb : b < v) :
    ∃ u, uniform a b u = v := by
  obtain ⟨u, hu⟩ := exists_uniform_of_lt (neg_lt_neg hab) (neg_le_neg ha) (neg_lt_neg hb)
  refine ⟨u, ?_⟩
  simp only [uniform] at hu ⊢
  linarith

/-- **When a drawn offset reaches an interval.**  An amplitude below zero leaves the lower end
out instead of the upper one. -/
theorem exists_uniform_iff {a c x y : K} (hxy : x < y) :
    (∃ u, x < c + uniform (-a) a u ∧ c + uniform (-a) a u ≤ y) ↔
      c - |a| ≤ y ∧ (0 ≤ a ∨ c - |a| < y) ∧ x < c + |a| := by
  constructor
  · rintro ⟨u, hx, hy⟩
    have habs := abs_le.mp (abs_uniform_le a u)
    refine ⟨by linarith, ?_, by linarith⟩
    by_cases ha : 0 ≤ a
    · exact .inl ha
    · right
      have hlt : a < uniform (-a) a u := by
        have hu := mul_pos_of_neg_of_neg (not_le.mp ha) (sub_neg.mpr u.2.2)
        simp only [uniform]
        linarith
      rw [abs_of_neg (not_le.mp ha)]
      linarith
  · rintro ⟨hlo, hstrict, hhi⟩
    -- some number of the interval is drawn
    have hreach : ∃ v u, uniform (-a) a u = v ∧ x < c + v ∧ c + v ≤ y := by
      rcases lt_trichotomy a 0 with ha | rfl | ha
      · have hlo' := hstrict.resolve_left (not_le.mpr ha)
        rw [abs_of_neg ha] at hhi hlo'
        have hmin : c + a < min (c - a) y := lt_min (by linarith) (by linarith)
        obtain ⟨u, hu⟩ := exists_uniform_of_gt (a := -a) (b := a) (v := min (c - a) y - c)
          (by linarith) (by linarith [min_le_left (c - a) y]) (by linarith)
        refine ⟨_, u, hu, ?_, by linarith [min_le_right (c - a) y]⟩
        have hx : x < min (c - a) y := lt_min (by linarith) hxy
        linarith
      · rw [abs_zero] at hlo hhi
        exact ⟨0, ⟨0, le_rfl, one_pos⟩, by simp [uniform], by linarith, by linarith⟩
      · rw [abs_of_pos ha] at hlo hhi
        by_cases hx : x < c - a
        · exact ⟨-a, ⟨0, le_rfl, one_pos⟩, by simp [uniform], by linarith, by linarith⟩
        · have hmin : x < min (c + a) y := lt_min hhi hxy
          obtain ⟨u, hu⟩ := exists_uniform_of_lt (a := -a) (b := a)
            (v := (x + min (c + a) y) / 2 - c) (by linarith) (by linarith)
            (by linarith [min_le_left (c + a) y])
          exact ⟨_, u, hu, by linarith, by linarith [min_le_right (c + a) y]⟩
    obtain ⟨v, u, rfl, hx, hy⟩ := hreach
    exact ⟨u, hx, hy⟩

/-! ## Periodic signals -/

theorem exists_second_half [FloorRing K] {freq : K} (hf : freq ≠ 0) :
    ∃ t, 0 ≤ t ∧ ¬ Int.fract (t * freq) < 1 / 2 := by
  have hpos : 0 < |freq| := abs_pos.mpr hf
  refine ⟨1 / (2 * |freq|), by positivity, ?_⟩
  rcases lt_or_gt_of_ne hf with hneg | hpos'
  · have hphase : 1 / (2 * |freq|) * freq = -1 + 1 / 2 := by
      rw [abs_of_neg hneg]
      field_simp
      ring
    have hfract : Int.fract ((-1 : K) + 1 / 2) = 1 / 2 := by
      rw [Int.fract_eq_iff]
      exact ⟨by norm_num, by norm_num, -1, by norm_num⟩
    rw [hphase, hfract]
    exact lt_irrefl _
  · have hphase : 1 / (2 * |freq|) * freq = 1 / 2 := by
      rw [abs_of_pos hpos']
      field_simp
    have hfract : Int.fract ((1 : K) / 2) = 1 / 2 :=
      Int.fract_eq_self.mpr ⟨by norm_num, by norm_num⟩
    rw [hphase, hfract]
    exact lt_irrefl _

end OrderedField

/-- A sine takes each of its values at a time that is not negative. -/
theorem exists_sin_eq {freq y : ℝ} (hf : freq ≠ 0) (h1 : -1 ≤ y) (h2 : y ≤ 1) :
    ∃ t, 0 ≤ t ∧ Real.sin (2 * Real.pi * freq * t) = y := by
  have hpi := Real.pi_pos
  have hlo := Real.neg_pi_div_two_le_arcsin y
  have hhi := Real.arcsin_le_pi_div_two y
  rcases lt_or_gt_of_ne hf with hneg | hpos
  · refine ⟨(Real.arcsin y - 2 * Real.pi) / (2 * Real.pi * freq), ?_, ?_⟩
    · apply div_nonneg_of_nonpos
      · linarith
      · nlinarith
    · rw [mul_div_cancel₀ _ (by positivity), Real.sin_sub_two_pi, Real.sin_arcsin h1 h2]
  · refine ⟨(Real.arcsin y + 2 * Real.pi) / (2 * Real.pi * freq), ?_, ?_⟩
    · apply div_nonneg
      · linarith
      · positivity
    · rw [mul_div_cancel₀ _ (by positivity), Real.sin_add_two_pi, Real.sin_arcsin h1 h2]

theorem abs_mul_sin_le (amp x : ℝ) : |amp * Real.sin x| ≤ |amp| := by
  rw [abs_mul]
  exact mul_le_of_le_one_right (abs_nonneg amp) (Real.abs_sin_le_one x)

/-- A sampled sine reaches every interval its amplitude reaches. -/
theorem exists_sin_of {freq amp c x y : ℝ} (hf : freq ≠ 0) (hxy : x < y) (hlo : c - |amp| ≤ y)
    (hhi : x < c + |amp|) : ∃ t, 0 ≤ t ∧ x < c + amp * Real.sin (2 * Real.pi * freq * t) ∧
      c + amp * Real.sin (2 * Real.pi * freq * t) ≤ y := by
  have hreach : ∃ s, -1 ≤ s ∧ s ≤ 1 ∧ c + amp * s = min (c + |amp|) y := by
    have hle : min (c + |amp|) y ≤ c + |amp| := min_le_left _ _
    have hge : c - |amp| ≤ min (c + |amp|) y := le_min (by linarith [abs_nonneg amp]) hlo
    generalize min (c + |amp|) y = v at hle hge ⊢
    by_cases ha : amp = 0
    · rw [ha, abs_zero] at hle hge
      exact ⟨0, by norm_num, by norm_num, by rw [ha]; linarith⟩
    · have habs : |(v - c) / amp| ≤ 1 := by
        rw [abs_div, div_le_one (abs_pos.mpr ha), abs_le]
        exact ⟨by linarith, by linarith⟩
      refine ⟨(v - c) / amp, (abs_le.mp habs).1, (abs_le.mp habs).2, ?_⟩
      rw [mul_div_cancel₀ _ ha]
      ring
  obtain ⟨s, h1, h2, hs⟩ := hreach
  obtain ⟨t, ht, hsin⟩ := exists_sin_eq hf h1 h2
  refine ⟨t, ht, ?_⟩
  rw [hsin, hs]
  exact ⟨lt_min hhi hxy, min_le_right _ _⟩

end Signal
