import FanucDriver.Ik.Count
import FanucDriver.Ik.Plugin
import FanucDriver.Lib.Signal
import Mathlib.Tactic.Linarith

/-!
# The values tried for a redundant joint

* `increments` — `num_positive_increments` and `num_negative_increments`.
* `window` — the values a search may try: the limits of the joint and the consistency limit.
* `mem_grid_iff` — with `-num_negative_increments`, the values tried are the multiples of the
  search step that are in the window.
* `visits_upward` — with `num_negative_increments`, they are those from the seed upwards.
-/

set_option autoImplicit false

namespace FanucDriver

namespace Ik

variable {K : Type} [Field K] [LinearOrder K]

/-- `max_limit` and `min_limit`; `consistencyLimit` is the entry of the redundant joint where
consistency limits are given. -/
def window (limit : JointLimit K) (initialGuess : K) (consistencyLimit : Option K) : K × K :=
  match consistencyLimit with
  | some c => (min limit.max (initialGuess + c), max limit.min (initialGuess - c))
  | none => (limit.max, limit.min)

section Increments

variable [FloorRing K]

/-- `num_positive_increments` and `num_negative_increments` -/
def increments (limit : JointLimit K) (initialGuess searchDiscretization : K)
    (consistencyLimit : Option K) : Int × Int :=
  let w := window limit initialGuess consistencyLimit
  (Signal.trunc ((w.1 - initialGuess) / searchDiscretization),
    Signal.trunc ((initialGuess - w.2) / searchDiscretization))

variable [IsStrictOrderedRing K]

theorem le_trunc_iff {x step : K} (hx : 0 ≤ x) (hstep : 0 < step) (c : Int) :
    c ≤ Signal.trunc (x / step) ↔ step * c ≤ x := by
  rw [Signal.trunc, if_pos (div_nonneg hx hstep.le), Int.le_floor, le_div_iff₀ hstep, mul_comm]

/-- **The grid of a search** that goes both ways. -/
theorem mem_grid_iff (limit : JointLimit K) {initialGuess step : K} (consistencyLimit : Option K)
    (hmax : initialGuess ≤ (window limit initialGuess consistencyLimit).1)
    (hmin : (window limit initialGuess consistencyLimit).2 ≤ initialGuess) (hstep : 0 < step)
    (c : Int) :
    c ∈ visits (increments limit initialGuess step consistencyLimit).1
        (-(increments limit initialGuess step consistencyLimit).2) 0 ↔
      (window limit initialGuess consistencyLimit).2 ≤ initialGuess + step * c ∧
        initialGuess + step * c ≤ (window limit initialGuess consistencyLimit).1 := by
  have hup := le_trunc_iff (sub_nonneg.mpr hmax) hstep
  have hdown := le_trunc_iff (sub_nonneg.mpr hmin) hstep
  have hpos : (0 : Int) ≤ (increments limit initialGuess step consistencyLimit).1 :=
    (hup 0).mpr (by simpa using hmax)
  have hneg : (0 : Int) ≤ (increments limit initialGuess step consistencyLimit).2 :=
    (hdown 0).mpr (by simpa using hmin)
  rw [(visits_zero _ _).2 c, Within]
  have hc : c ≤ (increments limit initialGuess step consistencyLimit).1 ↔
      initialGuess + step * c ≤ (window limit initialGuess consistencyLimit).1 :=
    (hup c).trans (by constructor <;> intro h <;> linarith)
  have hc' : -(increments limit initialGuess step consistencyLimit).2 ≤ c ↔
      (window limit initialGuess consistencyLimit).2 ≤ initialGuess + step * c := by
    rw [neg_le]
    refine (hdown (-c)).trans ?_
    push_cast
    constructor <;> intro h <;> linarith
  rw [← hc, ← hc']
  omega

end Increments

/-! ## A limit on the wrong side -/

theorem getCount_upward (max_count : Int) {min_count count : Int} (hmin : 0 ≤ min_count)
    (hcount : 0 ≤ count) :
    getCount count max_count min_count =
      if count + 1 ≤ max_count then some (count + 1) else none := by
  rcases hcount.lt_or_eq with hpos | rfl
  · rw [getCount, if_pos hpos, if_neg (by omega)]
  · rw [getCount, if_neg (lt_irrefl 0), sub_zero, zero_add]
    split
    · rfl
    · exact if_neg (by omega)

/-- **The numbers tried are 0, 1, 2, ...** when the lower limit is not below zero. -/
theorem visits_upward {max_count min_count : Int} (hmin : 0 ≤ min_count) {count n : Nat}
    (hn : count + n = max_count.toNat) :
    visits max_count min_count count = (List.range' count (n + 1)).map Int.ofNat := by
  have hnext := getCount_upward max_count hmin (Int.natCast_nonneg count)
  induction n generalizing count with
  | zero =>
    rw [if_neg (by omega)] at hnext
    rw [visits_none hnext]
    rfl
  | succ n ih =>
    rw [if_pos (by omega)] at hnext
    rw [visits_some hnext, List.range'_succ, List.map_cons]
    have hcount : count + 1 + n = max_count.toNat := by omega
    have hrest := ih hcount (getCount_upward max_count hmin (Int.natCast_nonneg (count + 1)))
    rw [← hrest]
    rfl

end Ik

end FanucDriver
