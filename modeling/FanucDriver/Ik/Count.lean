import Mathlib.Algebra.Order.Group.Unbundled.Int
import Mathlib.Data.List.Basic

/-!
# Stepping through the redundancy (`getCount`)

* `getCount` — the next multiple of the search step, `none` when there is none.
* `visits` — the multiples a search tries, from a given one on.
* `order` — their order: 0, 1, -1, 2, -2, ...; `getCount_some` — the next one is the first in
  this order that is within the limits.
* `visits_zero` — from zero on, everything within the limits is tried, once.
-/

set_option autoImplicit false

namespace FanucDriver

namespace Ik

/-- `IKFastKinematicsPlugin::getCount`; `none` is the result `false`. -/
def getCount (count max_count min_count : Int) : Option Int :=
  if count > 0 then
    if -count ≥ min_count then some (-count)
    else if count + 1 ≤ max_count then some (count + 1)
    else none
  else
    if 1 - count ≤ max_count then some (1 - count)
    else if count - 1 ≥ min_count then some (count - 1)
    else none

/-- The place of a number in 0, 1, -1, 2, -2, ... -/
def order (count : Int) : Nat := if count > 0 then 2 * count.natAbs - 1 else 2 * count.natAbs

/-- Between the limits, where a limit on the wrong side of zero allows nothing. -/
def Within (max_count min_count count : Int) : Prop :=
  (0 < count ∧ count ≤ max_count) ∨ (min_count ≤ count ∧ count < 0)

theorem order_of_pos {c : Int} (h : 0 < c) : (order c : Int) = 2 * c - 1 := by
  rw [order, if_pos h]
  omega

theorem order_of_nonpos {c : Int} (h : c ≤ 0) : (order c : Int) = -2 * c := by
  rw [order, if_neg (not_lt.mpr h)]
  omega

/-- The positive numbers are at the odd places. -/
theorem order_cases (c : Int) :
    0 < c ∧ (order c : Int) = 2 * c - 1 ∨ c ≤ 0 ∧ (order c : Int) = -2 * c := by
  rcases lt_or_ge 0 c with h | h
  · exact .inl ⟨h, order_of_pos h⟩
  · exact .inr ⟨h, order_of_nonpos h⟩

theorem order_injective {c d : Int} (h : order c = order d) : c = d := by
  rcases order_cases c with hc | hc <;> rcases order_cases d with hd | hd <;> omega

/-- What a successful call does. -/
theorem getCount_cases {count max_count min_count next : Int}
    (h : getCount count max_count min_count = some next) :
    0 < count ∧ min_count ≤ -count ∧ next = -count ∨
      0 < count ∧ ¬ min_count ≤ -count ∧ count + 1 ≤ max_count ∧ next = count + 1 ∨
      count ≤ 0 ∧ 1 - count ≤ max_count ∧ next = 1 - count ∨
      count ≤ 0 ∧ ¬ 1 - count ≤ max_count ∧ min_count ≤ count - 1 ∧ next = count - 1 := by
  unfold getCount at h
  split at h <;> split at h
  · cases h
    omega
  · split at h
    · cases h
      omega
    · cases h
  · cases h
    omega
  · split at h
    · cases h
      omega
    · cases h

/-- **The next number** is the first one within the limits. -/
theorem getCount_some {count max_count min_count next : Int}
    (h : getCount count max_count min_count = some next) :
    Within max_count min_count next ∧ order count < order next ∧
      ∀ c, Within max_count min_count c → order count < order c → order next ≤ order c := by
  have hnext := order_cases next
  have hcount := order_cases count
  have hcases := getCount_cases h
  refine ⟨?_, ?_, ?_⟩
  · rw [Within]
    omega
  · omega
  · intro c hc hlt
    have := order_cases c
    rw [Within] at hc
    omega

theorem getCount_none {count max_count min_count : Int}
    (h : getCount count max_count min_count = none) {c : Int}
    (hc : Within max_count min_count c) : order c ≤ order count := by
  have horder := order_cases c
  have hcount := order_cases count
  rw [Within] at hc
  unfold getCount at h
  split at h <;> split at h
  · cases h
  · split at h
    · cases h
    · omega
  · cases h
  · split at h
    · cases h
    · omega

/-- How much is left to try. -/
def remaining (max_count min_count count : Int) : Nat :=
  2 * (max_count.natAbs + min_count.natAbs) + 1 - order count

theorem getCount_remaining {count max_count min_count next : Int}
    (h : getCount count max_count min_count = some next) :
    remaining max_count min_count next < remaining max_count min_count count := by
  obtain ⟨hwithin, hlt, -⟩ := getCount_some h
  have := order_cases next
  rw [Within] at hwithin
  rw [remaining, remaining]
  omega

/-- The numbers a search tries, one after the other. -/
def visits (max_count min_count count : Int) : List Int :=
  match _h : getCount count max_count min_count with
  | none => [count]
  | some next => count :: visits max_count min_count next
termination_by remaining max_count min_count count
decreasing_by exact getCount_remaining _h

theorem visits_none {count max_count min_count : Int}
    (h : getCount count max_count min_count = none) :
    visits max_count min_count count = [count] := by
  rw [visits]
  split
  · rfl
  · rename_i h'
    rw [h] at h'
    cases h'

theorem visits_some {count max_count min_count next : Int}
    (h : getCount count max_count min_count = some next) :
    visits max_count min_count count = count :: visits max_count min_count next := by
  rw [visits]
  split
  · rename_i h'
    rw [h] at h'
    cases h'
  · rename_i next' h'
    rw [h] at h'
    cases h'
    rfl

theorem mem_visits (max_count min_count count c : Int) :
    c ∈ visits max_count min_count count ↔
      c = count ∨ Within max_count min_count c ∧ order count < order c := by
  induction count using visits.induct max_count min_count with
  | case1 count h =>
    rw [visits_none h, List.mem_singleton]
    constructor
    · exact .inl
    · rintro (hc | ⟨hc, hlt⟩)
      · exact hc
      · exact absurd (getCount_none h hc) (not_le.mpr hlt)
  | case2 count next h ih =>
    obtain ⟨hwithin, hlt, hfirst⟩ := getCount_some h
    rw [visits_some h, List.mem_cons, ih]
    constructor
    · rintro (hc | rfl | ⟨hc, hlt'⟩)
      · exact .inl hc
      · exact .inr ⟨hwithin, hlt⟩
      · exact .inr ⟨hc, hlt.trans hlt'⟩
    · rintro (hc | ⟨hc, hlt'⟩)
      · exact .inl hc
      · rcases (hfirst c hc hlt').lt_or_eq with h' | h'
        · exact .inr (.inr ⟨hc, h'⟩)
        · exact .inr (.inl (order_injective h'.symm))

/-- The numbers come in their order. -/
theorem visits_ordered (max_count min_count count : Int) :
    (visits max_count min_count count).Pairwise fun c d => order c < order d := by
  induction count using visits.induct max_count min_count with
  | case1 count h =>
    rw [visits_none h]
    exact List.pairwise_singleton _ _
  | case2 count next h ih =>
    obtain ⟨-, hlt, -⟩ := getCount_some h
    rw [visits_some h]
    refine List.pairwise_cons.mpr ⟨?_, ih⟩
    intro c hc
    rcases (mem_visits _ _ _ _).mp hc with rfl | ⟨-, hlt'⟩
    · exact hlt
    · exact hlt.trans hlt'

/-- **Each number within the limits is tried once**, and no other but zero. -/
theorem visits_zero (max_count min_count : Int) :
    (visits max_count min_count 0).Nodup ∧
      ∀ c, c ∈ visits max_count min_count 0 ↔ c = 0 ∨ Within max_count min_count c := by
  constructor
  · refine (visits_ordered max_count min_count 0).imp ?_
    intro c d hlt heq
    rw [heq] at hlt
    exact lt_irrefl _ hlt
  · intro c
    rw [mem_visits]
    constructor
    · rintro (hc | ⟨hc, -⟩)
      · exact .inl hc
      · exact .inr hc
    · rintro (hc | hc)
      · exact .inl hc
      · refine .inr ⟨hc, ?_⟩
        have h0 := order_cases 0
        have := order_cases c
        rw [Within] at hc
        omega

end Ik

end FanucDriver
