import Mathlib.Algebra.Order.Floor.Ring

/-!
# While loops

`while (cond) body` on a state, with the variant that makes it end.

* `While`, `While.run` — a loop, and the state it ends in.
* `While.run_inv` — the invariant rule.
* `While.run_last` — what is known of the last pass, for an invariant.
* `steps_lt` — the variant of a loop that moves a number towards a bound by a fixed step.
-/

set_option autoImplicit false

/-- A loop whose variant decreases with every pass. -/
structure While (σ : Type) where
  cond : σ → Bool
  body : σ → σ
  variant : σ → Nat
  decreases : ∀ s, cond s = true → variant (body s) < variant s

namespace While

variable {σ : Type} (w : While σ)

/-- The state in which the loop ends. -/
def run (s : σ) : σ := if _h : w.cond s = true then run (w.body s) else s
termination_by w.variant s
decreasing_by exact w.decreases s _h

theorem run_of_cond {s : σ} (h : w.cond s = true) : w.run s = w.run (w.body s) := by
  rw [run, dif_pos h]

theorem run_of_not_cond {s : σ} (h : w.cond s = false) : w.run s = s := by
  rw [run, dif_neg (by simp [h])]

/-- **The invariant rule.** -/
theorem run_inv {I : σ → Prop} (hbody : ∀ s, I s → w.cond s = true → I (w.body s)) {s : σ}
    (h : I s) : I (w.run s) ∧ w.cond (w.run s) = false := by
  induction s using run.induct w with
  | case1 s hcond ih =>
    rw [w.run_of_cond hcond]
    exact ih (hbody s h hcond)
  | case2 s hcond =>
    have hfalse : w.cond s = false := by simpa using hcond
    rw [w.run_of_not_cond hfalse]
    exact ⟨h, hfalse⟩

/-- The loop makes no pass, or a last one from a state that met the condition. -/
theorem run_last {I : σ → Prop} (hbody : ∀ s, I s → w.cond s = true → I (w.body s)) {s : σ}
    (h : I s) : w.run s = s ∨ ∃ t, I t ∧ w.cond t = true ∧ w.run s = w.body t := by
  induction s using run.induct w with
  | case1 s hcond ih =>
    rw [w.run_of_cond hcond]
    right
    rcases ih (hbody s h hcond) with hsame | hlast
    · exact ⟨s, h, hcond, hsame⟩
    · exact hlast
  | case2 s hcond =>
    left
    exact w.run_of_not_cond (by simpa using hcond)

end While

/-! ## Steps towards a bound -/

section Steps

variable {K : Type} [Field K] [LinearOrder K] [IsStrictOrderedRing K] [FloorRing K]

/-- The steps of a fixed size still to be made. -/
def steps (p x : K) : Nat := ⌈x / p⌉.toNat

theorem steps_lt {p x : K} (hp : 0 < p) (hx : 0 < x) : steps p (x - p) < steps p x := by
  have hpos : 0 < ⌈x / p⌉ := Int.ceil_pos.mpr (div_pos hx hp)
  have hsub : ⌈(x - p) / p⌉ = ⌈x / p⌉ - 1 := by
    rw [sub_div, div_self hp.ne', Int.ceil_sub_one]
  rw [steps, steps, hsub]
  omega

end Steps
