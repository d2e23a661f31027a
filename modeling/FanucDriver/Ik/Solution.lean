import FanucDriver.Lib.Radix
import Mathlib.Algebra.Order.Field.Basic
import Mathlib.Data.Rat.Cast.OfScientific

/-!
# Solutions of IKFast (`ikfast.h`)

* `SingleDofSolution`, `IkSolution` — `IkSingleDOFSolutionBase` and `IkSolution`.
* `IkSolution.getSolution` — the joint values, given values for the free joints.
* `IkSolution.validate`, `IkSolution.getSolutionIndices` — the check of the branch indices and the
  numbers made of them.
* `mem_getSolutionIndices` — the numbers are those of the choices of one branch for each joint,
  written in the numbers of branches as bases.
* `getSolutionIndices_common_iff` — two checked solutions have a number in common when they have
  a branch in common on every joint.
-/

set_option autoImplicit false

namespace FanucDriver

namespace Ik

/-- `(unsigned char)-1` -/
def noIndex : Nat := 255

/-- `IkSingleDOFSolutionBase`; the first two of the five `indices` are in use. -/
structure SingleDofSolution (K : Type) where
  fmul : K
  foffset : K
  freeind : Int
  maxsolutions : Nat
  index0 : Nat
  index1 : Nat
  maxsolutions_lt : maxsolutions < 256

/-- `IkSolution` -/
structure IkSolution (K : Type) where
  vbasesol : List (SingleDofSolution K)
  vfree : List Int

section Values

variable {K : Type} [Field K] [LinearOrder K]

/-- One joint of `IkSolution::GetSolution`. -/
def SingleDofSolution.value (freevalues : Nat → K) (s : SingleDofSolution K) : K :=
  if s.freeind < 0 then s.foffset
  else
    let solution := freevalues s.freeind.toNat * s.fmul + s.foffset
    if solution > 3.14159265358979 then solution - 6.28318530717959
    else if solution < -3.14159265358979 then solution + 6.28318530717959
    else solution

/-- `IkSolution::GetSolution`, the free values behind a pointer. -/
def IkSolution.getSolution (s : IkSolution K) (freevalues : Nat → K) : List K :=
  s.vbasesol.map (SingleDofSolution.value freevalues)

theorem IkSolution.getSolution_length (s : IkSolution K) (freevalues : Nat → K) :
    (s.getSolution freevalues).length = s.vbasesol.length := List.length_map _

end Values

/-! ## Indices -/

section Indices

variable {K : Type}

/-- One joint of `IkSolution::Validate`; `some` is the text of the exception. -/
def SingleDofSolution.check (s : SingleDofSolution K) : Option String :=
  if s.maxsolutions = noIndex then some "max solutions for joint not initialized"
  else if 0 < s.maxsolutions then
    if s.maxsolutions ≤ s.index0 then some "index >= max solutions for joint"
    else if s.index1 ≠ noIndex ∧ s.maxsolutions ≤ s.index1 then
      some "2nd index >= max solutions for joint"
    else none
  else none

/-- `IkSolution::Validate` throws at the first joint that fails. -/
def IkSolution.validate (s : IkSolution K) : Option String := s.vbasesol.findSome? (·.check)

/-- One joint of `IkSolution::GetSolutionIndices`, on `unsigned int`s. -/
def SingleDofSolution.extend (s : SingleDofSolution K) (v : List Nat) : List Nat :=
  if s.maxsolutions ≠ noIndex ∧ 1 < s.maxsolutions then
    let v := v.map fun x => x * s.maxsolutions % 2 ^ 32
    let pushed := if s.index1 ≠ noIndex then v.map fun x => (x + s.index1) % 2 ^ 32 else []
    let kept := if s.index0 ≠ noIndex then v.map fun x => (x + s.index0) % 2 ^ 32 else v
    kept ++ pushed
  else v

/-- `IkSolution::GetSolutionIndices`, from the last joint to the first. -/
def IkSolution.getSolutionIndices (s : IkSolution K) : List Nat :=
  s.vbasesol.foldr SingleDofSolution.extend [0]

/-! ## The numbers of a checked solution -/

/-- The joint has more than one branch. -/
def SingleDofSolution.branches (s : SingleDofSolution K) : Bool :=
  s.maxsolutions ≠ noIndex ∧ 1 < s.maxsolutions

/-- The number of branches of a joint and those of this solution. -/
def SingleDofSolution.choices (s : SingleDofSolution K) : Nat × List Nat :=
  (s.maxsolutions, s.index0 :: if s.index1 ≠ noIndex then [s.index1] else [])

/-- The branches of the joints that have more than one. -/
def IkSolution.choices (s : IkSolution K) : List (Nat × List Nat) :=
  (s.vbasesol.filter SingleDofSolution.branches).map SingleDofSolution.choices

/-- What the check guarantees of a joint with branches. -/
theorem SingleDofSolution.choices_lt {s : SingleDofSolution K} (h : s.check = none)
    (hb : s.branches = true) : ∀ d ∈ s.choices.2, d < s.choices.1 := by
  simp only [SingleDofSolution.branches, decide_eq_true_eq] at hb
  have hpos : 0 < s.maxsolutions := by omega
  simp only [SingleDofSolution.check, hb.1, if_false, hpos, if_true] at h
  split at h
  · cases h
  · rename_i h0
    split at h
    · cases h
    · rename_i h1
      intro d hd
      simp only [SingleDofSolution.choices, List.mem_cons] at hd
      rcases hd with rfl | hd
      · exact Nat.lt_of_not_le h0
      · split at hd
        · rename_i hne
          rw [List.mem_singleton.mp hd]
          exact Nat.lt_of_not_le fun hle => h1 ⟨hne, hle⟩
        · cases hd

theorem IkSolution.check_of_validate {s : IkSolution K} (h : s.validate = none)
    {d : SingleDofSolution K} (hd : d ∈ s.vbasesol) : d.check = none :=
  List.findSome?_eq_none_iff.mp h d hd

theorem IkSolution.choices_lt {s : IkSolution K} (h : s.validate = none) :
    ∀ c ∈ s.choices, ∀ d ∈ c.2, d < c.1 := by
  intro c hc
  obtain ⟨dof, hdof, rfl⟩ := List.mem_map.mp hc
  obtain ⟨hmem, hb⟩ := List.mem_filter.mp hdof
  exact SingleDofSolution.choices_lt (s.check_of_validate h hmem) hb

/-- Numbers of 32 bits, where the joint has branches. -/
theorem SingleDofSolution.mem_extend {s : SingleDofSolution K} (h : s.check = none)
    (hb : s.branches = true) {v : List Nat} {x : Nat} :
    x ∈ s.extend v ↔ ∃ d ∈ s.choices.2, ∃ y ∈ v, x = (d + s.choices.1 * y) % 2 ^ 32 := by
  have h0 : s.index0 ≠ noIndex := by
    have := SingleDofSolution.choices_lt h hb s.index0 List.mem_cons_self
    have := s.maxsolutions_lt
    simp only [SingleDofSolution.choices, noIndex] at *
    omega
  have hb' : s.maxsolutions ≠ noIndex ∧ 1 < s.maxsolutions := by
    simpa [SingleDofSolution.branches] using hb
  simp only [SingleDofSolution.extend, hb', h0, SingleDofSolution.choices, ne_eq, not_false_eq_true,
    and_self, if_true, List.mem_append, List.map_map, Function.comp_def]
  by_cases h1 : s.index1 = noIndex
  · simp [h1, Nat.add_mod, Nat.mul_comm, eq_comm, Nat.add_comm]
  · simp [h1, Nat.add_mod, Nat.mul_comm, eq_comm, Nat.add_comm]

theorem SingleDofSolution.extend_of_not_branches {s : SingleDofSolution K}
    (hb : s.branches = false) (v : List Nat) : s.extend v = v := by
  apply if_neg
  simpa [SingleDofSolution.branches] using hb

/-- **The numbers of a solution** are those of the choices of a branch for each joint. -/
theorem mem_getSolutionIndices {s : IkSolution K} (h : s.validate = none) {x : Nat} :
    x ∈ s.getSolutionIndices ↔ ∃ n ∈ Radix.codes s.choices, x = n % 2 ^ 32 := by
  obtain ⟨dofs, vfree⟩ := s
  simp only [IkSolution.getSolutionIndices, IkSolution.choices]
  induction dofs generalizing x with
  | nil => simp [Radix.codes]
  | cons dof dofs ih =>
    have hdof : dof.check = none := IkSolution.check_of_validate h List.mem_cons_self
    have hrest : (⟨dofs, vfree⟩ : IkSolution K).validate = none :=
      List.findSome?_eq_none_iff.mpr fun d hd =>
        IkSolution.check_of_validate h (List.mem_cons_of_mem dof hd)
    rw [List.foldr_cons]
    cases hb : dof.branches with
    | false =>
      rw [dof.extend_of_not_branches hb, List.filter_cons_of_neg (by simp [hb])]
      exact ih hrest
    | true =>
      rw [SingleDofSolution.mem_extend hdof hb, List.filter_cons_of_pos (by simp [hb])]
      simp only [List.map_cons, SingleDofSolution.choices, Radix.codes, List.mem_flatMap,
        List.mem_map]
      constructor
      · rintro ⟨d, hd, y, hy, rfl⟩
        obtain ⟨n, hn, rfl⟩ := (ih hrest).mp hy
        exact ⟨_, ⟨d, hd, n, hn, rfl⟩, by rw [Nat.add_mod, Nat.mul_mod_mod, ← Nat.add_mod]⟩
      · rintro ⟨_, ⟨d, hd, n, hn, rfl⟩, rfl⟩
        exact ⟨d, hd, n % 2 ^ 32, (ih hrest).mpr ⟨n, hn, rfl⟩,
          by rw [Nat.add_mod d (dof.maxsolutions * (n % 2 ^ 32)), Nat.mul_mod_mod, ← Nat.add_mod]⟩

/-- The numbers of branches of a solver's joints. -/
def IkSolution.bases (s : IkSolution K) : List Nat := s.choices.map Prod.fst

/-- **Solutions with a number in common.** -/
theorem getSolutionIndices_common_iff {s t : IkSolution K} (hs : s.validate = none)
    (ht : t.validate = none) (hbases : s.bases = t.bases) (hsize : s.bases.prod ≤ 2 ^ 32) :
    (∃ x, x ∈ s.getSolutionIndices ∧ x ∈ t.getSolutionIndices) ↔
      Radix.Common s.choices t.choices := by
  have hmod : ∀ {r : IkSolution K}, r.validate = none → r.bases.prod ≤ 2 ^ 32 → ∀ x,
      x ∈ r.getSolutionIndices ↔ x ∈ Radix.codes r.choices := by
    intro r hr hprod x
    rw [mem_getSolutionIndices hr]
    have hlt : ∀ n ∈ Radix.codes r.choices, n % 2 ^ 32 = n := by
      intro n hn
      exact Nat.mod_eq_of_lt ((Radix.codes_lt (r.choices_lt hr) hn).trans_le hprod)
    constructor
    · rintro ⟨n, hn, rfl⟩
      rwa [hlt n hn]
    · intro hx
      exact ⟨x, hx, (hlt x hx).symm⟩
  rw [← Radix.codes_common_iff (s.choices_lt hs) (t.choices_lt ht) hbases]
  simp only [hmod hs hsize, hmod ht (hbases ▸ hsize)]

/-- A joint with three branches, one without, and one in either of its two. -/
def eitherBranch : IkSolution ℚ :=
  ⟨[⟨0, 0, -1, 3, 2, noIndex, by decide⟩, ⟨0, 0, -1, 1, 0, noIndex, by decide⟩,
    ⟨0, 0, -1, 2, 0, 1, by decide⟩], []⟩

/-- The same joints, with the last in the second of its branches. -/
def secondBranch : IkSolution ℚ :=
  ⟨[⟨0, 0, -1, 3, 0, 2, by decide⟩, ⟨0, 0, -1, 1, 0, noIndex, by decide⟩,
    ⟨0, 0, -1, 2, 1, noIndex, by decide⟩], []⟩

theorem getSolutionIndices_common_iff_second :
    (∃ x, x ∈ eitherBranch.getSolutionIndices ∧ x ∈ secondBranch.getSolutionIndices) ↔
      Radix.Common eitherBranch.choices secondBranch.choices :=
  getSolutionIndices_common_iff (by decide) (by decide) (by decide) (by decide)

end Indices

end Ik

end FanucDriver
