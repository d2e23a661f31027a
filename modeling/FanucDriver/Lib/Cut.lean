import Mathlib.Data.List.Basic

/-!
# Cutting a stream by the sizes its frames announce

`size bs` is the size of the frame at the front of `bs`, when enough of it is there to tell.

* `cut` — take whole frames off the front until the last one is incomplete.
* `Sized` — a frame that announces its own size, from whatever part of it is there.
* `cut_flatten_append` — a stream of such frames and an incomplete one is cut into just these.
* `take_flatten` — a stream broken off anywhere consists of whole frames and a part of the next;
  with the former, `cut_prefix`.
-/

set_option autoImplicit false

namespace Cut

variable {α : Type} (size : List α → Option Nat)

/-- Whole frames off the front, at most `fuel` of them, and what is left. -/
def cut : Nat → List α → List (List α) × List α
  | 0, bs => ([], bs)
  | fuel + 1, bs =>
    match size bs with
    | none => ([], bs)
    | some n =>
      if n ≤ bs.length then
        let r := cut fuel (bs.drop n)
        (bs.take n :: r.1, r.2)
      else ([], bs)

/-- The frame announces its size, whatever follows it; a part of it announces no other. -/
structure Sized (f : List α) : Prop where
  pos : 1 ≤ f.length
  whole : ∀ r, size (f ++ r) = some f.length
  part : ∀ p, p <+: f → size p = none ∨ size p = some f.length

/-- `t` is a part of the frame `f`, and not all of it. -/
def Broken (t f : List α) : Prop := t <+: f ∧ t.length < f.length

variable {size}

theorem cut_broken {t f : List α} (hf : Sized size f) (ht : Broken t f) (fuel : Nat) :
    cut size fuel t = ([], t) := by
  cases fuel with
  | zero => rfl
  | succ fuel =>
    rw [cut]
    rcases hf.part t ht.1 with h | h
    · rw [h]
    · rw [h]
      exact if_neg (Nat.not_le.mpr ht.2)

theorem cut_nil (hnil : size [] = none) (fuel : Nat) : cut size fuel [] = ([], []) := by
  cases fuel with
  | zero => rfl
  | succ fuel => rw [cut, hnil]

/-- **Whole frames are found again**, one after the other. -/
theorem cut_flatten_append {fs : List (List α)} (hfs : ∀ f ∈ fs, Sized size f) {t : List α}
    (ht : ∀ fuel, cut size fuel t = ([], t)) {fuel : Nat} (hfuel : fs.length ≤ fuel) :
    cut size fuel (fs.flatten ++ t) = (fs, t) := by
  induction fs generalizing fuel with
  | nil => exact ht fuel
  | cons f fs ih =>
    cases fuel with
    | zero => exact absurd hfuel (by simp)
    | succ fuel =>
      have hf := hfs f (by simp)
      have hrest := ih (fun g hg => hfs g (by simp [hg])) (Nat.le_of_succ_le_succ hfuel)
      rw [List.flatten_cons, List.append_assoc, cut, hf.whole]
      dsimp only
      rw [if_pos (by rw [List.length_append]; omega), List.drop_left' rfl, hrest,
        List.take_left' rfl]

/-- **A stream broken off anywhere** is a number of whole frames and a part of the next. -/
theorem take_flatten (fs : List (List α)) {p : List α} (hp : p <+: fs.flatten) :
    ∃ k t, k ≤ fs.length ∧ p = (fs.take k).flatten ++ t ∧
      (t = [] ∨ ∃ f, fs[k]? = some f ∧ Broken t f) := by
  induction fs generalizing p with
  | nil =>
    rw [List.flatten_nil, List.prefix_nil] at hp
    exact ⟨0, [], Nat.le_refl _, hp, .inl rfl⟩
  | cons f fs ih =>
    rw [List.flatten_cons] at hp
    by_cases hlen : p.length < f.length
    · have hpf : p <+: f := List.prefix_of_prefix_length_le hp (List.prefix_append _ _)
        (Nat.le_of_lt hlen)
      exact ⟨0, p, Nat.zero_le _, rfl, .inr ⟨f, rfl, hpf, hlen⟩⟩
    · have hfp : f <+: p := List.prefix_of_prefix_length_le (List.prefix_append _ _) hp
        (Nat.le_of_not_lt hlen)
      obtain ⟨q, rfl⟩ := hfp
      rw [List.prefix_append_right_inj] at hp
      obtain ⟨k, t, hk, rfl, ht⟩ := ih hp
      refine ⟨k + 1, t, Nat.succ_le_succ hk, ?_, ht⟩
      rw [List.take_succ_cons, List.flatten_cons, List.append_assoc]

/-- The frames there are. -/
theorem length_le_flatten {fs : List (List α)} (hfs : ∀ f ∈ fs, Sized size f) :
    fs.length ≤ fs.flatten.length := by
  induction fs with
  | nil => exact Nat.le_refl _
  | cons f fs ih =>
    have hpos := (hfs f (by simp)).pos
    have := ih fun g hg => hfs g (by simp [hg])
    rw [List.length_cons, List.flatten_cons, List.length_append]
    omega

/-- **Cutting a stream that was broken off**: the first frames, whole, and a part of the one
after them. -/
theorem cut_prefix (hnil : size [] = none) {fs : List (List α)} (hfs : ∀ f ∈ fs, Sized size f)
    {p : List α} (hp : p <+: fs.flatten) :
    ∃ k t, k ≤ fs.length ∧ cut size p.length p = (fs.take k, t) ∧
      p = (fs.take k).flatten ++ t ∧ (t = [] ∨ ∃ f, fs[k]? = some f ∧ Broken t f) := by
  obtain ⟨k, t, hk, rfl, ht⟩ := take_flatten fs hp
  have hwhole : ∀ f ∈ fs.take k, Sized size f := fun f hf => hfs f (List.mem_of_mem_take hf)
  refine ⟨k, t, hk, cut_flatten_append hwhole ?_ ?_, rfl, ht⟩
  · intro fuel
    rcases ht with rfl | ⟨f, hf, hbroken⟩
    · exact cut_nil hnil fuel
    · exact cut_broken (hfs f (List.mem_of_getElem? hf)) hbroken fuel
  · have := length_le_flatten hwhole
    rw [List.length_append]
    omega

end Cut
