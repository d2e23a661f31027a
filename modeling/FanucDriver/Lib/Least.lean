import Mathlib.Data.List.MinMax

/-!
# The least member of a list

* `Least` — a member of a list that no other undercuts.
* `argmin_refines` — a loop that keeps the best member so far ends with the first least one.
* `Least.of_sorted` — in a sorted list, it is the first member with the property asked for.
-/

set_option autoImplicit false

variable {α β σ : Type}

/-- A member of the list with the least `f`. -/
structure Least [LE β] (f : α → β) (l : List α) (a : α) : Prop where
  mem : a ∈ l
  le : ∀ b ∈ l, f a ≤ f b

section Order

variable [LinearOrder β] {f : α → β}

theorem Least.of_argmin {l : List α} {a : α} (h : l.argmin f = some a) : Least f l a where
  mem := List.argmin_mem h
  le _ hb := List.le_of_mem_argmin hb h

/-- What the choice becomes when one more member has been looked at. -/
def better (f : α → β) (best : Option α) (a : α) : Option α :=
  match best with
  | none => some a
  | some b => if f a < f b then some a else some b

theorem argmin_snoc (l : List α) (a : α) : (l ++ [a]).argmin f = better f (l.argmin f) a := by
  rw [List.argmin_concat]
  cases l.argmin f with
  | none => rfl
  | some b => rfl

/-- **A loop that keeps the best member so far.** `Rel` says what choice a state stands for; members
without the property `p` are passed over. -/
theorem argmin_refines {step : σ → α → σ} {p : α → Bool} {Rel : σ → Option α → Prop}
    (hkeep : ∀ s best a, Rel s best → p a = true → Rel (step s a) (better f best a))
    (hskip : ∀ s best a, Rel s best → p a = false → Rel (step s a) best) {s : σ}
    (hs : Rel s none) (l : List α) : Rel (l.foldl step s) ((l.filter p).argmin f) := by
  induction l using List.reverseRecOn with
  | nil => exact hs
  | append_singleton l a ih =>
    rw [List.foldl_append, List.foldl_cons, List.foldl_nil, List.filter_append]
    cases hp : p a with
    | true =>
      rw [List.filter_cons_of_pos hp, List.filter_nil, argmin_snoc]
      exact hkeep _ _ _ ih hp
    | false =>
      rw [List.filter_cons_of_neg (by simp [hp]), List.filter_nil, List.append_nil]
      exact hskip _ _ _ ih hp

end Order

/-- **The first member of a sorted list** that has a property is least among those that do. -/
theorem Least.of_sorted [Preorder β] {f : α → β} {l : List α}
    (hl : l.Pairwise fun a b => f a ≤ f b) {p : α → Bool} {a : α} (ha : l.find? p = some a) :
    Least f (l.filter p) a := by
  obtain ⟨hp, before, rest, rfl, hbefore⟩ := List.find?_eq_some_iff_append.mp ha
  obtain ⟨-, htail, -⟩ := List.pairwise_append.mp hl
  refine ⟨List.mem_filter.mpr ⟨by simp, hp⟩, ?_⟩
  intro b hb
  obtain ⟨hmem, hpb⟩ := List.mem_filter.mp hb
  rcases List.mem_append.mp hmem with hb' | hb'
  · have := hbefore b hb'
    rw [hpb] at this
    cases this
  · rcases List.mem_cons.mp hb' with rfl | hb''
    · exact le_rfl
    · exact (List.pairwise_cons.mp htail).1 b hb''

theorem Least.perm [LE β] {f : α → β} {l l' : List α} (h : l.Perm l') {a : α}
    (ha : Least f l a) : Least f l' a where
  mem := h.mem_iff.mp ha.mem
  le b hb := ha.le b (h.mem_iff.mpr hb)
