import Mathlib.Algebra.Order.Ring.Nat
import Mathlib.Algebra.BigOperators.Group.List.Basic
import Mathlib.Tactic.Ring

/-!
# Mixed radix numbers

Numbers written with a different base for each digit, the first digit the least significant.

* `encode` — the number of a list of (base, digit) pairs; `encode_lt` — it is below the product of
  the bases; `encode_inj` — it determines the digits.
* `codes` — the numbers of all ways of choosing the digits from lists of digits;
  `mem_codes` — which they are; `codes_common_iff` — when two sets of choices have a number in
  common.
-/

set_option autoImplicit false

namespace Radix

/-- The number with these bases and digits. -/
def encode : List (Nat × Nat) → Nat
  | [] => 0
  | (b, d) :: ds => d + b * encode ds

/-- The product of the bases. -/
def size (ds : List (Nat × Nat)) : Nat := (ds.map Prod.fst).prod

/-- Every digit is below its base. -/
def Valid (ds : List (Nat × Nat)) : Prop := ∀ p ∈ ds, p.2 < p.1

theorem encode_lt {ds : List (Nat × Nat)} (h : Valid ds) : encode ds < size ds := by
  induction ds with
  | nil => exact Nat.one_pos
  | cons p ds ih =>
    have hd : p.2 < p.1 := h p List.mem_cons_self
    have hrest : encode ds + 1 ≤ size ds := ih fun q hq => h q (List.mem_cons_of_mem p hq)
    calc p.2 + p.1 * encode ds < p.1 * (encode ds + 1) := by rw [mul_add, mul_one]; omega
      _ ≤ p.1 * size ds := Nat.mul_le_mul_left _ hrest
      _ = size (p :: ds) := by simp [size]

/-- Numbers in the same bases have the same digits. -/
theorem encode_inj {ds es : List (Nat × Nat)} (hds : Valid ds) (hes : Valid es)
    (hbase : ds.map Prod.fst = es.map Prod.fst) (heq : encode ds = encode es) : ds = es := by
  induction ds generalizing es with
  | nil =>
    cases es with
    | nil => rfl
    | cons e es => simp at hbase
  | cons p ds ih =>
    cases es with
    | nil => simp at hbase
    | cons q es =>
      obtain ⟨b, d⟩ := p
      obtain ⟨b', e⟩ := q
      simp only [List.map_cons, List.cons.injEq] at hbase
      obtain ⟨rfl, hbase⟩ := hbase
      have hd : d < b := hds (b, d) List.mem_cons_self
      have he : e < b := hes (b, e) List.mem_cons_self
      have hfirst : d = e := by
        have := congrArg (· % b) heq
        simpa [encode, Nat.mod_eq_of_lt hd, Nat.mod_eq_of_lt he] using this
      have hrest : encode ds = encode es := by
        subst hfirst
        exact Nat.eq_of_mul_eq_mul_left (Nat.zero_lt_of_lt hd) (Nat.add_left_cancel heq)
      rw [hfirst, ih (fun q hq => hds q (List.mem_cons_of_mem _ hq))
        (fun q hq => hes q (List.mem_cons_of_mem _ hq)) hbase hrest]

/-! ## Choices of digits -/

/-- The numbers of all choices of one digit from each list. -/
def codes : List (Nat × List Nat) → List Nat
  | [] => [0]
  | (b, ds) :: cs => ds.flatMap fun d => (codes cs).map fun x => d + b * x

/-- A choice of one digit for each base. -/
inductive Chosen : List (Nat × List Nat) → List (Nat × Nat) → Prop
  | nil : Chosen [] []
  | cons {b d : Nat} {ds : List Nat} {cs : List (Nat × List Nat)} {es : List (Nat × Nat)}
      (hd : d ∈ ds) (h : Chosen cs es) : Chosen ((b, ds) :: cs) ((b, d) :: es)

theorem mem_codes {cs : List (Nat × List Nat)} {x : Nat} :
    x ∈ codes cs ↔ ∃ es, Chosen cs es ∧ encode es = x := by
  induction cs generalizing x with
  | nil =>
    constructor
    · intro h
      exact ⟨[], .nil, (List.mem_singleton.mp h).symm⟩
    · rintro ⟨es, ⟨⟩, rfl⟩
      exact List.mem_singleton_self 0
  | cons c cs ih =>
    simp only [codes, List.mem_flatMap, List.mem_map]
    constructor
    · rintro ⟨d, hd, y, hy, rfl⟩
      obtain ⟨es, hes, rfl⟩ := ih.mp hy
      exact ⟨_, .cons hd hes, rfl⟩
    · rintro ⟨_, hes, rfl⟩
      cases hes with
      | cons hd h => exact ⟨_, hd, _, ih.mpr ⟨_, h, rfl⟩, rfl⟩

theorem Chosen.map_fst {cs : List (Nat × List Nat)} {es : List (Nat × Nat)} (h : Chosen cs es) :
    es.map Prod.fst = cs.map Prod.fst := by
  induction h with
  | nil => rfl
  | cons hd h ih => rw [List.map_cons, List.map_cons, ih]

theorem Chosen.valid {cs : List (Nat × List Nat)} {es : List (Nat × Nat)} (h : Chosen cs es)
    (hcs : ∀ c ∈ cs, ∀ d ∈ c.2, d < c.1) : Valid es := by
  induction h with
  | nil => exact fun p hp => absurd hp List.not_mem_nil
  | cons hd h ih =>
    intro p hp
    cases hp with
    | head => exact hcs _ List.mem_cons_self _ hd
    | tail _ hp => exact ih (fun c hc => hcs c (List.mem_cons_of_mem _ hc)) p hp

/-- Every number of a choice is below the product of the bases. -/
theorem codes_lt {cs : List (Nat × List Nat)} (hcs : ∀ c ∈ cs, ∀ d ∈ c.2, d < c.1) {x : Nat}
    (hx : x ∈ codes cs) : x < (cs.map Prod.fst).prod := by
  obtain ⟨es, hes, rfl⟩ := mem_codes.mp hx
  rw [← hes.map_fst]
  exact encode_lt (hes.valid hcs)

/-- A digit that both may choose, at every place. -/
inductive Common : List (Nat × List Nat) → List (Nat × List Nat) → Prop
  | nil : Common [] []
  | cons {b d : Nat} {ds es : List Nat} {cs cs' : List (Nat × List Nat)} (hd : d ∈ ds)
      (he : d ∈ es) (h : Common cs cs') : Common ((b, ds) :: cs) ((b, es) :: cs')

theorem common_of_chosen {cs cs' : List (Nat × List Nat)} {es : List (Nat × Nat)}
    (h : Chosen cs es) (h' : Chosen cs' es) : Common cs cs' := by
  induction h generalizing cs' with
  | nil =>
    cases h'
    exact .nil
  | cons hd h ih =>
    cases h' with
    | cons hd' h' => exact .cons hd hd' (ih h')

theorem chosen_of_common {cs cs' : List (Nat × List Nat)} (h : Common cs cs') :
    ∃ es, Chosen cs es ∧ Chosen cs' es := by
  induction h with
  | nil => exact ⟨[], .nil, .nil⟩
  | cons hd he h ih =>
    obtain ⟨es, h1, h2⟩ := ih
    exact ⟨_, .cons hd h1, .cons he h2⟩

/-- **Two sets of choices in the same bases have a number in common** when they have a digit in
common at every place. -/
theorem codes_common_iff {cs cs' : List (Nat × List Nat)} (hcs : ∀ c ∈ cs, ∀ d ∈ c.2, d < c.1)
    (hcs' : ∀ c ∈ cs', ∀ d ∈ c.2, d < c.1) (hbase : cs.map Prod.fst = cs'.map Prod.fst) :
    (∃ x, x ∈ codes cs ∧ x ∈ codes cs') ↔ Common cs cs' := by
  constructor
  · rintro ⟨x, hx, hx'⟩
    obtain ⟨es, hes, rfl⟩ := mem_codes.mp hx
    obtain ⟨es', hes', heq⟩ := mem_codes.mp hx'
    have hsame : es' = es := encode_inj (hes'.valid hcs') (hes.valid hcs)
      (by rw [hes.map_fst, hes'.map_fst, hbase]) heq
    exact common_of_chosen hes (hsame ▸ hes')
  · intro h
    obtain ⟨es, h1, h2⟩ := chosen_of_common h
    exact ⟨encode es, mem_codes.mpr ⟨es, h1, rfl⟩, mem_codes.mpr ⟨es, h2, rfl⟩⟩

end Radix
