import Mathlib.Logic.Function.Basic
import Mathlib.Data.List.Nodup

/-!
# Sequences of conditional assignments

A register file `f : κ → ν` is updated by a list of assignments, each to one key and each
either a value or nothing.

* `puts` — the assignments carried out one after the other.
* `puts_not_mem` — a key none of them names keeps its value.
* `puts_mem` — with pairwise distinct keys every assignment has the effect it would have
  alone, so their order does not matter.
* `puts_map_of_mem`, `puts_map_of_forall_ne` — the same for a list of fields, each with a key
  of its own and a value of its own.
-/

set_option autoImplicit false

namespace Assign

variable {κ ν : Type} [DecidableEq κ]

def put (f : κ → ν) (k : κ) : Option ν → κ → ν
  | some v => Function.update f k v
  | none => f

def puts (f : κ → ν) (ws : List (κ × Option ν)) : κ → ν := ws.foldl (fun g w => put g w.1 w.2) f

@[simp] theorem puts_nil (f : κ → ν) : puts f [] = f := rfl

@[simp] theorem puts_cons (f : κ → ν) (w : κ × Option ν) (ws : List (κ × Option ν)) :
    puts f (w :: ws) = puts (put f w.1 w.2) ws := rfl

theorem put_self (f : κ → ν) (k : κ) (o : Option ν) : put f k o k = o.getD (f k) := by
  cases o <;> simp [put]

theorem put_of_ne (f : κ → ν) {k j : κ} (h : j ≠ k) (o : Option ν) : put f k o j = f j := by
  cases o <;> simp [put, h]

theorem puts_not_mem {k : κ} {ws : List (κ × Option ν)} {f : κ → ν}
    (h : k ∉ ws.map Prod.fst) : puts f ws k = f k := by
  induction ws generalizing f with
  | nil => rfl
  | cons w ws ih =>
    rw [List.map_cons, List.mem_cons, not_or] at h
    rw [puts_cons, ih h.2, put_of_ne f h.1]

/-- **Distinct keys do not interfere.** -/
theorem puts_mem {k : κ} {o : Option ν} {ws : List (κ × Option ν)} {f : κ → ν}
    (hn : (ws.map Prod.fst).Nodup) (h : (k, o) ∈ ws) : puts f ws k = o.getD (f k) := by
  induction ws generalizing f with
  | nil => cases h
  | cons w ws ih =>
    rw [List.map_cons, List.nodup_cons] at hn
    rw [puts_cons]
    rcases List.mem_cons.mp h with rfl | h
    · rw [puts_not_mem hn.1, put_self]
    · have hk : k ≠ w.1 := by
        rintro rfl
        exact hn.1 (List.mem_map.mpr ⟨_, h, rfl⟩)
      rw [ih hn.2 h, put_of_ne f hk]

/-! ## One assignment for each of a list of fields -/

variable {φ : Type} {key : φ → κ} {val : φ → Option ν} {fs : List φ} {g : κ → ν}

theorem puts_map_of_mem (hinj : Function.Injective key) (hn : fs.Nodup) {f : φ} (hf : f ∈ fs) :
    puts g (fs.map fun f => (key f, val f)) (key f) = (val f).getD (g (key f)) := by
  refine puts_mem ?_ (List.mem_map.mpr ⟨f, hf, rfl⟩)
  rw [List.map_map]
  exact List.Nodup.map hinj hn

theorem puts_map_of_forall_ne {k : κ} (h : ∀ f ∈ fs, val f ≠ none → key f ≠ k) :
    puts g (fs.map fun f => (key f, val f)) k = g k := by
  induction fs generalizing g with
  | nil => rfl
  | cons f fs ih =>
    rw [List.map_cons, puts_cons, ih fun f' hf' => h f' (by simp [hf'])]
    cases hv : val f with
    | none => rfl
    | some v => exact put_of_ne g (h f (by simp) (by simp [hv])).symm _

end Assign

