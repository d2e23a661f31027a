import FanucDriver.Lib.Lts

/-!
# First-in first-out execution

What a sender, a connection and an executing peer are for: items are submitted, wait in order,
and are executed one after the other, each exactly once.

* `step` — submit at the back, execute the front item.
* `run_spec` — after any run the executed and the waiting items are together exactly the
  submitted ones, and the state is that of executing the former in order.
-/

set_option autoImplicit false

namespace WorkQueue

variable {ι σ : Type}

structure State (ι σ : Type) where
  done : List ι
  todo : List ι
  acc : σ

inductive Label (ι : Type) where
  | submit (i : ι)
  | exec

def init (a : σ) : State ι σ := ⟨[], [], a⟩

def step (apply : σ → ι → σ) (s : State ι σ) : Label ι → Option (State ι σ)
  | .submit i => some { s with todo := s.todo ++ [i] }
  | .exec =>
    match s.todo with
    | [] => none
    | i :: is => some ⟨s.done ++ [i], is, apply s.acc i⟩

def Label.item : Label ι → Option ι
  | .submit i => some i
  | .exec => none

/-- The items submitted by a run. -/
def submitted (ls : List (Label ι)) : List ι := ls.filterMap Label.item

theorem step_spec {apply : σ → ι → σ} {a : σ} {h : List (Label ι)} {s t : State ι σ} {l : Label ι}
    (hI : s.done ++ s.todo = submitted h ∧ s.acc = s.done.foldl apply a)
    (hs : step apply s l = some t) :
    t.done ++ t.todo = submitted (h ++ [l]) ∧ t.acc = t.done.foldl apply a := by
  obtain ⟨hsub, hacc⟩ := hI
  cases l with
  | submit i =>
    cases hs
    refine ⟨?_, hacc⟩
    simp only [← List.append_assoc, hsub, submitted, List.filterMap_append]
    rfl
  | exec =>
    rw [step] at hs
    split at hs
    · cases hs
    · rename_i i is htodo
      cases hs
      refine ⟨?_, by simp [hacc]⟩
      rw [htodo] at hsub
      simp only [submitted, List.filterMap_append, List.append_assoc, List.singleton_append, hsub]
      simp [Label.item]

/-- **Nothing is lost, duplicated or reordered.** -/
theorem run_spec {apply : σ → ι → σ} {a : σ} {ls : List (Label ι)} {s : State ι σ}
    (hr : Lts.run (step apply) (init a) ls = some s) :
    s.done ++ s.todo = submitted ls ∧ s.acc = s.done.foldl apply a :=
  Lts.run_hist (I := fun h s => s.done ++ s.todo = submitted h ∧ s.acc = s.done.foldl apply a)
    (fun _ _ _ _ hI hs => step_spec hI hs) ⟨rfl, rfl⟩ hr

end WorkQueue
