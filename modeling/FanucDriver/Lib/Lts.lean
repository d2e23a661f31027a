import Mathlib.Data.List.Basic

/-!
# Partial step systems

A system is a partial step function `step : σ → α → Option σ`: the label carries every choice
that is not the program's own (which thread runs, how many bytes have arrived, which call
fails), and `none` means that the labelled step is not enabled.

* `run` — the state after a list of labels.
* `Along` — a condition on (state, label) that holds before every step of a run;
  `along_iff_steps` says so step by step.
* `run_inv`, `run_inv_along`, `run_hist`, `run_hist_along` — the invariant rules, without and
  with the labels taken so far.
* `run_iff_along` — a property that every step keeps or loses by its label.
* `run_sim_along` — forward simulation: a concrete run is matched by an abstract one.
-/

set_option autoImplicit false

namespace Lts

variable {σ τ α β : Type}

/-- The state after the labelled steps, taken from left to right. -/
def run (step : σ → α → Option σ) : σ → List α → Option σ
  | s, [] => some s
  | s, a :: as => (step s a).bind fun t => run step t as

/-- `ok` holds before every step of the run. -/
def Along (step : σ → α → Option σ) (ok : σ → α → Prop) : σ → List α → Prop
  | _, [] => True
  | s, a :: as => ok s a ∧ ∀ t, step s a = some t → Along step ok t as

variable {step : σ → α → Option σ}

@[simp] theorem run_nil (s : σ) : run step s [] = some s := rfl

@[simp] theorem run_cons (s : σ) (a : α) (as : List α) :
    run step s (a :: as) = (step s a).bind fun t => run step t as := rfl

theorem run_cons_some {s u : σ} {a : α} {as : List α} :
    run step s (a :: as) = some u ↔ ∃ t, step s a = some t ∧ run step t as = some u := by
  rw [run_cons, Option.bind_eq_some_iff]

theorem run_append (s : σ) (as bs : List α) :
    run step s (as ++ bs) = (run step s as).bind fun t => run step t bs := by
  induction as generalizing s with
  | nil => rfl
  | cons a as ih =>
    rw [List.cons_append, run_cons, run_cons, Option.bind_assoc]
    congr 1
    funext t
    exact ih t

theorem run_append_some {s u : σ} {as bs : List α} :
    run step s (as ++ bs) = some u ↔ ∃ t, run step s as = some t ∧ run step t bs = some u := by
  rw [run_append, Option.bind_eq_some_iff]

/-- Where a run gets, every beginning of it gets somewhere. -/
theorem run_prefix_some {s u : σ} {as pre : List α} (hr : run step s as = some u)
    (hpre : pre <+: as) : ∃ t, run step s pre = some t := by
  obtain ⟨post, rfl⟩ := hpre
  obtain ⟨t, ht, -⟩ := run_append_some.mp hr
  exact ⟨t, ht⟩

theorem along_trivial (s : σ) (as : List α) : Along step (fun _ _ => True) s as := by
  induction as generalizing s with
  | nil => trivial
  | cons a as ih => exact ⟨trivial, fun t _ => ih t⟩

/-- A condition that every label meets in every state. -/
theorem along_of_forall {ok : σ → α → Prop} {s : σ} {as : List α}
    (h : ∀ a ∈ as, ∀ t, ok t a) : Along step ok s as := by
  induction as generalizing s with
  | nil => trivial
  | cons a as ih =>
    refine ⟨h a (by simp) s, ?_⟩
    intro t _
    apply ih
    intro b hb
    exact h b (by simp [hb])

theorem Along.append {ok : σ → α → Prop} {s t : σ} {as bs : List α} (ha : Along step ok s as)
    (hr : run step s as = some t) (hb : Along step ok t bs) : Along step ok s (as ++ bs) := by
  induction as generalizing s with
  | nil =>
    cases hr
    exact hb
  | cons a as ih =>
    obtain ⟨u, hu, hut⟩ := run_cons_some.mp hr
    refine ⟨ha.1, ?_⟩
    intro v hv
    rw [hu] at hv
    cases hv
    exact ih (ha.2 u hu) hut

theorem Along.mono {ok ok' : σ → α → Prop} (h : ∀ s a, ok s a → ok' s a) {s : σ} {as : List α}
    (hs : Along step ok s as) : Along step ok' s as := by
  induction as generalizing s with
  | nil => trivial
  | cons a as ih =>
    refine ⟨h s a hs.1, ?_⟩
    intro t ht
    exact ih (hs.2 t ht)

/-- A condition holds along a run when it holds of every step by itself. -/
theorem along_iff_steps {ok : σ → α → Prop} {s u : σ} {as : List α}
    (hr : run step s as = some u) :
    Along step ok s as ↔
      ∀ pre a t, pre ++ [a] <+: as → run step s pre = some t → ok t a := by
  induction as generalizing s with
  | nil =>
    refine iff_of_true trivial ?_
    intro pre a t hpre
    simp at hpre
  | cons b as ih =>
    obtain ⟨v, hv, hvu⟩ := run_cons_some.mp hr
    constructor
    · rintro ⟨hok, hrest⟩ pre a t hpre hrun
      cases pre with
      | nil =>
        obtain ⟨rfl, -⟩ := List.cons_prefix_cons.mp hpre
        cases hrun
        exact hok
      | cons c pre =>
        obtain ⟨rfl, hpre'⟩ := List.cons_prefix_cons.mp hpre
        obtain ⟨w, hw, hwt⟩ := run_cons_some.mp hrun
        rw [hv] at hw
        cases hw
        exact (ih hvu).mp (hrest v hv) pre a t hpre' hwt
    · intro h
      refine ⟨h [] b s (by simp) rfl, ?_⟩
      intro w hw
      rw [hv] at hw
      cases hw
      refine (ih hvu).mpr ?_
      intro pre a t hpre hrun
      refine h (b :: pre) a t ?_ (run_cons_some.mpr ⟨v, hv, hrun⟩)
      exact List.cons_prefix_cons.mpr ⟨rfl, hpre⟩

/-- Along a given run the condition can be computed. -/
instance decidableAlong {ok : σ → α → Prop} [∀ s a, Decidable (ok s a)] :
    ∀ (s : σ) (as : List α), Decidable (Along step ok s as)
  | _, [] => isTrue trivial
  | s, a :: as =>
    match hs : step s a with
    | none => decidable_of_iff (ok s a) ⟨fun h => ⟨h, fun t ht => by simp [hs] at ht⟩, And.left⟩
    | some t =>
      have : Decidable (Along step ok t as) := decidableAlong t as
      decidable_of_iff (ok s a ∧ Along step ok t as)
        ⟨fun h => ⟨h.1, fun u hu => by rw [hs] at hu; cases hu; exact h.2⟩,
          fun h => ⟨h.1, h.2 t hs⟩⟩

/-! ## Invariants -/

/-- **Run rule with history.** A relation between the labels taken so far and the state that
every step satisfying `ok` extends holds after every run along `ok`. -/
theorem run_hist_along {ok : σ → α → Prop} {I : List α → σ → Prop}
    (hstep : ∀ h s a t, I h s → ok s a → step s a = some t → I (h ++ [a]) t) {as h : List α}
    {s t : σ} (hI : I h s) (hal : Along step ok s as) (hr : run step s as = some t) :
    I (h ++ as) t := by
  induction as generalizing h s with
  | nil =>
    cases hr
    rwa [List.append_nil]
  | cons a as ih =>
    obtain ⟨u, hu, hut⟩ := run_cons_some.mp hr
    have hnext := ih (hstep h s a u hI hal.1 hu) (hal.2 u hu) hut
    rwa [List.append_assoc, List.singleton_append] at hnext

theorem run_hist {I : List α → σ → Prop} (hstep : ∀ h s a t, I h s → step s a = some t →
      I (h ++ [a]) t) {as : List α} {s t : σ} (h0 : I [] s) (hr : run step s as = some t) :
    I as t := by
  have hrun := run_hist_along (fun h s a t hI _ => hstep h s a t hI) h0 (along_trivial s as) hr
  rwa [List.nil_append] at hrun

/-- **Run rule.** An invariant kept by every step satisfying `ok` holds after every run
along `ok`. -/
theorem run_inv_along {ok : σ → α → Prop} {I : σ → Prop}
    (hstep : ∀ s a t, I s → ok s a → step s a = some t → I t) {as : List α} {s t : σ}
    (h0 : I s) (hal : Along step ok s as) (hr : run step s as = some t) : I t :=
  run_hist_along (I := fun _ => I) (h := []) (fun _ => hstep) h0 hal hr

theorem run_inv {I : σ → Prop} (hstep : ∀ s a t, I s → step s a = some t → I t)
    {as : List α} {s t : σ} (h0 : I s) (hr : run step s as = some t) : I t :=
  run_inv_along (fun s a t hI _ => hstep s a t hI) h0 (along_trivial s as) hr

/-- **What a run adds up to.** If every step from a state with the invariant leaves `Q` true
exactly when `Q` was true and the step satisfies `ok`, then a run leaves it true exactly when
it goes along `ok`. -/
theorem run_iff_along {ok : σ → α → Prop} {I Q : σ → Prop}
    (hI : ∀ s a t, I s → step s a = some t → I t)
    (hQ : ∀ s a t, I s → step s a = some t → (Q t ↔ Q s ∧ ok s a)) {as : List α} {s u : σ}
    (h0 : I s) (hr : run step s as = some u) : Q u ↔ Q s ∧ Along step ok s as := by
  induction as generalizing s with
  | nil =>
    cases hr
    exact (and_iff_left trivial).symm
  | cons a as ih =>
    obtain ⟨t, ht, htu⟩ := run_cons_some.mp hr
    rw [ih (hI s a t h0 ht) htu, hQ s a t h0 ht, and_assoc]
    refine and_congr_right fun _ => and_congr_right fun _ => ?_
    constructor
    · intro h t' ht'
      rw [ht] at ht'
      cases ht'
      exact h
    · intro h
      exact h t ht

/-! ## Simulation -/

/-- **Forward simulation.** If every concrete step from related states is matched by the
abstract steps `obs` assigns to it, every concrete run is matched by an abstract run. -/
theorem run_sim_along {astep : τ → β → Option τ} {ok : σ → α → Prop} {R : σ → τ → Prop}
    (hsim : ∀ s a s' t, R s t → ok s a → step s a = some s' →
      ∃ bs t', run astep t bs = some t' ∧ R s' t') {as : List α} {s s' : σ} {t : τ} (hR : R s t)
    (hal : Along step ok s as) (hr : run step s as = some s') :
    ∃ bs t', run astep t bs = some t' ∧ R s' t' := by
  induction as generalizing s t with
  | nil =>
    cases hr
    exact ⟨[], t, rfl, hR⟩
  | cons a as ih =>
    obtain ⟨u, hu, hus⟩ := run_cons_some.mp hr
    obtain ⟨bs, v, hv, hRv⟩ := hsim s a u t hR hal.1 hu
    obtain ⟨cs, w, hw, hRw⟩ := ih hRv (hal.2 u hu) hus
    exact ⟨bs ++ cs, w, run_append_some.mpr ⟨v, hv, hw⟩, hRw⟩

end Lts
