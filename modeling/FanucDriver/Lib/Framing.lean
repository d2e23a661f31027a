import Mathlib.Data.List.Basic

/-!
# Scanners that lose alignment

A stream is a concatenation of frames of at most `F` bytes.  A scanner works through it without
seeing the frame boundaries: at each position it either accepts, which consumes at least `m`
bytes, or skips at least `d` bytes.  Whether it can accept at a position depends on the bytes
from there on (`Ok`).

If no position shortly after a frame's start (`0 < q < w`) can be accepted and a window of
`w + m` bytes is longer than a frame, then a scanner that is off the boundary accepts at most
once for every whole frame ahead of it (`Scan.le_bounded`); if in addition its next skip takes it
beyond the next boundary, it misses that frame for good (`Scan.lt_bounded`, `Scan.lt_frames`).  On the
boundary it accepts at most once for every frame (`Scan.le_frames`), and of a stream that breaks
off not more than of the whole one (`Scan.extend`).
-/

set_option autoImplicit false

namespace Framing

variable {α : Type}

/-- A scan from a position of the stream that accepts `n` times. -/
inductive Scan (Ok : List α → Prop) (m d : Nat) : List α → Nat → Prop
  | stop (t : List α) : Scan Ok m d t 0
  | skip {t : List α} {k n : Nat} : d ≤ k → Scan Ok m d (t.drop k) n → Scan Ok m d t n
  | accept {t : List α} {k n : Nat} : Ok t → m ≤ k → k ≤ t.length →
      Scan Ok m d (t.drop k) n → Scan Ok m d t (n + 1)

/-- `t` starts behind the first byte of some frame (at its end at the latest) and goes on with
the whole frames `fs`. -/
def Inside (P : List α → Prop) (t : List α) (fs : List (List α)) : Prop :=
  ∃ f q, P f ∧ 1 ≤ q ∧ q ≤ f.length ∧ t = f.drop q ++ fs.flatten

/-- Every position behind the start of the first frame is inside some frame. -/
theorem inside_drop {P : List α → Prop} {fs : List (List α)} {g : List α} {k : Nat} (hg : P g)
    (hfs : ∀ f ∈ fs, P f) (hk : 1 ≤ k) (hl : ∀ f, P f → 1 ≤ f.length) :
    ∃ fs', (∀ f ∈ fs', P f) ∧ fs'.length ≤ fs.length ∧ Inside P ((g ++ fs.flatten).drop k) fs' := by
  induction fs generalizing g k with
  | nil =>
    refine ⟨[], hfs, Nat.le_refl _, g, min k g.length, hg, ?_, Nat.min_le_right _ _, ?_⟩
    · have := hl g hg
      omega
    · simp only [List.flatten_nil, List.append_nil]
      exact List.drop_eq_drop_min
  | cons h hs ih =>
    by_cases hkg : k ≤ g.length
    · exact ⟨h :: hs, hfs, Nat.le_refl _, g, k, hg, hk, hkg, List.drop_append_of_le_length hkg⟩
    · obtain ⟨fs', hP, hlen, hin⟩ := ih (k := k - g.length) (hfs h List.mem_cons_self)
        (fun f hf => hfs f (List.mem_cons_of_mem h hf)) (by omega)
      refine ⟨fs', hP, Nat.le_succ_of_le hlen, ?_⟩
      rwa [List.drop_append, List.drop_of_length_le (by omega), List.nil_append,
        List.flatten_cons]

/-- Leaving a frame of `F` bytes from offset `q` lands in the rest of the stream. -/
theorem drop_beyond {f g : List α} {gs : List (List α)} {q k : Nat} (hq : q ≤ f.length)
    (hk : f.length ≤ q + k) :
    (f.drop q ++ (g :: gs).flatten).drop k = (g ++ gs.flatten).drop (q + k - f.length) := by
  rw [List.drop_append, List.drop_drop, List.drop_of_length_le hk, List.nil_append,
    List.length_drop, List.flatten_cons]
  congr 1
  omega

/-- What a scanner knows of the frames: the length they do not exceed, that no position in their
first `w` bytes but the first is acceptable, and that an acceptance behind these reaches into the
next frame. -/
structure Bounded (Ok : List α → Prop) (P : List α → Prop) (F w m : Nat) : Prop where
  pos : ∀ f, P f → 1 ≤ f.length
  len : ∀ f, P f → f.length ≤ F
  gap : ∀ f q r, P f → 1 ≤ q → q < w → ¬ Ok (f.drop q ++ r)
  window : F < w + m

/-- The same for frames of one length. -/
structure Guard (Ok : List α → Prop) (P : List α → Prop) (F w m : Nat) : Prop where
  len : ∀ f, P f → f.length = F
  gap : ∀ f q r, P f → 1 ≤ q → q < w → ¬ Ok (f.drop q ++ r)
  window : F < w + m
  pos : 1 ≤ F

variable {Ok : List α → Prop} {m d F w : Nat} {P : List α → Prop}

theorem Guard.bounded (G : Guard Ok P F w m) : Bounded Ok P F w m where
  pos := by
    intro f hf
    rw [G.len f hf]
    exact G.pos
  len := fun f hf => Nat.le_of_eq (G.len f hf)
  gap := G.gap
  window := G.window

/-- Nothing is accepted at the end of a stream. -/
theorem Scan.nil (hm : 1 ≤ m) {n : Nat} (h : Scan Ok m d [] n) : n = 0 := by
  generalize ht : ([] : List α) = t at h
  induction h with
  | stop => rfl
  | skip _ _ ih => exact ih (by rw [← ht, List.drop_nil])
  | accept _ hmk hkt =>
    rw [← ht, List.length_nil] at hkt
    omega

/-- A scan of a stream is one of every longer stream, when what is accepted stays acceptable. -/
theorem Scan.extend (hm : 1 ≤ m) (hok : ∀ t r, m ≤ t.length → Ok t → Ok (t ++ r)) {t : List α}
    {n : Nat} (h : Scan Ok m d t n) (r : List α) : Scan Ok m d (t ++ r) n := by
  induction h with
  | stop t => exact .stop _
  | @skip t k n hk hscan ih =>
    by_cases hkt : k ≤ t.length
    · exact .skip hk (by rwa [List.drop_append_of_le_length hkt])
    · rw [List.drop_of_length_le (by omega)] at hscan
      rw [hscan.nil hm]
      exact .stop _
  | @accept t k n ho hmk hkt _ ih =>
    refine .accept (hok t r (by omega) ho) hmk ?_ (by rwa [List.drop_append_of_le_length hkt])
    rw [List.length_append]
    omega

/-- Moving on from inside a frame stays inside one, with no more frames ahead. -/
theorem Bounded.move (G : Bounded Ok P F w m) {f : List α} {fs : List (List α)} (q k : Nat)
    (hf : P f) (hfs : ∀ g ∈ fs, P g) (hqk : 1 ≤ q + k) (hqf : q ≤ f.length) :
    ∃ fs', (∀ g ∈ fs', P g) ∧ fs'.length ≤ fs.length ∧
      Inside P ((f.drop q ++ fs.flatten).drop k) fs' := by
  have h := inside_drop hf hfs hqk G.pos
  rwa [← List.drop_drop, List.drop_append_of_le_length hqf] at h

/-- Moving on beyond the end of a frame leaves one frame fewer ahead. -/
theorem Bounded.move_beyond (G : Bounded Ok P F w m) {f : List α} {fs : List (List α)} (q k : Nat)
    (hfs : ∀ g ∈ fs, P g) (hqf : q ≤ f.length) (hk : f.length < q + k) (hne : fs ≠ []) :
    ∃ fs', (∀ g ∈ fs', P g) ∧ fs'.length < fs.length ∧
      Inside P ((f.drop q ++ fs.flatten).drop k) fs' := by
  cases fs with
  | nil => exact absurd rfl hne
  | cons g gs =>
    have hg := hfs g (by simp)
    obtain ⟨fs', hP, hle, hin⟩ := G.move 0 (q + k - f.length) hg
      (fun h (hh : h ∈ gs) => hfs h (by simp [hh])) (by omega) (Nat.zero_le _)
    rw [List.drop_zero, ← drop_beyond hqf (by omega)] at hin
    exact ⟨fs', hP, Nat.lt_succ_of_le hle, hin⟩

/-- **At most one acceptance a frame.** A scanner inside a frame accepts at most as often as
there are whole frames ahead. -/
theorem Scan.le_bounded (G : Bounded Ok P F w m) {t : List α} {n : Nat} (h : Scan Ok m d t n) :
    ∀ fs : List (List α), (∀ f ∈ fs, P f) → Inside P t fs → n ≤ fs.length := by
  induction h with
  | stop _ => exact fun _ _ _ => Nat.zero_le _
  | @skip t k n _ _ ih =>
    rintro fs hfs ⟨f, q, hf, hq, hqf, rfl⟩
    obtain ⟨fs', hP, hle, hin⟩ := G.move q k hf hfs (by omega) hqf
    exact Nat.le_trans (ih fs' hP hin) hle
  | @accept t k n hok hmk hkt _ ih =>
    rintro fs hfs ⟨f, q, hf, hq, hqf, rfl⟩
    have hfl := G.len f hf
    have hwin := G.window
    have hqw : w ≤ q := Nat.le_of_not_lt fun hlt => G.gap f q _ hf hq hlt hok
    -- the accepted bytes reach beyond the current frame, so another one lies ahead
    have hne : fs ≠ [] := by
      rintro rfl
      simp only [List.flatten_nil, List.append_nil, List.length_drop] at hkt
      omega
    obtain ⟨fs', hP, hlt, hin⟩ := G.move_beyond q k hfs hqf (by omega) hne
    have := ih fs' hP hin
    omega

/-- A scanner that leaves the frame it is in accepts at most as often as there are frames behind
the next one. -/
theorem Scan.lt_bounded (G : Bounded Ok P F w m) {f : List α} {q k n : Nat}
    {fs : List (List α)} (hfs : ∀ g ∈ fs, P g) (hne : fs ≠ []) (hqf : q ≤ f.length)
    (hk : f.length < q + k) (h : Scan Ok m d ((f.drop q ++ fs.flatten).drop k) n) :
    n < fs.length := by
  obtain ⟨fs', hP, hlt, hin⟩ := G.move_beyond q k hfs hqf hk hne
  exact Nat.lt_of_le_of_lt (h.le_bounded G fs' hP hin) hlt

/-- A scanner at the start of the first frame accepts at most as often as there are frames. -/
theorem Scan.le_frames (G : Bounded Ok P F w m) (hd : 1 ≤ d) (hm : 1 ≤ m) {fs : List (List α)}
    (hfs : ∀ f ∈ fs, P f) {n : Nat} (h : Scan Ok m d fs.flatten n) : n ≤ fs.length := by
  cases fs with
  | nil => exact Nat.le_of_eq (h.nil hm)
  | cons f fs =>
    obtain ⟨hf, hrest⟩ := List.forall_mem_cons.mp hfs
    rw [List.flatten_cons] at h
    have hinside : ∀ {k n : Nat}, 1 ≤ k → Scan Ok m d ((f ++ fs.flatten).drop k) n →
        n ≤ fs.length := by
      intro k n hk hscan
      obtain ⟨fs', hP, hle, hin⟩ := G.move 0 k hf hrest (by omega) (Nat.zero_le _)
      exact Nat.le_trans (hscan.le_bounded G fs' hP hin) hle
    cases h with
    | stop => exact Nat.zero_le _
    | skip hk hscan => exact Nat.le_succ_of_le (hinside (by omega) hscan)
    | accept _ hk _ hscan => exact Nat.succ_le_succ (hinside (by omega) hscan)

/-! ## Frames of one length -/

/-- **A frame missed for good.** A scanner that cannot accept where it is and whose next skip
leaves the frame accepts fewer times than there are whole frames ahead. -/
theorem Scan.lt_frames (G : Guard Ok P F w m) {f : List α} {q n : Nat} {fs : List (List α)}
    (hf : P f) (hfs : ∀ g ∈ fs, P g) (hne : fs ≠ []) (hqF : q ≤ F) (hqd : F < q + d)
    (hok : ¬ Ok (f.drop q ++ fs.flatten)) (h : Scan Ok m d (f.drop q ++ fs.flatten) n) :
    n < fs.length := by
  have hfl := G.len f hf
  cases h with
  | stop => exact List.length_pos_iff.mpr hne
  | accept ho _ _ _ => exact absurd ho hok
  | @skip _ k _ hk hs => exact hs.lt_bounded G.bounded hfs hne (by omega) (by omega)

end Framing
