import Mathlib.Data.List.Basic

/-!
# Descriptors with one owner

What a process holds of the descriptors that one of its objects has obtained.  Numbers are given
out again after a `close`, so every descriptor also has a serial number, which is not.

* `Table`, `Table.obtain`, `Table.close` — the kernel's side.  `crowded` counts the descriptors
  obtained while another one was open, `stray` the calls of `close` that found nothing open.
* `Owns` — the owner's variable holds the only open descriptor, or is -1 and none is open;
  `Owns.obtain`, `Owns.close` keep it.
* `Owns.live_le`, `Owns.held`, `Owns.closed_eq` — what it says of the table.
-/

set_option autoImplicit false

namespace Descriptors

structure Table where
  /-- how many descriptors have been obtained -/
  opened : Nat
  /-- the open ones, with their serial numbers -/
  live : List (Nat × Nat)
  /-- the serial numbers of the closed ones, in order -/
  closed : List Nat
  crowded : Nat
  stray : Nat
  deriving DecidableEq, Repr

namespace Table

def empty : Table := ⟨0, [], [], 0, 0⟩

/-- The kernel gives out `fd`. -/
def obtain (fd : Nat) (t : Table) : Table :=
  { t with
    opened := t.opened + 1
    live := t.live ++ [(t.opened, fd)]
    crowded := if t.live = [] then t.crowded else t.crowded + 1 }

/-- `close(fd)` -/
def close (fd : Nat) (t : Table) : Table :=
  match t.live.find? fun e => e.2 == fd with
  | none => { t with stray := t.stray + 1 }
  | some e => { t with live := t.live.erase e, closed := t.closed ++ [e.1] }

theorem subset_close (fd : Nat) (t : Table) : t.closed ⊆ (t.close fd).closed := by
  unfold close
  split
  · exact List.Subset.refl _
  · exact List.subset_append_left _ _

end Table

/-- Everything obtained has been closed once, in order, but for the descriptor `fd` holds. -/
inductive Owns (t : Table) (fd : Int) : Prop
  | none (fd : fd = -1) (live : t.live = []) (closed : t.closed = List.range t.opened)
      (crowded : t.crowded = 0) (stray : t.stray = 0)
  | one (n d : Nat) (fd : fd = d) (opened : t.opened = n + 1) (live : t.live = [(n, d)])
      (closed : t.closed = List.range n) (crowded : t.crowded = 0) (stray : t.stray = 0)

variable {t : Table} {fd : Int}

theorem owns_empty : Owns .empty (-1) := .none rfl rfl rfl rfl rfl

/-- A variable without a descriptor takes the one obtained. -/
theorem Owns.obtain (h : Owns t fd) (hfd : fd < 0) (d : Nat) : Owns (t.obtain d) d := by
  cases h with
  | none _ live closed crowded stray =>
    refine .one t.opened d rfl rfl ?_ closed ?_ stray
    · simp [Table.obtain, live]
    · simp [Table.obtain, live, crowded]
  | one n d' hd => omega

/-- The descriptor held is closed, and the variable set to -1. -/
theorem Owns.close (h : Owns t fd) (hfd : 0 ≤ fd) : Owns (t.close fd.toNat) (-1) := by
  cases h with
  | none hneg => omega
  | one n d hd opened live closed crowded stray =>
    subst hd
    have hclose : t.close (d : Int).toNat = { t with live := [], closed := t.closed ++ [n] } := by
      simp [Table.close, live]
    rw [hclose]
    refine .none rfl rfl ?_ crowded stray
    show t.closed ++ [n] = List.range t.opened
    rw [closed, opened, List.range_succ]

theorem Owns.of_neg (h : Owns t fd) (hfd : fd < 0) : Owns t (-1) := by
  cases h with
  | none _ live closed crowded stray => exact .none rfl live closed crowded stray
  | one n d hd => omega

theorem Owns.live_le (h : Owns t fd) : t.live.length ≤ 1 := by
  cases h with
  | none _ live => simp [live]
  | one n d _ _ live => simp [live]

/-- What is open is what the variable holds. -/
theorem Owns.held (h : Owns t fd) {e : Nat × Nat} (he : e ∈ t.live) : fd = e.2 := by
  cases h with
  | none _ live => simp [live] at he
  | one n d hd _ live =>
    rw [live, List.mem_singleton] at he
    rw [he]
    exact hd

/-- A descriptor that is not negative is open. -/
theorem Owns.mem_live (h : Owns t fd) (hfd : 0 ≤ fd) : ∃ e ∈ t.live, fd = e.2 := by
  cases h with
  | none hneg => omega
  | one n d hd _ live => exact ⟨(n, d), by simp [live], hd⟩

theorem Owns.live_nil (h : Owns t fd) (hfd : fd < 0) : t.live = [] := by
  cases h with
  | none _ live => exact live
  | one n d hd => omega

/-- The descriptors closed are all those obtained, but for the one that is open. -/
theorem Owns.closed_eq (h : Owns t fd) : t.closed = List.range (t.opened - t.live.length) := by
  cases h with
  | none _ live closed => simp [live, closed]
  | one n d _ opened live closed => simp [live, closed, opened]

/-- The descriptor that is open has not been closed. -/
theorem Owns.not_mem_closed (h : Owns t fd) {e : Nat × Nat} (he : e ∈ t.live) :
    e.1 ∉ t.closed := by
  cases h with
  | none _ live => simp [live] at he
  | one n d _ _ live closed =>
    rw [live, List.mem_singleton] at he
    simp [he, closed]

/-- And closing it does. -/
theorem Owns.mem_close (h : Owns t fd) {e : Nat × Nat} (he : e ∈ t.live) :
    e.1 ∈ (t.close fd.toNat).closed := by
  cases h with
  | none _ live => simp [live] at he
  | one n d hd _ live =>
    rw [live, List.mem_singleton] at he
    simp [Table.close, live, hd, he]

theorem Owns.crowded_eq (h : Owns t fd) : t.crowded = 0 := by
  cases h with
  | none _ _ _ crowded => exact crowded
  | one _ _ _ _ _ _ crowded => exact crowded

theorem Owns.stray_eq (h : Owns t fd) : t.stray = 0 := by
  cases h with
  | none _ _ _ _ stray => exact stray
  | one _ _ _ _ _ _ _ stray => exact stray

end Descriptors
