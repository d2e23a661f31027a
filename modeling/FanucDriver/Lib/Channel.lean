import FanucDriver.Lib.Wire

/-!
# One direction of a stream connection, seen by its reader

The bytes the peer has sent and the reader has not consumed are split at the point up to which
they have arrived.  A read that waits sees all of them; a read or a look that does not wait
sees the arrived part only.

* `arrive`, `send`, `consume` — the three ways the split changes; `all_arrive`, `all_send`,
  `all_consume` say what they do to the unread bytes as a whole.
* `readExact` — a read of exactly `n` bytes, which waits for them and fails at the end of the
  stream.
* `recvLoop` — the loop of `recv` calls behind such a read, each returning as many bytes as the
  network happens to deliver; `recvLoop_eq_readExact` shows that the pieces do not matter.
-/

set_option autoImplicit false

namespace Wire

/-- Unread bytes of one direction of a connection. -/
structure Channel where
  /-- arrived, not yet read -/
  buf : Bytes
  /-- sent by the peer and still under way -/
  net : Bytes
  deriving DecidableEq, Repr

namespace Channel

def empty : Channel := ⟨[], []⟩

/-- Every byte still to be read, in order. -/
def all (c : Channel) : Bytes := c.buf ++ c.net

/-- The next `k` bytes under way arrive. -/
def arrive (k : Nat) (c : Channel) : Channel := ⟨c.buf ++ c.net.take k, c.net.drop k⟩

/-- The peer sends `bs`. -/
def send (bs : Bytes) (c : Channel) : Channel := { c with net := c.net ++ bs }

/-- The reader takes `n` bytes out. -/
def consume (n : Nat) (c : Channel) : Channel := ⟨c.buf.drop n, c.net.drop (n - c.buf.length)⟩

/-- What a look that does not wait sees. -/
def peek (c : Channel) : Option UInt8 := c.buf.head?

@[simp] theorem all_empty : empty.all = [] := rfl

@[simp] theorem all_arrive (k : Nat) (c : Channel) : (c.arrive k).all = c.all := by
  simp [all, arrive, List.append_assoc]

@[simp] theorem all_send (bs : Bytes) (c : Channel) : (c.send bs).all = c.all ++ bs := by
  simp [all, send, List.append_assoc]

@[simp] theorem all_consume (n : Nat) (c : Channel) : (c.consume n).all = c.all.drop n := by
  simp [all, consume, List.drop_append]

theorem buf_length_le (c : Channel) : c.buf.length ≤ c.all.length := by
  simp [all]

theorem consume_consume (m n : Nat) (c : Channel) : (c.consume m).consume n = c.consume (m + n) := by
  simp only [consume, List.drop_drop, List.length_drop, mk.injEq, true_and]
  congr 1
  omega

theorem consume_zero (c : Channel) : c.consume 0 = c := by
  simp [consume]

/-! ## Waiting reads -/

/-- Read exactly `n` bytes, waiting for those under way; at the end of the stream the bytes
that were left are gone and the read fails. -/
def readExact (n : Nat) (c : Channel) : Option Bytes × Channel :=
  if n ≤ c.all.length then (some (c.all.take n), c.consume n)
  else (none, c.consume c.all.length)

theorem readExact_of_le {n : Nat} {c : Channel} (h : n ≤ c.all.length) :
    c.readExact n = (some (c.all.take n), c.consume n) := if_pos h

theorem readExact_of_lt {n : Nat} {c : Channel} (h : c.all.length < n) :
    c.readExact n = (none, c.consume c.all.length) := if_neg (by omega)

theorem all_readExact (n : Nat) (c : Channel) : (c.readExact n).2.all = c.all.drop n := by
  by_cases h : n ≤ c.all.length
  · rw [readExact_of_le h, all_consume]
  · rw [readExact_of_lt (by omega), all_consume, List.drop_length, List.drop_of_length_le (by omega)]

theorem readExact_some {n : Nat} {c c' : Channel} {bs : Bytes}
    (h : c.readExact n = (some bs, c')) :
    n ≤ c.all.length ∧ bs = c.all.take n ∧ c' = c.consume n := by
  by_cases hle : n ≤ c.all.length
  · rw [readExact_of_le hle] at h
    cases h
    exact ⟨hle, rfl, rfl⟩
  · rw [readExact_of_lt (by omega)] at h
    cases h

theorem readExact_none {n : Nat} {c c' : Channel} (h : c.readExact n = (none, c')) :
    c.all.length < n ∧ c'.all = [] := by
  by_cases hle : n ≤ c.all.length
  · rw [readExact_of_le hle] at h
    cases h
  · rw [readExact_of_lt (by omega)] at h
    cases h
    exact ⟨by omega, by rw [all_consume, List.drop_length]⟩

/-- The `recv` loop: until `n` bytes are there, receive between one and all of the missing
ones (`pick` bytes, as far as that is possible) and give up at the end of the stream. -/
def recvLoop (pick : Nat → Nat) : Nat → Nat → Channel → Option Bytes × Channel
  | _, 0, c => (some [], c)
  | 0, _ + 1, c => (none, c)
  | fuel + 1, n + 1, c =>
    if c.all = [] then (none, c)
    else
      let r := max 1 (min (pick fuel) (min (n + 1) c.all.length))
      match recvLoop pick fuel (n + 1 - r) (c.consume r) with
      | (some bs, c') => (some (c.all.take r ++ bs), c')
      | (none, c') => (none, c')

/-- **However the bytes arrive, the loop reads exactly `n` of them or fails.** -/
theorem recvLoop_eq_readExact (pick : Nat → Nat) {fuel n : Nat} (c : Channel) (h : n ≤ fuel) :
    recvLoop pick fuel n c = c.readExact n := by
  induction fuel generalizing n c with
  | zero =>
    cases Nat.le_zero.mp h
    simp [recvLoop, readExact, consume_zero]
  | succ fuel ih =>
    cases n with
    | zero => simp [recvLoop, readExact, consume_zero]
    | succ n =>
      by_cases hnil : c.all = []
      · have hlt : c.all.length < n + 1 := by rw [hnil]; simp
        rw [readExact_of_lt hlt, recvLoop, if_pos hnil, hnil, List.length_nil, consume_zero]
      · have hpos : 0 < c.all.length := List.length_pos_iff.mpr hnil
        rw [recvLoop, if_neg hnil]
        dsimp only
        generalize hr : max 1 (min (pick fuel) (min (n + 1) c.all.length)) = r
        have hr1 : 1 ≤ r := by omega
        have hrn : r ≤ n + 1 := by omega
        have hrl : r ≤ c.all.length := by omega
        rw [ih (c.consume r) (by omega)]
        by_cases hle : n + 1 ≤ c.all.length
        · have hsplit : c.all.take r ++ (c.all.drop r).take (n + 1 - r) = c.all.take (n + 1) := by
            rw [← List.take_add, Nat.add_sub_cancel' hrn]
          rw [readExact_of_le hle, readExact_of_le (by rw [all_consume, List.length_drop]; omega)]
          simp only [all_consume, hsplit, consume_consume, Nat.add_sub_cancel' hrn]
        · have hlt : (c.consume r).all.length < n + 1 - r := by
            rw [all_consume, List.length_drop]; omega
          rw [readExact_of_lt (show c.all.length < n + 1 by omega), readExact_of_lt hlt]
          simp only [all_consume, List.length_drop, consume_consume, Nat.add_sub_cancel' hrl]

end Channel

end Wire
