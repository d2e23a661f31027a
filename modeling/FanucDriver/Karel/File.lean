import FanucDriver.Lib.Channel

/-!
# KAREL file input and output

`READ`, `WRITE` and `BYTES_AHEAD` on a socket opened in unformatted mode (`ATR_UF`).  INTEGER
and REAL variables are 32-bit words in the controller's byte order.  What the controller
decides (that an operation fails, and where) is part of the input of the model.

* `writeSeq`, `ioStatus` — consecutive `WRITE`s, each followed by `IF stat__ <> 0 THEN RETURN`;
  `writeSeq_append` — two such sequences are one.
* `readFields` — a `READ` of several variables, or several `READ`s with such a check.

KAREL reports an error by a positive status, so those of `READ` and `BYTES_AHEAD` are natural
numbers; the routines around `WRITE` are written for statuses of either sign.
-/

set_option autoImplicit false

namespace FanucDriver

open Wire

/-- `WRITE fd(CR)` in unformatted mode: the byte 0x0D or nothing. -/
def crBytes (cr : Bool) : Bytes := if cr then [0x0D] else []

/-- How one `WRITE` ends: its `IO_STATUS` and, when that is not 0, how many of its bytes went
out before. -/
structure WriteOutcome where
  stat : Int
  sent : Nat
  deriving DecidableEq, Repr

def WriteOutcome.ok : WriteOutcome := ⟨0, 0⟩

/-- Write the chunks one after the other until a `WRITE` fails; `(bytes sent, IO_STATUS)`.
Writes beyond the listed outcomes succeed. -/
def writeSeq : List WriteOutcome → List Bytes → Bytes × Int
  | _, [] => ([], 0)
  | [], b :: bs => (b ++ (writeSeq [] bs).1, (writeSeq [] bs).2)
  | o :: os, b :: bs =>
    if o.stat = 0 then (b ++ (writeSeq os bs).1, (writeSeq os bs).2)
    else (b.take o.sent, o.stat)

@[simp] theorem writeSeq_nil (bs : List Bytes) : writeSeq [] bs = (bs.flatten, 0) := by
  induction bs with
  | nil => rfl
  | cons b bs ih => simp [writeSeq, ih]

/-- A sequence of writes that ends with status 0 has sent everything. -/
theorem writeSeq_stat_zero {os : List WriteOutcome} {bs : List Bytes}
    (h : (writeSeq os bs).2 = 0) : (writeSeq os bs).1 = bs.flatten := by
  induction bs generalizing os with
  | nil => cases os <;> rfl
  | cons b bs ih =>
    cases os with
    | nil => simp
    | cons o os =>
      by_cases ho : o.stat = 0
      · simp only [writeSeq, if_pos ho, List.flatten_cons] at h ⊢
        rw [ih h]
      · simp only [writeSeq, if_neg ho] at h
        exact absurd h ho

/-- Whatever fails, what has been sent is a beginning of the chunks. -/
theorem writeSeq_begins (os : List WriteOutcome) (bs : List Bytes) :
    (writeSeq os bs).1 <+: bs.flatten := by
  induction bs generalizing os with
  | nil => cases os <;> exact List.prefix_rfl
  | cons b bs ih =>
    cases os with
    | nil => exact ⟨[], by rw [writeSeq_nil, List.append_nil]⟩
    | cons o os =>
      rw [writeSeq]
      split
      · rw [List.flatten_cons, List.prefix_append_right_inj]
        exact ih os
      · exact (List.take_prefix _ _).trans (List.prefix_append _ _)

/-- How each of these `WRITE`s ends. -/
def ended : List WriteOutcome → List Bytes → List WriteOutcome
  | _, [] => []
  | [], _ :: bs => .ok :: ended [] bs
  | o :: os, _ :: bs => o :: ended os bs

@[simp] theorem ended_length (os : List WriteOutcome) (bs : List Bytes) :
    (ended os bs).length = bs.length := by
  induction bs generalizing os with
  | nil => cases os <;> rfl
  | cons b bs ih => cases os <;> simp [ended, ih]

theorem writeSeq_ended (os : List WriteOutcome) (bs : List Bytes) :
    writeSeq (ended os bs) bs = writeSeq os bs := by
  induction bs generalizing os with
  | nil => cases os <;> rfl
  | cons b bs ih =>
    cases os with
    | nil =>
      rw [ended, writeSeq, writeSeq, ih]
      exact if_pos rfl
    | cons o os => rw [ended, writeSeq, writeSeq, ih]

/-- Two sequences in a row: the second is written when no `WRITE` of the first has failed. -/
theorem writeSeq_append {os : List WriteOutcome} {bs : List Bytes} (hlen : os.length = bs.length)
    (os' : List WriteOutcome) (bs' : List Bytes) :
    writeSeq (os ++ os') (bs ++ bs') =
      if (writeSeq os bs).2 = 0 then
        ((writeSeq os bs).1 ++ (writeSeq os' bs').1, (writeSeq os' bs').2)
      else writeSeq os bs := by
  induction bs generalizing os with
  | nil =>
    rw [List.eq_nil_of_length_eq_zero hlen]
    rfl
  | cons b bs ih =>
    cases os with
    | nil => exact absurd hlen (by simp)
    | cons o os =>
      have hrest := ih (Nat.succ.inj hlen)
      rw [List.cons_append, List.cons_append, writeSeq, writeSeq, hrest]
      by_cases ho : o.stat = 0
      · rw [if_pos ho, if_pos ho]
        dsimp only
        split
        · rw [List.append_assoc]
        · rfl
      · rw [if_neg ho, if_neg ho, if_neg ho]

/-- **Nothing is written behind a `WRITE` that failed.** -/
theorem writeSeq_failed {os : List WriteOutcome} {bs : List Bytes} {i : Nat} {w : WriteOutcome}
    (hi : i < bs.length) (hw : os[i]? = some w) (hfail : w.stat ≠ 0) :
    (writeSeq os bs).2 ≠ 0 ∧ (writeSeq os bs).1 <+: (bs.take (i + 1)).flatten := by
  induction bs generalizing os i with
  | nil => exact absurd hi (by simp)
  | cons b bs ih =>
    cases os with
    | nil => exact absurd hw (by simp)
    | cons o os =>
      rw [writeSeq, List.take_succ_cons, List.flatten_cons]
      by_cases ho : o.stat = 0
      · rw [if_pos ho]
        cases i with
        | zero =>
          rw [List.getElem?_cons_zero, Option.some.injEq] at hw
          subst hw
          exact absurd ho hfail
        | succ i =>
          obtain ⟨hstat, hsent⟩ := ih (Nat.lt_of_succ_lt_succ hi) hw
          exact ⟨hstat, (List.prefix_append_right_inj b).mpr hsent⟩
      · rw [if_neg ho]
        exact ⟨ho, (List.take_prefix _ _).trans (List.prefix_append _ _)⟩

/-- The `IO_STATUS` that consecutive `WRITE`s, given up at the first failure, end with. -/
def ioStatus : List WriteOutcome → Int
  | [] => 0
  | o :: os => if o.stat = 0 then ioStatus os else o.stat

theorem writeSeq_stat (os : List WriteOutcome) (bs : List Bytes) :
    (writeSeq os bs).2 = ioStatus (os.take bs.length) := by
  induction bs generalizing os with
  | nil => cases os <;> rfl
  | cons b bs ih =>
    cases os with
    | nil => simp [ioStatus]
    | cons o os =>
      simp only [writeSeq, List.length_cons, List.take_succ_cons, ioStatus]
      split
      · exact ih os
      · rfl

theorem ioStatus_eq_zero {os : List WriteOutcome} : ioStatus os = 0 ↔ ∀ o ∈ os, o.stat = 0 := by
  induction os with
  | nil => simp [ioStatus]
  | cons o os ih =>
    rw [ioStatus, List.forall_mem_cons]
    by_cases h : o.stat = 0
    · rw [if_pos h, ih, and_iff_right h]
    · rw [if_neg h]
      constructor
      · intro h0
        exact absurd h0 h
      · intro h0
        exact absurd h0.1 h

/-- How a `READ` ends: successfully (`stat = 0`), or with `stat` after `got` variables. -/
structure ReadOutcome where
  stat : Nat
  got : Nat
  deriving DecidableEq, Repr

def ReadOutcome.ok : ReadOutcome := ⟨0, 0⟩

/-- Read `n` variables: the words read, the status and the channel afterwards.  `none`: the
`READ` is still waiting for bytes that have not been sent. -/
def readFields (o : ByteOrder) (r : ReadOutcome) (n : Nat) (c : Channel) :
    Option (List Word × Nat × Channel) :=
  let k := if r.stat = 0 then n else min r.got n
  if 4 * k ≤ c.all.length then
    some (decodeWords o k c.all, if k < n then r.stat else 0, c.consume (4 * k))
  else none

/-- A `READ` that ends with status 0 has read all its variables. -/
theorem readFields_stat_zero {o : ByteOrder} {r : ReadOutcome} {n : Nat} {c c' : Channel}
    {ws : List Word} {stat : Nat} (h : readFields o r n c = some (ws, stat, c')) (h0 : stat = 0) :
    4 * n ≤ c.all.length ∧ ws = decodeWords o n c.all ∧ c' = c.consume (4 * n) := by
  unfold readFields at h
  dsimp only at h
  generalize hk : (if r.stat = 0 then n else min r.got n) = k at h
  split at h
  · rename_i hle
    simp only [Option.some.injEq, Prod.mk.injEq] at h
    obtain ⟨rfl, hstat, rfl⟩ := h
    have hkn : k = n := by
      by_cases hr : r.stat = 0
      · rw [← hk, if_pos hr]
      · rw [if_neg hr] at hk
        split at hstat
        · omega
        · omega
    rw [hkn] at hle ⊢
    exact ⟨hle, rfl, rfl⟩
  · cases h

/-- A `READ` that meets no error waits for all its variables. -/
theorem readFields_of_le {o : ByteOrder} {n : Nat} {c : Channel} (h : 4 * n ≤ c.all.length) :
    readFields o .ok n c = some (decodeWords o n c.all, 0, c.consume (4 * n)) := by
  simp only [readFields, ReadOutcome.ok, if_true, if_pos h, Nat.lt_irrefl, if_false]

theorem readFields_of_lt {o : ByteOrder} {n : Nat} {c : Channel} (h : c.all.length < 4 * n) :
    readFields o .ok n c = none := by
  simp only [readFields, ReadOutcome.ok, if_true, if_neg (Nat.not_le.mpr h)]

/-- A `READ` that meets no error takes its variables off the front of the stream, arrived or
not. -/
theorem readFields_ok (o : ByteOrder) {ws : List Word} {r : Bytes} {c : Channel}
    (h : c.all = encodeAll o ws ++ r) :
    readFields o .ok ws.length c = some (ws, 0, c.consume (4 * ws.length)) := by
  have hlen : 4 * ws.length ≤ c.all.length := by
    rw [h, List.length_append, encodeAll_length]
    omega
  rw [readFields_of_le hlen, h, decodeWords_encodeAll]

end FanucDriver
