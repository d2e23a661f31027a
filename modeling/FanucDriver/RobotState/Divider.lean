import Mathlib.Algebra.Order.Group.Unbundled.Int
import FanucDriver.RobotState.Stream

/-!
# The status loop divider

`sloop_div` is documented as the divider of the main loop for the robot status.  `stat_count_` is
compared with it before it is incremented, so that a status follows every `sloop_div + 1`st joint
position.

* `received`, `msgTypeOf` — the frames a client cuts out of the stream, and their message types.
* `countP_joints`, `countP_statuses` — how many of each kind a connection is to carry.
* `run_firstStart` — the first connection begins with the counter at zero.
* `run_divides_iff` — for which numbers of iterations the statuses are those of a divider.
-/

set_option autoImplicit false

namespace FanucDriver

open Wire

namespace RobotState

/-! ## What the client receives -/

/-- The frames of a stream, cut by their length words. -/
def received (o : ByteOrder) (bs : Bytes) : List Bytes := (Cut.cut (frameSize o) bs.length bs).1

/-- The word behind the length word. -/
def msgTypeOf (o : ByteOrder) (frame : Bytes) : Word := decode o (frame.drop 4)

/-- How many frames of a message type are received. -/
def receivedCount (o : ByteOrder) (msgType : Word) (bs : Bytes) : Nat :=
  (received o bs).countP fun b => msgTypeOf o b = msgType

def Frame.msgType : Frame → Word
  | .joints _ => RI_MT_JOINTP
  | .status _ => RI_MT_STATUS

@[simp] theorem Frame.msgType_joints (v : Vector Word 10) :
    (Frame.joints v).msgType = RI_MT_JOINTP := rfl

@[simp] theorem Frame.msgType_status (s : IndRs) : (Frame.status s).msgType = RI_MT_STATUS := rfl

@[simp] theorem msgTypeOf_bytes (o : ByteOrder) (f : Frame) :
    msgTypeOf o (f.bytes o) = f.msgType := by
  have hwords : ∃ len ws, f.words = len :: f.msgType :: ws := by
    cases f with
    | joints v => exact ⟨_, _, rfl⟩
    | status s => exact ⟨_, _, rfl⟩
  obtain ⟨len, ws, hws⟩ := hwords
  rw [msgTypeOf, Frame.bytes, hws, encodeAll_cons, encodeAll_cons,
    List.drop_left' (encode_length o len), decode_encode_append]

theorem Conn.Framed.receivedCount {o : ByteOrder} {d : Int} {c : Conn} (hc : Conn.Framed o d c)
    (hok : c.failed = false) (msgType : Word) :
    receivedCount o msgType c.sent =
      (frames d c.start.statCount c.loops).countP fun f => f.msgType = msgType := by
  rw [RobotState.receivedCount, received, hc.whole hok, List.countP_map]
  congr 1
  funext f
  simp

/-! ## How many of each kind -/

theorem countP_joints (d count : Int) (envs : List LoopEnv) :
    ((frames d count envs).countP fun f => f.msgType = RI_MT_JOINTP) = envs.length := by
  have hne : ¬ RI_MT_STATUS = RI_MT_JOINTP := by decide
  induction envs generalizing count with
  | nil => rfl
  | cons env envs ih =>
    rw [frames]
    split
    · simp [hne, ih]
    · simp [ih]

/-- A status behind every `d + 1`st joint position. -/
theorem countP_statuses {d count : Int} (h0 : 0 ≤ count) (hd : count ≤ d) (envs : List LoopEnv) :
    (((frames d count envs).countP fun f => f.msgType = RI_MT_STATUS : Nat) : Int) =
      (count + envs.length) / (d + 1) := by
  have hne : ¬ RI_MT_JOINTP = RI_MT_STATUS := by decide
  induction envs generalizing count with
  | nil => exact (Int.ediv_eq_zero_of_lt (by simpa using h0) (by simpa using by omega)).symm
  | cons env envs ih =>
    rw [frames]
    split
    · rename_i hle
      have hcount : count = d := by omega
      -- the counter starts again: one period less is left
      have hperiod : count + ((env :: envs).length : Nat) =
          (0 + (envs.length : Int)) + 1 * (d + 1) := by
        rw [hcount, List.length_cons]
        push_cast
        omega
      rw [hperiod, Int.add_mul_ediv_right _ _ (by omega), ← ih le_rfl (by omega)]
      simp [hne]
    · have hnext : count + ((env :: envs).length : Nat) = (count + 1) + (envs.length : Int) := by
        rw [List.length_cons]
        push_cast
        omega
      rw [hnext, ← ih (by omega) (by omega)]
      simp [hne]

/-- Periods `d` and `d + 1` have passed equally often as long as no multiple of `d` has been
reached whose number of longer periods has not. -/
theorem ediv_succ_eq_ediv_iff {d n : Int} (hd : 0 < d) (hn : 0 ≤ n) :
    n / (d + 1) = n / d ↔ ∀ k, 1 ≤ k → ¬ (k * d ≤ n ∧ n < k * (d + 1)) := by
  constructor
  · rintro heq k - ⟨hle, hlt⟩
    have hk : k ≤ n / (d + 1) := heq ▸ (Int.le_ediv_iff_mul_le hd).mpr hle
    have hk' := (Int.le_ediv_iff_mul_le (by omega)).mp hk
    omega
  · intro h
    have hle : n / (d + 1) ≤ n / d := by
      rw [Int.le_ediv_iff_mul_le hd]
      have hmul := Int.ediv_mul_le n (b := d + 1) (by omega)
      have hquot : 0 ≤ n / (d + 1) := Int.ediv_nonneg hn (by omega)
      rw [Int.mul_add, Int.mul_one] at hmul
      omega
    have hge : n / d ≤ n / (d + 1) := by
      rw [Int.le_ediv_iff_mul_le (by omega)]
      by_cases hpos : 1 ≤ n / d
      · have hk := h (n / d) hpos
        have hmul := Int.ediv_mul_le n (b := d) (by omega)
        omega
      · have hzero : n / d = 0 := by
          have := Int.ediv_nonneg hn hd.le
          omega
        rw [hzero, Int.zero_mul]
        exact hn
    exact le_antisymm hle hge

/-! ## The first connection -/

theorem run_firstStart {o : ByteOrder} {d : Int} {rs : IndRs} {ls : List Label} {s : RosState}
    (h : Lts.run (step o d) (RosState.init rs) ls = some s) {c : Conn}
    (hfirst : s.connections.head? = some c) : c.start.statCount = 0 := by
  have hchained := (Server.run_inv h).chained
  obtain ⟨cs, hcs⟩ := List.head?_eq_some_iff.mp hfirst
  rw [hcs] at hchained
  rw [hchained.1]
  rfl

/-- **When the statuses are those of a divider.**  On the first connection, after `n` iterations
without an error, `n` joint positions have been sent, and `n / sloop_div` statuses unless `n` lies
between `k * sloop_div` and `k * (sloop_div + 1)` for some number `k` of periods. -/
theorem run_divides_iff (o : ByteOrder) {d : Int} (hd : 1 ≤ d) (rs : IndRs) {ls : List Label}
    {s : RosState} (h : Lts.run (step o d) (RosState.init rs) ls = some s) {c : Conn}
    (hfirst : s.connections.head? = some c) (hok : c.failed = false) :
    (receivedCount o RI_MT_JOINTP c.sent = c.loops.length ∧
        (receivedCount o RI_MT_STATUS c.sent : Int) = c.loops.length / d) ↔
      ∀ k : Int, 1 ≤ k → ¬ (k * d ≤ c.loops.length ∧ c.loops.length < k * (d + 1)) := by
  have hframed := (run_framed o d rs h).1 c (List.mem_of_head? hfirst)
  rw [hframed.receivedCount hok, hframed.receivedCount hok, run_firstStart h hfirst, countP_joints,
    countP_statuses le_rfl (by omega), zero_add]
  rw [← ediv_succ_eq_ediv_iff (by omega) (Int.natCast_nonneg _)]
  exact and_iff_right rfl

/-- Iterations without an error on a controller in AUTO mode. -/
def errorFree (n : Nat) : List Label :=
  let c : Controller := ⟨true, 0, false, false, false, 0, true, false, false, true, true⟩
  .accept true :: List.replicate n (.loop ⟨Vector.replicate 10 0, [], c, []⟩)

theorem run_divides_two :
    ∃ s c, Lts.run (step .big 2) (RosState.init irsReset) (errorFree 3) = some s ∧
      s.connections.head? = some c ∧ c.failed = false ∧
      ((receivedCount .big RI_MT_JOINTP c.sent = c.loops.length ∧
          (receivedCount .big RI_MT_STATUS c.sent : Int) = c.loops.length / 2) ↔
        ∀ k : Int, 1 ≤ k → ¬ (k * 2 ≤ c.loops.length ∧ c.loops.length < k * (2 + 1))) :=
  ⟨_, _, rfl, rfl, rfl, run_divides_iff .big (by decide) irsReset
    (rfl : Lts.run (step .big 2) (RosState.init irsReset) (errorFree 3) = some _) rfl rfl⟩

/-- Two iterations with the divider two: two joint positions and no status. -/
theorem run_divides_missing :
    ∃ s c, Lts.run (step .big 2) (RosState.init irsReset) (errorFree 2) = some s ∧
      s.connections.head? = some c ∧ c.failed = false ∧ c.loops.length = 2 ∧
      receivedCount .big RI_MT_JOINTP c.sent = 2 ∧
      (receivedCount .big RI_MT_STATUS c.sent : Int) ≠ c.loops.length / 2 :=
  ⟨_, _, rfl, rfl, rfl, rfl, by decide, by decide⟩

end RobotState

end FanucDriver
