import FanucDriver.Lib.Channel
import FanucDriver.Lib.Framing

/-!
# What the two welding state receivers share

`fanuc_weld_state_node.cpp` and `fanuc_weld_state_node_simple.cpp` read the same messages in
loops of the same shape: receive, publish, and on failures count errors and reconnect.

* `WeldState` — the ROS message; `weldMsg?` builds it from the decoded integers.
* `readWord`, `readWord?`, `readInts?` — reads in the robot's byte order.
* `Decoded` — whether the bytes behind a header make a message; an access outside a buffer is
  a `fault`.
* `receiveExactly` — its loop of `recv` calls reads exactly as many bytes, or fails
  (`receiveExactly_spec`).
* `leftover` — the removal of CR and LF still in the socket.
* `RunState`, `commError`, `runFor` — the state of `run` and its loop around one iteration.
  `runFor_exits`: the loop ends on a finite stream and finitely many successful reconnections,
  provided that an iteration uses up some of `RunState.measure`.  `Scans.runFor_scan`: the loop scans
  the stream, with one acceptance for each published message, provided that an iteration does.

Bytes that never arrive are the end of the stream here: a `recv` that waits for them fails.
-/

set_option autoImplicit false

namespace FanucDriver

open Wire

/-- `fanuc_driver/WeldState.msg` -/
structure WeldState where
  arcOk : Bool
  powerErr : Bool
  deposDi : Bool
  ewmErr : BitVec 16
  warningState : BitVec 16
  actVoltage : BitVec 16
  actCurrent : BitVec 16
  actWireSpd : BitVec 16
  motorCurrent : BitVec 16
  deriving DecidableEq, Repr

/-- The message made of `weld_ints[0]` to `weld_ints[8]`; `none` when there are fewer. -/
def weldMsg? : List Word → Option WeldState
  | a :: b :: c :: d :: e :: f :: g :: h :: i :: _ =>
    some {
      arcOk := a != 0
      powerErr := b != 0
      deposDi := c != 0
      ewmErr := d.setWidth 16
      warningState := e.setWidth 16
      actVoltage := f.setWidth 16
      actCurrent := g.setWidth 16
      actWireSpd := h.setWidth 16
      motorCurrent := i.setWidth 16 }
  | _ => none

/-- `'\r'` or `'\n'` -/
def isTerminator (b : UInt8) : Bool := b == 0x0D || b == 0x0A

/-- How a node's `run` stands: in its loop, returned, or past an access out of bounds. -/
inductive Status where
  | running
  | exited
  | fault
  deriving DecidableEq, Repr

/-! ## Reads in the robot's byte order -/

/-- `readUint32` and `readInt32`: `memcpy`, then `ntohl` unless the robot is little-endian. -/
def readWord (o : ByteOrder) (bs : Bytes) : Word := hostOrder o (decode .little bs)

theorem readWord_eq (o : ByteOrder) (bs : Bytes) : readWord o bs = decode o bs :=
  decode_eq_hostOrder _ _

/-- The same at a checked offset. -/
def readWord? (o : ByteOrder) (bs : Bytes) (i : Nat) : Option Word :=
  (Wire.readWord? .little bs i).map (hostOrder o)

theorem readWord?_eq (o : ByteOrder) (bs : Bytes) (i : Nat) :
    readWord? o bs i = Wire.readWord? o bs i := by
  unfold readWord? Wire.readWord?
  split
  · rw [Option.map_some, decode_eq_hostOrder]
  · rfl

/-- `readInt32(ptr + i * 4)` for `n` fields from offset `i` on. -/
def readInts? (o : ByteOrder) (r : Bytes) : Nat → Nat → Option (List Word)
  | _, 0 => some []
  | i, n + 1 =>
    match readWord? o r i with
    | none => none
    | some w => (readInts? o r (i + 4) n).map (w :: ·)

theorem readInts?_eq (o : ByteOrder) (r : Bytes) {n i : Nat} (h : i + 4 * n ≤ r.length) :
    readInts? o r i n = some (decodeWords o n (r.drop i)) := by
  induction n generalizing i with
  | zero => rfl
  | succ n ih =>
    rw [readInts?, readWord?_eq, Wire.readWord?, if_pos (by omega)]
    dsimp only
    rw [ih (by omega), Option.map_some, decodeWords, List.drop_drop]

/-- The outcome of analysing what follows a header. -/
inductive Decoded where
  | fault
  | skip
  | state (w : WeldState)
  deriving DecidableEq, Repr

namespace Node

/-! ## The socket -/

/-- `receiveExactly`: its `recv` calls return `pick` bytes each, as far as that many are missing
and to come. -/
def receiveExactly (pick : Nat → Nat) (bytes : Nat) (c : Channel) : Option Bytes × Channel :=
  Channel.recvLoop pick bytes bytes c

/-- **The pieces do not matter**: this is the read that the nodes are modelled with, the next bytes
of the stream if there are as many and otherwise a failure that uses the stream up. -/
theorem receiveExactly_spec (pick : Nat → Nat) (bytes : Nat) (c : Channel) :
    receiveExactly pick bytes c = c.readExact bytes ∧
      (receiveExactly pick bytes c).1 =
        (if bytes ≤ c.all.length then some (c.all.take bytes) else none) ∧
      (receiveExactly pick bytes c).2.all = c.all.drop bytes := by
  have heq : receiveExactly pick bytes c = c.readExact bytes :=
    Channel.recvLoop_eq_readExact pick c (Nat.le_refl bytes)
  rw [heq]
  refine ⟨rfl, ?_, Channel.all_readExact bytes c⟩
  rw [Channel.readExact]
  split <;> rfl

/-- Consume CR/LF bytes at the front of the socket, as far as they have arrived. -/
def leftover : Nat → Channel → List Nat → Channel × List Nat
  | 0, c, ks => (c, ks)
  | fuel + 1, c, ks =>
    let c := c.arrive (ks.headD 0)
    match c.peek with
    | none => (c, ks.tail)
    | some b => if isTerminator b then leftover fuel (c.consume 1) ks.tail else (c, ks.tail)

/-- What is removed behind a message is a run of terminators at the front of the stream. -/
theorem leftover_spec (fuel : Nat) (c : Channel) (ks : List Nat) :
    ∃ j, j ≤ c.all.length ∧ (leftover fuel c ks).1.all = c.all.drop j ∧
      ∀ i, i < j → ∃ b, c.all[i]? = some b ∧ isTerminator b = true := by
  induction fuel generalizing c ks with
  | zero => exact ⟨0, Nat.zero_le _, rfl, by omega⟩
  | succ fuel ih =>
    simp only [leftover]
    split
    · exact ⟨0, Nat.zero_le _, by simp, by omega⟩
    · rename_i b hb
      split
      · rename_i hterm
        obtain ⟨rest, hrest⟩ : ∃ rest, c.all = b :: rest := by
          obtain ⟨buf, hbuf⟩ := List.head?_eq_some_iff.mp hb
          have hall := Channel.all_arrive (ks.headD 0) c
          rw [Channel.all, hbuf] at hall
          exact ⟨_, hall.symm⟩
        obtain ⟨j, hj, heq, hall⟩ := ih ((c.arrive (ks.headD 0)).consume 1) ks.tail
        simp only [Channel.all_consume, Channel.all_arrive, hrest, List.drop_succ_cons,
          List.drop_zero] at hj heq hall
        refine ⟨j + 1, by rw [hrest, List.length_cons]; omega,
          by rw [heq, hrest, List.drop_succ_cons], ?_⟩
        intro i hi
        rw [hrest]
        cases i with
        | zero => exact ⟨b, rfl, hterm⟩
        | succ i => exact hall i (by omega)
      · exact ⟨0, Nat.zero_le _, by simp, by omega⟩

/-! ## The loop -/

structure RunState where
  /-- the stream of the open socket -/
  sock : Channel
  /-- how many bytes arrive before each of the peeks to come -/
  arrivals : List Nat
  /-- what each `reconnect` to come obtains: a stream, or nothing -/
  attempts : List (Option Channel)
  msgCount : Nat
  errorCount : Nat
  published : List WeldState
  status : Status
  deriving DecidableEq, Repr

/-- `run` entered with a socket that delivers `c` and no further server to reconnect to. -/
def connected (c : Channel) (arrivals : List Nat) : RunState where
  sock := c
  arrivals := arrivals
  attempts := []
  msgCount := 0
  errorCount := 0
  published := []
  status := .running

/-- The header could not be received: count it and, from the sixth time on, reconnect. -/
def commError (st : RunState) : RunState :=
  let st := { st with errorCount := st.errorCount + 1 }
  if 5 < st.errorCount then
    match st.attempts with
    | some c :: rest => { st with sock := c, attempts := rest }
    | none :: rest => { st with sock := .empty, attempts := rest, status := .exited }
    | [] => { st with sock := .empty, status := .exited }
  else st

/-- At most `n` iterations of the loop. -/
def runFor (iter : RunState → RunState) : Nat → RunState → RunState
  | 0, st => st
  | n + 1, st => if st.status = .running then runFor iter n (iter st) else st

/-- Bytes that can still be received, on this connection and the later ones. -/
def RunState.bytesLeft (st : RunState) : Nat :=
  st.sock.all.length + st.attempts.foldr (fun c n => (c.map fun c => c.all.length).getD 0 + n) 0

/-- What every iteration uses up: a received header costs bytes, a failed one an error. -/
def RunState.measure (st : RunState) : Nat :=
  7 * st.bytesLeft + st.attempts.length + (6 - st.errorCount)

theorem commError_measure (st : RunState) (h : (commError st).status = .running) :
    (commError st).measure < st.measure := by
  unfold commError at h ⊢
  dsimp only at h ⊢
  split at h
  · rename_i hmany
    rw [if_pos hmany]
    split at h
    · rename_i c rest hatt
      simp only [hatt, RunState.measure, RunState.bytesLeft, List.foldr_cons, List.length_cons,
        Option.map_some, Option.getD_some]
      omega
    · cases h
    · cases h
  · rename_i hfew
    rw [if_neg hfew]
    simp only [RunState.measure, RunState.bytesLeft]
    omega

theorem runFor_exits {iter : RunState → RunState}
    (hiter : ∀ st, (iter st).status = .running → (iter st).measure < st.measure) {n : Nat}
    {st : RunState} (h : st.measure < n) : (runFor iter n st).status ≠ .running := by
  induction n generalizing st with
  | zero => exact absurd h (Nat.not_lt_zero _)
  | succ n ih =>
    rw [runFor]
    split
    · by_cases hr : (iter st).status = .running
      · have := hiter st hr
        exact ih (by omega)
      · cases n with
        | zero => exact hr
        | succ n => rwa [runFor, if_neg hr]
    · assumption

/-- On the last connection an iteration is a step of a scan of the stream: it publishes a message
only at a position that can be accepted, and then uses up at least `m` bytes. -/
def Scans (iter : RunState → RunState) (Ok : Bytes → Prop) (m : Nat) : Prop :=
  ∀ st, st.attempts = [] → (iter st).attempts = [] ∧
    ∃ k, (iter st).sock.all = st.sock.all.drop k ∧ 16 ≤ k ∧
      ((iter st).published = st.published ∨ (Ok st.sock.all ∧ m ≤ k ∧ k ≤ st.sock.all.length ∧
        ∃ w, (iter st).published = st.published ++ [w]))

/-- **The run is a scan**: every message it publishes is one acceptance. -/
theorem Scans.runFor_scan {iter : RunState → RunState} {Ok : Bytes → Prop} {m : Nat}
    (h : Scans iter Ok m) (n : Nat) {st : RunState} (hatt : st.attempts = []) :
    ∃ ws, (runFor iter n st).published = st.published ++ ws ∧
      Framing.Scan Ok m 16 st.sock.all ws.length := by
  induction n generalizing st with
  | zero => exact ⟨[], (List.append_nil _).symm, .stop _⟩
  | succ n ih =>
    rw [runFor]
    split
    · obtain ⟨hatt', k, hk, h16, hpub⟩ := h st hatt
      obtain ⟨ws, hws, hscan⟩ := ih hatt'
      rw [hk] at hscan
      rcases hpub with hpub | ⟨hok, hsize, hle, w, hpub⟩
      · exact ⟨ws, by rw [hws, hpub], .skip h16 hscan⟩
      · exact ⟨w :: ws, by rw [hws, hpub, List.append_assoc, List.singleton_append],
          .accept hok hsize hle hscan⟩
    · exact ⟨[], (List.append_nil _).symm, .stop _⟩

end Node

end FanucDriver
