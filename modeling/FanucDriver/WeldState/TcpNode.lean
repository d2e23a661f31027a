import FanucDriver.WeldState.Node

/-!
# The TCP welding state receiver (`fanuc_weld_state_node.cpp`)

`FanucWeldStateNodeTcp::run`, one loop iteration at a time.

* `trimBytes`, `decodePayload`, `decodeRemainder` — the analysis of what follows the 16-byte
  header.
* `handle`, `iter`, `run` — the loop.  `handle_spec` says what an iteration can do, `run_exits`
  that the loop always comes to an end.
-/

set_option autoImplicit false

namespace FanucDriver

open Wire Node

namespace TcpNode

/-- Protocol parameters. -/
structure Params where
  expectedMsgType : Word
  expectedCommType : Word
  payloadFields : Nat
  dumpRaw : Bool
  byteOrder : ByteOrder

/-- `payload_size_bytes_` -/
def Params.payloadSizeBytes (p : Params) : Nat := p.payloadFields * 4

/-- The parameters `weld_state.launch` gives this node, with its byte order argument. -/
def launch (o : ByteOrder) : Params where
  expectedMsgType := 15
  expectedCommType := 1
  payloadFields := 9
  dumpRaw := true
  byteOrder := o

/-! ## The remainder of a frame -/

/-- `remainder[remainder.size() - 1 - trim_bytes]` -/
def fromEnd? (r : Bytes) (trim : Nat) : Option UInt8 :=
  if trim + 1 ≤ r.length then r[r.length - 1 - trim]? else none

/-- The trim loop with `left` rounds to go. -/
def trimLoop (r : Bytes) : Nat → Nat → Option Nat
  | 0, trim => some trim
  | left + 1, trim =>
    if r = [] then some trim
    else match fromEnd? r trim with
      | none => none
      | some last => if isTerminator last then trimLoop r left (trim + 1) else some trim

/-- `trim_bytes`: at most two trailing CR/LF bytes. -/
def trimBytes (r : Bytes) : Option Nat := trimLoop r 2 0

/-- From `payload_ptr` to the message. -/
def decodePayload (p : Params) (r : Bytes) (payloadOffset dataBytes : Nat) : Decoded :=
  if (dataBytes - payloadOffset) / 4 < p.payloadFields then .skip
  else match readInts? p.byteOrder r payloadOffset p.payloadFields with
    | none => .fault
    | some weldInts =>
      match weldMsg? weldInts with
      | none => .fault
      | some w => .state w

/-- Trim, classify the size, decode. -/
def decodeRemainder (p : Params) (r : Bytes) : Decoded :=
  match trimBytes r with
  | none => .fault
  | some trim =>
    let dataBytes := r.length - trim
    let size := p.payloadSizeBytes
    if dataBytes = size ∨ dataBytes = size + 1 then decodePayload p r 0 dataBytes
    else if dataBytes = size + 4 ∨ dataBytes = size + 5 then
      match readWord? p.byteOrder r 0 with
      | none => .fault
      | some _ => decodePayload p r 4 dataBytes
    else .skip

/-! ## The loop -/

/-- The raw dump stays inside its buffer of `16 + length` bytes, a 32-bit sum; at most the
bytes on their way are peeked. -/
def dumpInBounds (length : Word) (c : Channel) : Bool :=
  let size := (16 + length.toNat) % 4294967296
  decide (16 ≤ size ∧ 16 + min length.toNat c.all.length ≤ size)

/-- One iteration behind the received header. -/
def handle (p : Params) (hdr : Bytes) (st : RunState) : RunState :=
  let length := readWord p.byteOrder hdr
  let msgType := readWord p.byteOrder (hdr.drop 4)
  let commType := readWord p.byteOrder (hdr.drop 8)
  let st := { st with msgCount := st.msgCount + 1 }
  if p.dumpRaw ∧ ¬ dumpInBounds length st.sock then { st with status := .fault }
  else if msgType ≠ p.expectedMsgType ∨ commType ≠ p.expectedCommType ∨
      length.toNat < 4 + p.payloadSizeBytes then
    if 0 < length.toNat then { st with sock := (st.sock.readExact length.toNat).2 } else st
  else if length.toNat < 12 then st
  else
    match st.sock.readExact (length.toNat - 12) with
    | (none, sock) => { st with sock := sock }
    | (some remainder, sock) =>
      match decodeRemainder p remainder with
      | .fault => { st with sock := sock, status := .fault }
      | .skip => { st with sock := sock }
      | .state w =>
        let l := leftover (sock.all.length + 1) sock st.arrivals
        { st with
          sock := l.1
          arrivals := l.2
          published := st.published ++ [w]
          errorCount := 0 }

/-- One iteration of `run`'s loop. -/
def iter (p : Params) (st : RunState) : RunState :=
  match st.sock.readExact 16 with
  | (none, sock) => commError { st with sock := sock }
  | (some hdr, sock) => handle p hdr { st with sock := sock }

/-- `FanucWeldStateNodeTcp::run`, from start to return. -/
def run (p : Params) (st : RunState) : RunState := runFor (iter p) (st.measure + 1) st

/-! ## What one iteration does -/

theorem decodePayload_state {p : Params} {r : Bytes} {i n : Nat} {w : WeldState}
    (h : decodePayload p r i n = .state w) : p.payloadSizeBytes ≤ n := by
  unfold decodePayload at h
  split at h
  · cases h
  · unfold Params.payloadSizeBytes
    omega

theorem decodeRemainder_state {p : Params} {r : Bytes} {w : WeldState}
    (h : decodeRemainder p r = .state w) : p.payloadSizeBytes ≤ r.length := by
  unfold decodeRemainder at h
  split at h
  · cases h
  · rename_i trim _
    have hle : r.length - trim ≤ r.length := Nat.sub_le _ _
    dsimp only at h
    split at h
    · exact Nat.le_trans (decodePayload_state h) hle
    · split at h
      · split at h
        · cases h
        · exact Nat.le_trans (decodePayload_state h) hle
      · cases h

/-- How an iteration that received a header leaves the state: some of the stream is gone, and
a message is published only behind a header of the expected type and from enough bytes. -/
structure Handled (p : Params) (hdr : Bytes) (st st' : RunState) : Prop where
  attempts : st'.attempts = st.attempts
  rest : ∃ k, st'.sock.all = st.sock.all.drop k ∧
    (st'.published = st.published ∨
      (readWord p.byteOrder (hdr.drop 4) = p.expectedMsgType ∧ p.payloadSizeBytes ≤ k ∧
        k ≤ st.sock.all.length ∧ ∃ w, st'.published = st.published ++ [w]))

theorem handle_spec (p : Params) (hdr : Bytes) (st : RunState) :
    Handled p hdr st (handle p hdr st) := by
  unfold handle
  dsimp only
  split
  · exact ⟨rfl, 0, rfl, .inl rfl⟩
  · split
    · split
      · exact ⟨rfl, _, Channel.all_readExact _ _, .inl rfl⟩
      · exact ⟨rfl, 0, rfl, .inl rfl⟩
    · rename_i hhdr
      split
      · exact ⟨rfl, 0, rfl, .inl rfl⟩
      · generalize (readWord p.byteOrder hdr).toNat - 12 = n
        have hsock := Channel.all_readExact n st.sock
        split
        · rename_i sock hread
          rw [hread] at hsock
          exact ⟨rfl, n, hsock, .inl rfl⟩
        · rename_i r sock hread
          rw [hread] at hsock
          obtain ⟨hle, hr, -⟩ := Channel.readExact_some hread
          split
          · exact ⟨rfl, n, hsock, .inl rfl⟩
          · exact ⟨rfl, n, hsock, .inl rfl⟩
          · rename_i w hdec
            obtain ⟨j, hj, hleft, -⟩ := leftover_spec (sock.all.length + 1) sock st.arrivals
            have hsize := decodeRemainder_state hdec
            rw [hr, List.length_take] at hsize
            rw [hsock, List.length_drop] at hj
            refine ⟨rfl, n + j, by rw [hleft, hsock, List.drop_drop], .inr ⟨?_, ?_, ?_, w, rfl⟩⟩
            · exact Decidable.not_not.mp fun h => hhdr (.inl h)
            · omega
            · omega

theorem iter_measure (p : Params) (st : RunState) (h : (iter p st).status = .running) :
    (iter p st).measure < st.measure := by
  unfold iter at h ⊢
  split at h
  · rename_i sock hread
    have hsock := (Channel.readExact_none hread).2
    have := commError_measure _ h
    simp only [RunState.measure, RunState.bytesLeft, hsock, List.length_nil] at this ⊢
    omega
  · rename_i hdr sock hread
    obtain ⟨hlen, -, rfl⟩ := Channel.readExact_some hread
    obtain ⟨hatt, k, hk, -⟩ := handle_spec p hdr { st with sock := st.sock.consume 16 }
    simp only [Channel.all_consume, List.drop_drop] at hk hatt
    simp only [RunState.measure, RunState.bytesLeft, hk, hatt, List.length_drop]
    omega

/-- **The loop ends**: on every stream and after every finite list of reconnections. -/
theorem run_exits (p : Params) (st : RunState) : (run p st).status ≠ .running :=
  runFor_exits (iter_measure p) (Nat.lt_succ_self _)

end TcpNode

end FanucDriver
