import FanucDriver.WeldState.Node

/-!
# The Simple Message welding state receiver (`fanuc_weld_state_node_simple.cpp`)

* `receiveFrame`, `receiveSimpleMessage` — a header and, if it announces one of the two known
  formats, the payload behind it; the integers decoded from the payload.
* `processWeldStateMessage` — from the message's data to the ROS message.
* `iter`, `run` — the loop.  `Received` says what receiving takes off the stream, `run_exits`
  that the loop always comes to an end.

The standard format's payload is read through a pointer into a vector that has been destroyed.
`Freed` is what its memory holds then, which may be anything; the reads find it there, and are
not counted as faults.
-/

set_option autoImplicit false

namespace FanucDriver

open Wire Node

/-- `WELD_STATE_MSG_TYPE` -/
def WELD_STATE_MSG_TYPE : Word := 15

namespace SimpleNode

/-- Protocol configuration. -/
structure Params where
  payloadOnlyLength : Word
  standardFormatLength : Word
  expectedMsgType : Word
  expectedCommType : Word
  numWeldFields : Nat
  byteOrder : ByteOrder

/-- `payload_size_bytes_` -/
def Params.payloadSizeBytes (p : Params) : Nat := p.numWeldFields * 4

/-- The parameters `weld_state.launch` gives this node, with its byte order argument.
`num_weld_fields` is not among them and keeps its default. -/
def launch (o : ByteOrder) : Params where
  payloadOnlyLength := 36
  standardFormatLength := 53
  expectedMsgType := 15
  expectedCommType := 1
  numWeldFields := 9
  byteOrder := o

/-- `SimpleMessage`, its `ByteArray` as the integers loaded into it. -/
structure SimpleMessage where
  messageType : Word
  commType : Word
  replyType : Word
  data : List Word
  deriving DecidableEq, Repr

/-- What `receiveSimpleMessage` returns, or that it read behind the payload. -/
inductive Received where
  | failed
  | fault
  | message (m : SimpleMessage)
  deriving DecidableEq, Repr

/-- `length == n && msg_type == expected_msg_type_ && comm_type == expected_comm_type_` -/
def Params.announces (p : Params) (hdr : Bytes) (n : Word) : Bool :=
  readWord p.byteOrder hdr == n &&
    readWord p.byteOrder (hdr.drop 4) == p.expectedMsgType &&
    readWord p.byteOrder (hdr.drop 8) == p.expectedCommType

/-- The bytes found in the memory of `remaining_buf` when the integers are decoded, for each message
by its number. -/
abbrev Freed := Nat → Nat → UInt8

/-- Memory that has been cleared. -/
def cleared : Freed := fun _ _ => 0

/-- The bytes behind a header in one of the formats: how many are received, where among them the
payload begins, and whether the buffer still exists when the integers are decoded. -/
structure Format where
  size : Nat
  offset : Nat
  alive : Bool
  deriving DecidableEq, Repr

/-- `direct_payload` -/
def Params.payloadOnly (p : Params) : Format := ⟨p.payloadOnlyLength.toNat, 0, true⟩

/-- `remaining_buf`, a local vector of the block that receives it. -/
def Params.standard (p : Params) : Format := ⟨4 + p.payloadSizeBytes, 4, false⟩

/-- A header, its format and the bytes received behind it. -/
structure ReceivedFrame where
  hdr : Bytes
  format : Format
  buf : Bytes
  deriving DecidableEq, Repr

/-- What `payload_buf` points to. -/
def ReceivedFrame.payload (mem : Nat → UInt8) (f : ReceivedFrame) : Bytes :=
  (if f.format.alive then f.buf else (List.range f.buf.length).map mem).drop f.format.offset

/-- From `payload_buf` on. -/
def initMessage (p : Params) (mem : Nat → UInt8) (f : ReceivedFrame) : Received :=
  match readInts? p.byteOrder (f.payload mem) 0 p.numWeldFields with
  | none => .fault
  | some data => .message {
      messageType := readWord p.byteOrder (f.hdr.drop 4)
      commType := readWord p.byteOrder (f.hdr.drop 8)
      replyType := readWord p.byteOrder (f.hdr.drop 12)
      data := data }

/-- Receive the bytes of a format and one terminator byte. -/
def receivePayload (hdr : Bytes) (format : Format) (c : Channel) (arrivals : List Nat) :
    Option ReceivedFrame × Channel × List Nat :=
  match c.readExact format.size with
  | (none, c) => (none, c, arrivals)
  | (some buf, c) => (some ⟨hdr, format, buf⟩, leftover 1 c arrivals)

/-- `receiveSimpleMessage`, as far as it receives. -/
def receiveFrame (p : Params) (c : Channel) (arrivals : List Nat) :
    Option ReceivedFrame × Channel × List Nat :=
  match c.readExact 16 with
  | (none, c) => (none, c, arrivals)
  | (some hdr, c) =>
    if p.announces hdr p.payloadOnlyLength then receivePayload hdr p.payloadOnly c arrivals
    else if p.announces hdr p.standardFormatLength then receivePayload hdr p.standard c arrivals
    else (none, c, arrivals)

/-- `receiveSimpleMessage`, with `mem` in the memory of a destroyed buffer. -/
def receiveSimpleMessage (p : Params) (mem : Nat → UInt8) (c : Channel) (arrivals : List Nat) :
    Received × Channel × List Nat :=
  match receiveFrame p c arrivals with
  | (none, c, ks) => (.failed, c, ks)
  | (some f, c, ks) => (initMessage p mem f, c, ks)

/-- `processWeldStateMessage`, up to `publish`. -/
def processWeldStateMessage (p : Params) (msg : SimpleMessage) : Decoded :=
  if 4 * msg.data.length < p.payloadSizeBytes then .skip
  else match weldMsg? msg.data with
    | none => .fault
    | some w => .state w

/-- What `run` does with a message. -/
def process (p : Params) (msg : SimpleMessage) (st : RunState) : RunState :=
  let st := { st with msgCount := st.msgCount + 1 }
  if msg.messageType = WELD_STATE_MSG_TYPE then
    match processWeldStateMessage p msg with
    | .fault => { st with status := .fault }
    | .skip => { st with errorCount := 0 }
    | .state w => { st with published := st.published ++ [w], errorCount := 0 }
  else st

/-- One iteration of `run`'s loop. -/
def iter (p : Params) (freed : Freed) (st : RunState) : RunState :=
  match receiveSimpleMessage p (freed st.msgCount) st.sock st.arrivals with
  | (.failed, c, ks) => commError { st with sock := c, arrivals := ks }
  | (.fault, c, ks) => { st with sock := c, arrivals := ks, status := .fault }
  | (.message msg, c, ks) => process p msg { st with sock := c, arrivals := ks }

/-- `FanucWeldStateNodeSimple::run`, from start to return. -/
def run (p : Params) (freed : Freed) (st : RunState) : RunState :=
  runFor (iter p freed) (st.measure + 1) st

/-! ## What receiving does -/

/-- A position of the stream that has a whole header announcing one of the formats. -/
structure Params.Announced (p : Params) (t : Bytes) : Prop where
  whole : 16 ≤ t.length
  length : decode p.byteOrder t = p.payloadOnlyLength ∨
    decode p.byteOrder t = p.standardFormatLength
  msgType : decode p.byteOrder (t.drop 4) = p.expectedMsgType
  commType : decode p.byteOrder (t.drop 8) = p.expectedCommType

instance (p : Params) (t : Bytes) : Decidable (p.Announced t) :=
  decidable_of_iff (16 ≤ t.length ∧ (decode p.byteOrder t = p.payloadOnlyLength ∨
      decode p.byteOrder t = p.standardFormatLength) ∧
      decode p.byteOrder (t.drop 4) = p.expectedMsgType ∧
      decode p.byteOrder (t.drop 8) = p.expectedCommType)
    ⟨fun ⟨hw, hl, hm, hc⟩ => ⟨hw, hl, hm, hc⟩, fun h => ⟨h.whole, h.length, h.msgType, h.commType⟩⟩

theorem announces_take (p : Params) (t : Bytes) (n : Word) :
    p.announces (t.take 16) n = true ↔ decode p.byteOrder t = n ∧
      decode p.byteOrder (t.drop 4) = p.expectedMsgType ∧
      decode p.byteOrder (t.drop 8) = p.expectedCommType := by
  simp only [Params.announces, readWord_eq, List.drop_take, Bool.and_eq_true, beq_iff_eq,
    decode_take p.byteOrder (show 4 ≤ 16 by omega),
    decode_take p.byteOrder (show 4 ≤ 16 - 4 by omega),
    decode_take p.byteOrder (show 4 ≤ 16 - 8 by omega), and_assoc]

/-- Elsewhere the header is consumed and refused. -/
theorem receive_refuses (p : Params) (mem : Nat → UInt8) (c : Channel) (ks : List Nat)
    (h : ¬ p.Announced c.all) :
    ∃ c', receiveSimpleMessage p mem c ks = (.failed, c', ks) ∧ c'.all = c.all.drop 16 := by
  by_cases hlen : 16 ≤ c.all.length
  · have h1 : ¬ p.announces (c.all.take 16) p.payloadOnlyLength = true := by
      intro ha
      obtain ⟨hn, ht, hc⟩ := (announces_take p _ _).mp ha
      exact h ⟨hlen, .inl hn, ht, hc⟩
    have h2 : ¬ p.announces (c.all.take 16) p.standardFormatLength = true := by
      intro ha
      obtain ⟨hn, ht, hc⟩ := (announces_take p _ _).mp ha
      exact h ⟨hlen, .inr hn, ht, hc⟩
    refine ⟨c.consume 16, ?_, Channel.all_consume _ _⟩
    simp only [receiveSimpleMessage, receiveFrame, Channel.readExact_of_le hlen, if_neg h1,
      if_neg h2]
  · refine ⟨c.consume c.all.length, ?_, ?_⟩
    · simp only [receiveSimpleMessage, receiveFrame,
        Channel.readExact_of_lt (Nat.lt_of_not_le hlen)]
    · rw [Channel.all_consume, List.drop_length, List.drop_of_length_le (by omega)]

/-- There the payload of one of the formats is received. -/
theorem receive_accepts (p : Params) (c : Channel) (ks : List Nat) (h : p.Announced c.all) :
    ∃ format, (format = p.payloadOnly ∨ format = p.standard) ∧
      receiveFrame p c ks = receivePayload (c.all.take 16) format (c.consume 16) ks := by
  have htypes := And.intro h.msgType h.commType
  by_cases h1 : decode p.byteOrder c.all = p.payloadOnlyLength
  · refine ⟨_, .inl rfl, ?_⟩
    simp only [receiveFrame, Channel.readExact_of_le h.whole,
      if_pos ((announces_take p _ _).mpr ⟨h1, htypes⟩)]
  · have h2 := h.length.resolve_left h1
    refine ⟨_, .inr rfl, ?_⟩
    simp only [receiveFrame, Channel.readExact_of_le h.whole,
      if_neg (fun ha => h1 ((announces_take p _ _).mp ha).1),
      if_pos ((announces_take p _ _).mpr ⟨h2, htypes⟩)]

theorem receivePayload_all (hdr : Bytes) (format : Format) (c : Channel) (ks : List Nat) :
    (receivePayload hdr format c ks).2.1.all.length ≤ c.all.length := by
  unfold receivePayload
  split
  · rename_i c' hread
    rw [(Channel.readExact_none hread).2]
    exact Nat.zero_le _
  · rename_i buf c' hread
    obtain ⟨-, -, rfl⟩ := Channel.readExact_some hread
    obtain ⟨j, -, hj, -⟩ := leftover_spec 1 (c.consume format.size) ks
    simp only [hj, Channel.all_consume, List.length_drop]
    omega

/-- Decoding leaves the stream alone. -/
theorem receiveSimpleMessage_snd (p : Params) (mem : Nat → UInt8) (c : Channel) (ks : List Nat) :
    (receiveSimpleMessage p mem c ks).2 = (receiveFrame p c ks).2 := by
  unfold receiveSimpleMessage
  split
  · rename_i hrec
    rw [hrec]
  · rename_i hrec
    rw [hrec]

/-! ## The loop ends -/

theorem process_measure (p : Params) (msg : SimpleMessage) (st : RunState) :
    (process p msg st).measure ≤ 7 * st.bytesLeft + st.attempts.length + 6 := by
  unfold process
  dsimp only
  split
  · split <;> simp only [RunState.measure, RunState.bytesLeft] <;> omega
  · simp only [RunState.measure, RunState.bytesLeft]
    omega

theorem iter_measure (p : Params) (freed : Freed) (st : RunState)
    (h : (iter p freed st).status = .running) : (iter p freed st).measure < st.measure := by
  by_cases hann : p.Announced st.sock.all
  · obtain ⟨format, -, hrec⟩ := receive_accepts p st.sock st.arrivals hann
    have hlen := hann.whole
    have hle := receivePayload_all (st.sock.all.take 16) format (st.sock.consume 16) st.arrivals
    rw [← hrec, ← receiveSimpleMessage_snd p (freed st.msgCount), Channel.all_consume,
      List.length_drop] at hle
    unfold iter at h ⊢
    split at h
    · rename_i c ks heq
      simp only [heq] at hle
      have := commError_measure _ h
      simp only [RunState.measure, RunState.bytesLeft] at this ⊢
      omega
    · cases h
    · rename_i msg c ks heq
      simp only [heq] at hle
      have := process_measure p msg { st with sock := c, arrivals := ks }
      simp only [RunState.measure, RunState.bytesLeft] at this ⊢
      omega
  · obtain ⟨c, hrec, hc⟩ := receive_refuses p (freed st.msgCount) st.sock st.arrivals hann
    have hle := congrArg List.length hc
    rw [List.length_drop] at hle
    simp only [iter, hrec] at h ⊢
    have := commError_measure _ h
    simp only [RunState.measure, RunState.bytesLeft] at this ⊢
    omega

/-- **The loop ends**: on every stream and after every finite list of reconnections. -/
theorem run_exits (p : Params) (freed : Freed) (st : RunState) :
    (run p freed st).status ≠ .running :=
  runFor_exits (iter_measure p freed) (Nat.lt_succ_self _)

end SimpleNode

end FanucDriver
