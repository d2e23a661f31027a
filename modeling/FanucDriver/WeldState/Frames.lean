import FanucDriver.WeldState.Node
import FanucDriver.WeldState.Reader

/-!
# The sender's stream, frame by frame

* `WeldStateT.msg`, `payloadMsg` — the message a receiver is to publish for a state and for the
  bytes of a payload.
* `stateFrame` — the bytes of one serialised state; `readerStream_eq` cuts the stream into them.
* `decode_frame_drop` — the header read from any offset, `hdr_type_only_at_four` — and where it
  looks like a message type.
-/

set_option autoImplicit false

namespace FanucDriver

open Wire

/-- The message a state stands for. -/
def WeldStateT.msg (s : WeldStateT) : WeldState where
  arcOk := s.arcOk
  powerErr := s.powerErr
  deposDi := s.deposDi
  ewmErr := s.ewmErr.setWidth 16
  warningState := s.warnState.setWidth 16
  actVoltage := s.actVoltage.setWidth 16
  actCurrent := s.actCurrent.setWidth 16
  actWireSpd := s.actWireSpd.setWidth 16
  motorCurrent := s.motCurr.setWidth 16

/-- The message of the nine integers at the front of a payload. -/
def payloadMsg (o : ByteOrder) (payload : Bytes) : WeldState where
  arcOk := decode o payload != 0
  powerErr := decode o (payload.drop 4) != 0
  deposDi := decode o (payload.drop 8) != 0
  ewmErr := (decode o (payload.drop 12)).setWidth 16
  warningState := (decode o (payload.drop 16)).setWidth 16
  actVoltage := (decode o (payload.drop 20)).setWidth 16
  actCurrent := (decode o (payload.drop 24)).setWidth 16
  actWireSpd := (decode o (payload.drop 28)).setWidth 16
  motorCurrent := (decode o (payload.drop 32)).setWidth 16

theorem weldMsg?_decodeWords (o : ByteOrder) (payload : Bytes) :
    weldMsg? (decodeWords o 9 payload) = some (payloadMsg o payload) := by
  simp only [decodeWords, weldMsg?, List.drop_drop, payloadMsg, Nat.reduceAdd]

theorem boolInt_ne_zero (b : Bool) : (boolInt b != 0) = b := by
  cases b <;> rfl

/-! ## Frames -/

/-- The bytes of one serialised state: the header, the number, nine integers and the CR. -/
def stateFrame (o : ByteOrder) (cr : Bool) (seqNr : Word) (s : WeldStateT) : Bytes :=
  encodeAll o [49, 15, 1, 0] ++
    (encodeAll o [seqNr, if s.arcOk then 1 else 0, if s.powerErr then 1 else 0,
      if s.deposDi then 1 else 0, s.ewmErr, s.warnState, s.actVoltage, s.actCurrent, s.actWireSpd,
      s.motCurr] ++ crBytes cr)

theorem stateFrame_eq (o : ByteOrder) (cr : Bool) (seqNr : Word) (s : WeldStateT) :
    stateFrame o cr seqNr s =
      encodeAll o weldPktHdr.words ++ (encodeAll o (seqNr :: s.words) ++ crBytes cr) := rfl

theorem iwdSrlise_ok (o : ByteOrder) (cr : Bool) (seqNr : Word) (s : WeldStateT) :
    iwdSrlise o cr [] seqNr ⟨weldPktHdr, s⟩ = (stateFrame o cr (seqNr + 1) s, 0, seqNr + 1) := by
  simp [iwdSrlise, stateFrame_eq, encodeAll, List.flatMap_def]

/-- The frames of a connection, the sequence numbers counted on from `seqNr`. -/
def stateFrames (o : ByteOrder) (cr : Bool) : Word → List WeldStateT → List Bytes
  | _, [] => []
  | seqNr, s :: ss => stateFrame o cr (seqNr + 1) s :: stateFrames o cr (seqNr + 1) ss

theorem readerStream_eq (o : ByteOrder) (cr : Bool) (seqNr : Word) (ss : List WeldStateT) :
    readerStream o cr seqNr ss = (stateFrames o cr seqNr ss).flatten := by
  induction ss generalizing seqNr with
  | nil => rfl
  | cons s ss ih => simp only [readerStream, iwdSrlise_ok, stateFrames, List.flatten_cons, ih]

theorem stateFrames_length (o : ByteOrder) (cr : Bool) (seqNr : Word) (ss : List WeldStateT) :
    (stateFrames o cr seqNr ss).length = ss.length := by
  induction ss generalizing seqNr with
  | nil => rfl
  | cons s ss ih => simp only [stateFrames, List.length_cons, ih]

@[simp] theorem stateFrame_length (o : ByteOrder) (cr : Bool) (seqNr : Word) (s : WeldStateT) :
    (stateFrame o cr seqNr s).length = 56 + (crBytes cr).length := by
  simp only [stateFrame, List.length_append, encodeAll_length]
  simp only [List.length_cons, List.length_nil]
  omega

theorem crBytes_length_le (cr : Bool) : (crBytes cr).length ≤ 1 := by
  cases cr <;> simp [crBytes]

/-- A frame of the sender, whatever its state and number. -/
def IsFrame (o : ByteOrder) (cr : Bool) (f : Bytes) : Prop := ∃ n s, f = stateFrame o cr n s

theorem mem_stateFrames {o : ByteOrder} {cr : Bool} {f : Bytes} {seqNr : Word}
    {ss : List WeldStateT} (h : f ∈ stateFrames o cr seqNr ss) : IsFrame o cr f := by
  induction ss generalizing seqNr with
  | nil => cases h
  | cons s ss ih =>
    rcases List.mem_cons.mp h with rfl | h
    · exact ⟨_, _, rfl⟩
    · exact ih h

/-! ## Reading inside a frame -/

/-- Only at offset 4 of a frame header there is a message type word. -/
theorem hdr_type_only_at_four (o : ByteOrder) :
    ∀ q, q ≤ 12 → q ≠ 4 → decode o ((encodeAll o weldPktHdr.words).drop q) ≠ 15 := by
  cases o <;> decide

theorem decode_frame_drop (o : ByteOrder) (cr : Bool) (n : Word) (s : WeldStateT) (r : Bytes)
    {q : Nat} (hq : q ≤ 12) :
    decode o ((stateFrame o cr n s ++ r).drop q) =
      decode o ((encodeAll o weldPktHdr.words).drop q) := by
  have hlen : (encodeAll o weldPktHdr.words).length = 16 := by cases o <;> rfl
  rw [stateFrame_eq, List.append_assoc, List.drop_append_of_le_length (by omega), decode_append]
  rw [List.length_drop]
  omega

end FanucDriver
