import FanucDriver.Lib.Framing
import FanucDriver.WeldState.Frames
import FanucDriver.WeldState.TcpNode

/-!
# From the welding state sender to the TCP receiver

`weldPktHdr` announces 49 bytes behind the length word where 53 (and a CR) follow.  The receiver
takes 37 of the 40 payload bytes, reads the sequence number as the first field, and loses the
frame boundary.

* `iter_frame` — what the receiver makes of a frame at whose start it stands.
* `iter_scans` — the rest of its run is a scan of the stream, which accepts at most one message
  a frame (`frame_guard`).
* `run_publishes_iff_shift` — the streams that are received as sent: the empty one, and a single
  state whose every field has the value of the one before it.
-/

set_option autoImplicit false

namespace FanucDriver

open Wire Node

namespace TcpNode

/-! ## The scan -/

/-- A position of the stream that has the expected message type word behind its length word. -/
def Params.TypeAt (p : Params) (t : Bytes) : Prop :=
  decode p.byteOrder (t.drop 4) = p.expectedMsgType

theorem typeAt_launch (o : ByteOrder) (t : Bytes) :
    (launch o).TypeAt t ↔ decode o (t.drop 4) = 15 := Iff.rfl

theorem iter_scans (p : Params) : Scans (iter p) p.TypeAt (16 + p.payloadSizeBytes) := by
  intro st hatt
  unfold iter
  split
  · rename_i sock hread
    obtain ⟨hshort, hsock⟩ := Channel.readExact_none hread
    have hdrop : st.sock.all.drop 16 = [] := List.drop_of_length_le (by omega)
    unfold commError
    dsimp only
    split
    · rw [hatt]
      exact ⟨rfl, 16, hdrop.symm, Nat.le_refl _, .inl rfl⟩
    · exact ⟨hatt, 16, hsock.trans hdrop.symm, Nat.le_refl _, .inl rfl⟩
  · rename_i hdr sock hread
    obtain ⟨hlen, hhdr, rfl⟩ := Channel.readExact_some hread
    obtain ⟨hatt', k, hk, hpub⟩ := handle_spec p hdr { st with sock := st.sock.consume 16 }
    simp only [Channel.all_consume, List.drop_drop] at hk hpub
    refine ⟨hatt'.trans hatt, 16 + k, hk, Nat.le_add_right _ _, ?_⟩
    refine hpub.imp id fun ⟨htype, hsize, hle, hw⟩ => ⟨?_, by omega, ?_, hw⟩
    · rwa [readWord_eq, hhdr, List.drop_take, decode_take _ (by omega)] at htype
    · rw [List.length_drop] at hle
      omega

/-! ## The frames -/

theorem frame_guard (o : ByteOrder) (cr : Bool) :
    Framing.Guard (launch o).TypeAt (IsFrame o cr) (56 + (crBytes cr).length) 6
      (16 + (launch o).payloadSizeBytes) where
  len := by
    rintro f ⟨n, s, rfl⟩
    exact stateFrame_length o cr n s
  gap := by
    rintro f q r ⟨n, s, rfl⟩ hq hq6 h
    rw [← List.drop_append_of_le_length (by rw [stateFrame_length]; omega), typeAt_launch,
      List.drop_drop, decode_frame_drop _ _ _ _ _ (by omega)] at h
    exact hdr_type_only_at_four o (q + 4) (by omega) (by omega) h
  window := by
    have := crBytes_length_le cr
    simp only [Params.payloadSizeBytes, launch]
    omega
  pos := by omega

/-! ## The first frame -/

/-- The nine words the receiver takes for the fields of a state. -/
def shiftedWords (n : Word) (s : WeldStateT) : List Word :=
  [n, boolInt s.arcOk, boolInt s.powerErr, boolInt s.deposDi, s.ewmErr, s.warnState,
    s.actVoltage, s.actCurrent, s.actWireSpd]

/-- The message made of them. -/
def shiftedMsg (n : Word) (s : WeldStateT) : WeldState where
  arcOk := n != 0
  powerErr := s.arcOk
  deposDi := s.powerErr
  ewmErr := (boolInt s.deposDi).setWidth 16
  warningState := s.ewmErr.setWidth 16
  actVoltage := s.warnState.setWidth 16
  actCurrent := s.actVoltage.setWidth 16
  actWireSpd := s.actCurrent.setWidth 16
  motorCurrent := s.actWireSpd.setWidth 16

theorem weldMsg?_shiftedWords (n : Word) (s : WeldStateT) :
    weldMsg? (shiftedWords n s) = some (shiftedMsg n s) := by
  simp only [weldMsg?, shiftedWords, shiftedMsg, boolInt_ne_zero]

theorem stateFrame_eq_shifted (o : ByteOrder) (cr : Bool) (n : Word) (s : WeldStateT) :
    stateFrame o cr n s = encodeAll o weldPktHdr.words ++
      (encodeAll o (shiftedWords n s) ++ (encode o s.motCurr ++ crBytes cr)) := by
  simp only [stateFrame_eq, WeldStateT.words, shiftedWords, encodeAll_cons, encodeAll_nil,
    List.append_assoc, List.nil_append]

/-- The trim loop looks at the last two bytes. -/
theorem trimBytes_append (a : Bytes) (x y : UInt8) :
    trimBytes (a ++ [x, y]) =
      some (if isTerminator y then if isTerminator x then 2 else 1 else 0) := by
  have hne : a ++ [x, y] ≠ [] := by simp
  have h0 : fromEnd? (a ++ [x, y]) 0 = some y := by simp [fromEnd?]
  have h1 : fromEnd? (a ++ [x, y]) 1 = some x := by simp [fromEnd?]
  simp only [trimBytes, trimLoop, if_neg hne, h0, h1]
  split <;> [split; skip] <;> rfl

theorem encode_eq_four (o : ByteOrder) (w : Word) : ∃ a b c d, encode o w = [a, b, c, d] := by
  cases o
  · exact ⟨_, _, _, _, rfl⟩
  · exact ⟨_, _, _, _, rfl⟩

/-- The 37 bytes behind the header, of which the last is the first byte of the motor current,
are decoded as the shifted message unless two bytes are trimmed. -/
theorem decodeRemainder_shifted (o : ByteOrder) (n : Word) (s : WeldStateT)
    {w0 w1 w2 x y : UInt8} (hx : encode o s.actWireSpd = [w0, w1, w2, x]) :
    decodeRemainder (launch o) (encodeAll o (shiftedWords n s) ++ [y]) =
      if isTerminator y ∧ isTerminator x then .skip else .state (shiftedMsg n s) := by
  have hlen : (encodeAll o (shiftedWords n s) ++ [y]).length = 37 := by
    rw [List.length_append, encodeAll_length]
    rfl
  have htrim : trimBytes (encodeAll o (shiftedWords n s) ++ [y]) =
      some (if isTerminator y then if isTerminator x then 2 else 1 else 0) := by
    have hsplit : encodeAll o (shiftedWords n s) ++ [y] =
        (encodeAll o (shiftedWords n s).dropLast ++ [w0, w1, w2]) ++ [x, y] := by
      simp only [shiftedWords, List.dropLast, encodeAll_cons, encodeAll_nil, hx,
        List.append_assoc, List.cons_append, List.nil_append]
    rw [hsplit]
    exact trimBytes_append _ x y
  have hwords : decodeWords o 9 (encodeAll o (shiftedWords n s) ++ [y]) = shiftedWords n s :=
    decodeWords_encodeAll o (shiftedWords n s) [y]
  have hread := readInts?_eq o (encodeAll o (shiftedWords n s) ++ [y]) (n := 9) (i := 0) (by omega)
  rw [List.drop_zero, hwords] at hread
  have hdecode : ∀ d, 36 ≤ d → decodePayload (launch o) (encodeAll o (shiftedWords n s) ++ [y]) 0 d
      = .state (shiftedMsg n s) := by
    intro d hd
    have hints : ¬ (d - 0) / 4 < (launch o).payloadFields := by
      show ¬ (d - 0) / 4 < 9
      omega
    rw [decodePayload, if_neg hints]
    simp only [show (launch o).payloadFields = 9 from rfl,
      show (launch o).byteOrder = o from rfl] at hread ⊢
    simp only [hread, weldMsg?_shiftedWords]
  have hsize : (launch o).payloadSizeBytes = 36 := rfl
  simp only [decodeRemainder, htrim, hlen, hsize]
  cases hy : isTerminator y
  · simp [hdecode]
  · cases hx' : isTerminator x
    · simp [hdecode]
    · simp

theorem handle_frame (o : ByteOrder) (st : RunState) {r : Bytes} {sock : Channel}
    (hread : st.sock.readExact 37 = (some r, sock)) :
    handle (launch o) (encodeAll o weldPktHdr.words) st =
      match decodeRemainder (launch o) r with
      | .fault => { st with msgCount := st.msgCount + 1, sock := sock, status := .fault }
      | .skip => { st with msgCount := st.msgCount + 1, sock := sock }
      | .state w =>
        let l := leftover (sock.all.length + 1) sock st.arrivals
        { st with
          msgCount := st.msgCount + 1
          sock := l.1
          arrivals := l.2
          published := st.published ++ [w]
          errorCount := 0 } := by
  have hlength : readWord (launch o).byteOrder (encodeAll o weldPktHdr.words) = 49 := by
    cases o <;> rfl
  have htype : readWord (launch o).byteOrder ((encodeAll o weldPktHdr.words).drop 4) = 15 := by
    cases o <;> rfl
  have hcomm : readWord (launch o).byteOrder ((encodeAll o weldPktHdr.words).drop 8) = 1 := by
    cases o <;> rfl
  have hdump : dumpInBounds 49 st.sock = true := by
    refine decide_eq_true ⟨by decide, ?_⟩
    show 16 + min 49 _ ≤ 65
    omega
  have hguard : ¬ ((launch o).dumpRaw = true ∧ ¬ dumpInBounds 49 st.sock = true) :=
    fun h => h.2 hdump
  have hvalid : ¬ ((15 : Word) ≠ (launch o).expectedMsgType ∨
      (1 : Word) ≠ (launch o).expectedCommType ∨
      (49 : Word).toNat < 4 + (launch o).payloadSizeBytes) := by
    cases o <;> decide
  have hlong : ¬ (49 : Word).toNat < 12 := by decide
  have hn : (49 : Word).toNat - 12 = 37 := rfl
  cases hdecode : decodeRemainder (launch o) r <;>
    simp only [handle, hlength, htype, hcomm, if_neg hguard, if_neg hvalid, if_neg hlong, hn,
      hread, hdecode]

/-- **One iteration at the start of a frame.** Unless two bytes are trimmed the shifted message
is published; the receiver then stands 53 bytes into the frame, behind the terminators found
there. -/
theorem iter_frame (o : ByteOrder) (cr : Bool) (n : Word) (s : WeldStateT) (rest : Bytes)
    (st : RunState) (hst : st.sock.all = stateFrame o cr n s ++ rest) {w0 w1 w2 x y m1 m2 m3 : UInt8}
    (hx : encode o s.actWireSpd = [w0, w1, w2, x]) (hy : encode o s.motCurr = [y, m1, m2, m3]) :
    (iter (launch o) st).attempts = st.attempts ∧
      if isTerminator y ∧ isTerminator x then
        (iter (launch o) st).published = st.published ∧
          (iter (launch o) st).sock.all = (stateFrame o cr n s ++ rest).drop 53
      else
        (iter (launch o) st).published = st.published ++ [shiftedMsg n s] ∧
          ∃ j, (iter (launch o) st).sock.all = (stateFrame o cr n s ++ rest).drop (53 + j) ∧
            ∀ i, i < j → ∃ b, (stateFrame o cr n s ++ rest)[53 + i]? = some b ∧
              isTerminator b = true := by
  have hlen : 53 ≤ st.sock.all.length := by
    rw [hst, List.length_append, stateFrame_length]
    omega
  have h16 : (encodeAll o weldPktHdr.words).length = 16 := by cases o <;> rfl
  have h36 : (encodeAll o (shiftedWords n s)).length = 36 := by rw [encodeAll_length]; rfl
  have htake : st.sock.all.take 16 = encodeAll o weldPktHdr.words := by
    rw [hst, stateFrame_eq_shifted, List.append_assoc, List.take_append_of_le_length (by omega),
      List.take_of_length_le (by omega)]
  have hrem : (st.sock.all.drop 16).take 37 = encodeAll o (shiftedWords n s) ++ [y] := by
    rw [hst, stateFrame_eq_shifted, List.append_assoc, List.drop_left' h16, hy, List.append_assoc,
      List.take_append, List.take_of_length_le (by omega), h36]
    rfl
  have hread16 : st.sock.readExact 16 =
      (some (encodeAll o weldPktHdr.words), st.sock.consume 16) := by
    rw [Channel.readExact_of_le (by omega), htake]
  have hread37 : (st.sock.consume 16).readExact 37 =
      (some (encodeAll o (shiftedWords n s) ++ [y]), st.sock.consume 53) := by
    rw [Channel.readExact_of_le (by rw [Channel.all_consume, List.length_drop]; omega),
      Channel.all_consume, hrem, Channel.consume_consume]
  have hiter : iter (launch o) st =
      handle (launch o) (encodeAll o weldPktHdr.words) { st with sock := st.sock.consume 16 } := by
    simp only [iter, hread16]
  rw [hiter, handle_frame o { st with sock := st.sock.consume 16 } hread37,
    decodeRemainder_shifted o n s hx]
  by_cases htrim : isTerminator y ∧ isTerminator x
  · simp only [if_pos htrim]
    exact ⟨trivial, trivial, by rw [Channel.all_consume, hst]⟩
  · simp only [if_neg htrim]
    obtain ⟨j, -, hj, hterm⟩ := leftover_spec ((st.sock.consume 53).all.length + 1)
      (st.sock.consume 53) st.arrivals
    refine ⟨trivial, trivial, j, ?_, ?_⟩
    · rw [hj, Channel.all_consume, List.drop_drop, hst]
    · simpa only [Channel.all_consume, List.getElem?_drop, hst] using hterm

/-- Of the four bytes of the motor current only the first is gone. -/
theorem stateFrame_bytes (o : ByteOrder) (cr : Bool) (n : Word) (s : WeldStateT) (rest : Bytes)
    {y m1 m2 m3 : UInt8} (hy : encode o s.motCurr = [y, m1, m2, m3]) :
    (stateFrame o cr n s ++ rest)[53]? = some m1 ∧
      (stateFrame o cr n s ++ rest)[54]? = some m2 := by
  have hpre : (encodeAll o weldPktHdr.words ++ encodeAll o (shiftedWords n s)).length = 52 := by
    rw [List.length_append, encodeAll_length, encodeAll_length]
    rfl
  have hsplit : stateFrame o cr n s ++ rest = (encodeAll o weldPktHdr.words ++
      encodeAll o (shiftedWords n s)) ++ ([y, m1, m2, m3] ++ (crBytes cr ++ rest)) := by
    rw [stateFrame_eq_shifted, hy]
    simp only [List.append_assoc]
  constructor
  · rw [hsplit, List.getElem?_append_right (by omega), hpre]
    rfl
  · rw [hsplit, List.getElem?_append_right (by omega), hpre]
    rfl

/-- At most one terminator is removed behind the message when one of the next two bytes is 0. -/
theorem terminators_le_one {t : Bytes} {m1 m2 : UInt8} {j : Nat} (h1 : t[53]? = some m1)
    (h2 : t[54]? = some m2) (hm : m1 = 0 ∨ m2 = 0)
    (hterm : ∀ i, i < j → ∃ b, t[53 + i]? = some b ∧ isTerminator b = true) : j ≤ 1 := by
  apply Nat.le_of_not_lt
  intro hj
  obtain ⟨b1, hb1, ht1⟩ := hterm 0 (by omega)
  obtain ⟨b2, hb2, ht2⟩ := hterm 1 (by omega)
  rw [h1, Option.some.injEq] at hb1
  rw [h2, Option.some.injEq] at hb2
  subst hb1 hb2
  rcases hm with rfl | rfl
  · exact absurd ht1 (by decide)
  · exact absurd ht2 (by decide)

/-- Wherever in or behind the first frame the receiver goes on, it gets one message a frame at
most. -/
theorem scan_le (o : ByteOrder) (cr : Bool) (n : Word) (s : WeldStateT) (ss : List WeldStateT)
    {k count : Nat} (hk : 1 ≤ k)
    (hscan : Framing.Scan (launch o).TypeAt (16 + (launch o).payloadSizeBytes) 16
      ((stateFrame o cr n s ++ (stateFrames o cr n ss).flatten).drop k) count) :
    count ≤ ss.length := by
  have hframe : IsFrame o cr (stateFrame o cr n s) := ⟨n, s, rfl⟩
  obtain ⟨fs, hfs, hle, hin⟩ := (frame_guard o cr).bounded.move 0 k hframe
    (fun f hf => mem_stateFrames hf) (by omega) (Nat.zero_le _)
  have hcount := hscan.le_bounded (frame_guard o cr).bounded fs hfs hin
  rw [stateFrames_length] at hle
  exact Nat.le_trans hcount hle

/-- Going on at the last bytes of the first frame, it misses a frame. -/
theorem scan_lt (o : ByteOrder) (cr : Bool) (n : Word) (s : WeldStateT) {ss : List WeldStateT}
    (hne : ss ≠ []) {j count : Nat} (hj : j ≤ 1)
    (hscan : Framing.Scan (launch o).TypeAt (16 + (launch o).payloadSizeBytes) 16
      ((stateFrame o cr n s ++ (stateFrames o cr n ss).flatten).drop (53 + j)) count) :
    count < ss.length := by
  have hcr := crBytes_length_le cr
  have hflen := stateFrame_length o cr n s
  rw [List.drop_append_of_le_length (by omega)] at hscan
  rw [← stateFrames_length o cr n ss]
  apply hscan.lt_frames (frame_guard o cr) ⟨n, s, rfl⟩ (fun f hf => mem_stateFrames hf) ?_
    (by omega) (by omega) ?_
  · rw [← List.length_pos_iff, stateFrames_length]
    exact List.length_pos_iff.mpr hne
  · -- the type word would have to stand in the first bytes of the next header
    cases ss with
    | nil => exact absurd rfl hne
    | cons s' ss =>
      intro h
      rw [typeAt_launch, stateFrames, Framing.drop_beyond (by omega) (by omega),
        decode_frame_drop _ _ _ _ _ (by omega)] at h
      exact hdr_type_only_at_four o _ (by omega) (by omega) h

/-- **A whole run behind its first frame.** -/
theorem run_reader (o : ByteOrder) (cr : Bool) (seqNr : Word) (s : WeldStateT)
    (ss : List WeldStateT) (c : Channel) (arrivals : List Nat)
    (hc : c.all = readerStream o cr seqNr (s :: ss)) {w0 w1 w2 x y m1 m2 m3 : UInt8}
    (hx : encode o s.actWireSpd = [w0, w1, w2, x]) (hy : encode o s.motCurr = [y, m1, m2, m3]) :
    ∃ ws : List WeldState, ws.length ≤ ss.length ∧
      if isTerminator y ∧ isTerminator x then
        (run (launch o) (connected c arrivals)).published = ws
      else
        (run (launch o) (connected c arrivals)).published = shiftedMsg (seqNr + 1) s :: ws ∧
          (m1 = 0 ∨ m2 = 0 → ss ≠ [] → ws.length < ss.length) := by
  have hrun : run (launch o) (connected c arrivals) =
      runFor (iter (launch o)) (connected c arrivals).measure
        (iter (launch o) (connected c arrivals)) := rfl
  have hst : (connected c arrivals).sock.all =
      stateFrame o cr (seqNr + 1) s ++ (stateFrames o cr (seqNr + 1) ss).flatten := by
    rw [readerStream_eq] at hc
    exact hc
  obtain ⟨hatt, hiter⟩ := iter_frame o cr _ s _ _ hst hx hy
  obtain ⟨ws, hws, hscan⟩ := (iter_scans (launch o)).runFor_scan (connected c arrivals).measure
    (show (iter (launch o) (connected c arrivals)).attempts = [] from hatt)
  rw [hrun, hws]
  by_cases htrim : isTerminator y ∧ isTerminator x
  · simp only [if_pos htrim] at hiter ⊢
    rw [hiter.2] at hscan
    refine ⟨ws, scan_le o cr (seqNr + 1) s ss (by omega) hscan, ?_⟩
    rw [hiter.1]
    rfl
  · simp only [if_neg htrim] at hiter ⊢
    obtain ⟨hpub, j, hall, hterm⟩ := hiter
    rw [hall] at hscan
    refine ⟨ws, scan_le o cr (seqNr + 1) s ss (by omega) hscan, by rw [hpub]; rfl, ?_⟩
    intro hm hne
    obtain ⟨hm1, hm2⟩ := stateFrame_bytes o cr (seqNr + 1) s
      (stateFrames o cr (seqNr + 1) ss).flatten hy
    exact scan_lt o cr (seqNr + 1) s hne (terminators_le_one hm1 hm2 hm hterm) hscan

/-! ## The streams received as sent -/

/-- The state reads the same with its fields shifted by one place, the number `n` first. -/
structure ShiftInvariant (n : Word) (s : WeldStateT) : Prop where
  arcOk : (n != 0) = s.arcOk
  powerErr : s.arcOk = s.powerErr
  deposDi : s.powerErr = s.deposDi
  ewmErr : (boolInt s.deposDi).setWidth 16 = s.ewmErr.setWidth 16
  warnState : s.ewmErr.setWidth 16 = s.warnState.setWidth 16
  actVoltage : s.warnState.setWidth 16 = s.actVoltage.setWidth 16
  actCurrent : s.actVoltage.setWidth 16 = s.actCurrent.setWidth 16
  actWireSpd : s.actCurrent.setWidth 16 = s.actWireSpd.setWidth 16
  motCurr : s.actWireSpd.setWidth 16 = s.motCurr.setWidth 16

theorem shiftedMsg_eq_msg {n : Word} {s : WeldStateT} :
    shiftedMsg n s = s.msg ↔ ShiftInvariant n s := by
  simp only [shiftedMsg, WeldStateT.msg, WeldState.mk.injEq]
  constructor
  · rintro ⟨h1, h2, h3, h4, h5, h6, h7, h8, h9⟩
    exact ⟨h1, h2, h3, h4, h5, h6, h7, h8, h9⟩
  · rintro ⟨h1, h2, h3, h4, h5, h6, h7, h8, h9⟩
    exact ⟨h1, h2, h3, h4, h5, h6, h7, h8, h9⟩

theorem low_of_setWidth {w : Word} {b : Bool}
    (h : (boolInt b).setWidth 16 = w.setWidth 16) : w.toNat % 65536 ≤ 1 := by
  have := congrArg BitVec.toNat h
  rw [BitVec.toNat_setWidth, BitVec.toNat_setWidth] at this
  cases b with
  | false =>
    simp only [boolInt] at this
    simp at this
    omega
  | true =>
    simp only [boolInt] at this
    simp at this
    omega

theorem ShiftInvariant.low {n : Word} {s : WeldStateT} (h : ShiftInvariant n s) :
    s.actWireSpd.toNat % 65536 ≤ 1 ∧ s.motCurr.toNat % 65536 ≤ 1 := by
  have hwire := h.ewmErr.trans (h.warnState.trans (h.actVoltage.trans
    (h.actCurrent.trans h.actWireSpd)))
  exact ⟨low_of_setWidth hwire, low_of_setWidth (hwire.trans h.motCurr)⟩

/-- The low half of such a word is not trimmed, and its upper byte is no terminator. -/
theorem low_bytes {o : ByteOrder} {v w : Word} (hv : v.toNat % 65536 ≤ 1)
    (hw : w.toNat % 65536 ≤ 1) {w0 w1 w2 x y m1 m2 m3 : UInt8}
    (hx : encode o v = [w0, w1, w2, x]) (hy : encode o w = [y, m1, m2, m3]) :
    ¬ (isTerminator y ∧ isTerminator x) ∧ (m1 = 0 ∨ m2 = 0) := by
  have hlow : ∀ n, n % 65536 ≤ 1 → isTerminator (UInt8.ofNat n) = false := by
    intro n hn
    have h01 : UInt8.ofNat n = 0 ∨ UInt8.ofNat n = 1 := by
      simp only [← UInt8.toNat_inj, UInt8.toNat_ofNat']
      simp
      omega
    rcases h01 with h | h <;> rw [h] <;> rfl
  have hhigh : ∀ n, n % 65536 ≤ 1 → UInt8.ofNat (n / 256) = 0 := by
    intro n hn
    simp only [← UInt8.toNat_inj, UInt8.toNat_ofNat']
    simp
    omega
  cases o with
  | little =>
    simp only [encode, leBytes, List.cons.injEq] at hx hy
    obtain ⟨rfl, rfl, rfl, rfl, -⟩ := hy
    refine ⟨?_, .inl (hhigh _ hw)⟩
    intro h
    rw [hlow _ hw] at h
    exact absurd h.1 (by decide)
  | big =>
    simp only [encode, leBytes, List.reverse_cons, List.reverse_nil, List.nil_append,
      List.cons_append, List.cons.injEq] at hx hy
    obtain ⟨rfl, rfl, rfl, rfl, -⟩ := hx
    obtain ⟨rfl, rfl, rfl, rfl, -⟩ := hy
    refine ⟨?_, .inr (hhigh _ hw)⟩
    intro h
    rw [hlow _ hv] at h
    exact absurd h.2 (by decide)

/-- From an empty stream nothing is published. -/
theorem run_reader_nil (o : ByteOrder) (cr : Bool) (seqNr : Word) (c : Channel)
    (arrivals : List Nat) (hc : c.all = readerStream o cr seqNr []) :
    (run (launch o) (connected c arrivals)).published = [] := by
  obtain ⟨ws, hws, hscan⟩ := (iter_scans (launch o)).runFor_scan
    ((connected c arrivals).measure + 1) (show (connected c arrivals).attempts = [] from rfl)
  have hin : Framing.Inside (IsFrame o cr) (connected c arrivals).sock.all [] := by
    refine ⟨stateFrame o cr 0 ⟨false, false, false, 0, 0, 0, 0, 0, 0⟩, _, ⟨_, _, rfl⟩, ?_,
      Nat.le_refl _, ?_⟩
    · rw [stateFrame_length]
      omega
    · rw [List.drop_length]
      exact hc
  have hnone := hscan.le_bounded (frame_guard o cr).bounded [] (by simp) hin
  rw [List.length_nil, Nat.le_zero, List.length_eq_zero_iff] at hnone
  rw [hnone] at hws
  exact hws

/-- **When the receiver publishes the states sent.** Only for the empty stream, and for a single
state that a shift by one field does not change; this holds in either byte order, with or
without the CR, from any sequence number and however the bytes arrive. -/
theorem run_publishes_iff_shift (o : ByteOrder) (cr : Bool) (seqNr : Word) (ss : List WeldStateT)
    (k : Nat) (arrivals : List Nat) :
    (run (launch o) (connected ((Channel.empty.send (readerStream o cr seqNr ss)).arrive k)
        arrivals)).published = ss.map WeldStateT.msg ↔
      ss = [] ∨ ∃ s, ss = [s] ∧ ShiftInvariant (seqNr + 1) s := by
  have hc : ((Channel.empty.send (readerStream o cr seqNr ss)).arrive k).all =
      readerStream o cr seqNr ss := by
    rw [Channel.all_arrive, Channel.all_send, Channel.all_empty, List.nil_append]
  generalize (Channel.empty.send (readerStream o cr seqNr ss)).arrive k = c at hc
  cases ss with
  | nil =>
    exact ⟨fun _ => .inl rfl, fun _ => run_reader_nil o cr seqNr c arrivals hc⟩
  | cons s ss =>
    obtain ⟨w0, w1, w2, x, hx⟩ := encode_eq_four o s.actWireSpd
    obtain ⟨y, m1, m2, m3, hy⟩ := encode_eq_four o s.motCurr
    obtain ⟨ws, hle, hpub⟩ := run_reader o cr seqNr s ss c arrivals hc hx hy
    constructor
    · intro h
      by_cases htrim : isTerminator y ∧ isTerminator x
      · rw [if_pos htrim, h] at hpub
        have := congrArg List.length hpub
        rw [List.length_map, List.length_cons] at this
        omega
      · rw [if_neg htrim, h, List.map_cons, List.cons.injEq] at hpub
        obtain ⟨⟨hmsg, htail⟩, hlt⟩ := hpub
        have hinv := shiftedMsg_eq_msg.mp hmsg.symm
        have hlen := congrArg List.length htail
        rw [List.length_map] at hlen
        have hone : ss = [] := by
          by_contra hne
          have := hlt (low_bytes hinv.low.1 hinv.low.2 hx hy).2 hne
          omega
        exact .inr ⟨s, by rw [hone], hinv⟩
    · rintro (h | ⟨s', h, hinv⟩)
      · cases h
      · cases h
        rw [if_neg (low_bytes hinv.low.1 hinv.low.2 hx hy).1] at hpub
        rw [List.length_nil, Nat.le_zero, List.length_eq_zero_iff] at hle
        rw [hpub.1, hle, shiftedMsg_eq_msg.mpr hinv]
        rfl

/-- A running arc at 2000, 1500, 800 and 120 arrives as a voltage of 3 and a motor current
of 800. -/
theorem run_misreads_state :
    (run (launch .little) (connected
      ⟨readerStream .little true 0 [⟨true, false, true, 0, 3, 2000, 1500, 800, 120⟩], []⟩
      [])).published = [⟨true, true, false, 1, 0, 3, 2000, 1500, 800⟩] ∧
    [(⟨true, true, false, 1, 0, 3, 2000, 1500, 800⟩ : WeldState)] ≠
      [(⟨true, false, true, 0, 3, 2000, 1500, 800, 120⟩ : WeldStateT)].map WeldStateT.msg := by
  decide +kernel

end TcpNode

end FanucDriver
