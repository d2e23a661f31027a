import FanucDriver.WeldState.Receiver
import FanucDriver.WeldState.Remainder
import FanucDriver.WeldState.SimpleNode

/-!
# The two receivers as receivers of frames

* `TcpNode.receiver`, `TcpNode.accepted` — the TCP receiver accepts a frame of the expected types
  when the analysis of what follows the header yields a state.
* `SimpleNode.receiver`, `SimpleNode.accepted` — the Simple Message receiver accepts 36 bytes
  behind a length word of 36, and 40 behind one of 53.
-/

set_option autoImplicit false

namespace FanucDriver

open Wire Node

/-- A length word of an accepted frame does not begin with CR or LF. -/
theorem clean_header (o : ByteOrder) {n : Nat} (h36 : 36 ≤ n) (h55 : n ≤ 55) (reply : Word) :
    Clean (encodeAll o [BitVec.ofNat 32 n, 15, 1, reply]) := by
  have hnat : (BitVec.ofNat 32 n).toNat = n := by
    rw [BitVec.toNat_ofNat, Nat.mod_eq_of_lt (by omega)]
  intro b hb
  cases o with
  | little =>
    have hbyte : b = UInt8.ofNat n := by
      rw [← hnat]
      exact (Option.some.inj hb).symm
    have hb' := congrArg UInt8.toNat hbyte
    rw [UInt8.toNat_ofNat'] at hb'
    rw [isTerminator, Bool.or_eq_false_iff, beq_eq_false_iff_ne, beq_eq_false_iff_ne]
    constructor
    · rintro rfl
      simp at hb'
      omega
    · rintro rfl
      simp at hb'
      omega
  | big =>
    have hbyte : b = UInt8.ofNat (n / 16777216) := by
      rw [← hnat]
      exact (Option.some.inj hb).symm
    rw [hbyte, Nat.div_eq_of_lt (by omega)]
    rfl

namespace TcpNode

/-- A remainder that makes a state has 36 to 43 bytes. -/
theorem decodeRemainder_length {o : ByteOrder} {d : Bool} {r : Bytes} {w : WeldState}
    (h : decodeRemainder (launchDump o d) r = .state w) : 36 ≤ r.length ∧ r.length ≤ 43 := by
  have h36 : 36 ≤ r.length := decodeRemainder_state h
  refine ⟨h36, ?_⟩
  obtain ⟨a, x, y, hr⟩ := exists_append_two (r := r) (by omega)
  have htrim := trimBytes_append a x y
  rw [← hr] at htrim
  have ht : (if isTerminator y then if isTerminator x then 2 else 1 else 0) ≤ 2 := by
    split <;> [split; skip] <;> omega
  rw [decodeRemainder_eq o d htrim] at h
  generalize (if isTerminator y then if isTerminator x then 2 else 1 else 0) = t at h ht
  unfold classify at h
  split at h
  · rename_i hn
    split at hn
    · omega
    · split at hn
      · omega
      · cases hn
  · cases h

/-- Where a message is published a frame seems to begin. -/
theorem iter_looksLike (o : ByteOrder) (d : Bool) {st : RunState}
    (h : (iter (launchDump o d) st).published ≠ st.published) : LooksLike o st.sock.all := by
  unfold iter at h
  split at h
  · exfalso
    apply h
    unfold commError
    dsimp only
    split
    · split <;> rfl
    · rfl
  · rename_i hdr sock hread
    obtain ⟨-, rfl, -⟩ := Channel.readExact_some hread
    have hlength : readWord o (st.sock.all.take 16) = decode o st.sock.all := by
      rw [readWord_eq, decode_take _ (by omega)]
    have htype : readWord o ((st.sock.all.take 16).drop 4) = decode o (st.sock.all.drop 4) := by
      rw [readWord_eq, List.drop_take, decode_take _ (by omega)]
    unfold handle at h
    simp only [show (launchDump o d).byteOrder = o from rfl, hlength, htype] at h
    split at h
    · exact absurd rfl h
    · split at h
      · split at h
        · exact absurd rfl h
        · exact absurd rfl h
      · rename_i hvalid
        split at h
        · exact absurd rfl h
        · split at h
          · exact absurd rfl h
          · rename_i r sock' hread'
            obtain ⟨hle, hr, -⟩ := Channel.readExact_some hread'
            split at h
            · exact absurd rfl h
            · exact absurd rfl h
            · rename_i w hdec
              have hlen := decodeRemainder_length hdec
              rw [hr, List.length_take, Nat.min_eq_left hle] at hlen
              refine ⟨?_, by omega, by omega⟩
              exact Decidable.not_not.mp fun hne => hvalid (.inl hne)

theorem receiver (o : ByteOrder) (d : Bool) :
    Receiver o (iter (launchDump o d)) (fun c => c.all.length + 1) where
  measure := iter_measure _
  ended := by
    intro st h
    simp only [iter, Channel.readExact_of_lt h]
  scans := by
    intro st hatt
    obtain ⟨hatt', k, hk, h16, hpub⟩ := iter_scans (launchDump o d) st hatt
    refine ⟨hatt', k, hk, h16, ?_⟩
    rcases hpub with hpub | ⟨-, hsize, hle, w, hw⟩
    · exact .inl hpub
    · refine .inr ⟨iter_looksLike o d ?_, hsize, hle, w, hw⟩
      rw [hw]
      simp
  fuel_pos := fun _ => Nat.succ_pos _

/-- **A frame that the analysis accepts is taken as a whole.** -/
theorem accepted (o : ByteOrder) (d : Bool) {r : Bytes} (reply : Word) {w : WeldState}
    (hdec : decodeRemainder (launchDump o d) r = .state w) :
    Accepted (iter (launchDump o d)) (fun c => c.all.length + 1)
      (weldHeader o (12 + r.length) reply ++ r) fun _ => w := by
  obtain ⟨h36, h43⟩ := decodeRemainder_length hdec
  have hlen : (weldHeader o (12 + r.length) reply ++ r).length = 16 + r.length := by
    rw [List.length_append, weldHeader, encodeAll_length]
    rfl
  have hne : weldHeader o (12 + r.length) reply ≠ [] := by
    rw [← List.length_pos_iff]
    simp [weldHeader]
  refine ⟨?_, (clean_header o (by omega) (by omega) reply).append hne _,
    List.append_ne_nil_of_left_ne_nil hne _⟩
  intro st rest hall
  rw [List.append_assoc] at hall
  rw [iter_weldFrame o d st hall (by omega) (by omega) (fun _ => by omega), hdec, hlen]
  rfl

end TcpNode

namespace SimpleNode

/-- The two formats of the launch file. -/
theorem format_size {o : ByteOrder} {format : Format}
    (h : format = (launch o).payloadOnly ∨ format = (launch o).standard) :
    format.size = 36 + format.offset ∧ 36 ≤ format.size := by
  rcases h with rfl | rfl
  · exact ⟨rfl, Nat.le_refl 36⟩
  · exact ⟨rfl, (by decide : 36 ≤ 40)⟩

/-- What receiving takes off the stream, and where it yields a message. -/
theorem receive_spec (o : ByteOrder) (mem : Nat → UInt8) (c : Channel) (ks : List Nat) :
    ∃ k, (receiveSimpleMessage (launch o) mem c ks).2.1.all = c.all.drop k ∧ 16 ≤ k ∧
      ∀ m, (receiveSimpleMessage (launch o) mem c ks).1 = .message m →
        LooksLike o c.all ∧ 52 ≤ k ∧ k ≤ c.all.length := by
  by_cases hann : (launch o).Announced c.all
  · have hlength : decode o c.all = 36 ∨ decode o c.all = 53 := hann.length
    have hlooks : LooksLike o c.all := by
      refine ⟨hann.msgType, ?_⟩
      rcases hlength with h | h
      · rw [h]
        decide
      · rw [h]
        decide
    have hwhole := hann.whole
    obtain ⟨format, hformat, hrec⟩ := receive_accepts (launch o) c ks hann
    have hsize := (format_size hformat).2
    rw [receiveSimpleMessage_snd, hrec]
    by_cases hle : format.size ≤ (c.consume 16).all.length
    · obtain ⟨j, hj, hleft, -⟩ := leftover_spec 1 ((c.consume 16).consume format.size) ks
      simp only [receivePayload, Channel.readExact_of_le hle]
      refine ⟨16 + format.size + j, ?_, by omega, ?_⟩
      · rw [hleft, Channel.consume_consume, Channel.all_consume, List.drop_drop]
      · intro m _
        simp only [Channel.all_consume, List.length_drop] at hle hj
        exact ⟨hlooks, by omega, by omega⟩
    · simp only [receiveSimpleMessage, hrec, receivePayload,
        Channel.readExact_of_lt (Nat.lt_of_not_le hle)]
      refine ⟨16 + c.all.length, ?_, by omega, ?_⟩
      · rw [Channel.all_consume, List.drop_length, List.drop_of_length_le (by omega)]
      · intro m hm
        cases hm
  · obtain ⟨c', hrec, hc'⟩ := receive_refuses (launch o) mem c ks hann
    rw [hrec]
    exact ⟨16, hc', Nat.le_refl _, fun m hm => by cases hm⟩

theorem receiver (o : ByteOrder) (freed : Freed) :
    Receiver o (iter (launch o) freed) (fun _ => 1) where
  measure := iter_measure _ _
  ended := by
    intro st h
    simp only [iter, receiveSimpleMessage, receiveFrame, Channel.readExact_of_lt h]
  scans := by
    intro st hatt
    obtain ⟨k, hk, h16, hmsg⟩ := receive_spec o (freed st.msgCount) st.sock st.arrivals
    unfold iter
    split
    · rename_i c ks hrec
      rw [hrec] at hk
      unfold commError
      dsimp only
      split
      · refine ⟨?_, k + st.sock.all.length, ?_, by omega, ?_⟩
        · rw [hatt]
        · rw [hatt, List.drop_of_length_le (by omega)]
          rfl
        · rw [hatt]
          exact .inl rfl
      · exact ⟨hatt, k, hk, h16, .inl rfl⟩
    · rename_i c ks hrec
      rw [hrec] at hk
      exact ⟨hatt, k, hk, h16, .inl rfl⟩
    · rename_i m c ks hrec
      rw [hrec] at hk
      obtain ⟨hlooks, hsize, hle⟩ := hmsg m (by rw [hrec])
      unfold process
      dsimp only
      split
      · split
        · exact ⟨hatt, k, hk, h16, .inl rfl⟩
        · exact ⟨hatt, k, hk, h16, .inl rfl⟩
        · exact ⟨hatt, k, hk, h16, .inr ⟨hlooks, hsize, hle, _, rfl⟩⟩
      · exact ⟨hatt, k, hk, h16, .inl rfl⟩
  fuel_pos := fun _ => Nat.le_refl 1

/-- The length word of a header and the format it selects. -/
def Selects (o : ByteOrder) (len : Word) (format : Format) : Prop :=
  (len = 36 ∧ format = (launch o).payloadOnly) ∨ (len = 53 ∧ format = (launch o).standard)

/-- The header words of a stream that begins with a header. -/
theorem words_of_header (o : ByteOrder) {len reply : Word} {c : Channel} {rest : Bytes}
    (hall : c.all = encodeAll o [len, 15, 1, reply] ++ rest) :
    decode o c.all = len ∧ decode o (c.all.drop 4) = 15 ∧ decode o (c.all.drop 8) = 1 ∧
      16 ≤ c.all.length := by
  have hword := fun i hi => decode_drop_encodeAll o [len, 15, 1, reply] rest (i := i) hi
  rw [← hall] at hword
  refine ⟨hword 0 (by simp), hword 1 (by simp), hword 2 (by simp), ?_⟩
  rw [hall, List.length_append, encodeAll_length]
  exact Nat.le_add_right 16 _

/-- A header of one of the formats selects that format. -/
theorem receive_format (o : ByteOrder) {len : Word} {format : Format}
    (hformat : Selects o len format) {reply : Word} {c : Channel} (ks : List Nat) {rest : Bytes}
    (hall : c.all = encodeAll o [len, 15, 1, reply] ++ rest) :
    receiveFrame (launch o) c ks = receivePayload (c.all.take 16) format (c.consume 16) ks := by
  obtain ⟨hlen, htype, hcomm, hwhole⟩ := words_of_header o hall
  have hann : ∀ n, (launch o).announces (c.all.take 16) n = true ↔ len = n := by
    intro n
    rw [announces_take, show (launch o).byteOrder = o from rfl, hlen, htype, hcomm]
    exact and_iff_left ⟨rfl, rfl⟩
  simp only [receiveFrame, Channel.readExact_of_le hwhole,
    show (launch o).payloadOnlyLength = 36 from rfl,
    show (launch o).standardFormatLength = 53 from rfl]
  rcases hformat with ⟨rfl, rfl⟩ | ⟨rfl, rfl⟩
  · rw [if_pos ((hann 36).mpr rfl)]
  · rw [if_neg (fun h => absurd ((hann 36).mp h) (by decide)), if_pos ((hann 53).mpr rfl)]

/-- Behind the offset there are the bytes of nine integers. -/
theorem payload_length {o : ByteOrder} {len : Word} {f : ReceivedFrame}
    (hformat : Selects o len f.format) (hbuf : f.buf.length = f.format.size) (mem : Nat → UInt8) :
    (f.payload mem).length = 36 := by
  have hsize := (format_size (hformat.imp And.right And.right)).1
  have hlen : (if f.format.alive then f.buf else (List.range f.buf.length).map mem).length =
      f.buf.length := by
    split
    · rfl
    · rw [List.length_map, List.length_range]
  rw [ReceivedFrame.payload, List.length_drop, hlen]
  omega

/-- **A frame of one of the formats is taken**, up to its terminator, for the state that the
integers in its buffer make. -/
theorem accepted (o : ByteOrder) (freed : Freed) {len : Word} {format : Format} {body : Bytes}
    (hformat : Selects o len format) (hbody : body.length = format.size) (reply : Word)
    {w : Nat → WeldState}
    (hw : ∀ k, weldMsg? (decodeWords o 9
      ((⟨encodeAll o [len, 15, 1, reply], format, body⟩ : ReceivedFrame).payload (freed k))) =
        some (w k)) :
    Accepted (iter (launch o) freed) (fun _ => 1) (encodeAll o [len, 15, 1, reply] ++ body) w := by
  have h16 : (encodeAll o [len, 15, 1, reply]).length = 16 := by simp
  have hne : encodeAll o [len, 15, 1, reply] ≠ [] := by
    rw [← List.length_pos_iff]
    omega
  have hclean : Clean (encodeAll o [len, 15, 1, reply]) := by
    rcases hformat with ⟨rfl, -⟩ | ⟨rfl, -⟩
    · exact clean_header o (n := 36) (by omega) (by omega) reply
    · exact clean_header o (n := 53) (by omega) (by omega) reply
  refine ⟨?_, hclean.append hne _, List.append_ne_nil_of_left_ne_nil hne _⟩
  intro st rest hall
  rw [List.append_assoc] at hall
  have hrec := receive_format o hformat st.arrivals hall
  have hhdr : st.sock.all.take 16 = encodeAll o [len, 15, 1, reply] := by
    rw [hall, List.take_left' h16]
  have hrest : (st.sock.consume 16).all = body ++ rest := by
    rw [Channel.all_consume, hall, List.drop_left' h16]
  have hread : (st.sock.consume 16).readExact format.size =
      (some body, st.sock.consume (16 + body.length)) := by
    rw [← hbody, Channel.readExact_of_le (by rw [hrest, List.length_append]; omega), hrest,
      List.take_left' rfl, Channel.consume_consume]
  have hints := readInts?_eq o
    ((⟨encodeAll o [len, 15, 1, reply], format, body⟩ : ReceivedFrame).payload
      (freed st.msgCount)) (n := 9) (i := 0) (by rw [payload_length hformat hbody])
  have hmsg : readWord o ((encodeAll o [len, 15, 1, reply]).drop 4) = WELD_STATE_MSG_TYPE := by
    have hword := decode_drop_encodeAll o [len, 15, 1, reply] [] (i := 1) (by simp)
    rw [List.append_nil] at hword
    rw [readWord_eq]
    exact hword
  have hsize : ¬ 4 * (decodeWords o 9
      ((⟨encodeAll o [len, 15, 1, reply], format, body⟩ : ReceivedFrame).payload
        (freed st.msgCount))).length < (launch o).payloadSizeBytes := by
    rw [decodeWords_length]
    exact Nat.lt_irrefl 36
  rw [List.drop_zero] at hints
  simp only [iter, receiveSimpleMessage, hrec, receivePayload, hread, hhdr, initMessage,
    show (launch o).byteOrder = o from rfl, show (launch o).numWeldFields = 9 from rfl, hints,
    process, hmsg, if_true, processWeldStateMessage, if_neg hsize, hw, List.length_append, h16]
  rfl

end SimpleNode

end FanucDriver
