import FanucDriver.WeldState.Bounds
import FanucDriver.WeldState.Receiver
import FanucDriver.WeldState.SimpleBounds

/-!
# When the receivers return

Each iteration of either loop uses up bytes, a connection or an error (`RunState.measure`), so the
loop always ends.  It returns unless an iteration accesses memory out of bounds first.

* `TcpNode.iter_fault_iff` — with the raw dump, at a length word for which its size wraps.
* `SimpleNode.iter_fault_iff` — at a payload-only frame shorter than nine integers.
* `run_returns_iff` — when `run` returns; `run_dump_faults` — a header at which it does not.
-/

set_option autoImplicit false

namespace FanucDriver

open Wire Node

theorem commError_ne_fault {st : RunState} (hrun : st.status = .running) :
    (commError st).status ≠ .fault := by
  unfold commError
  dsimp only
  split
  · split <;> simp [hrun]
  · simp [hrun]

namespace TcpNode

theorem decodeRemainder_ne_fault (o : ByteOrder) (d : Bool) {r : Bytes} (h2 : 2 ≤ r.length) :
    decodeRemainder (launchDump o d) r ≠ .fault := by
  obtain ⟨a, x, y, rfl⟩ := exists_append_two h2
  rw [decodeRemainder_eq o d (trimBytes_append a x y)]
  split <;> simp

theorem handle_fault_iff (o : ByteOrder) (d : Bool) (hdr : Bytes) {st : RunState}
    (hrun : st.status = .running) :
    (handle (launchDump o d) hdr st).status = .fault ↔
      d = true ∧ 4294967280 ≤ (readWord o hdr).toNat := by
  have hlt : (readWord o hdr).toNat < 4294967296 := (readWord o hdr).isLt
  have hdump : ¬ dumpInBounds (readWord o hdr) st.sock = true ↔
      4294967280 ≤ (readWord o hdr).toNat := by
    rw [dumpInBounds, decide_eq_true_eq]
    omega
  unfold handle
  simp only [show (launchDump o d).byteOrder = o from rfl,
    show (launchDump o d).dumpRaw = d from rfl, hdump]
  split
  · rename_i h
    exact iff_of_true rfl h
  · rename_i h
    refine iff_of_false ?_ h
    split
    · split <;> simp [hrun]
    · rename_i hvalid
      have h40 : 40 ≤ (readWord o hdr).toNat := by
        have hsize : (launchDump o d).payloadSizeBytes = 36 := rfl
        rw [hsize] at hvalid
        omega
      split
      · simp [hrun]
      · split
        · simp [hrun]
        · rename_i r sock hread
          obtain ⟨hle, rfl, -⟩ := Channel.readExact_some hread
          split
          · rename_i hdec
            refine absurd hdec (decodeRemainder_ne_fault o d ?_)
            rw [List.length_take]
            omega
          · simp [hrun]
          · simp [hrun]

/-- The receiver's only fault is a raw dump that leaves its buffer. -/
theorem iter_fault_iff (o : ByteOrder) (d : Bool) {st : RunState} (hrun : st.status = .running) :
    (iter (launchDump o d) st).status = .fault ↔ d = true ∧ ¬ LengthBelow o st.sock.all := by
  unfold iter LengthBelow
  by_cases h16 : 16 ≤ st.sock.all.length
  · rw [Channel.readExact_of_le h16]
    dsimp only
    rw [handle_fault_iff o d _ (by exact hrun), readWord_take]
    simp [h16]
  · rw [Channel.readExact_of_lt (Nat.lt_of_not_le h16)]
    exact iff_of_false (commError_ne_fault hrun) (fun h => h.2 fun h' => absurd h' h16)

end TcpNode

namespace SimpleNode

/-- Integers that do not all fit are not all read. -/
theorem readInts?_none (o : ByteOrder) {r : Bytes} {i n : Nat} (hn : 0 < n)
    (h : r.length < i + 4 * n) : readInts? o r i n = none := by
  induction n generalizing i with
  | zero => exact absurd hn (Nat.lt_irrefl 0)
  | succ n ih =>
    rw [readInts?, readWord?_eq, Wire.readWord?]
    by_cases hword : i + 4 ≤ r.length
    · rw [if_pos hword]
      dsimp only
      rw [ih (by omega) (by omega)]
      rfl
    · rw [if_neg hword]

theorem payload_length_eq (mem : Nat → UInt8) (f : ReceivedFrame) :
    (f.payload mem).length = f.buf.length - f.format.offset := by
  unfold ReceivedFrame.payload
  split <;> simp

/-- Nine integers are read from a payload that holds them. -/
theorem initMessage_fault_iff (p : Params) (h9 : p.numWeldFields = 9) (mem : Nat → UInt8)
    (f : ReceivedFrame) :
    initMessage p mem f = .fault ↔ f.buf.length - f.format.offset < 36 := by
  rw [← payload_length_eq mem]
  unfold initMessage
  rw [h9]
  by_cases hle : 36 ≤ (f.payload mem).length
  · rw [readInts?_eq p.byteOrder _ (by omega)]
    exact iff_of_false (by simp) (by omega)
  · rw [readInts?_none p.byteOrder (by omega) (by omega)]
    exact iff_of_true rfl (by omega)

theorem receive_fault_iff (p : Params) (h9 : p.numWeldFields = 9) (mem : Nat → UInt8) (c : Channel)
    (ks : List Nat) :
    (receiveSimpleMessage p mem c ks).1 = .fault ↔
      AcceptsPayloadOnly p c.all ∧ p.payloadOnlyLength.toNat < 36 := by
  have hstd : p.standard = ⟨40, 4, false⟩ := by
    rw [Params.standard, Params.payloadSizeBytes, h9]
  have hpayload : (receiveSimpleMessage p mem c ks).1 = .fault ↔
      ∃ f, (receiveFrame p c ks).1 = some f ∧ f.buf.length - f.format.offset < 36 := by
    unfold receiveSimpleMessage
    split
    · rename_i hrec
      simp [hrec]
    · rename_i f c' ks' hrec
      simp [hrec, initMessage_fault_iff p h9]
  rw [hpayload]
  unfold receiveFrame
  by_cases h16 : 16 ≤ c.all.length
  · have hfits : ∀ n, n ≤ (c.consume 16).all.length ↔ 16 + n ≤ c.all.length := by
      intro n
      rw [Channel.all_consume, List.length_drop]
      omega
    rw [Channel.readExact_of_le h16]
    dsimp only
    cases hpay : p.announces (c.all.take 16) p.payloadOnlyLength with
    | true =>
      rw [if_pos rfl, receivePayload_fst]
      by_cases hle : p.payloadOnly.size ≤ (c.consume 16).all.length
      · rw [if_pos hle]
        simp only [Option.some.injEq, exists_eq_left', List.length_take, Nat.min_eq_left hle]
        exact ⟨fun h => ⟨⟨(hfits _).mp hle, hpay⟩, h⟩, And.right⟩
      · rw [if_neg hle]
        exact iff_of_false (by simp) (fun h => hle ((hfits _).mpr h.1.whole))
    | false =>
      have hno : ¬ (AcceptsPayloadOnly p c.all ∧ p.payloadOnlyLength.toNat < 36) := by
        intro h
        simp [h.1.announced] at hpay
      rw [if_neg (by decide)]
      refine iff_of_false ?_ hno
      split
      · rw [receivePayload_fst, hstd]
        split
        · rename_i hle
          simp only [Option.some.injEq, exists_eq_left', List.length_take, Nat.min_eq_left hle]
          omega
        · simp
      · simp
  · rw [Channel.readExact_of_lt (Nat.lt_of_not_le h16)]
    refine iff_of_false (by simp) ?_
    exact fun h => h16 (Nat.le_trans (Nat.le_add_right _ _) h.1.whole)

theorem readInts?_length (o : ByteOrder) {r : Bytes} {i n : Nat} {ws : List Word}
    (h : readInts? o r i n = some ws) : ws.length = n := by
  induction n generalizing i ws with
  | zero =>
    cases h
    rfl
  | succ n ih =>
    rw [readInts?] at h
    split at h
    · cases h
    · obtain ⟨vs, hvs, rfl⟩ := Option.map_eq_some_iff.mp h
      rw [List.length_cons, ih hvs]

/-- What a message carries are as many integers as were to be decoded. -/
theorem receive_data_length (p : Params) {mem : Nat → UInt8} {c : Channel} {ks : List Nat}
    {msg : SimpleMessage} (h : (receiveSimpleMessage p mem c ks).1 = .message msg) :
    msg.data.length = p.numWeldFields := by
  unfold receiveSimpleMessage at h
  split at h
  · cases h
  · dsimp only at h
    unfold initMessage at h
    split at h
    · cases h
    · rename_i data hdata
      cases h
      exact readInts?_length p.byteOrder hdata

theorem process_ne_fault (p : Params) {msg : SimpleMessage} (hlen : msg.data.length = 9)
    {st : RunState} (hrun : st.status = .running) : (process p msg st).status ≠ .fault := by
  have hmsg : processWeldStateMessage p msg ≠ .fault := by
    unfold processWeldStateMessage
    split
    · simp
    · match hdata : msg.data, hlen with
      | [_, _, _, _, _, _, _, _, _], _ => simp [weldMsg?]
  unfold process
  dsimp only
  split
  · split
    · rename_i hfault
      exact absurd hfault hmsg
    · simp [hrun]
    · simp [hrun]
  · simp [hrun]

/-- The receiver's only fault is a payload-only frame shorter than the nine integers. -/
theorem iter_fault_iff (p : Params) (h9 : p.numWeldFields = 9) (freed : Freed) {st : RunState}
    (hrun : st.status = .running) :
    (iter p freed st).status = .fault ↔
      AcceptsPayloadOnly p st.sock.all ∧ p.payloadOnlyLength.toNat < 36 := by
  rw [← receive_fault_iff p h9 (freed st.msgCount) st.sock st.arrivals]
  unfold iter
  split
  · rename_i c ks hrec
    rw [hrec]
    exact iff_of_false (commError_ne_fault hrun) (by simp)
  · rename_i c ks hrec
    rw [hrec]
    exact iff_of_true rfl rfl
  · rename_i msg c ks hrec
    rw [hrec]
    have hlen := (receive_data_length p (congrArg Prod.fst hrec)).trans h9
    exact iff_of_false (process_ne_fault p hlen hrun) (by simp)

end SimpleNode

/-- **When the receivers return.**  Whatever the parameters, an iteration that goes on uses up
bytes, a connection or an error, and the removal of CR and LF comes to its end.  From any state
the TCP receiver returns if and only if it is without the raw dump or meets no header that
announces 2^32 - 16 bytes or more, the Simple Message receiver if and only if its payload-only
length is that of its nine integers or it meets no payload-only frame.  An access outside a buffer
is a fault here; the reads of the destroyed `remaining_buf` are not, they find what its memory
holds. -/
theorem run_returns_iff (o : ByteOrder) :
    ((∀ p st, (TcpNode.iter p st).status = .running → (TcpNode.iter p st).measure < st.measure) ∧
      (∀ p freed st, (SimpleNode.iter p freed st).status = .running →
        (SimpleNode.iter p freed st).measure < st.measure) ∧
      ∀ (c : Channel) ks n, c.all.length < n →
        leftover n c ks = leftover (c.all.length + 1) c ks) ∧
    (∀ d st, st.status = .running →
      ((TcpNode.run (TcpNode.launchDump o d) st).status = .exited ↔
        (d = true → ∀ k, (runFor (TcpNode.iter (TcpNode.launchDump o d)) k st).status = .running →
          TcpNode.LengthBelow o
            (runFor (TcpNode.iter (TcpNode.launchDump o d)) k st).sock.all))) ∧
    (∀ (p : SimpleNode.Params) (freed : SimpleNode.Freed) st, p.numWeldFields = 9 →
      st.status = .running →
      ((SimpleNode.run p freed st).status = .exited ↔
        36 ≤ p.payloadOnlyLength.toNat ∨
          ∀ k, (runFor (SimpleNode.iter p freed) k st).status = .running →
            ¬ SimpleNode.AcceptsPayloadOnly p
              (runFor (SimpleNode.iter p freed) k st).sock.all)) := by
  refine ⟨⟨TcpNode.iter_measure, SimpleNode.iter_measure, fun _ ks _ => leftover_enough ks⟩, ?_, ?_⟩
  · intro d st hrun
    refine (runAll_exited_iff (TcpNode.iter_measure _)
      (fun st => TcpNode.iter_fault_iff o d) hrun).trans ?_
    constructor
    · intro h hd k hk
      by_contra hbad
      exact h k hk ⟨hd, hbad⟩
    · rintro h k hk ⟨hd, hbad⟩
      exact hbad (h hd k hk)
  · intro p freed st h9 hrun
    refine (runAll_exited_iff (SimpleNode.iter_measure p freed)
      (fun st => SimpleNode.iter_fault_iff p h9 freed) hrun).trans ?_
    constructor
    · intro h
      by_cases hlen : 36 ≤ p.payloadOnlyLength.toNat
      · exact .inl hlen
      · exact .inr fun k hk hacc => h k hk ⟨hacc, by omega⟩
    · rintro (hlen | h) k hk ⟨hacc, hlt⟩
      · omega
      · exact h k hk hacc

/-- Without the raw dump the length word 2^32 - 16 is harmless, and so is a payload-only frame
with the launch file's length. -/
theorem run_returns_iff_harmless :
    (TcpNode.run (TcpNode.launchDump .little false)
      (connected ⟨encodeAll .little [4294967280, 15, 1, 0], []⟩ [])).status = .exited ∧
    (SimpleNode.run (SimpleNode.launch .big) SimpleNode.cleared
      (connected ⟨encodeAll .big [36, 15, 1, 0, 1, 0, 0, 0, 0, 2000, 1500, 800, 120], []⟩
        [])).status = .exited :=
  ⟨((run_returns_iff .little).2.1 false _ rfl).mpr (nomatch ·),
    ((run_returns_iff .big).2.2 _ _ _ rfl rfl).mpr (.inl (by decide))⟩

/-- The raw dump of a header that announces 2^32 - 16 bytes goes into an empty buffer. -/
theorem run_dump_faults :
    (TcpNode.run (TcpNode.launch .little)
      (connected ⟨encodeAll .little [4294967280, 15, 1, 0], []⟩ [])).status = .fault := by
  decide +kernel

end FanucDriver
