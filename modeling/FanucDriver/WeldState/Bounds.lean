import FanucDriver.WeldState.Remainder

/-!
# The buffer accesses of the TCP receiver

Every access to a buffer is written down with the size of the buffer, in the order of the code
and under its conditions.

* `Access`, `Access.InBounds`.
* `dumpAccesses`, `trimAccesses`, `payloadAccesses`, `remainderAccesses`, `accesses` — those of
  one iteration.
* `LengthBelow` — the length words for which the 32-bit size of the raw dump does not wrap.
* `accesses_inBounds_iff` — one iteration; `run_inBounds_iff` — all of a run, over every stream,
  arrival and reconnection.
-/

set_option autoImplicit false

namespace FanucDriver

open Wire Node

namespace TcpNode

/-- An access to `count` elements from `offset` on, of a buffer of `size` elements. -/
structure Access where
  size : Nat
  offset : Nat
  count : Nat
  deriving DecidableEq, Repr

def Access.InBounds (a : Access) : Prop := a.offset + a.count ≤ a.size

instance (a : Access) : Decidable a.InBounds := inferInstanceAs (Decidable (_ ≤ _))

/-- `raw(16 + length)`, a 32-bit sum: the header is copied in, up to `length` bytes are peeked
behind it, and what has come is printed. -/
def dumpAccesses (length : Word) (peeked : Nat) : List Access :=
  let size := (16 + length.toNat) % 4294967296
  [⟨size, 0, 16⟩, ⟨size, 16, length.toNat⟩] ++
    if 0 < peeked then (List.range (16 + peeked)).map fun i => ⟨size, i, 1⟩ else []

/-- `remainder.size() - 1 - trim_bytes`, in 64-bit arithmetic. -/
def lastIndex (size trim : Nat) : Nat :=
  (size + 18446744073709551616 - 1 - trim) % 18446744073709551616

/-- The trim loop with `left` rounds to go. -/
def trimAccesses (r : Bytes) : Nat → Nat → List Access
  | 0, _ => []
  | left + 1, trim =>
    if r = [] then []
    else ⟨r.length, lastIndex r.length trim, 1⟩ ::
      if (fromEnd? r trim).any isTerminator then trimAccesses r left (trim + 1) else []

/-- `&remainder[payload_offset]`, `readInt32(payload_ptr + i * 4)` into `weld_ints[i]`, and the
nine reads of `weld_ints`. -/
def payloadAccesses (p : Params) (r : Bytes) (payloadOffset dataBytes : Nat) : List Access :=
  ⟨r.length, payloadOffset, 1⟩ ::
    if (dataBytes - payloadOffset) / 4 < p.payloadFields then []
    else
      (List.range p.payloadFields).map (fun i => ⟨r.length, payloadOffset + i * 4, 4⟩) ++
        (List.range p.payloadFields).map (fun i => ⟨p.payloadFields, i, 1⟩) ++
        (List.range 9).map fun i => ⟨p.payloadFields, i, 1⟩

/-- From the receipt of the remainder to the message. -/
def remainderAccesses (p : Params) (r : Bytes) : List Access :=
  let size := p.payloadSizeBytes
  ⟨r.length, 0, r.length⟩ :: trimAccesses r 2 0 ++
    match trimBytes r with
    | none => []
    | some trim =>
      let dataBytes := r.length - trim
      if dataBytes = size ∨ dataBytes = size + 1 then payloadAccesses p r 0 dataBytes
      else if dataBytes = size + 4 ∨ dataBytes = size + 5 then
        ⟨r.length, 0, 4⟩ :: payloadAccesses p r 4 dataBytes
      else []

/-- Behind a received header; `pick` bytes are peeked, as far as that many are announced and
to come. -/
def handleAccesses (p : Params) (pick : Nat) (hdr : Bytes) (sock : Channel) : List Access :=
  let length := readWord p.byteOrder hdr
  let msgType := readWord p.byteOrder (hdr.drop 4)
  let commType := readWord p.byteOrder (hdr.drop 8)
  (if p.dumpRaw then dumpAccesses length (min pick (min length.toNat sock.all.length)) else []) ++
    if msgType ≠ p.expectedMsgType ∨ commType ≠ p.expectedCommType ∨
        length.toNat < 4 + p.payloadSizeBytes then
      if 0 < length.toNat then [⟨length.toNat, 0, length.toNat⟩] else []
    else if length.toNat < 12 then []
    else
      match (sock.readExact (length.toNat - 12)).1 with
      | none => [⟨length.toNat - 12, 0, length.toNat - 12⟩]
      | some remainder => remainderAccesses p remainder

/-- One iteration.  A read that fails has filled a part of its buffer. -/
def accesses (p : Params) (pick : Nat) (st : RunState) : List Access :=
  [⟨16, 0, 16⟩] ++
    match st.sock.readExact 16 with
    | (none, _) => []
    | (some hdr, sock) =>
      [⟨16, 0, 4⟩, ⟨16, 4, 4⟩, ⟨16, 8, 4⟩, ⟨16, 12, 4⟩] ++ handleAccesses p pick hdr sock

/-- The header at the front, if it is there, announces fewer than 2^32 - 16 bytes. -/
def LengthBelow (o : ByteOrder) (bs : Bytes) : Prop :=
  16 ≤ bs.length → (decode o bs).toNat < 4294967280

/-! ## The remainder -/

theorem forall_range_map {n : Nat} {f : Nat → Access} (h : ∀ i, i < n → (f i).InBounds) :
    ∀ a ∈ (List.range n).map f, a.InBounds := by
  intro a ha
  obtain ⟨i, hi, rfl⟩ := List.mem_map.mp ha
  exact h i (List.mem_range.mp hi)

/-- The trim loop stays in a remainder with more bytes than it has rounds. -/
theorem trimAccesses_inBounds {r : Bytes} (hword : r.length < 4294967296) {left trim : Nat}
    (h : left + trim ≤ r.length) : ∀ a ∈ trimAccesses r left trim, a.InBounds := by
  induction left generalizing trim with
  | zero => simp [trimAccesses]
  | succ left ih =>
    rw [trimAccesses]
    split
    · simp
    · rw [List.forall_mem_cons]
      refine ⟨?_, ?_⟩
      · simp only [Access.InBounds, lastIndex]
        omega
      · split
        · exact ih (by omega)
        · simp

theorem payloadAccesses_inBounds (o : ByteOrder) {r : Bytes} {i n : Nat} (hi : i < n)
    (hn : n ≤ r.length) : ∀ a ∈ payloadAccesses (launch o) r i n, a.InBounds := by
  rw [payloadAccesses, show (launch o).payloadFields = 9 from rfl, List.forall_mem_cons]
  refine ⟨?_, ?_⟩
  · simp only [Access.InBounds]
    omega
  · split
    · simp
    · rename_i hints
      rw [List.forall_mem_append, List.forall_mem_append]
      refine ⟨⟨?_, ?_⟩, ?_⟩
      · apply forall_range_map
        intro j hj
        simp only [Access.InBounds]
        omega
      · apply forall_range_map
        intro j hj
        exact hj
      · apply forall_range_map
        intro j hj
        exact hj

theorem remainderAccesses_inBounds (o : ByteOrder) {r : Bytes} (h28 : 28 ≤ r.length)
    (hword : r.length < 4294967296) : ∀ a ∈ remainderAccesses (launch o) r, a.InBounds := by
  have hsize : (launch o).payloadSizeBytes = 36 := rfl
  simp only [remainderAccesses, hsize]
  rw [List.cons_append, List.forall_mem_cons, List.forall_mem_append]
  refine ⟨?_, trimAccesses_inBounds hword (by omega), ?_⟩
  · simp only [Access.InBounds]
    omega
  · split
    · simp
    · split
      · exact payloadAccesses_inBounds o (by omega) (Nat.sub_le _ _)
      · split
        · rw [List.forall_mem_cons]
          refine ⟨?_, payloadAccesses_inBounds o (by omega) (Nat.sub_le _ _)⟩
          simp only [Access.InBounds]
          omega
        · simp

/-! ## One iteration -/

theorem dumpAccesses_inBounds_iff {length : Word} {peeked : Nat} (hp : peeked ≤ length.toNat) :
    (∀ a ∈ dumpAccesses length peeked, a.InBounds) ↔ length.toNat < 4294967280 := by
  have hlt : length.toNat < 4294967296 := length.isLt
  constructor
  · intro h
    have hcopy := h ⟨(16 + length.toNat) % 4294967296, 0, 16⟩ (by simp [dumpAccesses])
    simp only [Access.InBounds] at hcopy
    omega
  · intro h
    have hsize : (16 + length.toNat) % 4294967296 = 16 + length.toNat :=
      Nat.mod_eq_of_lt (by omega)
    simp only [dumpAccesses, hsize]
    rw [List.forall_mem_append]
    refine ⟨by simp [Access.InBounds], ?_⟩
    split
    · apply forall_range_map
      intro i hi
      simp only [Access.InBounds]
      omega
    · simp

theorem readWord_take (o : ByteOrder) (bs : Bytes) : readWord o (bs.take 16) = decode o bs := by
  rw [readWord_eq, decode_take o (by omega)]

/-- **One iteration stays in its buffers** exactly when the raw dump's size does not wrap. -/
theorem accesses_inBounds_iff (o : ByteOrder) (pick : Nat) (st : RunState) :
    (∀ a ∈ accesses (launch o) pick st, a.InBounds) ↔ LengthBelow o st.sock.all := by
  unfold accesses LengthBelow
  rw [List.forall_mem_append, and_iff_right (by simp [Access.InBounds])]
  by_cases h16 : 16 ≤ st.sock.all.length
  · have hword : readWord (launch o).byteOrder (st.sock.all.take 16) = decode o st.sock.all :=
      readWord_take o _
    rw [Channel.readExact_of_le h16]
    dsimp only
    rw [List.forall_mem_append, and_iff_right (by simp [Access.InBounds]),
      show (16 ≤ st.sock.all.length → (decode o st.sock.all).toNat < 4294967280) ↔
        (decode o st.sock.all).toNat < 4294967280 from ⟨fun h => h h16, fun h _ => h⟩]
    simp only [handleAccesses, hword, show (launch o).dumpRaw = true from rfl, if_true]
    generalize decode o st.sock.all = length
    rw [List.forall_mem_append, dumpAccesses_inBounds_iff (by omega)]
    refine and_iff_left_of_imp ?_
    intro hlt
    split
    · split
      · simp [Access.InBounds]
      · simp
    · rename_i hvalid
      have h40 : 40 ≤ length.toNat := by
        have hsize : (launch o).payloadSizeBytes = 36 := rfl
        rw [hsize] at hvalid
        omega
      split
      · simp
      · split
        · simp [Access.InBounds]
        · rename_i r hread
          obtain ⟨hle, rfl, -⟩ := Channel.readExact_some (Prod.ext hread rfl)
          have hlen : (((st.sock.consume 16).all.take (length.toNat - 12))).length =
              length.toNat - 12 := by
            rw [List.length_take]
            omega
          exact remainderAccesses_inBounds o (by omega) (by omega)
  · rw [Channel.readExact_of_lt (Nat.lt_of_not_le h16)]
    simp only [List.not_mem_nil, false_implies, implies_true, h16]

/-! ## A whole run -/

/-- **Every access of every run is in bounds** exactly when no header that the run receives
announces 2^32 - 16 bytes or more. -/
theorem run_inBounds_iff (o : ByteOrder) (st : RunState) :
    (∀ k pick, (runFor (iter (launch o)) k st).status = .running →
        ∀ a ∈ accesses (launch o) pick (runFor (iter (launch o)) k st), a.InBounds) ↔
      ∀ k, (runFor (iter (launch o)) k st).status = .running →
        LengthBelow o (runFor (iter (launch o)) k st).sock.all := by
  constructor
  · intro h k hrun
    exact (accesses_inBounds_iff o 0 _).mp (h k 0 hrun)
  · intro h k pick hrun
    exact (accesses_inBounds_iff o pick _).mpr (h k hrun)

/-- A length word of 2^32 - 1, and the header is copied into a buffer of 15 bytes. -/
theorem run_leaves_dump :
    ¬ ∀ k pick, (runFor (iter (launch .little)) k
          (connected ⟨encodeAll .little [4294967295, 15, 1, 0], []⟩ [])).status = .running →
        ∀ a ∈ accesses (launch .little) pick (runFor (iter (launch .little)) k
          (connected ⟨encodeAll .little [4294967295, 15, 1, 0], []⟩ [])), a.InBounds := by
  intro h
  have hcopy := h 0 0 rfl ⟨15, 0, 16⟩ (by decide +kernel)
  exact absurd hcopy (by decide)

end TcpNode

end FanucDriver
