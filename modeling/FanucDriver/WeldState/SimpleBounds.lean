import FanucDriver.WeldState.SimpleNode

/-!
# The integers of a simple message

`receiveSimpleMessage` receives as many bytes as one parameter says, or as its payload size says,
and decodes as many integers as another.  The standard format's buffer is a local vector of the
block that receives it: by the time the integers are decoded it has been destroyed.

* `defaults` — the node's own parameters.
* `Read`, `reads` — the reads of the decoding loop.
* `AcceptsPayloadOnly`, `AcceptsStandard`, `reads_eq` — when there are any.
* `reads_within_iff`, `reads_alive_iff` — one message; `run_reads_iff` — a whole run.
-/

set_option autoImplicit false

namespace FanucDriver

open Wire Node

namespace SimpleNode

/-- The parameters of a node started without a launch file, with its byte order. -/
def defaults (o : ByteOrder) : Params where
  payloadOnlyLength := 32
  standardFormatLength := 53
  expectedMsgType := 15
  expectedCommType := 1
  numWeldFields := 9
  byteOrder := o

/-- `readInt32(payload_buf + i * 4)`: four bytes from `offset` on, of a buffer into which `size`
bytes were received. -/
structure Read where
  size : Nat
  offset : Nat
  /-- the buffer still exists -/
  alive : Bool
  deriving DecidableEq, Repr

def Read.Within (a : Read) : Prop := a.offset + 4 ≤ a.size

instance (a : Read) : Decidable a.Within := inferInstanceAs (Decidable (_ ≤ _))

/-- The decoding loop. -/
def intReads (n size start : Nat) (alive : Bool) : List Read :=
  (List.range n).map fun i => ⟨size, start + i * 4, alive⟩

/-- The reads of one call of `receiveSimpleMessage`. -/
def reads (p : Params) (c : Channel) : List Read :=
  match (receiveFrame p c []).1 with
  | none => []
  | some f => intReads p.numWeldFields f.buf.length f.format.offset f.format.alive

/-- At the front there is a whole frame of the payload-only format. -/
structure AcceptsPayloadOnly (p : Params) (t : Bytes) : Prop where
  whole : 16 + p.payloadOnlyLength.toNat ≤ t.length
  announced : p.announces (t.take 16) p.payloadOnlyLength = true

/-- At the front there is a whole frame of the standard format. -/
structure AcceptsStandard (p : Params) (t : Bytes) : Prop where
  whole : 16 + (4 + p.payloadSizeBytes) ≤ t.length
  other : p.announces (t.take 16) p.payloadOnlyLength = false
  announced : p.announces (t.take 16) p.standardFormatLength = true

instance (p : Params) (t : Bytes) : Decidable (AcceptsPayloadOnly p t) :=
  decidable_of_iff (16 + p.payloadOnlyLength.toNat ≤ t.length ∧
      p.announces (t.take 16) p.payloadOnlyLength = true)
    ⟨fun ⟨hw, ha⟩ => ⟨hw, ha⟩, fun h => ⟨h.whole, h.announced⟩⟩

instance (p : Params) (t : Bytes) : Decidable (AcceptsStandard p t) :=
  decidable_of_iff (16 + (4 + p.payloadSizeBytes) ≤ t.length ∧
      p.announces (t.take 16) p.payloadOnlyLength = false ∧
      p.announces (t.take 16) p.standardFormatLength = true)
    ⟨fun ⟨hw, ho, ha⟩ => ⟨hw, ho, ha⟩, fun h => ⟨h.whole, h.other, h.announced⟩⟩

theorem receivePayload_fst (hdr : Bytes) (format : Format) (c : Channel) (ks : List Nat) :
    (receivePayload hdr format c ks).1 =
      if format.size ≤ c.all.length then some ⟨hdr, format, c.all.take format.size⟩ else none := by
  unfold receivePayload
  by_cases hle : format.size ≤ c.all.length
  · rw [Channel.readExact_of_le hle, if_pos hle]
  · rw [Channel.readExact_of_lt (Nat.lt_of_not_le hle), if_neg hle]

/-- **When integers are decoded**, and from how many bytes. -/
theorem reads_eq (p : Params) (c : Channel) :
    reads p c =
      if AcceptsPayloadOnly p c.all then
        intReads p.numWeldFields p.payloadOnlyLength.toNat 0 true
      else if AcceptsStandard p c.all then
        intReads p.numWeldFields (4 + p.payloadSizeBytes) 4 false
      else [] := by
  unfold reads receiveFrame
  by_cases h16 : 16 ≤ c.all.length
  · rw [Channel.readExact_of_le h16]
    dsimp only
    have hfits : ∀ n, n ≤ (c.consume 16).all.length ↔ 16 + n ≤ c.all.length := by
      intro n
      rw [Channel.all_consume, List.length_drop]
      omega
    cases hpay : p.announces (c.all.take 16) p.payloadOnlyLength with
    | true =>
      have hstd : ¬ AcceptsStandard p c.all := fun h => by simp [h.other] at hpay
      have hpayIff : p.payloadOnly.size ≤ (c.consume 16).all.length ↔
          AcceptsPayloadOnly p c.all := by
        rw [hfits]
        exact ⟨fun h => ⟨h, hpay⟩, fun h => h.whole⟩
      rw [if_pos rfl, if_neg hstd, receivePayload_fst]
      by_cases hacc : AcceptsPayloadOnly p c.all
      · rw [if_pos (hpayIff.mpr hacc), if_pos hacc]
        simp only [List.length_take, Nat.min_eq_left (hpayIff.mpr hacc)]
        rfl
      · rw [if_neg (fun h => hacc (hpayIff.mp h)), if_neg hacc]
    | false =>
      have hno : ¬ AcceptsPayloadOnly p c.all := fun h => by simp [h.announced] at hpay
      rw [if_neg (by decide), if_neg hno]
      cases hstd : p.announces (c.all.take 16) p.standardFormatLength with
      | true =>
        have hstdIff : p.standard.size ≤ (c.consume 16).all.length ↔ AcceptsStandard p c.all := by
          rw [hfits]
          exact ⟨fun h => ⟨h, hpay, hstd⟩, fun h => h.whole⟩
        rw [if_pos rfl, receivePayload_fst]
        by_cases hacc : AcceptsStandard p c.all
        · rw [if_pos (hstdIff.mpr hacc), if_pos hacc]
          simp only [List.length_take, Nat.min_eq_left (hstdIff.mpr hacc)]
          rfl
        · rw [if_neg (fun h => hacc (hstdIff.mp h)), if_neg hacc]
      | false =>
        rw [if_neg (by decide), if_neg (fun h => by simp [h.announced] at hstd)]
  · rw [Channel.readExact_of_lt (Nat.lt_of_not_le h16)]
    rw [if_neg (fun h => h16 (Nat.le_trans (Nat.le_add_right _ _) h.whole)),
      if_neg (fun h => h16 (Nat.le_trans (Nat.le_add_right _ _) h.whole))]

theorem forall_intReads {n size start : Nat} {alive : Bool} {P : Read → Prop} :
    (∀ a ∈ intReads n size start alive, P a) ↔ ∀ i, i < n → P ⟨size, start + i * 4, alive⟩ := by
  simp [intReads]

/-- **One message is decoded from the bytes received for it**, unless it is a payload-only one and
fewer bytes were received than the integers take up. -/
theorem reads_within_iff (p : Params) (c : Channel) :
    (∀ a ∈ reads p c, a.Within) ↔
      (AcceptsPayloadOnly p c.all → p.payloadSizeBytes ≤ p.payloadOnlyLength.toNat) := by
  rw [reads_eq]
  unfold Params.payloadSizeBytes
  split
  · rename_i hpay
    rw [forall_intReads, forall_prop_of_true hpay]
    simp only [Read.Within]
    constructor
    · intro h
      by_cases hn : p.numWeldFields = 0
      · omega
      · have := h (p.numWeldFields - 1) (by omega)
        omega
    · intro h i hi
      omega
  · rename_i hpay
    refine iff_of_true ?_ (fun h => absurd h hpay)
    split
    · rw [forall_intReads]
      intro i hi
      simp only [Read.Within]
      omega
    · simp

/-- **The buffer still exists**, unless the message is a standard one. -/
theorem reads_alive_iff (p : Params) (c : Channel) :
    (∀ a ∈ reads p c, a.alive = true) ↔ (AcceptsStandard p c.all → p.numWeldFields = 0) := by
  rw [reads_eq]
  split
  · rename_i hpay
    refine iff_of_true (forall_intReads.mpr fun _ _ => rfl) ?_
    intro hstd
    have hother := hstd.other
    rw [hpay.announced] at hother
    cases hother
  · split
    · rename_i hstd
      rw [forall_intReads, forall_prop_of_true hstd]
      constructor
      · intro h
        by_contra hn
        exact absurd (h 0 (by omega)) (by simp)
      · intro h i hi
        omega
    · rename_i hstd
      exact iff_of_true (by simp) (fun h => absurd h hstd)

/-- **What a run decodes.**  For all parameters, over every stream, arrival and reconnection: all
integers lie within the bytes received for their frame if and only if no payload-only frame is
accepted whose length falls short of the integers; and they lie in buffers that still exist if and
only if, besides, no standard frame is accepted. -/
theorem run_reads_iff (p : Params) (freed : Freed) (st : RunState) :
    ((∀ k, (runFor (iter p freed) k st).status = .running →
        ∀ a ∈ reads p (runFor (iter p freed) k st).sock, a.Within) ↔
      ∀ k, (runFor (iter p freed) k st).status = .running →
        AcceptsPayloadOnly p (runFor (iter p freed) k st).sock.all →
          p.payloadSizeBytes ≤ p.payloadOnlyLength.toNat) ∧
    ((∀ k, (runFor (iter p freed) k st).status = .running →
        ∀ a ∈ reads p (runFor (iter p freed) k st).sock, a.Within ∧ a.alive = true) ↔
      ∀ k, (runFor (iter p freed) k st).status = .running →
        (AcceptsPayloadOnly p (runFor (iter p freed) k st).sock.all →
          p.payloadSizeBytes ≤ p.payloadOnlyLength.toNat) ∧
        (AcceptsStandard p (runFor (iter p freed) k st).sock.all → p.numWeldFields = 0)) := by
  constructor
  · exact forall_congr' fun k => forall_congr' fun _ => reads_within_iff p _
  · refine forall_congr' fun k => forall_congr' fun _ => ?_
    rw [← reads_within_iff, ← reads_alive_iff, ← forall₂_and]

-- the launch file's payload-only length is that of the nine integers; the node's own is not
example (o : ByteOrder) :
    (launch o).payloadSizeBytes ≤ (launch o).payloadOnlyLength.toNat ∧
      ¬ (defaults o).payloadSizeBytes ≤ (defaults o).payloadOnlyLength.toNat := by
  cases o <;> decide

/-- With its own parameters the node reads the ninth integer behind the 32 bytes received; with
those of the launch file it reads a standard frame's integers from a vector that is gone. -/
theorem run_reads_behind :
    (¬ ∀ k, (runFor (iter (defaults .little) cleared) k (connected ⟨encodeAll .little [32, 15, 1, 0,
          1, 0, 0, 0, 0, 2000, 1500, 800], []⟩ [])).status = .running →
        ∀ a ∈ reads (defaults .little) (runFor (iter (defaults .little) cleared) k (connected
          ⟨encodeAll .little [32, 15, 1, 0, 1, 0, 0, 0, 0, 2000, 1500, 800], []⟩ [])).sock,
          a.Within) ∧
    ¬ ∀ k, (runFor (iter (launch .little) cleared) k (connected ⟨encodeAll .little [53, 15, 1, 0,
          1, 1, 0, 0, 0, 0, 2000, 1500, 800, 120], []⟩ [])).status = .running →
        ∀ a ∈ reads (launch .little) (runFor (iter (launch .little) cleared) k (connected
          ⟨encodeAll .little [53, 15, 1, 0, 1, 1, 0, 0, 0, 0, 2000, 1500, 800, 120], []⟩ [])).sock,
          a.alive = true := by
  constructor
  · intro h
    exact absurd (h 0 rfl ⟨32, 32, true⟩ (by decide +kernel)) (by decide)
  · intro h
    exact absurd (h 0 rfl ⟨40, 4, false⟩ (by decide +kernel)) (by decide)

end SimpleNode

end FanucDriver
