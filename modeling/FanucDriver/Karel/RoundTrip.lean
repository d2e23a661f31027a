import FanucDriver.Karel.Packet

/-!
# From `ipkt_srlise` to `ipkt_dsrlse`

A packet is written with two more words when its type says so, and read with two more words when
its type and its length say so.  `ipkt_srlise` makes the length correct first, so that both sides
agree.

* `srliseAll`, `dsrlseAll` — a list of packets written one after the other, and that many calls
  of `ipkt_dsrlse` into given targets.
* `IndPkt.received` — what a target is to hold afterwards.
* `dsrlse_srlise` — one packet in front of a stream; `dsrlseAll_srliseAll` — the whole stream.
-/

set_option autoImplicit false

namespace FanucDriver

open Wire

/-- Write the packets to one descriptor, no `WRITE` failing and the CR emitting no byte. -/
def srliseAll (o : ByteOrder) : List IndPkt → Bytes
  | [] => []
  | p :: ps => (ipktSrlise o false [] p).2.1 ++ srliseAll o ps

/-- Read into the targets in turn, no `READ` failing: the values returned, the targets
afterwards and what is left. -/
def dsrlseAll (o : ByteOrder) : List IndPkt → Channel → Option (List (Int × IndPkt) × Channel)
  | [], c => some ([], c)
  | t :: ts, c =>
    match ipktDsrlse o .ok t c with
    | none => none
    | some (stat, q, c) => (dsrlseAll o ts c).map fun r => ((stat, q) :: r.1, r.2)

/-- The target `t` after the packet `p` was read into it. -/
def IndPkt.received (p t : IndPkt) : IndPkt where
  length := if p.msgType = RI_MT_JTRAJP then 64 else p.length
  msgType := p.msgType
  commType := p.commType
  replyType := p.replyType
  seqNr := p.seqNr
  jointData := p.jointData
  velocity := if p.msgType = RI_MT_JTRAJP then p.velocity else t.velocity
  duration := if p.msgType = RI_MT_JTRAJP then p.duration else t.duration

/-! ## One packet -/

/-- The packet as it is written. -/
def IndPkt.lengthFixed (p : IndPkt) : IndPkt :=
  if p.msgType = RI_MT_JTRAJP then { p with length := 64 } else p

/-- The words a packet is written as. -/
def IndPkt.sentWords (p : IndPkt) : List Word :=
  p.lengthFixed.words ++ if p.msgType = RI_MT_JTRAJP then [p.velocity, p.duration] else []

theorem ipktSrlise_ok (o : ByteOrder) (p : IndPkt) :
    ipktSrlise o false [] p = (p.lengthFixed, encodeAll o p.sentWords, 0) := by
  have hlen : BitVec.ofNat 32 (RI_SZ_HDR + RI_SZB_TRAJP) = (64 : Word) := rfl
  have hbytes : ∀ ws : List Word, (writeSeq [] (ws.map (encode o) ++ [crBytes false])).1 =
      encodeAll o ws := by
    intro ws
    simp [crBytes, encodeAll, List.flatMap_def]
  by_cases htype : p.msgType = RI_MT_JTRAJP
  · simp only [ipktSrlise, IndPkt.lengthFixed, IndPkt.sentWords, if_pos htype, hlen, hbytes]
    simp
  · simp only [ipktSrlise, IndPkt.lengthFixed, IndPkt.sentWords, if_neg htype, hbytes]
    simp

/-- Reading all fifteen words of a packet. -/
theorem IndPkt.assign_words (t p : IndPkt) :
    t.assign p.words = { p with velocity := t.velocity, duration := t.duration } := by
  have hjoints : (Vector.ofFn fun i : Fin 10 => p.words[5 + i.val]?.getD t.jointData[i]) =
      p.jointData := by
    apply Vector.ext
    intro i hi
    rw [Vector.getElem_ofFn, IndPkt.words, List.getElem?_append_right (Nat.le_add_right 5 i)]
    simp [hi]
  unfold IndPkt.assign
  rw [hjoints]
  rfl

/-- **A packet in front of a stream** is read into any target as it was written, and the reader
stands behind it. -/
theorem dsrlse_srlise (o : ByteOrder) (p t : IndPkt) {c : Channel} {rest : Bytes}
    (hc : c.all = (ipktSrlise o false [] p).2.1 ++ rest) :
    ∃ c', ipktDsrlse o .ok t c = some (0, p.received t, c') ∧ c'.all = rest := by
  rw [ipktSrlise_ok, IndPkt.sentWords, encodeAll_append, List.append_assoc] at hc
  have h15 := readFields_ok o hc
  have hall : (c.consume (4 * 15)).all =
      encodeAll o (if p.msgType = RI_MT_JTRAJP then [p.velocity, p.duration] else []) ++ rest := by
    rw [Channel.all_consume, hc, List.drop_left' (by simp)]
  rw [IndPkt.words_length] at h15
  unfold ipktDsrlse
  simp only [h15, IndPkt.assign_words]
  rw [if_neg (fun h => h rfl)]
  by_cases htype : p.msgType = RI_MT_JTRAJP
  · -- the length written is the threshold of the reader
    have hfixed : p.lengthFixed = { p with length := 64 } := if_pos htype
    have htail : (c.consume (4 * 15)).all = encodeAll o [p.velocity, p.duration] ++ rest := by
      rw [hall, if_pos htype]
    have h2 := readFields_ok o htail
    rw [hfixed, if_pos ⟨htype, show (64 : Int) ≤ (64 : Word).toInt by decide⟩]
    simp only [ReadOutcome.ok, List.length_cons, List.length_nil] at h2 ⊢
    rw [h2]
    refine ⟨(c.consume (4 * 15)).consume (4 * 2), ?_, ?_⟩
    · simp only [IndPkt.received, if_pos htype]
      rfl
    · rw [Channel.all_consume, htail, List.drop_left' (by simp)]
  · have hfixed : p.lengthFixed = p := if_neg htype
    rw [hfixed, if_neg (fun h => htype h.1)]
    refine ⟨c.consume (4 * 15), ?_, ?_⟩
    · simp only [IndPkt.received, if_neg htype]
    · rw [hall, if_neg htype]
      rfl

/-! ## The stream -/

/-- **The round trip.** Whatever the packets and the targets, every read returns 0 and leaves
its target as the packet demands, and the stream is read exactly to its end. -/
theorem dsrlseAll_srliseAll (o : ByteOrder) (ps ts : List IndPkt) (c : Channel)
    (hlen : ts.length = ps.length) (hc : c.all = srliseAll o ps) :
    ∃ c', dsrlseAll o ts c =
        some (List.zipWith (fun p t => (0, p.received t)) ps ts, c') ∧ c'.all = [] := by
  induction ps generalizing ts c with
  | nil =>
    cases ts with
    | nil => exact ⟨c, rfl, hc⟩
    | cons t ts => cases hlen
  | cons p ps ih =>
    cases ts with
    | nil => cases hlen
    | cons t ts =>
      obtain ⟨c₁, hread, hrest⟩ := dsrlse_srlise o p t hc
      obtain ⟨c₂, hreads, hend⟩ := ih ts c₁ (Nat.succ.inj hlen) hrest
      refine ⟨c₂, ?_, hend⟩
      simp only [dsrlseAll, hread, hreads, Option.map_some, List.zipWith_cons_cons]

/-- A trajectory point with a wrong length, then a joint position, into targets that hold other
values. -/
theorem dsrlseAll_srliseAll_two :
    ∃ c', dsrlseAll .big
        [{ ipktReset with seqNr := 9, velocity := 1, duration := 2 },
          { ipktReset with velocity := 3, duration := 4 }]
        ⟨srliseAll .big
          [{ ipktReset with msgType := RI_MT_JTRAJP, seqNr := 1, velocity := 5, duration := 6 },
            { ipktReset with msgType := RI_MT_JOINTP, seqNr := 2, velocity := 7 }], []⟩ =
      some ([
        (0, { ipktReset with
          length := 64, msgType := RI_MT_JTRAJP, seqNr := 1, velocity := 5, duration := 6 }),
        (0, { ipktReset with
          msgType := RI_MT_JOINTP, seqNr := 2, velocity := 3, duration := 4 })], c') ∧
      c'.all = [] := by
  have hround := fun ps ts hlen =>
    dsrlseAll_srliseAll .big ps ts ⟨srliseAll .big ps, []⟩ hlen (List.append_nil _)
  obtain ⟨c', hread, hend⟩ := hround
    [{ ipktReset with msgType := RI_MT_JTRAJP, seqNr := 1, velocity := 5, duration := 6 },
      { ipktReset with msgType := RI_MT_JOINTP, seqNr := 2, velocity := 7 }]
    [{ ipktReset with seqNr := 9, velocity := 1, duration := 2 },
      { ipktReset with velocity := 3, duration := 4 }] rfl
  have htype : RI_MT_JOINTP ≠ RI_MT_JTRAJP := by decide
  refine ⟨c', ?_, hend⟩
  simpa only [List.zipWith_cons_cons, List.zipWith_nil_right, IndPkt.received, if_true,
    if_neg htype] using hread

end FanucDriver
