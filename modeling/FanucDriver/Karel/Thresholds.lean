import FanucDriver.Karel.RoundTrip
import FanucDriver.WeldCommand.Relay

/-!
# How many bytes must be buffered before a packet is read

`ipkt_checkfd` and `iwd_dslice_cmd` ask `BYTES_AHEAD` whether there is enough for a packet before
they read one.  Their thresholds are sums of the header and the body and leave out the four bytes
of the length in front of them; the first is also that of the smaller of two packets.

* `IndPkt.Joint`, `IndPkt.size`, `NextPacket` — the packets of the motion relay, their sizes, and a
  socket on which one of them comes next.
* `ipktCheckfd_below`, `ipktCheckfd_above` — the two sides of the threshold;
  `ipktCheckfd_untouched_iff` — when an incomplete packet is left alone.
* `iwdDsliceCmd_below`, `iwdDsliceCmd_above`, `iwdDsliceCmd_untouched_iff` — the same for welding
  commands.
-/

set_option autoImplicit false

namespace FanucDriver

open Wire

/-! ## Joint packets -/

/-- A JOINT_POSITION or a JOINT_TRAJ_PT with its length. -/
def IndPkt.Joint (p : IndPkt) : Prop :=
  (p.msgType = RI_MT_JOINTP ∧ p.length = 56) ∨ (p.msgType = RI_MT_JTRAJP ∧ p.length = 64)

/-- The bytes of a packet, those of the length included. -/
def IndPkt.size (p : IndPkt) : Nat := 4 + p.length.toNat

/-- What has been sent and not read begins with the packet, or is a beginning of it. -/
def NextPacket (o : ByteOrder) (q : IndPkt) (c : Channel) : Prop :=
  ∃ rest, c.all <+: (ipktSrlise o false [] q).2.1 ++ rest

theorem IndPkt.Joint.size_eq {q : IndPkt} (h : q.Joint) :
    q.size = if q.msgType = RI_MT_JTRAJP then 68 else 60 := by
  rcases h with ⟨htype, hlen⟩ | ⟨htype, hlen⟩
  · rw [IndPkt.size, hlen, if_neg (by rw [htype]; decide)]
    rfl
  · rw [IndPkt.size, hlen, if_pos htype]
    rfl

theorem ipktSrlise_length (o : ByteOrder) {q : IndPkt} (h : q.Joint) :
    (ipktSrlise o false [] q).2.1.length = q.size := by
  rw [h.size_eq, ipktSrlise_ok, encodeAll_length, IndPkt.sentWords, List.length_append,
    IndPkt.words_length]
  split <;> rfl

/-- **Below the threshold** nothing is read. -/
theorem ipktCheckfd_below (o : ByteOrder) (r : ReadOutcome) (p : IndPkt) {c : Channel}
    (h : c.buf.length < 56) : ipktCheckfd o 0 r p c = some (0, p, c) := by
  unfold ipktCheckfd
  rw [if_neg (by decide),
    if_neg (show ¬ RI_SZ_HDR + RI_SZB_JPOS ≤ c.buf.length from Nat.not_le.mpr h)]

/-- **From the threshold on** a packet is read, and the call does not return 0. -/
theorem ipktCheckfd_above {o : ByteOrder} {r : ReadOutcome} {p q : IndPkt} {c c' : Channel}
    {stat : Int} (h : 56 ≤ c.buf.length) (hcheck : ipktCheckfd o 0 r p c = some (stat, q, c')) :
    stat ≠ 0 := by
  unfold ipktCheckfd at hcheck
  rw [if_neg (by decide), if_pos (show RI_SZ_HDR + RI_SZB_JPOS ≤ c.buf.length from h)] at hcheck
  split at hcheck
  · cases hcheck
  · split at hcheck
    · rename_i hstat
      cases hcheck
      omega
    · cases hcheck
      decide

/-- A packet that is not all there keeps the reader waiting. -/
theorem ipktDsrlse_waits (o : ByteOrder) (p : IndPkt) {q : IndPkt} (hq : q.Joint) {c : Channel}
    (hnext : NextPacket o q c) (h : c.all.length < q.size) : ipktDsrlse o .ok p c = none := by
  unfold ipktDsrlse
  by_cases h15 : c.all.length < 4 * 15
  · rw [readFields_of_lt h15]
  · -- the fifteen words have been sent, the velocity and the duration have not
    have hsize := hq.size_eq
    have htype : q.msgType = RI_MT_JTRAJP := by
      by_contra hne
      rw [if_neg hne] at hsize
      omega
    obtain ⟨rest, hpre⟩ := hnext
    have hfixed : q.lengthFixed = { q with length := 64 } := if_pos htype
    have hwords : encodeAll o q.lengthFixed.words <+: c.all := by
      refine List.prefix_of_prefix_length_le ?_ hpre ?_
      · rw [ipktSrlise_ok, IndPkt.sentWords, encodeAll_append, List.append_assoc]
        exact List.prefix_append _ _
      · rw [encodeAll_length, IndPkt.words_length]
        omega
    obtain ⟨more, hmore⟩ := hwords
    have hread := readFields_ok o hmore.symm
    rw [IndPkt.words_length] at hread
    simp only [hread, IndPkt.assign_words]
    rw [if_neg (fun h => h rfl), hfixed,
      if_pos ⟨htype, show (64 : Int) ≤ (64 : Word).toInt by decide⟩]
    have hwait : readFields o .ok 2 (c.consume (4 * 15)) = none := by
      apply readFields_of_lt
      rw [if_pos htype] at hsize
      rw [Channel.all_consume, List.length_drop]
      omega
    have hok : (⟨ReadOutcome.ok.stat, ReadOutcome.ok.got - 15⟩ : ReadOutcome) = .ok := rfl
    rw [hok, hwait]

/-- **When an incomplete joint packet is left alone**: unless 56 bytes of it are buffered.  From
there on the `READ`s take what there is and wait for the rest; a whole packet is read without
waiting. -/
theorem ipktCheckfd_untouched_iff (o : ByteOrder) (ahead : Nat) (r : ReadOutcome) (p q : IndPkt)
    (c : Channel) (hq : q.Joint) (hnext : NextPacket o q c) :
    (ahead ≠ 0 → ipktCheckfd o ahead r p c = some (-(ahead : Int), p, c)) ∧
    (ahead = 0 →
      ((c.buf.length < q.size → ipktCheckfd o ahead r p c = some (0, p, c)) ↔
        ¬ (56 ≤ c.buf.length ∧ c.buf.length < q.size)) ∧
      (56 ≤ c.buf.length → c.all.length < q.size → ipktCheckfd o ahead .ok p c = none) ∧
      (q.size ≤ c.buf.length → ∃ c', ipktCheckfd o ahead .ok p c = some (1, q.received p, c') ∧
        c'.all = c.all.drop q.size)) := by
  refine ⟨fun hahead => if_pos hahead, ?_⟩
  rintro rfl
  refine ⟨⟨?_, ?_⟩, ?_, ?_⟩
  · rintro h ⟨h56, hsize⟩
    exact ipktCheckfd_above h56 (h hsize) rfl
  · intro h hsize
    exact ipktCheckfd_below o r p (by omega)
  · intro h56 hsize
    unfold ipktCheckfd
    rw [if_neg (by decide), if_pos (show RI_SZ_HDR + RI_SZB_JPOS ≤ c.buf.length from h56),
      ipktDsrlse_waits o p hq hnext hsize]
  · intro hsize
    have hle := c.buf_length_le
    have hlen := ipktSrlise_length o hq
    obtain ⟨rest, hpre⟩ := hnext
    obtain ⟨more, hmore⟩ : (ipktSrlise o false [] q).2.1 <+: c.all :=
      List.prefix_of_prefix_length_le (List.prefix_append _ rest) hpre (by omega)
    obtain ⟨c', hread, hrest⟩ := dsrlse_srlise o q p hmore.symm
    have h56 : 56 ≤ c.buf.length := by
      have := hq.size_eq
      split at this <;> omega
    refine ⟨c', ?_, ?_⟩
    · unfold ipktCheckfd
      rw [if_neg (by decide), if_pos (show RI_SZ_HDR + RI_SZB_JPOS ≤ c.buf.length from h56), hread]
      rfl
    · rw [hrest, ← hmore, List.drop_left' hlen]

/-- A trajectory point of which 40 bytes have arrived. -/
theorem ipktCheckfd_untouched_iff_forty :
    ipktCheckfd .big 0 .ok ipktReset ⟨(ipktSrlise .big false []
        { ipktReset with msgType := RI_MT_JTRAJP, length := 64 }).2.1.take 40, []⟩ =
      some (0, ipktReset, ⟨(ipktSrlise .big false []
        { ipktReset with msgType := RI_MT_JTRAJP, length := 64 }).2.1.take 40, []⟩) := by
  have hnext : NextPacket .big { ipktReset with msgType := RI_MT_JTRAJP, length := 64 }
      ⟨(ipktSrlise .big false []
        { ipktReset with msgType := RI_MT_JTRAJP, length := 64 }).2.1.take 40, []⟩ := by
    refine ⟨[], ?_⟩
    rw [Channel.all, List.append_nil, List.append_nil]
    exact List.take_prefix _ _
  exact (((ipktCheckfd_untouched_iff .big 0 .ok ipktReset _ _ (.inr ⟨rfl, rfl⟩) hnext).2 rfl).1.mpr
    (by decide +kernel)) (by decide +kernel)

/-- With 56 of the 60 bytes of a joint position buffered the call waits inside the packet; with 60
of the 68 of a trajectory point it waits behind its joints. -/
theorem ipktCheckfd_reads_partial :
    ipktCheckfd .little 0 .ok ipktReset ⟨(ipktSrlise .little false []
        { ipktReset with msgType := RI_MT_JOINTP }).2.1.take 56, []⟩ = none ∧
    ipktCheckfd .little 0 .ok ipktReset ⟨(ipktSrlise .little false []
        { ipktReset with msgType := RI_MT_JTRAJP, length := 64 }).2.1.take 60, []⟩ = none := by
  decide +kernel

/-! ## Welding commands -/

namespace WeldRelay

theorem iwdDsliceCmd_below (o : ByteOrder) {env : PollEnv} (hahead : env.ahead = 0)
    (pkt : IndWeldCmd) {c : Channel} (h : c.buf.length < 56) :
    iwdDsliceCmd o env pkt c = some (0, pkt, c) := by
  unfold iwdDsliceCmd
  rw [if_neg (not_not.mpr hahead)]
  split
  · rfl
  · exact if_pos h

/-- From the threshold on the fifteen words are read, and the call does not return 0. -/
theorem iwdDsliceCmd_above {o : ByteOrder} {env : PollEnv} {pkt pkt' : IndWeldCmd}
    {c c' : Channel} {stat : Int} (hahead : env.ahead = 0) (h : 56 ≤ c.buf.length)
    (hslice : iwdDsliceCmd o env pkt c = some (stat, pkt', c')) : stat ≠ 0 := by
  unfold iwdDsliceCmd at hslice
  rw [if_neg (not_not.mpr hahead), if_neg (by omega),
    if_neg (show ¬ c.buf.length < RI_SZ_HDR + 4 + 40 from Nat.not_lt.mpr h)] at hslice
  split at hslice
  · cases hslice
  · dsimp only at hslice
    split at hslice
    · rename_i hstat
      cases hslice
      omega
    · split at hslice
      · cases hslice
        decide
      · cases hslice
        decide

/-- With a whole packet there the fifteen words are read without waiting. -/
theorem iwdDsliceCmd_whole (o : ByteOrder) (env : PollEnv) (pkt : IndWeldCmd) {c : Channel}
    (h : 60 ≤ c.buf.length) : iwdDsliceCmd o env pkt c ≠ none := by
  have hle := c.buf_length_le
  have hread : readFields o env.read 15 c ≠ none := by
    unfold readFields
    dsimp only
    rw [if_pos]
    · simp
    · split <;> omega
  unfold iwdDsliceCmd
  split
  · simp
  · split
    · simp
    · split
      · simp
      · split
        · rename_i hnone
          exact absurd hnone hread
        · dsimp only
          split
          · simp
          · split <;> simp

theorem poll_ne_none {o : ByteOrder} {cfg : WeldCfg} {env : PollEnv} {r : Relay} {c : Channel}
    (h : iwdDsliceCmd o env r.weldCmdIn c ≠ none) : poll o cfg env r c ≠ none := by
  unfold poll
  split
  · rename_i hnone
    exact absurd hnone h
  · split
    · simp
    · split <;> simp

/-- **When an incomplete welding command is left alone**: unless 56 of its 60 bytes are buffered;
and then the main loop does not wait inside a packet either. -/
theorem iwdDsliceCmd_untouched_iff (o : ByteOrder) (env : PollEnv) (pkt : IndWeldCmd)
    (c : Channel) :
    (env.ahead ≠ 0 → iwdDsliceCmd o env pkt c = some (-(env.ahead : Int), pkt, c)) ∧
    (env.ahead = 0 →
      ((c.buf.length < 60 → iwdDsliceCmd o env pkt c = some (0, pkt, c)) ↔
        ¬ (56 ≤ c.buf.length ∧ c.buf.length < 60))) ∧
    (¬ (56 ≤ c.buf.length ∧ c.buf.length < 60) → ∀ cfg r, poll o cfg env r c ≠ none) := by
  refine ⟨fun hahead => if_pos hahead, fun hahead => ⟨?_, ?_⟩, ?_⟩
  · rintro h ⟨h56, hsize⟩
    exact iwdDsliceCmd_above hahead h56 (h hsize) rfl
  · intro h hsize
    exact iwdDsliceCmd_below o hahead pkt (by omega)
  · intro h cfg r
    apply poll_ne_none
    by_cases hahead : env.ahead = 0
    · by_cases h56 : c.buf.length < 56
      · rw [iwdDsliceCmd_below o hahead _ h56]
        simp
      · exact iwdDsliceCmd_whole o env _ (by omega)
    · unfold iwdDsliceCmd
      rw [if_pos hahead]
      simp

/-- A command of which 40 bytes have arrived. -/
theorem iwdDsliceCmd_untouched_iff_forty :
    iwdDsliceCmd .big .ok weldCmdInit ⟨(sendBuf .big (commandPacket 1 startGas)).take 40, []⟩ =
      some (0, weldCmdInit, ⟨(sendBuf .big (commandPacket 1 startGas)).take 40, []⟩) :=
  (((iwdDsliceCmd_untouched_iff .big .ok weldCmdInit _).2.1 rfl).mpr (by decide +kernel))
    (by decide +kernel)

/-- With 56 of the 60 bytes buffered the relay waits inside the command. -/
theorem iwdDsliceCmd_reads_partial :
    iwdDsliceCmd .big .ok weldCmdInit
      ⟨(sendBuf .big (commandPacket 1 startGas)).take 56, []⟩ = none := by
  decide +kernel

end WeldRelay

end FanucDriver
