import FanucDriver.WeldCommand.Outputs

/-!
# The welding command relay (`ros_weld_relay.kl`)

* `iwdDsliceCmd`, `iwdSrliseReply`, `reqNext` — the routines around the socket.
* `Relay`, `poll` — one iteration of the inner loop; `discon` is the jump to `exit_discon`.
* `poll_cases` — what an iteration can do, also when an operation fails.
* `poll_idle`, `poll_packet` — an iteration without a packet, and one that takes a packet off
  the stream, executes it and replies.
-/

set_option autoImplicit false

namespace FanucDriver

open Wire

namespace WeldRelay

/-- What the controller decides in one iteration: the status of `BYTES_AHEAD` and how the
`READ` and the reply's `WRITE` end. -/
structure PollEnv where
  ahead : Nat
  read : ReadOutcome
  write : WriteOutcome
  deriving DecidableEq, Repr

def PollEnv.ok : PollEnv := ⟨0, .ok, .ok⟩

/-- `iwd_dslice_cmd`: the value returned, the packet and the channel; `none` while the `READ`
waits. -/
def iwdDsliceCmd (o : ByteOrder) (env : PollEnv) (pkt : IndWeldCmd) (c : Channel) :
    Option (Int × IndWeldCmd × Channel) :=
  if env.ahead ≠ 0 then some (-env.ahead, pkt, c)
  else if c.buf.length = 0 then some (0, pkt, c)
  else if c.buf.length < RI_SZ_HDR + 4 + 40 then some (0, pkt, c)
  else
    match readFields o env.read 15 c with
    | none => none
    | some (ws, stat, c) =>
      let pkt := pkt.assign ws
      if stat ≠ 0 then some (-stat, pkt, c)
      else if pkt.hdr.msgType ≠ RI_MT_WELDCMD then some (-1, pkt, c)
      else some (1, pkt, c)

/-- `iwd_srlise_reply`: the bytes sent and the value returned. -/
def iwdSrliseReply (o : ByteOrder) (w : WriteOutcome) (pkt : IndPkt) : Bytes × Int :=
  let r := writeSeq [w]
    [encodeAll o [pkt.length, pkt.msgType, pkt.commType, pkt.replyType, pkt.seqNr]]
  (r.1, -r.2)

/-- `req_next_`: the reply packet, the bytes sent and the value returned. -/
def reqNext (o : ByteOrder) (w : WriteOutcome) (cmdIn : IndWeldCmd) (pktOut : IndPkt) :
    IndPkt × Bytes × Int :=
  let pktOut := { pktOut with seqNr := cmdIn.seqNr }
  (pktOut, iwdSrliseReply o w pktOut)

structure Relay where
  weldCmdIn : IndWeldCmd
  pktOut : IndPkt
  idleCounter : Int
  outputs : Outputs

/-- The relay when it enters its inner loop for the first time. -/
def Relay.init (out : Outputs) : Relay where
  weldCmdIn := weldCmdInit
  pktOut := { ipktReset with
    length := BitVec.ofNat 32 RI_SZ_HDR
    msgType := RI_MT_WELDCMD
    commType := RI_CT_SVCRPL
    replyType := RI_RT_SUCC }
  idleCounter := 0
  outputs := out

/-- How an iteration ends. -/
structure Polled where
  relay : Relay
  chan : Channel
  sent : Bytes
  discon : Bool

/-- The branch of a received packet. -/
def processPacket (o : ByteOrder) (cfg : WeldCfg) (env : PollEnv) (r : Relay) (c : Channel) :
    Polled :=
  if r.weldCmdIn.seqNr = RI_SEQ_HB then
    let q := reqNext o env.write r.weldCmdIn { r.pktOut with replyType := RI_RT_SUCC }
    let r := { r with idleCounter := 0, pktOut := q.1 }
    if q.2.2 ≠ 0 then ⟨r, c, q.2.1, true⟩
    else ⟨{ r with weldCmdIn := r.weldCmdIn.clear }, c, q.2.1, false⟩
  else
    let e := execWeldCmd r.weldCmdIn cfg r.outputs
    let replyType := if e.2 ≠ 0 then RI_RT_FAIL else RI_RT_SUCC
    let q := reqNext o env.write r.weldCmdIn { r.pktOut with replyType := replyType }
    let r := { r with outputs := e.1, pktOut := q.1 }
    if q.2.2 ≠ 0 then ⟨r, c, q.2.1, true⟩
    else ⟨{ r with idleCounter := 0, weldCmdIn := r.weldCmdIn.clear }, c, q.2.1, false⟩

/-- One iteration of the inner loop; `none` while a `READ` waits. -/
def poll (o : ByteOrder) (cfg : WeldCfg) (env : PollEnv) (r : Relay) (c : Channel) :
    Option Polled :=
  match iwdDsliceCmd o env r.weldCmdIn c with
  | none => none
  | some (stat, pkt, c) =>
    let r := { r with weldCmdIn := pkt }
    if stat < 0 then some ⟨r, c, [], true⟩
    else if 0 < stat then some (processPacket o cfg env r c)
    else
      let r := { r with idleCounter := r.idleCounter + 1 }
      some ⟨r, c, [], cfg.hbEn && decide (10 * cfg.loopHz < r.idleCounter)⟩

/-! ## Replies -/

/-- The reply to the packet with number `seqNr`. -/
def replyBytes (o : ByteOrder) (seqNr : Word) : Bytes :=
  encodeAll o [BitVec.ofNat 32 RI_SZ_HDR, RI_MT_WELDCMD, RI_CT_SVCRPL, RI_RT_SUCC, seqNr]

@[simp] theorem replyBytes_length (o : ByteOrder) (seqNr : Word) :
    (replyBytes o seqNr).length = 20 := by
  rw [replyBytes, encodeAll_length]
  rfl

/-- The fields of `pkt_out_` that are set once. -/
structure Relay.ReplyHeader (r : Relay) : Prop where
  length : r.pktOut.length = BitVec.ofNat 32 RI_SZ_HDR
  msgType : r.pktOut.msgType = RI_MT_WELDCMD
  commType : r.pktOut.commType = RI_CT_SVCRPL

theorem Relay.init_replyHeader (out : Outputs) : (Relay.init out).ReplyHeader := ⟨rfl, rfl, rfl⟩

/-- The outputs after a packet. -/
def execPacket (cfg : WeldCfg) (out : Outputs) (pkt : IndWeldCmd) : Outputs :=
  if pkt.seqNr = RI_SEQ_HB then out else (execWeldCmd pkt cfg out).1

/-- What of a reply a `WRITE` sends. -/
def replySent (o : ByteOrder) (w : WriteOutcome) (seqNr : Word) : Bytes :=
  if w.stat = 0 then replyBytes o seqNr else (replyBytes o seqNr).take w.sent

theorem reqNext_spec (o : ByteOrder) (w : WriteOutcome) (cmdIn : IndWeldCmd) {pktOut : IndPkt}
    (hlen : pktOut.length = BitVec.ofNat 32 RI_SZ_HDR) (htype : pktOut.msgType = RI_MT_WELDCMD)
    (hcomm : pktOut.commType = RI_CT_SVCRPL) (hreply : pktOut.replyType = RI_RT_SUCC) :
    reqNext o w cmdIn pktOut =
      ({ pktOut with seqNr := cmdIn.seqNr }, replySent o w cmdIn.seqNr, -w.stat) := by
  simp only [reqNext, iwdSrliseReply, hlen, htype, hcomm, hreply, writeSeq, replySent, replyBytes]
  split
  · rename_i h
    simp [h]
  · rfl

theorem processPacket_spec (o : ByteOrder) (cfg : WeldCfg) (env : PollEnv) {r : Relay}
    (hr : r.ReplyHeader) (c : Channel) :
    (processPacket o cfg env r c).relay.ReplyHeader ∧
      (processPacket o cfg env r c).relay.outputs = execPacket cfg r.outputs r.weldCmdIn ∧
      (processPacket o cfg env r c).chan = c ∧
      (processPacket o cfg env r c).sent = replySent o env.write r.weldCmdIn.seqNr ∧
      (processPacket o cfg env r c).discon = decide (env.write.stat ≠ 0) := by
  obtain ⟨hlen, htype, hcomm⟩ := hr
  have hreq := reqNext_spec o env.write r.weldCmdIn
    (show ({ r.pktOut with replyType := RI_RT_SUCC } : IndPkt).length = _ from hlen) htype hcomm rfl
  have hexec : (execWeldCmd r.weldCmdIn cfg r.outputs).2 = 0 := rfl
  have hstat : (-env.write.stat ≠ 0) = (env.write.stat ≠ 0) := by
    rw [ne_eq, Int.neg_eq_zero]
  unfold processPacket execPacket
  by_cases hhb : r.weldCmdIn.seqNr = RI_SEQ_HB
  · rw [if_pos hhb, if_pos hhb, hreq]
    simp only [hstat]
    split
    · rename_i h
      exact ⟨⟨hlen, htype, hcomm⟩, rfl, rfl, rfl, (decide_eq_true h).symm⟩
    · rename_i h
      exact ⟨⟨hlen, htype, hcomm⟩, rfl, rfl, rfl, (decide_eq_false h).symm⟩
  · rw [if_neg hhb, if_neg hhb]
    simp only [hexec, ne_eq, not_true_eq_false, if_false, hreq]
    simp only [← ne_eq, hstat]
    split
    · rename_i h
      exact ⟨⟨hlen, htype, hcomm⟩, rfl, rfl, rfl, (decide_eq_true h).symm⟩
    · rename_i h
      exact ⟨⟨hlen, htype, hcomm⟩, rfl, rfl, rfl, (decide_eq_false h).symm⟩

/-! ## Iterations -/

/-- What `iwd_dslice_cmd` can do: fail, find too few bytes, or read fifteen words of the right
type. -/
theorem iwdDsliceCmd_cases {o : ByteOrder} {env : PollEnv} {pkt pkt' : IndWeldCmd}
    {c c' : Channel} {stat : Int} (h : iwdDsliceCmd o env pkt c = some (stat, pkt', c')) :
    stat < 0 ∨ (stat = 0 ∧ pkt' = pkt ∧ c' = c) ∨
      (stat = 1 ∧ 60 ≤ c.all.length ∧ pkt' = pkt.assign (decodeWords o 15 c.all) ∧
        c' = c.consume 60) := by
  unfold iwdDsliceCmd at h
  split at h
  · cases h
    exact .inl (by omega)
  · split at h
    · cases h
      exact .inr (.inl ⟨rfl, rfl, rfl⟩)
    · split at h
      · cases h
        exact .inr (.inl ⟨rfl, rfl, rfl⟩)
      · split at h
        · cases h
        · rename_i ws rstat c'' hread
          dsimp only at h
          split at h
          · cases h
            exact .inl (by omega)
          · rename_i hstat
            split at h
            · cases h
              exact .inl (by decide)
            · cases h
              refine .inr (.inr ⟨rfl, ?_⟩)
              obtain ⟨hle, rfl, rfl⟩ := readFields_stat_zero hread (not_not.mp hstat)
              exact ⟨hle, rfl, rfl⟩

/-- **What an iteration can do**: nothing but idle or disconnect, or take fifteen words off the
stream, execute them and reply. -/
theorem poll_cases {o : ByteOrder} {cfg : WeldCfg} {env : PollEnv} {r : Relay} {c : Channel}
    {res : Polled} (hr : r.ReplyHeader) (h : poll o cfg env r c = some res) :
    res.relay.ReplyHeader ∧
      ((res.relay.outputs = r.outputs ∧ res.sent = [] ∧ (res.discon = true ∨ res.chan = c)) ∨
        (60 ≤ c.all.length ∧ res.chan = c.consume 60 ∧
          res.relay.outputs =
            execPacket cfg r.outputs (r.weldCmdIn.assign (decodeWords o 15 c.all)) ∧
          res.sent = replySent o env.write (r.weldCmdIn.assign (decodeWords o 15 c.all)).seqNr)) := by
  have hhdr : ∀ pkt : IndWeldCmd, ({ r with weldCmdIn := pkt } : Relay).ReplyHeader :=
    fun _ => ⟨hr.length, hr.msgType, hr.commType⟩
  unfold poll at h
  split at h
  · cases h
  · rename_i stat pkt c' hdslice
    rcases iwdDsliceCmd_cases hdslice with hneg | ⟨rfl, rfl, rfl⟩ | ⟨rfl, hle, rfl, rfl⟩
    · rw [if_pos hneg] at h
      cases h
      exact ⟨hhdr _, .inl ⟨rfl, rfl, .inl rfl⟩⟩
    · cases h
      exact ⟨⟨hr.length, hr.msgType, hr.commType⟩, .inl ⟨rfl, rfl, .inr rfl⟩⟩
    · cases h
      obtain ⟨hr', hout, hchan, hsent, -⟩ := processPacket_spec o cfg env
        (hhdr (r.weldCmdIn.assign (decodeWords o 15 c.all))) (c.consume 60)
      exact ⟨hr', .inr ⟨hle, hchan, hout, hsent⟩⟩

/-- **No packet**: fewer bytes have arrived than the threshold, and nothing but the idle
counter changes. -/
theorem poll_idle (o : ByteOrder) (cfg : WeldCfg) (r : Relay) {c : Channel}
    (hc : c.buf.length < 56) :
    poll o cfg .ok r c = some ⟨{ r with idleCounter := r.idleCounter + 1 }, c, [],
      cfg.hbEn && decide (10 * cfg.loopHz < r.idleCounter + 1)⟩ := by
  have hdslice : iwdDsliceCmd o .ok r.weldCmdIn c = some (0, r.weldCmdIn, c) := by
    unfold iwdDsliceCmd
    rw [if_neg (fun h => h rfl)]
    split
    · rfl
    · exact if_pos hc
  simp only [poll, hdslice, Int.lt_irrefl, if_false]

/-- **A packet** is taken off the stream whole, whether or not its last bytes have arrived. -/
theorem poll_packet (o : ByteOrder) (cfg : WeldCfg) {r : Relay} (hr : r.ReplyHeader) {c : Channel}
    (hc : 56 ≤ c.buf.length) {p : WeldCommandPacket} (htype : p.msgType = RI_MT_WELDCMD)
    {rest : Bytes} (hall : c.all = sendBuf o p ++ rest) :
    ∃ r', poll o cfg .ok r c = some ⟨r', c.consume 60, replyBytes o p.seqNr, false⟩ ∧
      r'.ReplyHeader ∧
      r'.outputs = execPacket cfg r.outputs (r.weldCmdIn.assign p.words) := by
  have hfields : readFields o .ok 15 c = some (p.words, 0, c.consume 60) :=
    readFields_ok o (show c.all = encodeAll o p.words ++ rest by rw [hall, sendBuf_eq])
  have hdslice : iwdDsliceCmd o .ok r.weldCmdIn c =
      some (1, r.weldCmdIn.assign p.words, c.consume 60) := by
    have hmsg : ¬ (r.weldCmdIn.assign p.words).hdr.msgType ≠ RI_MT_WELDCMD := not_not.mpr htype
    unfold iwdDsliceCmd
    rw [if_neg (fun h => h rfl), if_neg (by omega),
      if_neg (show ¬ c.buf.length < RI_SZ_HDR + 4 + 40 from Nat.not_lt.mpr hc)]
    simp only [PollEnv.ok, hfields]
    rw [if_neg (not_not.mpr rfl), if_neg hmsg]
  have hpoll : poll o cfg .ok r c =
      some (processPacket o cfg .ok { r with weldCmdIn := r.weldCmdIn.assign p.words }
        (c.consume 60)) := by
    simp only [poll, hdslice]
    rfl
  obtain ⟨hr', hout, hchan, hsent, hdis⟩ := processPacket_spec o cfg .ok
    (r := { r with weldCmdIn := r.weldCmdIn.assign p.words })
    ⟨hr.length, hr.msgType, hr.commType⟩ (c.consume 60)
  refine ⟨_, ?_, hr', hout⟩
  rw [hpoll]
  refine congrArg some ?_
  have hsplit : ∀ q : Polled, q = ⟨q.relay, q.chan, q.sent, q.discon⟩ := fun _ => rfl
  rw [hsplit (processPacket _ _ _ _ _), hchan, hsent, hdis]
  rfl

end WeldRelay

end FanucDriver
