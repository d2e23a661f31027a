import FanucDriver.Motion.Replies
import FanucDriver.WeldCommand.Packet

/-!
# Which packets cause motion

The relay decides by the sequence number alone whether a packet is a point; nobody looks at the
message type.

* `IndPkt.Typed` — the two types `libind_pkt` can deserialise.
* `run_typed_iff` — only such packets write the position register or raise the data flag, in
  every run over a stream, exactly when no other packet of the stream has a point's sequence
  number.
* `exists_run_of_packet` — every packet of a stream is handled in some run, and a point is
  handed over in it.
* `weldCommand_moves` — a packet of the weld command node, sent to the wrong port.
-/

set_option autoImplicit false

namespace FanucDriver

open Wire

/-- A JOINT_POSITION (or JOINT) or a JOINT_TRAJ_PT packet. -/
def IndPkt.Typed (p : IndPkt) : Prop := p.msgType = RI_MT_JOINTP ∨ p.msgType = RI_MT_JTRAJP

namespace TrajRelay

open Handshake

variable {P : Type}

/-! ## Only points reach the registers -/

/-- The packet wrote the position register or raised the data flag. -/
def Handled.Moves (d : Handled) : Prop := d.setPos = true ∨ d.raised = true

theorem Handled.Quiet.not_moves {d : Handled} (h : d.Quiet) : ¬ d.Moves := by
  rintro (hpos | hdrdy)
  · rw [h.setPos] at hpos
    cases hpos
  · rw [h.raised] at hdrdy
    cases hdrdy

theorem Complete.point_of_moves {d : Handled} (h : Complete d) (hm : d.Moves) :
    0 ≤ d.pkt.seqNr.toInt := by
  cases h with
  | ignored _ _ _ quiet => exact absurd hm quiet.not_moves
  | stopped _ _ quiet => exact absurd hm quiet.not_moves
  | unacked _ _ _ _ quiet => exact absurd hm quiet.not_moves
  | moved seqNr => exact seqNr
  | nacked _ _ seqNr => exact seqNr

theorem Pc.Underway.point_of_moves {pc : Pc} {d : Handled} (h : pc.Underway)
    (hd : pc.current? = some d) (hm : d.Moves) : 0 ≤ d.pkt.seqNr.toInt := by
  cases pc with
  | poll | discon => cases hd
  | cancel | ackStop =>
    cases hd
    exact absurd hm h.2.2.not_moves
  | ackPoint =>
    cases hd
    exact h.1
  | execMove | nack =>
    cases hd
    exact h.1

theorem Recorded.point_of_moves {s : State P} (h : Recorded s) {d : Handled}
    (hd : d ∈ s.handlings) (hm : d.Moves) : 0 ≤ d.pkt.seqNr.toInt := by
  rcases List.mem_append.mp hd with hd | hd
  · exact (h.complete d hd).point_of_moves hm
  · exact h.underway.point_of_moves (Option.mem_toList.mp hd) hm

/-! ## Every packet is reached -/

/-- Between two packets, everything has arrived and `ROS_MOVESM` waits for a point. -/
structure Ready (s : State P) : Prop where
  pc : s.pc = .poll
  net : s.chan.net = []
  exec : s.hand.exec = .idle
  msm : s.hand.msm = .waitDrdy
  rdy : s.hand.rdy = true
  drdy : s.hand.drdy = false

/-- `t` is reached from `s` over the same connection. -/
def Reaches (env : Env P) (s t : State P) : Prop :=
  ∃ ls, Lts.Along (step env) OneConnection s ls ∧ Lts.run (step env) s ls = some t

theorem Reaches.trans {env : Env P} {s t u : State P} (h : Reaches env s t)
    (h' : Reaches env t u) : Reaches env s u := by
  obtain ⟨as, has, hst⟩ := h
  obtain ⟨bs, hbs, htu⟩ := h'
  exact ⟨as ++ bs, has.append hst hbs, Lts.run_append_some.mpr ⟨t, hst, htu⟩⟩

theorem Reaches.of_run {env : Env P} {s t : State P} (ls : List (Label P))
    (hone : ∀ l ∈ ls, ∀ u : State P, OneConnection u l)
    (hr : Lts.run (step env) s ls = some t) : Reaches env s t :=
  ⟨ls, Lts.along_of_forall hone, hr⟩

theorem Reaches.step {env : Env P} {s t : State P} {l : Label P}
    (hone : ∀ u : State P, OneConnection u l) (hs : step env s l = some t) : Reaches env s t :=
  ⟨[l], ⟨hone s, fun _ _ => trivial⟩, Lts.run_cons_some.mpr ⟨t, hs, rfl⟩⟩

/-- The statements of `exec_move_` and the lines of `ROS_MOVESM` up to the acknowledgement of a
point. -/
def handOverLabels (p : Received P) : List (Label P) :=
  List.replicate 7 (.exec ⟨0, true, p, 0⟩) ++ List.replicate 4 .msm

theorem run_handOverLabels (env : Env P) {s : State P} {d : Handled} {c : Call (Received P)}
    (hpc : s.pc = .execMove d) (hexec : s.hand.exec = .convert c) (hmsm : s.hand.msm = .waitDrdy)
    (hrdy : s.hand.rdy = true) :
    ∃ hand, Lts.run (step env) s (handOverLabels c.point.pos) =
        some { s with pc := .execMove { d with setPos := true, raised := true }, hand := hand } ∧
      hand.exec = .waitAck c ∧ hand.msm = .move ∧ hand.drdy = false := by
  obtain ⟨pc, pktIn, pktOut, chan, ⟨rdy, drdy, pr1, pr2, r1, r2, msm, exec, calls, handed, copied,
    moved, returned⟩, inMotion, sent, done, log⟩ := s
  dsimp only at hpc hexec hmsm hrdy
  subst hpc hexec hmsm hrdy
  exact ⟨_, rfl, rfl, rfl, rfl⟩

/-- The acknowledgement ends the call. -/
theorem step_acked (env : Env P) {s : State P} {d : Handled} {c : Call (Received P)}
    (hpc : s.pc = .execMove d) (hexec : s.hand.exec = .waitAck c) (hdrdy : s.hand.drdy = false)
    (out : Outcome (Received P)) :
    step env s (.exec out) =
      some (({ s with hand := s.hand.return c 0 } : State P).finish
        { d with result := some 0 } false) := by
  have hlast : lastResult (s.hand.return c 0) = 0 := by simp [lastResult, Handshake.State.return]
  have hidle : (s.hand.return c 0).exec = .idle := rfl
  have hnext : execStep s.hand out = some (s.hand.return c 0) := by
    simp only [execStep, hexec, hdrdy]
    rfl
  have hafter : d.after s.hand.exec = d := by rw [hexec]; rfl
  rw [step, hpc]
  simp only [hnext, Option.map_some, hafter, State.executed, hidle, hlast]
  rfl

/-- The motion line and the jump, and `ROS_MOVESM` waits for the next point. -/
theorem run_motion (env : Env P) {s : State P} (hpc : s.pc = .poll) (hnet : s.chan.net = [])
    (hexec : s.hand.exec = .idle) (hmsm : s.hand.msm = .move) (hdrdy : s.hand.drdy = false) :
    ∃ t, Lts.run (step env) s [.msm, .msm, .msm] = some t ∧ Ready t ∧ t.chan = s.chan ∧
      t.pktIn = s.pktIn ∧ t.done = s.done := by
  obtain ⟨pc, pktIn, pktOut, chan, ⟨rdy, drdy, pr1, pr2, r1, r2, msm, exec, calls, handed, copied,
    moved, returned⟩, inMotion, sent, done, log⟩ := s
  dsimp only at hpc hnet hexec hmsm hdrdy
  subst hpc hexec hmsm hdrdy
  exact ⟨_, rfl, ⟨rfl, hnet, rfl, rfl, rfl, rfl⟩, rfl, rfl, rfl⟩

theorem answer_nil_ret (env : Env P) (replyType : Word) (pktIn pktOut : IndPkt) :
    (answer env replyType [] pktIn pktOut).ret = 0 := by
  simp [answer, ipktSrlise]

/-- A stop is acknowledged. -/
theorem step_ackStop (env : Env P) {s : State P} {d : Handled} (hpc : s.pc = .ackStop d) :
    ∃ w, step env s (.write []) =
      some ((s.wrote w).stopAcked.finish (d.reply RI_RT_SUCC w) false) := by
  refine ⟨reqNext env [] s.pktIn s.pktOut, ?_⟩
  rw [step, writeStep, hpc]
  exact if_neg (not_not.mpr (answer_nil_ret env RI_RT_SUCC s.pktIn s.pktOut))

/-- A point is acknowledged and its call begins. -/
theorem step_ackPoint (env : Env P) {s : State P} {d : Handled} (hpc : s.pc = .ackPoint d)
    (hexec : s.hand.exec = .idle) :
    ∃ t e c, step env s (.write []) = some t ∧ t.pc = .execMove e ∧ e.pkt = d.pkt ∧
      t.hand.exec = .convert c ∧ t.hand.msm = s.hand.msm ∧ t.hand.rdy = s.hand.rdy ∧
      t.chan = s.chan ∧ t.pktIn.velocity = s.pktIn.velocity ∧
      t.pktIn.duration = s.pktIn.duration := by
  have hcall : Handshake.step s.hand (.call (s.point env)) = some { s.hand with
      exec := .convert ⟨s.hand.calls.length, s.point env⟩
      calls := s.hand.calls ++ [s.point env] } := by
    rw [Handshake.step, hexec]
  have hret : ¬ (reqNext env [] s.pktIn s.pktOut).ret ≠ 0 :=
    not_not.mpr (answer_nil_ret env RI_RT_SUCC s.pktIn s.pktOut)
  rw [step, writeStep, hpc]
  simp only [if_neg hret, hcall, Option.map_some]
  exact ⟨_, _, _, rfl, rfl, rfl, rfl, rfl, rfl, rfl, rfl, rfl⟩

/-- **A point whose statements all succeed is handed over and moved to.** -/
theorem exists_handOver (env : Env P) {s : State P} {d : Handled} (hpc : s.pc = .ackPoint d)
    (h : Ready { s with pc := .poll }) :
    ∃ t, Reaches env s t ∧ Ready t ∧ t.chan = s.chan ∧ t.pktIn.velocity = s.pktIn.velocity ∧
      t.pktIn.duration = s.pktIn.duration ∧ ∃ e ∈ t.done, e.pkt = d.pkt ∧ e.Moves := by
  obtain ⟨u, e, c, hack, hupc, hpkt, hexec, hmsm, hrdy, hchan, hv, hd⟩ :=
    step_ackPoint env hpc h.exec
  have hnet : u.chan.net = [] := by
    rw [hchan]
    exact h.net
  obtain ⟨hand, hover, hexec', hmsm', hdrdy'⟩ :=
    run_handOverLabels env hupc hexec (hmsm.trans h.msm) (hrdy.trans h.rdy)
  have hacked := step_acked env (s := { u with
    pc := .execMove { e with setPos := true, raised := true }, hand := hand })
    rfl hexec' hdrdy' ⟨0, true, c.point.pos, 0⟩
  obtain ⟨t, hmotion, hready, hchan', hpktIn, hdone⟩ := run_motion env
    (s := ({ u with
      pc := .execMove { e with setPos := true, raised := true }
      hand := hand.return c 0 } : State P).finish
      { e with setPos := true, raised := true, result := some 0 } false)
    rfl hnet rfl hmsm' hdrdy'
  have hone : ∀ l ∈ handOverLabels c.point.pos, ∀ v : State P, OneConnection v l := by
    intro l hl v
    rcases List.mem_append.mp hl with hl | hl
    · rw [List.eq_of_mem_replicate hl]
      trivial
    · rw [List.eq_of_mem_replicate hl]
      trivial
  refine ⟨t, ?_, hready, hchan'.trans hchan, hpktIn ▸ hv, hpktIn ▸ hd,
    { e with setPos := true, raised := true, result := some 0, discon := false }, ?_, hpkt,
    .inl rfl⟩
  · refine (Reaches.step (fun _ => by trivial) hack).trans ((Reaches.of_run _ hone hover).trans
      ((Reaches.step (fun _ => by trivial) hacked).trans (Reaches.of_run _ ?_ hmotion)))
    intro l hl v
    rw [List.eq_of_mem_replicate (n := 3) hl]
    trivial
  · rw [hdone]
    exact List.mem_append_right _ (List.mem_singleton.mpr rfl)

/-- A packet that has arrived is received. -/
theorem step_receive {env : Env P} {s : State P} (h : Ready s) {p : IndPkt} {rest : Bytes}
    (hnext : nextPacket env.byteOrder s.pktIn s.chan.all = some (p, rest)) :
    ∃ c, c.net = [] ∧ c.all = rest ∧
      step env s (.poll 0 .ok) = some ({ s with pktIn := p, chan := c } : State P).dispatch := by
  obtain ⟨c, hdsrlse, hall⟩ := nextPacket_iff.mp hnext
  obtain ⟨hle, hcases⟩ := ipktDsrlse_stat_zero hdsrlse
  have hbuf : s.chan.all = s.chan.buf := by rw [Channel.all, h.net, List.append_nil]
  have hcheck : ipktCheckfd env.byteOrder 0 .ok s.pktIn s.chan = some (1, p, c) := by
    have hbytes : RI_SZ_HDR + RI_SZB_JPOS ≤ s.chan.buf.length := by
      rw [← hbuf]
      exact Nat.le_trans (by decide) hle
    simp [ipktCheckfd, hbytes, hdsrlse]
  refine ⟨c, ?_, hall, ?_⟩
  · rcases hcases with ⟨-, -, rfl⟩ | ⟨-, -, -, rfl⟩ <;> simp [Channel.consume, h.net]
  · simp only [step, h.pc, hcheck, Option.map_some]
    rfl

/-- **One packet after the other**: from a state between two packets the next packet is
handled, and if it is a point it is handed over. -/
theorem exists_round {env : Env P} {s : State P} (h : Ready s) {p : IndPkt} {rest : Bytes}
    (hnext : nextPacket env.byteOrder s.pktIn s.chan.all = some (p, rest)) :
    ∃ t, Reaches env s t ∧ Ready t ∧ t.chan.all = rest ∧ t.pktIn.velocity = p.velocity ∧
      t.pktIn.duration = p.duration ∧
      ∃ d ∈ t.done, d.pkt = p ∧ (0 ≤ p.seqNr.toInt → d.Moves) := by
  obtain ⟨c, hnet, hall, hreceive⟩ := step_receive h hnext
  have hreach : Reaches env s ({ s with pktIn := p, chan := c } : State P).dispatch :=
    .step (fun _ => by trivial) hreceive
  generalize hd : (⟨p, [], none, false, false, false⟩ : Handled) = d at hreach
  have hpkt : d.pkt = p := by rw [← hd]
  by_cases hneg : p.seqNr.toInt < 0
  · by_cases hstop : p.seqNr.toInt = RI_SEQ_STPRJ
    · have hdispatch : ({ s with pktIn := p, chan := c } : State P).dispatch =
          { s with pktIn := p, chan := c, pc := .cancel d } := by
        unfold State.dispatch
        rw [if_pos hneg, if_pos hstop, ← hd]
      rw [hdispatch] at hreach
      obtain ⟨w, hack⟩ := step_ackStop env (s := { s with
        pktIn := p, chan := c, pc := .ackStop d, inMotion := none }) (d := d) rfl
      refine ⟨_, (hreach.trans (.step (l := .cancel) (fun _ => by trivial) rfl)).trans
        (.step (fun _ => by trivial) hack), ⟨rfl, hnet, h.exec, h.msm, h.rdy, h.drdy⟩, hall, rfl,
        rfl, _, List.mem_append_right _ (List.mem_singleton.mpr rfl), hpkt, ?_⟩
      intro hpos
      omega
    · have hdispatch : ({ s with pktIn := p, chan := c } : State P).dispatch =
          ({ s with pktIn := p, chan := c } : State P).finish d false := by
        unfold State.dispatch
        rw [if_pos hneg, if_neg hstop, ← hd]
      rw [hdispatch] at hreach
      refine ⟨_, hreach, ⟨rfl, hnet, h.exec, h.msm, h.rdy, h.drdy⟩, hall, rfl, rfl, _,
        List.mem_append_right _ (List.mem_singleton.mpr rfl), hpkt, ?_⟩
      intro hpos
      omega
  · have hdispatch : ({ s with pktIn := p, chan := c } : State P).dispatch =
        { s with pktIn := p, chan := c, pc := .ackPoint d } := by
      unfold State.dispatch
      rw [if_neg hneg, ← hd]
    rw [hdispatch] at hreach
    obtain ⟨t, hover, hready, hchan, hv, hdur, e, he, hepkt, hmoves⟩ := exists_handOver env
      (s := { s with pktIn := p, chan := c, pc := .ackPoint d }) (d := d) rfl
      ⟨rfl, hnet, h.exec, h.msm, h.rdy, h.drdy⟩
    exact ⟨t, hreach.trans hover, hready, hchan ▸ hall, hv, hdur, e, he, hepkt.trans hpkt,
      fun _ => hmoves⟩

/-- **Every packet of the stream is handled in some run**, and a point is handed over in it. -/
theorem exists_run_of_packet {env : Env P} (n : Nat) {s : State P} (h : Ready s) {p : IndPkt}
    (hp : p ∈ packets env.byteOrder n s.pktIn s.chan.all) :
    ∃ t, Reaches env s t ∧ ∃ d ∈ t.done, d.pkt = p ∧ (0 ≤ p.seqNr.toInt → d.Moves) := by
  induction n generalizing s with
  | zero => cases hp
  | succ n ih =>
    rw [packets] at hp
    split at hp
    · cases hp
    · rename_i q rest hnext
      obtain ⟨t, hreach, hready, hall, hv, hdur, d, hd, hpkt, hmoves⟩ := exists_round h hnext
      rcases List.mem_cons.mp hp with rfl | hp
      · exact ⟨t, hreach, d, hd, hpkt, hmoves⟩
      · rw [← hall, ← packets_congr hv hdur] at hp
        obtain ⟨u, hreach', hu⟩ := ih hready hp
        exact ⟨u, hreach.trans hreach', hu⟩

/-- Once the stream has arrived and `ROS_MOVESM` has started, the relay is between two
packets. -/
theorem exists_ready (env : Env P) (rdy drdy : Bool) (pr1 pr2 : Received P) (r1 r2 : Int)
    (stream : Bytes) :
    ∃ t, Reaches env (start (boot rdy drdy pr1 pr2 r1 r2) stream) t ∧ Ready t ∧
      t.pktIn = ipktReset ∧ t.chan.all = stream := by
  refine ⟨_, .of_run [.arrive stream.length, .msm, .msm, .msm] ?_ rfl,
    ⟨rfl, ?_, rfl, rfl, rfl, rfl⟩, rfl, ?_⟩
  · intro l hl u
    simp only [List.mem_cons, List.not_mem_nil, or_false] at hl
    rcases hl with rfl | rfl | rfl | rfl <;> trivial
  · exact List.drop_length
  · exact Channel.all_arrive _ _

/-- **Message types.**  In every run over a stream only packets of the two joint types write the
position register or raise the data flag, exactly when every packet of the stream with a
point's sequence number is of one of these types. -/
theorem run_typed_iff (env : Env P) (rdy drdy : Bool) (pr1 pr2 : Received P) (r1 r2 : Int)
    (stream : Bytes) :
    (∀ ls s, Lts.Along (step env) OneConnection (start (boot rdy drdy pr1 pr2 r1 r2) stream) ls →
        Lts.run (step env) (start (boot rdy drdy pr1 pr2 r1 r2) stream) ls = some s →
        ∀ d ∈ s.handlings, d.setPos = true ∨ d.raised = true → d.pkt.Typed) ↔
      ∀ n, ∀ p ∈ packets env.byteOrder n ipktReset stream, 0 ≤ p.seqNr.toInt → p.Typed := by
  constructor
  · intro h n p hp hpos
    obtain ⟨s, ⟨as, has, hs⟩, hready, hpktIn, hall⟩ :=
      exists_ready env rdy drdy pr1 pr2 r1 r2 stream
    rw [← hpktIn, ← hall] at hp
    obtain ⟨t, ⟨bs, hbs, ht⟩, d, hd, rfl, hmoves⟩ := exists_run_of_packet n hready hp
    exact h (as ++ bs) t (has.append hs hbs) (Lts.run_append_some.mpr ⟨s, hs, ht⟩) d
      (List.mem_append_left _ hd) (hmoves hpos)
  · intro h ls s hone hr d hd hm
    have hpkt : d.pkt ∈ s.received := List.mem_map.mpr ⟨d, hd, rfl⟩
    rw [← (run_onStream hone hr).received] at hpkt
    exact h _ _ hpkt ((run_recorded hr).point_of_moves hd hm)

/-- A weld command that starts the gas, sent to the trajectory relay. -/
def weldCommandOnly : State Word :=
  start (boot false false ⟨0, 0⟩ ⟨0, 0⟩ 0 0)
    (sendBuf .little (commandPacket 1 ⟨-1, -1, -1, -1, -1, -1, -1, 1, -1, -1⟩))

def weldCommandMoved : List (Label Word) :=
  [.arrive 60, .msm, .msm, .msm, .poll 0 .ok, .write []] ++ handOverLabels ⟨0, 0⟩ ++
    [.exec ⟨0, true, ⟨0, 0⟩, 0⟩, .msm]

/-- It is taken for a point, written to the position register and moved to. -/
theorem weldCommand_moves :
    Lts.Along (step plainEnv) OneConnection weldCommandOnly weldCommandMoved ∧
      ∃ s, Lts.run (step plainEnv) weldCommandOnly weldCommandMoved = some s ∧
        (s.done.map fun d => (d.pkt.msgType, d.setPos, d.raised)) =
          [(RI_MT_WELDCMD, true, true)] ∧
        s.log = [.started 0] := by
  refine ⟨by decide +kernel, ?_⟩
  have hrun : ((Lts.run (step plainEnv) weldCommandOnly weldCommandMoved).map fun s =>
      (s.done.map fun d => (d.pkt.msgType, d.setPos, d.raised), s.log)) =
      some ([(RI_MT_WELDCMD, true, true)], [.started 0]) := by decide +kernel
  obtain ⟨s, hs, heq⟩ := Option.map_eq_some_iff.mp hrun
  obtain ⟨hdone, hlog⟩ := Prod.mk.inj heq
  exact ⟨s, hs, hdone, hlog⟩

end TrajRelay

end FanucDriver
