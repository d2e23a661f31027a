import FanucDriver.Lib.WorkQueue
import FanucDriver.WeldCommand.System

/-!
# Every command is executed once, in order

With no error on the robot's side, node, connection and relay are together a queue of packets:
`Sim` relates a state of the system to one of `WorkQueue`, whose items are the packets and whose
state is the controller's outputs, and `step_sim` matches every step.

* `run_sim` — every run is matched by a run of the queue.
* `run_consumed` — once the relay has consumed the stream its outputs are those of the commands
  applied one after the other, and there is one reply for each packet.
* `run_drains` — from any reachable state the relay consumes the stream when all bytes arrive
  and it is polled often enough.
-/

set_option autoImplicit false

namespace FanucDriver

open Wire WeldRelay

namespace WeldLink

/-- The iteration meets no error. -/
def Label.NoError : Label → Prop
  | .poll env => env = .ok
  | _ => True

/-- What executing a packet does to the outputs. -/
def execSent (cfg : WeldCfg) (out : Outputs) (p : Sent) : Outputs :=
  execPacket cfg out (weldCmdInit.assign p.packet.words)

/-- The waiting packets are the unread bytes; the executed ones have been replied to. -/
structure Sim (o : ByteOrder) (s : System) (w : WorkQueue.State Sent Outputs) : Prop where
  stream : s.toRobot.all = w.todo.flatMap fun p => sendBuf o p.packet
  sent : s.sent = w.done ++ w.todo
  outputs : s.relay.outputs = w.acc
  replies : s.replies = w.done.flatMap fun p => replyBytes o p.packet.seqNr
  header : s.relay.ReplyHeader
  online : s.online = true

theorem sim_init (o : ByteOrder) (out : Outputs) : Sim o (.init out) (WorkQueue.init out) where
  stream := rfl
  sent := rfl
  outputs := rfl
  replies := rfl
  header := Relay.init_replyHeader out
  online := rfl

/-- A packet more at the end of the stream. -/
theorem Sim.submit {o : ByteOrder} {s t : System} {w : WorkQueue.State Sent Outputs}
    (h : Sim o s w) (p : Sent) (hstream : t.toRobot.all = s.toRobot.all ++ sendBuf o p.packet)
    (hsent : t.sent = s.sent ++ [p]) (hrelay : t.relay = s.relay) (hreplies : t.replies = s.replies)
    (honline : t.online = s.online) : Sim o t { w with todo := w.todo ++ [p] } where
  stream := by
    rw [hstream, h.stream, List.flatMap_append]
    simp only [List.flatMap_cons, List.flatMap_nil, List.append_nil]
  sent := by rw [hsent, h.sent, List.append_assoc]
  outputs := by rw [hrelay, h.outputs]
  replies := by rw [hreplies, h.replies]
  header := hrelay ▸ h.header
  online := honline.trans h.online

/-- A step that leaves the stream, the relay and the packets alone. -/
theorem Sim.keep {o : ByteOrder} {s t : System} {w : WorkQueue.State Sent Outputs}
    (h : Sim o s w) (hstream : t.toRobot.all = s.toRobot.all) (hsent : t.sent = s.sent)
    (hrelay : t.relay = s.relay) (hreplies : t.replies = s.replies)
    (honline : t.online = s.online) : Sim o t w where
  stream := hstream.trans h.stream
  sent := hsent.trans h.sent
  outputs := by rw [hrelay, h.outputs]
  replies := hreplies.trans h.replies
  header := hrelay ▸ h.header
  online := honline.trans h.online

theorem Sent.msgType (p : Sent) : p.packet.msgType = RI_MT_WELDCMD := by
  cases p <;> rfl

/-- **A polled packet**: the front of the queue is executed and replied to. -/
theorem poll_front {o : ByteOrder} (cfg : WeldCfg) {s : System} {w : WorkQueue.State Sent Outputs}
    (h : Sim o s w) (hopen : s.opened = true) (hbuf : 56 ≤ s.toRobot.buf.length) :
    ∃ p ps t, w.todo = p :: ps ∧ step o cfg s (.poll .ok) = some t ∧
      t.toRobot = s.toRobot.consume 60 ∧ t.opened = true ∧
      Sim o t ⟨w.done ++ [p], ps, execSent cfg w.acc p⟩ := by
  have hne : s.toRobot.all ≠ [] := by
    intro hnil
    have := Channel.buf_length_le s.toRobot
    rw [hnil, List.length_nil] at this
    omega
  cases htodo : w.todo with
  | nil => exact absurd (by rw [h.stream, htodo]; rfl) hne
  | cons p ps =>
    have hall : s.toRobot.all = sendBuf o p.packet ++ ps.flatMap fun p => sendBuf o p.packet := by
      rw [h.stream, htodo, List.flatMap_cons]
    obtain ⟨r', hpoll, hr', hout⟩ := poll_packet o cfg h.header hbuf (Sent.msgType p) hall
    have hstep : step o cfg s (.poll .ok) = some { s with
        relay := r'
        online := true
        toRobot := s.toRobot.consume 60
        toNode := s.toNode.send (replyBytes o p.packet.seqNr)
        replies := s.replies ++ replyBytes o p.packet.seqNr } := by
      rw [step, if_pos ⟨hopen, h.online⟩, hpoll]
      rfl
    refine ⟨p, ps, _, rfl, hstep, rfl, hopen, ?_, ?_, ?_, ?_, hr', rfl⟩
    · rw [Channel.all_consume, hall, List.drop_left' (sendBuf_length o p.packet)]
    · rw [List.append_assoc, List.singleton_append, ← htodo, ← h.sent]
    · rw [hout, h.outputs]
      rfl
    · simp only [h.replies, List.flatMap_append, List.flatMap_cons, List.flatMap_nil,
        List.append_nil]

theorem step_sim {o : ByteOrder} {cfg : WeldCfg} (hhb : cfg.hbEn = false) (s : System) (l : Label)
    (t : System) (w : WorkQueue.State Sent Outputs) (h : Sim o s w) (hl : l.NoError)
    (hs : step o cfg s l = some t) :
    ∃ ls w', Lts.run (WorkQueue.step (execSent cfg)) w ls = some w' ∧ Sim o t w' := by
  cases step_trans hs with
  | command msg =>
    exact ⟨[.submit (.command _ msg)], _, rfl,
      h.submit (.command _ msg) (Channel.all_send _ _) rfl rfl rfl rfl⟩
  | heartbeat =>
    exact ⟨[.submit .heartbeat], _, rfl, h.submit .heartbeat (Channel.all_send _ _) rfl rfl rfl rfl⟩
  | arrive => exact ⟨[], w, rfl, h.keep (Channel.all_arrive _ _) rfl rfl rfl rfl⟩
  | skipped | recv | deliver => exact ⟨[], w, rfl, h.keep rfl rfl rfl rfl rfl⟩
  | poll env res hopen honline hpoll =>
    cases hl
    by_cases hbuf : s.toRobot.buf.length < 56
    · rw [poll_idle o cfg s.relay hbuf, hhb] at hpoll
      cases hpoll
      refine ⟨[], w, rfl, h.stream, h.sent, h.outputs, ?_, ?_, rfl⟩
      · simp only [List.append_nil]
        exact h.replies
      · exact ⟨h.header.length, h.header.msgType, h.header.commType⟩
    · obtain ⟨p, ps, t', htodo, hstep, -, -, hsim⟩ := poll_front cfg h hopen (Nat.le_of_not_lt hbuf)
      rw [hstep] at hs
      cases hs
      refine ⟨[.exec], _, ?_, hsim⟩
      simp only [Lts.run_cons, WorkQueue.step, htodo, Option.bind_some, Lts.run_nil]

/-- **The system is a queue of packets.** -/
theorem run_sim {o : ByteOrder} {cfg : WeldCfg} (hhb : cfg.hbEn = false) {out : Outputs}
    {ls : List Label} {s : System} (hio : ∀ l ∈ ls, l.NoError)
    (hr : Lts.run (step o cfg) (.init out) ls = some s) :
    ∃ bs w, Lts.run (WorkQueue.step (execSent cfg)) (WorkQueue.init out) bs = some w ∧
      Sim o s w :=
  Lts.run_sim_along (step_sim hhb) (sim_init o out) (Lts.along_of_forall fun l hl _ => hio l hl) hr

/-- **The stream is consumed** when its bytes have arrived and the relay goes on polling. -/
theorem sim_drains {o : ByteOrder} (cfg : WeldCfg) {ps : List Sent} {s : System}
    {w : WorkQueue.State Sent Outputs} (h : Sim o s w) (htodo : w.todo = ps)
    (hopen : s.opened = true) (hnet : s.toRobot.net = []) :
    ∃ t, Lts.run (step o cfg) s (List.replicate ps.length (.poll .ok)) = some t ∧
      t.toRobot.all = [] := by
  induction ps generalizing s w with
  | nil => exact ⟨s, rfl, by rw [h.stream, htodo]; rfl⟩
  | cons p ps ih =>
    have hbuf : 56 ≤ s.toRobot.buf.length := by
      have := congrArg List.length h.stream
      rw [Channel.all, hnet, htodo, List.append_nil, List.flatMap_cons, List.length_append,
        sendBuf_length] at this
      omega
    obtain ⟨p', ps', t, htodo', hstep, hchan, hopen', hsim⟩ := poll_front cfg h hopen hbuf
    rw [htodo] at htodo'
    cases htodo'
    have hnet' : t.toRobot.net = [] := by rw [hchan, Channel.consume, hnet, List.drop_nil]
    obtain ⟨u, hu, hdone⟩ := ih hsim rfl hopen' hnet'
    refine ⟨u, ?_, hdone⟩
    rw [List.length_cons, List.replicate_succ, Lts.run_cons, hstep]
    exact hu

theorem run_drains {o : ByteOrder} {cfg : WeldCfg} (hhb : cfg.hbEn = false) {out : Outputs}
    {ls : List Label} {s : System} (hio : ∀ l ∈ ls, l.NoError)
    (hr : Lts.run (step o cfg) (.init out) ls = some s) (hopen : s.opened = true) :
    ∃ n t, Lts.run (step o cfg) s
        (.arrive s.toRobot.net.length :: List.replicate n (.poll .ok)) = some t ∧
      t.toRobot.all = [] := by
  obtain ⟨bs, w, -, hsim⟩ := run_sim hhb hio hr
  have hsim' : Sim o { s with toRobot := s.toRobot.arrive s.toRobot.net.length } w :=
    hsim.keep (Channel.all_arrive _ _) rfl rfl rfl rfl
  obtain ⟨t, ht, hdone⟩ := sim_drains cfg hsim' rfl hopen
    (by rw [Channel.arrive, List.drop_length])
  exact ⟨w.todo.length, t, ht, hdone⟩

/-! ## The outputs -/

/-- Executing the packets is applying the commands. -/
theorem foldl_execSent {cfg : WeldCfg} (hcfg : cfg.Distinct) {ps : List Sent}
    {ms : List WeldCommand} {k : Nat} {out : Outputs}
    (hnum : ps.filterMap Sent.command? = numbered k ms) (hk : k + ms.length ≤ 4294967185)
    (hdom : ∀ m ∈ ms, ∀ f, m.dout f = 0 ∨ m.dout f = 1 ∨ m.dout f = NO_CHANGE) :
    ps.foldl (execSent cfg) out = ms.foldl (applyCommand cfg) out := by
  induction ps generalizing ms k out with
  | nil =>
    cases ms with
    | nil => rfl
    | cons m ms => cases hnum
  | cons p ps ih =>
    cases p with
    | heartbeat =>
      rw [List.foldl_cons, show execSent cfg out .heartbeat = out from rfl]
      exact ih hnum hk hdom
    | command seqNr m =>
      cases ms with
      | nil => cases hnum
      | cons m' ms =>
        simp only [List.filterMap_cons, Sent.command?, numbered, List.cons.injEq,
          Prod.mk.injEq] at hnum
        obtain ⟨⟨rfl, rfl⟩, hnum⟩ := hnum
        rw [List.length_cons] at hk
        -- the count stays below the number the relay takes for a heartbeat
        have hseq : (BitVec.ofNat 32 (k + 1)) ≠ RI_SEQ_HB := by
          intro h
          have := congrArg BitVec.toNat h
          rw [BitVec.toNat_ofNat, show RI_SEQ_HB.toNat = 4294967186 from rfl] at this
          omega
        have hexec : execSent cfg out (.command (BitVec.ofNat 32 (k + 1)) m) =
            applyCommand cfg out m :=
          (if_neg hseq).trans (congrArg Prod.fst
            (execWeldCmd_eq_apply hcfg weldCmdInit _ out (hdom m List.mem_cons_self)))
        rw [List.foldl_cons, List.foldl_cons, hexec]
        apply ih hnum (by omega)
        intro m' hm'
        exact hdom m' (List.mem_cons_of_mem m hm')

/-- **Exactly the commands sent.** Once the relay has consumed the stream, its outputs are those
of the commands applied in order, each once, and it has written one reply for each packet, with
that packet's number. -/
theorem run_consumed {o : ByteOrder} {cfg : WeldCfg} (hcfg : cfg.Distinct)
    (hhb : cfg.hbEn = false) {out : Outputs} {ls : List Label} {s : System}
    (hio : ∀ l ∈ ls, l.NoError)
    (hdom : ∀ m ∈ commands ls, ∀ f, m.dout f = 0 ∨ m.dout f = 1 ∨ m.dout f = NO_CHANGE)
    (hcount : (commands ls).length ≤ 4294967185)
    (hr : Lts.run (step o cfg) (.init out) ls = some s) (hdone : s.toRobot.all = []) :
    s.relay.outputs = (commands ls).foldl (applyCommand cfg) out ∧
      s.sent.filterMap Sent.command? = numbered 0 (commands ls) ∧
      s.replies = s.sent.flatMap fun p => replyBytes o p.packet.seqNr := by
  obtain ⟨bs, w, hw, hsim⟩ := run_sim hhb hio hr
  have hsent := run_sent hr
  have htodo : w.todo = [] := by
    cases hw' : w.todo with
    | nil => rfl
    | cons p ps =>
      have := congrArg List.length hsim.stream
      rw [hdone, hw', List.flatMap_cons, List.length_append, sendBuf_length,
        List.length_nil] at this
      omega
  have hacc := (WorkQueue.run_spec hw).2
  have hall : s.sent = w.done := by rw [hsim.sent, htodo, List.append_nil]
  refine ⟨?_, hsent, by rw [hsim.replies, hall]⟩
  rw [hsim.outputs, hacc, ← hall]
  exact foldl_execSent hcfg hsent (by omega) hdom

/-- One command, whose bytes arrive in two pieces, between two heartbeats. -/
def twoPieces : List Label :=
  [.heartbeat, .command startGas, .arrive 58, .recv (.data 20), .poll .ok, .arrive 2, .heartbeat,
    .recv (.data 20), .arrive 60, .poll .ok, .poll .ok]

theorem run_consumed_twoPieces :
    ∃ s, Lts.run (step .big weldCfgDefault) (.init ⟨fun _ => 0, fun _ => false⟩) twoPieces = some s ∧
      s.relay.outputs = applyCommand weldCfgDefault ⟨fun _ => 0, fun _ => false⟩ startGas ∧
      s.sent.filterMap Sent.command? = [(1, startGas)] ∧
      s.replies = s.sent.flatMap fun p => replyBytes .big p.packet.seqNr := by
  have hrun : ((Lts.run (step .big weldCfgDefault) (.init ⟨fun _ => 0, fun _ => false⟩)
      twoPieces).map fun s => s.toRobot.all) = some [] := by decide +kernel
  obtain ⟨s, hs, hdone⟩ := Option.map_eq_some_iff.mp hrun
  have hio : ∀ l ∈ twoPieces, l.NoError := by simp [twoPieces, Label.NoError]
  have hdom : ∀ m ∈ commands twoPieces, ∀ f,
      m.dout f = 0 ∨ m.dout f = 1 ∨ m.dout f = NO_CHANGE := by
    rintro m hm f
    have heq : startGas = m := by simpa [commands, twoPieces, Label.command?] using hm
    subst heq
    cases f <;> decide
  exact ⟨s, hs, run_consumed weldCfgDefault_distinct rfl hio hdom (by decide) hs hdone⟩

end WeldLink

end FanucDriver
