import FanucDriver.WeldCommand.System

/-!
# Which reply a command evaluates

A callback reads whatever reply bytes have arrived and does not compare sequence numbers, so a
reply that comes too late for its own command is taken for the reply to a later one
(`acks_stale`).  When every command is sent with nothing under way in either direction, each
evaluated reply is the one to the command that evaluates it (`run_acks`), for every
configuration and with any errors on the robot's side: `Awaits` says what can be under way
while the reply to a command is read.
-/

set_option autoImplicit false

namespace FanucDriver

open Wire WeldRelay

namespace WeldLink

/-- A command is sent only when every byte sent before, in either direction, has been read. -/
def Quiescent (s : System) : Label → Prop
  | .command _ => s.toRobot.all = [] ∧ s.toNode.all = []
  | _ => True

instance decidableQuiescent (s : System) : ∀ l, Decidable (Quiescent s l)
  | .command _ => inferInstanceAs (Decidable (s.toRobot.all = [] ∧ s.toNode.all = []))
  | .heartbeat | .recv _ | .arrive _ | .deliver _ | .poll _ => isTrue trivial

/-- While command `seqNr` waits for its reply, having received `got`: either the command is
still on its way and nothing else is, or what comes is part of its reply. -/
def Awaits (o : ByteOrder) (s : System) (seqNr : Word) (got : Bytes) : Prop :=
  (got = [] ∧ s.toNode.all = [] ∧ ∃ msg, s.toRobot.all = sendBuf o (commandPacket seqNr msg)) ∨
    ((s.online = false ∨ s.toRobot.all = []) ∧ got ++ s.toNode.all <+: replyBytes o seqNr)

structure Matching (o : ByteOrder) (s : System) : Prop where
  header : s.relay.ReplyHeader
  awaits : ∀ seqNr got, s.callback = .reading (some seqNr) got → Awaits o s seqNr got
  acks : ∀ a ∈ s.acks, a.reply = replyBytes o a.seqNr

theorem matching_init (o : ByteOrder) (out : Outputs) : Matching o (.init out) where
  header := Relay.init_replyHeader out
  awaits := by
    intro seqNr got h
    cases h
  acks := by
    intro a h
    cases h

/-- A callback that does not wait for the reply to a command asks nothing of the connection. -/
theorem Matching.keep {o : ByteOrder} {s t : System} (h : Matching o s)
    (hrelay : t.relay = s.relay) (hacks : t.acks = s.acks)
    (hcb : ∀ seqNr got, t.callback ≠ .reading (some seqNr) got) : Matching o t where
  header := hrelay ▸ h.header
  awaits := by
    intro seqNr got heq
    exact absurd heq (hcb seqNr got)
  acks := hacks ▸ h.acks

theorem replySent_prefix (o : ByteOrder) (w : WriteOutcome) (seqNr : Word) :
    replySent o w seqNr <+: replyBytes o seqNr := by
  unfold replySent
  split
  · exact List.prefix_refl _
  · exact List.take_prefix _ _

/-- One more piece of the reply keeps what is received and what is under way together. -/
theorem recv_append {got : Bytes} {c : Channel} {r : Nat} (hr : r ≤ c.buf.length) :
    (got ++ c.buf.take r) ++ (c.consume r).all = got ++ c.all := by
  have htake : c.buf.take r = c.all.take r := by
    rw [Channel.all, List.take_append_of_le_length hr]
  rw [Channel.all_consume, htake, List.append_assoc, List.take_append_drop]

theorem step_recv_matching {o : ByteOrder} {s : System} (hI : Matching o s) (out : RecvOutcome)
    {seqNr : Option Word} {got : Bytes} (hcb : s.callback = .reading seqNr got) :
    Matching o { s with
      node := (s.node.recvReply o out seqNr got s.toNode).1
      callback := (s.node.recvReply o out seqNr got s.toNode).2.1
      toNode := (s.node.recvReply o out seqNr got s.toNode).2.2.1
      acks := s.acks ++ (s.node.recvReply o out seqNr got s.toNode).2.2.2 } := by
  unfold CommandNode.recvReply NodeOps.recvReply
  split
  · rename_i k
    split
    · exact hI.keep rfl (List.append_nil _) fun _ _ => Callback.noConfusion
    · rename_i hbuf
      dsimp only
      generalize hr : max 1 (min k (min (20 - got.length) s.toNode.buf.length)) = r
      have hpos : 0 < s.toNode.buf.length := List.length_pos_iff.mpr hbuf
      have hle : r ≤ s.toNode.buf.length := by omega
      cases seqNr with
      | none =>
        split
        · refine hI.keep rfl (List.append_nil _) ?_
          intro _ _ h
          cases h
        · exact hI.keep rfl (List.append_nil _) fun _ _ => Callback.noConfusion
      | some seqNr =>
        have hall : s.toNode.all ≠ [] := by
          intro hnil
          have := Channel.buf_length_le s.toNode
          rw [hnil, List.length_nil] at this
          omega
        rcases hI.awaits seqNr got hcb with ⟨-, hnil, -⟩ | ⟨hrobot, hstart⟩
        · exact absurd hnil hall
        · rw [← recv_append hle] at hstart
          split
          · refine ⟨hI.header, ?_, by simpa using hI.acks⟩
            intro _ _ h
            cases h
            exact .inr ⟨hrobot, hstart⟩
          · rename_i hlen
            refine ⟨hI.header, fun _ _ => Callback.noConfusion, ?_⟩
            intro a ha
            rcases List.mem_append.mp ha with ha | ha
            · exact hI.acks a ha
            · -- twenty bytes of a reply are the reply
              have hgot : got ++ s.toNode.buf.take r <+: replyBytes o seqNr :=
                (List.prefix_append _ _).trans hstart
              rw [Option.map_some, Option.toList_some, List.mem_singleton] at ha
              subst ha
              apply hgot.eq_of_length
              apply Nat.le_antisymm hgot.length_le
              rw [replyBytes_length]
              omega
  · exact hI.keep rfl (List.append_nil _) fun _ _ => Callback.noConfusion
  · exact hI.keep rfl (List.append_nil _) fun _ _ => Callback.noConfusion

theorem step_poll_awaits {o : ByteOrder} {cfg : WeldCfg} {env : PollEnv} {s : System}
    {res : Polled} (hI : Matching o s) (honline : s.online = true)
    (hpoll : poll o cfg env s.relay s.toRobot = some res) {seqNr : Word} {got : Bytes}
    (hcb : s.callback = .reading (some seqNr) got) :
    Awaits o { s with
      relay := res.relay
      online := !res.discon
      toRobot := res.chan
      toNode := s.toNode.send res.sent
      replies := s.replies ++ res.sent } seqNr got := by
  have hsend := Channel.all_send res.sent s.toNode
  obtain ⟨-, ⟨-, hsent, hstay⟩ | ⟨hle, hchan, -, hsent⟩⟩ := poll_cases hI.header hpoll
  · rw [hsent, List.append_nil] at hsend
    rcases hI.awaits seqNr got hcb with ⟨hgot, hnil, msg, hcmd⟩ | ⟨hrobot, hstart⟩
    · rcases hstay with hdis | hchan
      · refine .inr ⟨.inl (by rw [hdis]; rfl), ?_⟩
        dsimp only
        rw [hgot, hsent, hsend, hnil]
        exact List.nil_prefix
      · refine .inl ⟨hgot, ?_, msg, ?_⟩
        · dsimp only
          rw [hsent, hsend, hnil]
        · dsimp only
          rw [hchan, hcmd]
    · refine .inr ⟨?_, ?_⟩
      · rcases hstay with hdis | hchan
        · exact .inl (by dsimp only; rw [hdis]; rfl)
        · refine .inr ?_
          dsimp only
          rw [hchan]
          exact hrobot.resolve_left (by rw [honline]; exact Bool.noConfusion)
      · dsimp only
        rw [hsent, hsend]
        exact hstart
  · rcases hI.awaits seqNr got hcb with ⟨hgot, hnil, msg, hcmd⟩ | ⟨hrobot, -⟩
    · refine .inr ⟨.inr ?_, ?_⟩
      · dsimp only
        rw [hchan, Channel.all_consume, hcmd]
        exact List.drop_of_length_le (Nat.le_of_eq (sendBuf_length _ _))
      · have hwords : decodeWords o 15 s.toRobot.all = (commandPacket seqNr msg).words := by
          rw [hcmd, sendBuf_eq]
          have := decodeWords_encodeAll o (commandPacket seqNr msg).words []
          rwa [List.append_nil] at this
        have hseq : (s.relay.weldCmdIn.assign (decodeWords o 15 s.toRobot.all)).seqNr = seqNr := by
          rw [hwords]
          rfl
        dsimp only
        rw [hgot, hsend, hnil, hsent, hseq]
        exact replySent_prefix o env.write seqNr
    · have hnil := hrobot.resolve_left (by rw [honline]; exact Bool.noConfusion)
      rw [hnil] at hle
      exact absurd hle (by simp)

theorem step_matching {o : ByteOrder} {cfg : WeldCfg} (s : System) (l : Label) (t : System)
    (hI : Matching o s) (hq : Quiescent s l) (hs : step o cfg s l = some t) : Matching o t := by
  cases step_trans hs with
  | command msg =>
    refine ⟨hI.header, ?_, hI.acks⟩
    intro _ _ h
    cases h
    refine .inl ⟨rfl, hq.2, msg, ?_⟩
    rw [Channel.all_send, hq.1, List.nil_append]
  | heartbeat =>
    refine hI.keep rfl rfl ?_
    intro _ _ h
    cases h
  | skipped => exact hI.keep rfl rfl fun _ _ => Callback.noConfusion
  | recv out seqNr got hcb => exact step_recv_matching hI out hcb
  | arrive | deliver =>
    refine ⟨hI.header, ?_, hI.acks⟩
    intro seqNr got h
    have := hI.awaits seqNr got h
    simpa only [Awaits, Channel.all_arrive] using this
  | poll env res hopen honline hpoll =>
    exact ⟨(poll_cases hI.header hpoll).1,
      fun _ _ h => step_poll_awaits hI honline hpoll h, hI.acks⟩

/-- **Replies match when nothing is left over**: in a run in which every command is sent with
both directions of the connection empty, each evaluated reply is that of the relay to the
command evaluating it. -/
theorem run_acks {o : ByteOrder} {cfg : WeldCfg} {out : Outputs} {ls : List Label} {s : System}
    (hq : Lts.Along (step o cfg) Quiescent (.init out) ls)
    (hr : Lts.run (step o cfg) (.init out) ls = some s) :
    ∀ a ∈ s.acks, a.reply = replyBytes o a.seqNr :=
  (Lts.run_inv_along step_matching (matching_init o out) hq hr).acks

/-- One command whose reply arrives in two pieces while it is read. -/
def answeredInTime : List Label :=
  [.command startGas, .arrive 60, .poll .ok, .deliver 7, .recv (.data 20), .deliver 13,
    .recv (.data 20)]

theorem run_acks_answeredInTime :
    ∃ s, Lts.run (step .big weldCfgDefault) (.init ⟨fun _ => 0, fun _ => false⟩)
        answeredInTime = some s ∧
      s.acks.map Ack.seqNr = [1] ∧ ∀ a ∈ s.acks, a.reply = replyBytes .big a.seqNr := by
  have hrun : ((Lts.run (step .big weldCfgDefault) (.init ⟨fun _ => 0, fun _ => false⟩)
      answeredInTime).map fun s => s.acks.map Ack.seqNr) = some [1] := by decide +kernel
  obtain ⟨s, hs, hacks⟩ := Option.map_eq_some_iff.mp hrun
  have hq : Lts.Along (step .big weldCfgDefault) Quiescent (.init ⟨fun _ => 0, fun _ => false⟩)
      answeredInTime := by decide +kernel
  exact ⟨s, hs, hacks, run_acks hq hs⟩

/-- The first command's reply comes after its callback has returned. -/
def answeredLate : List Label :=
  [.command startGas, .recv (.data 20), .arrive 60, .poll .ok, .deliver 20, .command correctDown,
    .recv (.data 20)]

/-- The second command, which the relay has not even received, is taken for acknowledged. -/
theorem acks_stale :
    ((Lts.run (step .little weldCfgDefault) (.init ⟨fun _ => 0, fun _ => false⟩)
        answeredLate).map fun s => s.acks) = some [⟨2, replyBytes .little 1, true⟩] ∧
      replyBytes .little 1 ≠ replyBytes .little 2 := by
  decide +kernel

end WeldLink

end FanucDriver
