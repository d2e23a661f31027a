import FanucDriver.Lib.Lts
import FanucDriver.WeldCommand.CommandNode
import FanucDriver.WeldCommand.Relay

/-!
# Node and relay on one connection

The steps are those of the node's callbacks, of the relay's inner loop and of the network in
both directions, in any order.  The node connects with its first command; after a disconnect of
either side the connection is not used any more.

* `System`, `Label`, `step`; `Trans`, `step_trans` — every step is one of these.
* `Sent` — a packet with what it was made of; the ghost fields `sent`, `replies` and `acks`
  record the packets sent, the bytes the relay has written and the replies evaluated.
* `commands`, `numbered` — the commands of a run, and with the sequence numbers they get;
  `run_sent` says that these are sent.
-/

set_option autoImplicit false

namespace FanucDriver

open Wire WeldRelay

namespace WeldLink

/-- A packet the node sent. -/
inductive Sent where
  | command (seqNr : Word) (msg : WeldCommand)
  | heartbeat
  deriving DecidableEq, Repr

def Sent.packet : Sent → WeldCommandPacket
  | .command seqNr msg => commandPacket seqNr msg
  | .heartbeat => heartbeatPacket

def Sent.command? : Sent → Option (Word × WeldCommand)
  | .command seqNr msg => some (seqNr, msg)
  | .heartbeat => none

structure System where
  node : CommandNode
  callback : Callback
  opened : Bool
  relay : Relay
  /-- the relay has not left the connection -/
  online : Bool
  toRobot : Channel
  toNode : Channel
  sent : List Sent
  replies : Bytes
  acks : List Ack

/-- The system before the first command. -/
def System.init (out : Outputs) : System where
  node := .init
  callback := .idle
  opened := false
  relay := .init out
  online := true
  toRobot := .empty
  toNode := .empty
  sent := []
  replies := []
  acks := []

inductive Label where
  /-- `commandCallback`, up to its read loop -/
  | command (msg : WeldCommand)
  /-- `heartbeatCallback`, up to its read loop -/
  | heartbeat
  /-- one `recv` of the callback in progress -/
  | recv (out : RecvOutcome)
  /-- bytes arrive at the robot -/
  | arrive (k : Nat)
  /-- bytes arrive at the node -/
  | deliver (k : Nat)
  /-- one iteration of the relay's inner loop -/
  | poll (env : PollEnv)
  deriving DecidableEq, Repr

def step (o : ByteOrder) (cfg : WeldCfg) (s : System) : Label → Option System
  | .command msg =>
    if s.callback = .idle ∧ (s.node.connected ∨ ¬ s.opened) then
      let r := s.node.beginCommand o .ok 60 msg
      some { s with
        node := r.1
        callback := r.2.2
        opened := true
        toRobot := s.toRobot.send r.2.1
        sent := s.sent ++ [.command r.1.sequenceNumber msg] }
    else none
  | .heartbeat =>
    if s.callback = .idle then
      let r := s.node.beginHeartbeat o 60
      some { s with
        node := r.1
        callback := r.2.2
        toRobot := s.toRobot.send r.2.1
        sent := if s.node.connected then s.sent ++ [.heartbeat] else s.sent }
    else none
  | .recv out =>
    match s.callback with
    | .idle => none
    | .reading seqNr got =>
      let r := s.node.recvReply o out seqNr got s.toNode
      some { s with node := r.1, callback := r.2.1, toNode := r.2.2.1, acks := s.acks ++ r.2.2.2 }
  | .arrive k => some { s with toRobot := s.toRobot.arrive k }
  | .deliver k => some { s with toNode := s.toNode.arrive k }
  | .poll env =>
    if s.opened ∧ s.online then
      match poll o cfg env s.relay s.toRobot with
      | none => none
      | some res =>
        some { s with
          relay := res.relay
          online := !res.discon
          toRobot := res.chan
          toNode := s.toNode.send res.sent
          replies := s.replies ++ res.sent }
    else none

/-! ## What a step can do -/

/-- The steps, each with what it requires. -/
inductive Trans (o : ByteOrder) (cfg : WeldCfg) (s : System) : Label → System → Prop
  | command (msg : WeldCommand) :
      Trans o cfg s (.command msg)
        { s with
          node :=
            { sockOpen := if s.node.connected then s.node.sockOpen else true
              connected := true
              sequenceNumber := s.node.sequenceNumber + 1 }
          callback := .reading (some (s.node.sequenceNumber + 1)) []
          opened := true
          toRobot := s.toRobot.send (sendBuf o (commandPacket (s.node.sequenceNumber + 1) msg))
          sent := s.sent ++ [.command (s.node.sequenceNumber + 1) msg] }
  | heartbeat :
      Trans o cfg s .heartbeat
        { s with
          callback := .reading none []
          toRobot := s.toRobot.send (sendBuf o heartbeatPacket)
          sent := s.sent ++ [.heartbeat] }
  /-- a heartbeat without a connection -/
  | skipped : Trans o cfg s .heartbeat { s with callback := .idle }
  | recv (out : RecvOutcome) (seqNr : Option Word) (got : Bytes)
      (callback : s.callback = .reading seqNr got) :
      Trans o cfg s (.recv out)
        { s with
          node := (s.node.recvReply o out seqNr got s.toNode).1
          callback := (s.node.recvReply o out seqNr got s.toNode).2.1
          toNode := (s.node.recvReply o out seqNr got s.toNode).2.2.1
          acks := s.acks ++ (s.node.recvReply o out seqNr got s.toNode).2.2.2 }
  | arrive (k : Nat) : Trans o cfg s (.arrive k) { s with toRobot := s.toRobot.arrive k }
  | deliver (k : Nat) : Trans o cfg s (.deliver k) { s with toNode := s.toNode.arrive k }
  | poll (env : PollEnv) (res : Polled) (opened : s.opened = true) (online : s.online = true)
      (next : poll o cfg env s.relay s.toRobot = some res) :
      Trans o cfg s (.poll env)
        { s with
          relay := res.relay
          online := !res.discon
          toRobot := res.chan
          toNode := s.toNode.send res.sent
          replies := s.replies ++ res.sent }

/-- **What a step can do.** -/
theorem step_trans {o : ByteOrder} {cfg : WeldCfg} {s t : System} {l : Label}
    (hs : step o cfg s l = some t) : Trans o cfg s l t := by
  cases l with
  | command msg =>
    rw [step] at hs
    split at hs
    · rw [CommandNode.beginCommand_ok] at hs
      cases hs
      exact .command msg
    · cases hs
  | heartbeat =>
    rw [step] at hs
    split at hs
    · rw [CommandNode.beginHeartbeat_ok] at hs
      cases hconn : s.node.connected with
      | true =>
        simp only [hconn, if_true, Option.some.injEq] at hs
        exact hs ▸ .heartbeat
      | false =>
        have hsend : s.toRobot.send [] = s.toRobot := by simp [Channel.send]
        simp only [hconn, Bool.false_eq_true, if_false, hsend, Option.some.injEq] at hs
        exact hs ▸ .skipped
    · cases hs
  | recv out =>
    rw [step] at hs
    split at hs
    · cases hs
    · rename_i seqNr got hcb
      cases hs
      exact .recv out seqNr got hcb
  | arrive k =>
    cases hs
    exact .arrive k
  | deliver k =>
    cases hs
    exact .deliver k
  | poll env =>
    rw [step] at hs
    split at hs
    · rename_i hcond
      split at hs
      · cases hs
      · rename_i res hpoll
        cases hs
        exact .poll env res hcond.1 hcond.2 hpoll
    · cases hs

/-! ## The packets of a run -/

def Label.command? : Label → Option WeldCommand
  | .command msg => some msg
  | _ => none

def commands (ls : List Label) : List WeldCommand := ls.filterMap Label.command?

/-- Commands with the sequence numbers `k + 1`, `k + 2`, ... -/
def numbered : Nat → List WeldCommand → List (Word × WeldCommand)
  | _, [] => []
  | k, m :: ms => (BitVec.ofNat 32 (k + 1), m) :: numbered (k + 1) ms

theorem numbered_append (k : Nat) (ms : List WeldCommand) (m : WeldCommand) :
    numbered k (ms ++ [m]) = numbered k ms ++ [(BitVec.ofNat 32 (k + ms.length + 1), m)] := by
  induction ms generalizing k with
  | nil => rfl
  | cons m' ms ih =>
    simp only [List.cons_append, numbered, ih, List.length_cons]
    rw [show k + 1 + ms.length + 1 = k + (ms.length + 1) + 1 by omega]

/-- What the callbacks and the labels of a run have to do with each other. -/
structure Sends (h : List Label) (s : System) : Prop where
  sent : s.sent.filterMap Sent.command? = numbered 0 (commands h)
  sequenceNumber : s.node.sequenceNumber = BitVec.ofNat 32 (commands h).length

theorem commands_append (h : List Label) (l : Label) :
    commands (h ++ [l]) = commands h ++ l.command?.toList := by
  simp only [commands, List.filterMap_append]
  cases l <;> rfl

/-- Every step but a command keeps the relation if the commands sent and the counter stay. -/
theorem Sends.keep {h : List Label} {s t : System} {l : Label} (hI : Sends h s)
    (hl : l.command? = none)
    (hsent : t.sent.filterMap Sent.command? = s.sent.filterMap Sent.command?)
    (hseq : t.node.sequenceNumber = s.node.sequenceNumber) : Sends (h ++ [l]) t := by
  have hcmd : commands (h ++ [l]) = commands h := by
    rw [commands_append, hl, Option.toList_none, List.append_nil]
  exact ⟨by rw [hcmd, hsent, hI.sent], by rw [hcmd, hseq, hI.sequenceNumber]⟩

theorem step_sends {o : ByteOrder} {cfg : WeldCfg} {h : List Label} {s t : System} {l : Label}
    (hI : Sends h s) (hs : step o cfg s l = some t) : Sends (h ++ [l]) t := by
  cases step_trans hs with
  | command msg =>
    have hnext : s.node.sequenceNumber + 1 = BitVec.ofNat 32 (0 + (commands h).length + 1) := by
      rw [hI.sequenceNumber, Nat.zero_add, BitVec.ofNat_add]
      rfl
    constructor
    · rw [commands_append, List.filterMap_append, hI.sent]
      simp only [Label.command?, Option.toList_some, numbered_append]
      rw [← hnext]
      rfl
    · simp only [commands_append, Label.command?, Option.toList_some, List.length_append,
        List.length_singleton]
      rw [hnext, Nat.zero_add]
  | heartbeat =>
    refine hI.keep rfl ?_ rfl
    rw [List.filterMap_append]
    exact List.append_nil _
  | recv out seqNr got =>
    exact hI.keep rfl rfl (CommandNode.recvReply_sequenceNumber _ _ _ _ _ _)
  | skipped | arrive | deliver | poll => exact hI.keep rfl rfl rfl

/-- **The commands of a run are the commands sent**, in order and numbered from one. -/
theorem run_sent {o : ByteOrder} {cfg : WeldCfg} {out : Outputs} {ls : List Label} {s : System}
    (hr : Lts.run (step o cfg) (.init out) ls = some s) :
    s.sent.filterMap Sent.command? = numbered 0 (commands ls) :=
  (Lts.run_hist (fun _ _ _ _ hI hs => step_sends hI hs) (I := Sends) ⟨rfl, rfl⟩ hr).sent

end WeldLink

end FanucDriver
