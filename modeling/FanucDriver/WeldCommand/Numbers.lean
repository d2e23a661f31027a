import FanucDriver.Lib.Lts
import FanucDriver.WeldCommand.CommandNode
import FanucDriver.WeldCommand.Relay

/-!
# The node's sequence numbers and the relay's heartbeat number

`sequence_number_` counts commands in 32 bits, across reconnections; the relay takes the number
-110 for a heartbeat.

* `NodeRun`, `Label`, `step` — the node with connection attempts and sends that fail.
* `Executed` — the relay carries the packet out.
* `Unreserved` — the next number is not the reserved one.
* `run_executed_iff` — when every command of a run is executed; `run_reaches_reserved` — a run
  that sends one which is not.
-/

set_option autoImplicit false

namespace FanucDriver

open Wire WeldRelay

namespace WeldNumbers

structure NodeRun where
  node : CommandNode
  callback : Callback
  /-- what comes from the robot on the open connection -/
  toNode : Channel
  /-- how many commands got a number -/
  numbered : Nat
  /-- the commands sent whole, with their numbers -/
  sent : List (Word × WeldCommand)

/-- The node after its constructor. -/
def NodeRun.init : NodeRun := ⟨.init, .idle, .empty, 0, []⟩

inductive Label where
  /-- `commandCallback`, up to its read loop, with the value `send` returns -/
  | command (env : ConnectEnv) (sent : Int) (msg : WeldCommand)
  /-- `heartbeatCallback`, up to its read loop -/
  | heartbeat (sent : Int)
  /-- one `recv` of the callback in progress -/
  | recv (out : RecvOutcome)
  /-- the robot sends -/
  | reply (bs : Bytes)
  /-- bytes arrive at the node -/
  | arrive (k : Nat)
  deriving DecidableEq, Repr

def step (o : ByteOrder) (s : NodeRun) : Label → Option NodeRun
  | .command env sent msg =>
    if s.callback = .idle then
      let r := s.node.beginCommand o env sent msg
      let connected := (s.node.connect env).1
      some {
        node := r.1
        callback := r.2.2
        toNode := if s.node.connected then s.toNode else .empty
        numbered := if connected then s.numbered + 1 else s.numbered
        sent := if connected ∧ sent = 60 then s.sent ++ [(r.1.sequenceNumber, msg)] else s.sent }
    else none
  | .heartbeat sent =>
    if s.callback = .idle then
      let r := s.node.beginHeartbeat o sent
      some { s with node := r.1, callback := r.2.2 }
    else none
  | .recv out =>
    match s.callback with
    | .idle => none
    | .reading seqNr got =>
      let r := s.node.recvReply o out seqNr got s.toNode
      some { s with node := r.1, callback := r.2.1, toNode := r.2.2.1 }
  | .reply bs => some { s with toNode := s.toNode.send bs }
  | .arrive k => some { s with toNode := s.toNode.arrive k }

/-- Whenever the relay finds the packet in front of it, it executes the command and replies. -/
def Executed (o : ByteOrder) (p : Word × WeldCommand) : Prop :=
  p.1 ≠ RI_SEQ_HB ∧ ∀ (cfg : WeldCfg) (r : Relay) (c : Channel) (rest : Bytes), r.ReplyHeader →
    56 ≤ c.buf.length → c.all = sendBuf o (commandPacket p.1 p.2) ++ rest →
    ∃ r', poll o cfg .ok r c = some ⟨r', c.consume 60, replyBytes o p.1, false⟩ ∧
      r'.outputs =
        (execWeldCmd (r.weldCmdIn.assign (commandPacket p.1 p.2).words) cfg r.outputs).1

/-- A command that is to be sent whole does not get the number 2^32 - 110. -/
def Unreserved (s : NodeRun) : Label → Prop
  | .command env sent _ =>
    (s.node.connect env).1 = true → sent = 60 → s.numbered % 4294967296 ≠ 4294967185
  | _ => True

instance (s : NodeRun) (l : Label) : Decidable (Unreserved s l) :=
  match l with
  | .command _ _ _ => inferInstanceAs (Decidable (_ → _ → _))
  | .heartbeat _ | .recv _ | .reply _ | .arrive _ => inferInstanceAs (Decidable True)

theorem executed_iff (o : ByteOrder) (p : Word × WeldCommand) :
    Executed o p ↔ p.1 ≠ RI_SEQ_HB := by
  refine ⟨And.left, fun hne => ⟨hne, ?_⟩⟩
  intro cfg r c rest hr hbuf hall
  obtain ⟨r', hpoll, -, hout⟩ := poll_packet o cfg hr hbuf (p := commandPacket p.1 p.2) rfl hall
  refine ⟨r', hpoll, ?_⟩
  have hseq : (r.weldCmdIn.assign (commandPacket p.1 p.2).words).seqNr = p.1 := rfl
  rw [hout, execPacket, if_neg (by rw [hseq]; exact hne)]

/-! ## The counter -/

theorem connect_sequenceNumber (env : ConnectEnv) (n : CommandNode) :
    (n.connect env).2.sequenceNumber = n.sequenceNumber := by
  unfold CommandNode.connect
  split
  · rfl
  · split
    · rfl
    · split
      · rfl
      · split <;> rfl

theorem sendPacket_sequenceNumber (o : ByteOrder) (sent : Int) (p : WeldCommandPacket)
    (seqNr : Option Word) (n : CommandNode) :
    (CommandNode.ops.sendPacket o sent p seqNr n).1.sequenceNumber = n.sequenceNumber := by
  unfold NodeOps.sendPacket
  split <;> rfl

theorem beginCommand_sequenceNumber (o : ByteOrder) (env : ConnectEnv) (sent : Int)
    (msg : WeldCommand) (n : CommandNode) :
    (n.beginCommand o env sent msg).1.sequenceNumber =
      if (n.connect env).1 then n.sequenceNumber + 1 else n.sequenceNumber := by
  unfold CommandNode.beginCommand NodeOps.beginCommand
  dsimp only [CommandNode.ops]
  split
  · exact (sendPacket_sequenceNumber ..).trans
      (congrArg (· + 1) (connect_sequenceNumber env n))
  · exact connect_sequenceNumber env n

theorem beginHeartbeat_sequenceNumber (o : ByteOrder) (sent : Int) (n : CommandNode) :
    (n.beginHeartbeat o sent).1.sequenceNumber = n.sequenceNumber := by
  unfold CommandNode.beginHeartbeat NodeOps.beginHeartbeat
  split
  · exact sendPacket_sequenceNumber o sent _ _ n
  · rfl

/-- **What a step does** to the counter and to what has been sent. -/
theorem step_cases {o : ByteOrder} {s t : NodeRun} {l : Label} (hs : step o s l = some t) :
    (∃ env sent msg, l = .command env sent msg ∧
        t.numbered = (if (s.node.connect env).1 then s.numbered + 1 else s.numbered) ∧
        t.node.sequenceNumber = (if (s.node.connect env).1 then s.node.sequenceNumber + 1
          else s.node.sequenceNumber) ∧
        t.sent = if (s.node.connect env).1 ∧ sent = 60
          then s.sent ++ [(t.node.sequenceNumber, msg)] else s.sent) ∨
      (Unreserved s l ∧ t.numbered = s.numbered ∧
        t.node.sequenceNumber = s.node.sequenceNumber ∧ t.sent = s.sent) := by
  cases l with
  | command env sent msg =>
    left
    rw [step] at hs
    split at hs
    · cases hs
      exact ⟨env, sent, msg, rfl, rfl, beginCommand_sequenceNumber o env sent msg s.node, rfl⟩
    · cases hs
  | heartbeat sent =>
    right
    rw [step] at hs
    split at hs
    · cases hs
      exact ⟨trivial, rfl, beginHeartbeat_sequenceNumber o sent s.node, rfl⟩
    · cases hs
  | recv out =>
    right
    rw [step] at hs
    split at hs
    · cases hs
    · cases hs
      exact ⟨trivial, rfl, CommandNode.recvReply_sequenceNumber _ _ _ _ _ _, rfl⟩
  | reply | arrive =>
    right
    cases hs
    exact ⟨trivial, rfl, rfl, rfl⟩

/-- The counter is the number of commands numbered, modulo 2^32. -/
def Counts (s : NodeRun) : Prop := s.node.sequenceNumber = BitVec.ofNat 32 s.numbered

theorem step_counts {o : ByteOrder} {s t : NodeRun} {l : Label} (hI : Counts s)
    (hs : step o s l = some t) : Counts t := by
  unfold Counts at hI ⊢
  rcases step_cases hs with ⟨env, sent, msg, -, hnumbered, hseq, -⟩ | ⟨-, hnumbered, hseq, -⟩
  · rw [hnumbered, hseq]
    split
    · rw [hI, BitVec.ofNat_add]
      rfl
    · exact hI
  · rw [hnumbered, hseq, hI]

/-- The number after `n` commands is the reserved one just behind 2^32 - 111 of them. -/
theorem next_reserved_iff (n : Nat) :
    (BitVec.ofNat 32 n + 1 : Word) ≠ RI_SEQ_HB ↔ n % 4294967296 ≠ 4294967185 := by
  have hhb : RI_SEQ_HB = BitVec.ofNat 32 4294967186 := by decide
  rw [hhb, ne_eq, ← BitVec.toNat_inj, BitVec.toNat_add, BitVec.toNat_ofNat, BitVec.toNat_ofNat,
    show (1 : Word).toNat = 1 from rfl]
  omega

/-- A step adds a command the relay does not execute exactly when it sends with the reserved
number. -/
theorem step_executed {o : ByteOrder} {s t : NodeRun} {l : Label} (hI : Counts s)
    (hs : step o s l = some t) :
    (∀ p ∈ t.sent, Executed o p) ↔ (∀ p ∈ s.sent, Executed o p) ∧ Unreserved s l := by
  rcases step_cases hs with ⟨env, sent, msg, rfl, -, hseq, hsent⟩ | ⟨hunreserved, -, -, hsent⟩
  · have hnumber : (s.node.connect env).1 = true →
        (Executed o (t.node.sequenceNumber, msg) ↔ s.numbered % 4294967296 ≠ 4294967185) := by
      intro hcon
      rw [executed_iff, hseq, if_pos hcon, hI, next_reserved_iff]
    rw [hsent]
    dsimp only [Unreserved]
    by_cases hcon : (s.node.connect env).1 = true ∧ sent = 60
    · rw [if_pos hcon, List.forall_mem_append, List.forall_mem_singleton, hnumber hcon.1]
      simp only [hcon, true_implies]
    · rw [if_neg hcon]
      refine (and_iff_left ?_).symm
      intro h1 h2
      exact absurd ⟨h1, h2⟩ hcon
  · rw [hsent, and_iff_left hunreserved]

/-- **When every command is executed.** In every run, of any length and with any failures,
reconnections and heartbeats: all commands sent are carried out by the relay that receives them
if and only if none is sent as the 2^32 - 110th of its 2^32 numbers. -/
theorem run_executed_iff {o : ByteOrder} {ls : List Label} {s : NodeRun}
    (hr : Lts.run (step o) .init ls = some s) :
    (∀ p ∈ s.sent, Executed o p) ↔ Lts.Along (step o) Unreserved .init ls := by
  have h := Lts.run_iff_along (fun _ _ _ => step_counts) (fun _ _ _ hI hs => step_executed hI hs)
    (show Counts .init from rfl) hr
  rw [h, and_iff_right (by intro p hp; cases hp)]

theorem run_executed_iff_one :
    ∃ s, Lts.run (step .big) .init [.command .ok 60 startGas, .recv .closed,
        .command .ok 30 startGas, .command .ok 60 startGas] = some s ∧
      s.sent.map Prod.fst = [1, 3] ∧ ∀ p ∈ s.sent, Executed .big p := by
  have hrun : ((Lts.run (step .big) .init [.command .ok 60 startGas, .recv .closed,
      .command .ok 30 startGas, .command .ok 60 startGas]).map fun s => s.sent.map Prod.fst) =
      some [1, 3] := by
    decide +kernel
  obtain ⟨s, hs, hsent⟩ := Option.map_eq_some_iff.mp hrun
  exact ⟨s, hs, hsent, (run_executed_iff hs).mpr (by decide +kernel)⟩

/-! ## The run that gets there -/

/-- The reserved number: the relay acknowledges the command and changes nothing. -/
theorem reserved_ignored (o : ByteOrder) (cfg : WeldCfg) (msg : WeldCommand) {r : Relay}
    {c : Channel} {rest : Bytes} (hr : r.ReplyHeader) (hbuf : 56 ≤ c.buf.length)
    (hall : c.all = sendBuf o (commandPacket RI_SEQ_HB msg) ++ rest) :
    ∃ r', poll o cfg .ok r c = some ⟨r', c.consume 60, replyBytes o RI_SEQ_HB, false⟩ ∧
      r'.outputs = r.outputs := by
  obtain ⟨r', hpoll, -, hout⟩ :=
    poll_packet o cfg hr hbuf (p := commandPacket RI_SEQ_HB msg) rfl hall
  exact ⟨r', hpoll, hout.trans (if_pos rfl)⟩

/-- Commands to which no reply comes in time. -/
def unanswered (msg : WeldCommand) : Nat → List Label
  | 0 => []
  | n + 1 => .command .ok 60 msg :: .recv (.data 20) :: unanswered msg n

theorem run_unanswered (o : ByteOrder) (msg : WeldCommand) (n : Nat) {s : NodeRun}
    (hidle : s.callback = .idle) (hchan : s.toNode = .empty) :
    ∃ t, Lts.run (step o) s (unanswered msg n) = some t ∧ t.callback = .idle ∧
      t.numbered = s.numbered + n := by
  induction n generalizing s with
  | zero => exact ⟨s, rfl, hidle, rfl⟩
  | succ n ih =>
    have hcon : (s.node.connect .ok).1 = true := by
      unfold CommandNode.connect
      split <;> rfl
    have hempty : (if s.node.connected then s.toNode else Channel.empty) = .empty := by
      rw [hchan, ite_self]
    have hsend : step o s (.command .ok 60 msg) = some {
        node := (s.node.beginCommand o .ok 60 msg).1
        callback := .reading (some (s.node.sequenceNumber + 1)) []
        toNode := .empty
        numbered := s.numbered + 1
        sent := s.sent ++ [((s.node.beginCommand o .ok 60 msg).1.sequenceNumber, msg)] } := by
      rw [step, if_pos hidle, hempty]
      simp only [hcon, true_and, if_true, CommandNode.beginCommand_ok]
    obtain ⟨t, hrun, hcb, hnum⟩ := ih (s := {
      node := (s.node.beginCommand o .ok 60 msg).1
      callback := .idle
      toNode := .empty
      numbered := s.numbered + 1
      sent := s.sent ++ [((s.node.beginCommand o .ok 60 msg).1.sequenceNumber, msg)] }) rfl rfl
    refine ⟨t, ?_, hcb, by rw [hnum]; exact Nat.add_right_comm _ _ _⟩
    rw [unanswered, Lts.run_cons_some]
    refine ⟨_, hsend, ?_⟩
    rw [Lts.run_cons_some]
    exact ⟨_, rfl, hrun⟩

/-- **After 2^32 - 111 commands** the next one gets the reserved number: the relay takes it for a
heartbeat and does not execute it. -/
theorem run_reaches_reserved :
    ∃ s, Lts.run (step .little) .init
        (unanswered startGas 4294967185 ++ [.command .ok 60 startGas]) = some s ∧
      (RI_SEQ_HB, startGas) ∈ s.sent ∧ ¬ Executed .little (RI_SEQ_HB, startGas) ∧
      ∀ (cfg : WeldCfg) (r : Relay) (c : Channel) (rest : Bytes), r.ReplyHeader →
        56 ≤ c.buf.length → c.all = sendBuf .little (commandPacket RI_SEQ_HB startGas) ++ rest →
        ∃ r', poll .little cfg .ok r c =
            some ⟨r', c.consume 60, replyBytes .little RI_SEQ_HB, false⟩ ∧
          r'.outputs = r.outputs := by
  obtain ⟨t, hrun, hidle, hnum⟩ := run_unanswered .little startGas 4294967185
    (s := .init) rfl rfl
  have hcounts : Counts t := Lts.run_inv (fun _ _ _ => step_counts) (show Counts .init from rfl) hrun
  have hcon : (t.node.connect .ok).1 = true := by
    unfold CommandNode.connect
    split <;> rfl
  have hseq : (t.node.beginCommand .little .ok 60 startGas).1.sequenceNumber = RI_SEQ_HB := by
    rw [beginCommand_sequenceNumber, if_pos hcon, hcounts, hnum]
    decide
  refine ⟨_, Lts.run_append_some.mpr ⟨t, hrun, Lts.run_cons_some.mpr ⟨_, if_pos hidle, rfl⟩⟩, ?_, ?_,
    fun cfg r c rest hr => reserved_ignored .little cfg startGas hr⟩
  · dsimp only
    rw [if_pos ⟨hcon, rfl⟩, hseq]
    exact List.mem_append_right _ (List.mem_singleton_self _)
  · rw [executed_iff]
    exact not_not.mpr rfl

end WeldNumbers

end FanucDriver
