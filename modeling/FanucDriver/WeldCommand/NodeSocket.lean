import FanucDriver.Socket.Client
import FanucDriver.WeldCommand.Numbers

/-!
# The welding command node with its socket

`CommandNode` knows of `sock_fd_` only whether it is open.  Here the callbacks work on the
descriptor itself, and the node can be destroyed.

* `SocketNode` — the node; `connect`, `disconnect` and the callbacks.
* `SocketNode.toNode` — what `CommandNode` sees of it; `toNode_model`, `run_refines`.
* `SocketRun`, `step` — the steps, with the connections that a `recv` has reported as ended
  (`lost`) and the commands sent on one of these (`late`).
* `SocketNode.Inv`, `run_inv` — `connected_` says whether a descriptor is held.
-/

set_option autoImplicit false

namespace FanucDriver

open Wire

/-- What a connection attempt looks like without the descriptor. -/
def SocketEnv.toConnectEnv (env : SocketEnv) : ConnectEnv :=
  ⟨env.socket.isSome, env.inetPton, env.connect⟩

structure SocketNode where
  sock : ClientSocket
  connected : Bool
  sequenceNumber : Word
  deriving DecidableEq, Repr

namespace SocketNode

/-- The node after its constructor. -/
def init : SocketNode := ⟨.init, false, 0⟩

def connect (env : SocketEnv) (n : SocketNode) : Bool × SocketNode :=
  if n.connected then (true, n)
  else
    let r := n.sock.openSocket env
    if r.1 then (true, { n with sock := r.2, connected := true })
    else (false, { n with sock := r.2 })

def disconnect (n : SocketNode) : SocketNode :=
  { n with sock := n.sock.closeSocket, connected := false }

def ops : NodeOps SocketEnv SocketNode where
  connected := connected
  connect := connect
  disconnect := disconnect
  sequenceNumber := sequenceNumber
  setSequenceNumber w n := { n with sequenceNumber := w }

/-- `commandCallback` up to its read loop. -/
def beginCommand (o : ByteOrder) (env : SocketEnv) (sent : Int) (msg : WeldCommand)
    (n : SocketNode) : SocketNode × Bytes × Callback :=
  ops.beginCommand o env sent msg n

/-- `heartbeatCallback` up to its read loop. -/
def beginHeartbeat (o : ByteOrder) (sent : Int) (n : SocketNode) :
    SocketNode × Bytes × Callback :=
  ops.beginHeartbeat o sent n

/-- One round of the read loop: only a command disconnects when the stream has ended. -/
def recvReply (o : ByteOrder) (out : RecvOutcome) (seqNr : Option Word) (got : Bytes)
    (n : SocketNode) (c : Channel) : SocketNode × Callback × Channel × List Ack :=
  ops.recvReply o out seqNr got n c

/-- The serial number of the connection in use. -/
def connection? (n : SocketNode) : Option Nat := n.sock.table.live.head?.map Prod.fst

/-- What is left of the node without the descriptor's number. -/
def toNode (n : SocketNode) : CommandNode :=
  ⟨decide (0 ≤ n.sock.sockFd), n.connected, n.sequenceNumber⟩

/-! ## The descriptor it holds -/

structure Inv (n : SocketNode) : Prop where
  holds : n.sock.Holds
  connected : n.connected = true ↔ 0 ≤ n.sock.sockFd

theorem inv_init : init.Inv := ⟨ClientSocket.holds_init, by decide⟩

theorem Inv.connect {n : SocketNode} (h : n.Inv) (env : SocketEnv) : (n.connect env).2.Inv := by
  unfold SocketNode.connect
  split
  · exact h
  · rename_i hcon
    have hfd : n.sock.sockFd < 0 := Int.not_le.mp fun hfd => hcon (h.connected.mpr hfd)
    have hholds := h.holds.openSocket hfd env
    have hiff := ClientSocket.openSocket_nonneg env n.sock
    rw [← ClientSocket.openSocket_fst env n.sock] at hiff
    dsimp only
    split
    · rename_i hok
      exact ⟨hholds, iff_of_true rfl (hiff.mpr hok)⟩
    · rename_i hok
      exact ⟨hholds, iff_of_false hcon (fun hfd => hok (hiff.mp hfd))⟩

theorem Inv.disconnect {n : SocketNode} (h : n.Inv) : n.disconnect.Inv where
  holds := h.holds.closeSocket
  connected := by simp [SocketNode.disconnect, ClientSocket.closeSocket_sockFd h.holds]

theorem inv_keeps : ops.Keeps Inv where
  connect env _ h := h.connect env
  disconnect _ h := h.disconnect
  setSequenceNumber _ _ h := ⟨h.holds, h.connected⟩

theorem recvReply_fst (o : ByteOrder) (out : RecvOutcome) (seqNr : Option Word) (got : Bytes)
    (n : SocketNode) (c : Channel) : (n.recvReply o out seqNr got c).1 =
      if out.ended && seqNr.isSome then n.disconnect else n :=
  ops.recvReply_fst o out seqNr got n c

/-! ## The callbacks without the descriptor -/

@[simp] theorem toNode_connected (n : SocketNode) : n.toNode.connected = n.connected := rfl

theorem toNode_connect (env : SocketEnv) (n : SocketNode) :
    n.toNode.connect env.toConnectEnv = ((n.connect env).1, (n.connect env).2.toNode) := by
  unfold CommandNode.connect SocketNode.connect ClientSocket.openSocket
  cases env with
  | mk socket inetPton connect =>
    cases hcon : n.connected with
    | true => simp [toNode, hcon]
    | false =>
      cases socket <;> cases inetPton <;> cases connect <;>
        simp [toNode, hcon, SocketEnv.toConnectEnv, ClientSocket.close]

theorem toNode_disconnect {n : SocketNode} (h : n.Inv) :
    n.disconnect.toNode = n.toNode.disconnect := by
  simp [toNode, disconnect, CommandNode.disconnect, ClientSocket.closeSocket_sockFd h.holds]

/-- **The node without the descriptor is a model** of the node with it. -/
theorem toNode_model : ops.Model CommandNode.ops SocketEnv.toConnectEnv toNode Inv where
  toKeeps := inv_keeps
  connected_eq := toNode_connected
  connect_eq := toNode_connect
  disconnect_eq _ h := toNode_disconnect h
  sequenceNumber_eq _ := rfl
  setSequenceNumber_eq _ _ := rfl

end SocketNode

/-! ## Runs -/

namespace NodeSocket

structure SocketRun where
  node : SocketNode
  callback : Callback
  /-- what comes from the robot on the open connection -/
  toNode : Channel
  destroyed : Bool
  /-- the connections on which a `recv` has reported the end of the stream or an error -/
  lost : List Nat
  /-- the commands sent on one of these, by number -/
  late : List Word
  deriving DecidableEq, Repr

/-- The node after its constructor. -/
def SocketRun.init : SocketRun := ⟨.init, .idle, .empty, false, [], []⟩

inductive Label where
  /-- `commandCallback`, up to its read loop, with the value `send` returns -/
  | command (env : SocketEnv) (sent : Int) (msg : WeldCommand)
  /-- `heartbeatCallback`, up to its read loop -/
  | heartbeat (sent : Int)
  /-- one `recv` of the callback in progress -/
  | recv (out : RecvOutcome)
  /-- the robot sends -/
  | reply (bs : Bytes)
  /-- bytes arrive at the node -/
  | arrive (k : Nat)
  /-- `~FanucWeldCommandNode` -/
  | destroy
  deriving DecidableEq, Repr

def step (o : ByteOrder) (s : SocketRun) : Label → Option SocketRun
  | .command env sent msg =>
    if s.callback = .idle ∧ s.destroyed = false then
      let r := s.node.beginCommand o env sent msg
      let c := s.node.connect env
      let late := c.1 && c.2.connection?.any fun k => s.lost.contains k
      some { s with
        node := r.1
        callback := r.2.2
        toNode := if s.node.connected then s.toNode else .empty
        late := if late then s.late ++ [r.1.sequenceNumber] else s.late }
    else none
  | .heartbeat sent =>
    if s.callback = .idle ∧ s.destroyed = false then
      let r := s.node.beginHeartbeat o sent
      some { s with node := r.1, callback := r.2.2 }
    else none
  | .recv out =>
    match s.callback with
    | .idle => none
    | .reading seqNr got =>
      let r := s.node.recvReply o out seqNr got s.toNode
      let lost := if out.ended then s.lost ++ s.node.connection?.toList else s.lost
      some { s with node := r.1, callback := r.2.1, toNode := r.2.2.1, lost := lost }
  | .reply bs => some { s with toNode := s.toNode.send bs }
  | .arrive k => some { s with toNode := s.toNode.arrive k }
  | .destroy =>
    if s.callback = .idle ∧ s.destroyed = false then
      some { s with node := s.node.disconnect, destroyed := true }
    else none

/-! ### What a step is -/

theorem step_command_some {o : ByteOrder} {s t : SocketRun} {env : SocketEnv} {sent : Int}
    {msg : WeldCommand} (hs : step o s (.command env sent msg) = some t) :
    s.callback = .idle ∧ s.destroyed = false ∧
      t = { s with
        node := (s.node.beginCommand o env sent msg).1
        callback := (s.node.beginCommand o env sent msg).2.2
        toNode := if s.node.connected then s.toNode else .empty
        late := if (s.node.connect env).1 &&
            (s.node.connect env).2.connection?.any fun k => s.lost.contains k then
          s.late ++ [(s.node.beginCommand o env sent msg).1.sequenceNumber] else s.late } := by
  rw [step] at hs
  split at hs
  · rename_i hen
    exact ⟨hen.1, hen.2, (Option.some.inj hs).symm⟩
  · cases hs

theorem step_heartbeat_some {o : ByteOrder} {s t : SocketRun} {sent : Int}
    (hs : step o s (.heartbeat sent) = some t) :
    s.callback = .idle ∧ s.destroyed = false ∧
      t = { s with
        node := (s.node.beginHeartbeat o sent).1
        callback := (s.node.beginHeartbeat o sent).2.2 } := by
  rw [step] at hs
  split at hs
  · rename_i hen
    exact ⟨hen.1, hen.2, (Option.some.inj hs).symm⟩
  · cases hs

theorem step_recv_some {o : ByteOrder} {s t : SocketRun} {out : RecvOutcome}
    (hs : step o s (.recv out) = some t) :
    ∃ seqNr got, s.callback = .reading seqNr got ∧
      t = { s with
        node := (s.node.recvReply o out seqNr got s.toNode).1
        callback := (s.node.recvReply o out seqNr got s.toNode).2.1
        toNode := (s.node.recvReply o out seqNr got s.toNode).2.2.1
        lost := if out.ended then s.lost ++ s.node.connection?.toList else s.lost } := by
  rw [step] at hs
  split at hs
  · cases hs
  · rename_i seqNr got hcb
    exact ⟨seqNr, got, hcb, (Option.some.inj hs).symm⟩

theorem step_destroy_some {o : ByteOrder} {s t : SocketRun} (hs : step o s .destroy = some t) :
    s.callback = .idle ∧ s.destroyed = false ∧
      t = { s with node := s.node.disconnect, destroyed := true } := by
  rw [step] at hs
  split at hs
  · rename_i hen
    exact ⟨hen.1, hen.2, (Option.some.inj hs).symm⟩
  · cases hs

theorem step_inv {o : ByteOrder} {s t : SocketRun} {l : Label} (h : s.node.Inv)
    (hs : step o s l = some t) : t.node.Inv := by
  cases l with
  | command env sent msg =>
    obtain ⟨-, -, rfl⟩ := step_command_some hs
    exact SocketNode.inv_keeps.beginCommand o env sent msg h
  | heartbeat sent =>
    obtain ⟨-, -, rfl⟩ := step_heartbeat_some hs
    exact SocketNode.inv_keeps.beginHeartbeat o sent h
  | recv out =>
    obtain ⟨seqNr, got, -, rfl⟩ := step_recv_some hs
    exact SocketNode.inv_keeps.recvReply o out seqNr got h s.toNode
  | reply bs =>
    cases hs
    exact h
  | arrive k =>
    cases hs
    exact h
  | destroy =>
    obtain ⟨-, -, rfl⟩ := step_destroy_some hs
    exact h.disconnect

theorem run_inv {o : ByteOrder} {ls : List Label} {s : SocketRun}
    (hr : Lts.run (step o) .init ls = some s) : s.node.Inv :=
  Lts.run_inv (fun _ _ _ => step_inv) SocketNode.inv_init hr

/-! ## The runs without the descriptor -/

/-- The step of `WeldNumbers` that a step stands for. -/
def Label.numbers : Label → List WeldNumbers.Label
  | .command env sent msg => [.command env.toConnectEnv sent msg]
  | .heartbeat sent => [.heartbeat sent]
  | .recv out => [.recv out]
  | .reply bs => [.reply bs]
  | .arrive k => [.arrive k]
  | .destroy => []

structure Refines (s : SocketRun) (t : WeldNumbers.NodeRun) : Prop where
  inv : s.node.Inv
  node : s.destroyed = false → t.node = s.node.toNode
  callback : t.callback = s.callback
  toNode : t.toNode = s.toNode
  idle : s.destroyed = true → s.callback = .idle

theorem step_refines {o : ByteOrder} {s s' : SocketRun} {l : Label} {t : WeldNumbers.NodeRun}
    (hR : Refines s t) (hs : step o s l = some s') :
    ∃ t', Lts.run (WeldNumbers.step o) t l.numbers = some t' ∧ Refines s' t' := by
  have hinv := step_inv hR.inv hs
  cases l with
  | command env sent msg =>
    obtain ⟨hidle, hlive, rfl⟩ := step_command_some hs
    have hnode := hR.node hlive
    have hbegin : s.node.toNode.beginCommand o env.toConnectEnv sent msg =
        ((s.node.beginCommand o env sent msg).1.toNode, (s.node.beginCommand o env sent msg).2) :=
      SocketNode.toNode_model.beginCommand_eq o env sent msg hR.inv
    refine ⟨_, Lts.run_cons_some.mpr ⟨_, if_pos (hR.callback.trans hidle), rfl⟩, hinv, ?_, ?_, ?_,
      fun hd => by simp [hlive] at hd⟩
    · intro _
      simp [hnode, hbegin]
    · simp [hnode, hbegin]
    · simp [hnode, hR.toNode]
  | heartbeat sent =>
    obtain ⟨hidle, hlive, rfl⟩ := step_heartbeat_some hs
    have hnode := hR.node hlive
    have hbegin : s.node.toNode.beginHeartbeat o sent =
        ((s.node.beginHeartbeat o sent).1.toNode, (s.node.beginHeartbeat o sent).2) :=
      SocketNode.toNode_model.beginHeartbeat_eq o sent hR.inv
    refine ⟨_, Lts.run_cons_some.mpr ⟨_, if_pos (hR.callback.trans hidle), rfl⟩, hinv, ?_, ?_,
      hR.toNode, fun hd => by simp [hlive] at hd⟩
    · intro _
      simp [hnode, hbegin]
    · simp [hnode, hbegin]
  | recv out =>
    obtain ⟨seqNr, got, hcb, rfl⟩ := step_recv_some hs
    have hlive : s.destroyed = false := by
      cases hd : s.destroyed with
      | false => rfl
      | true => exact absurd (hcb.symm.trans (hR.idle hd)) (by simp)
    have hnode := hR.node hlive
    have hrecv : s.node.toNode.recvReply o out seqNr got s.toNode =
        ((s.node.recvReply o out seqNr got s.toNode).1.toNode,
          (s.node.recvReply o out seqNr got s.toNode).2) :=
      SocketNode.toNode_model.recvReply_eq o out seqNr got hR.inv s.toNode
    refine ⟨{ t with
        node := (t.node.recvReply o out seqNr got t.toNode).1
        callback := (t.node.recvReply o out seqNr got t.toNode).2.1
        toNode := (t.node.recvReply o out seqNr got t.toNode).2.2.1 }, ?_, hinv, ?_, ?_, ?_,
      fun hd => by simp [hlive] at hd⟩
    · simp [Label.numbers, WeldNumbers.step, hR.callback, hcb]
    · intro _
      simp [hnode, hR.toNode, hrecv]
    · simp [hnode, hR.toNode, hrecv]
    · simp [hnode, hR.toNode, hrecv]
  | reply bs =>
    cases hs
    exact ⟨_, rfl, hinv, hR.node, hR.callback, congrArg (·.send bs) hR.toNode, hR.idle⟩
  | arrive k =>
    cases hs
    exact ⟨_, rfl, hinv, hR.node, hR.callback, congrArg (·.arrive k) hR.toNode, hR.idle⟩
  | destroy =>
    obtain ⟨hidle, -, rfl⟩ := step_destroy_some hs
    exact ⟨t, rfl, hinv, fun hd => by simp at hd, hR.callback, hR.toNode, fun _ => hidle⟩

/-- **Every run is one of the node without the descriptor**, up to the destruction. -/
theorem run_refines {o : ByteOrder} {ls : List Label} {s : SocketRun}
    (hr : Lts.run (step o) .init ls = some s) :
    ∃ ms t, Lts.run (WeldNumbers.step o) .init ms = some t ∧ Refines s t :=
  Lts.run_sim_along (fun _ _ _ _ hR _ hs => by
      obtain ⟨t', ht, hR'⟩ := step_refines hR hs
      exact ⟨_, t', ht, hR'⟩)
    (show Refines .init .init from
      ⟨SocketNode.inv_init, fun _ => rfl, rfl, rfl, fun hd => by cases hd⟩)
    (Lts.along_trivial _ _) hr

end NodeSocket

end FanucDriver
