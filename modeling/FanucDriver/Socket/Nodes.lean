import FanucDriver.WeldCommand.NodeSocket
import FanucDriver.WeldState.StateSocket

/-!
# The sockets of the three nodes

* `command_sound`, `state_sound` — what holds of each node's socket after every run.
* `nodes_sound` — of all three.
-/

set_option autoImplicit false

namespace FanucDriver

open Wire

namespace NodeSocket

/-- Behind the destructor the node is disconnected. -/
def Settled (s : SocketRun) : Prop :=
  s.destroyed = true → s.node.sock.sockFd = -1 ∧ s.callback = .idle

theorem step_settled {o : ByteOrder} {s t : SocketRun} {l : Label}
    (h : s.node.Inv ∧ Settled s) (hs : step o s l = some t) : t.node.Inv ∧ Settled t := by
  refine ⟨step_inv h.1 hs, ?_⟩
  cases l with
  | command env sent msg =>
    obtain ⟨-, hlive, rfl⟩ := step_command_some hs
    exact fun hd => by simp [hlive] at hd
  | heartbeat sent =>
    obtain ⟨-, hlive, rfl⟩ := step_heartbeat_some hs
    exact fun hd => by simp [hlive] at hd
  | recv out =>
    obtain ⟨seqNr, got, hcb, rfl⟩ := step_recv_some hs
    exact fun hd => absurd (hcb.symm.trans (h.2 hd).2) (by simp)
  | reply bs =>
    cases hs
    exact h.2
  | arrive k =>
    cases hs
    exact h.2
  | destroy =>
    obtain ⟨hidle, -, rfl⟩ := step_destroy_some hs
    exact fun _ => ⟨ClientSocket.closeSocket_sockFd h.1.holds, hidle⟩

theorem command_sound {o : ByteOrder} {ls : List Label} {s : SocketRun}
    (hr : Lts.run (step o) .init ls = some s) :
    s.node.sock.Sound s.destroyed ∧
      (s.node.connected = true →
        ∃ e ∈ s.node.sock.table.live, s.node.sock.sockFd = e.2) := by
  have h0 : SocketRun.init.node.Inv ∧ Settled .init := ⟨SocketNode.inv_init, fun h => by cases h⟩
  obtain ⟨hinv, hsettled⟩ := Lts.run_inv (fun _ _ _ => step_settled) h0 hr
  constructor
  · cases hd : s.destroyed with
    | false => exact hinv.holds.sound
    | true =>
      refine ClientSocket.sound_destroyed ?_
      rw [← (hsettled hd).1]
      exact hinv.holds
  · intro hcon
    exact Descriptors.Owns.mem_live hinv.holds (hinv.connected.mp hcon)

end NodeSocket

theorem StateSocket.state_sound {iter : Node.RunState → Node.RunState}
    (hiter : Reconnects iter) {ls : List Label} {s : SocketRun}
    (hr : Lts.run (step iter) .init ls = some s) : s.sock.Sound s.destroyed :=
  (run_inv hiter hr).sound

/-- **No descriptor is lost, shared or closed twice**, in any run of the command node and of the
two welding state receivers; and the command node takes itself for connected only while the
descriptor in `sock_fd_` is open. -/
theorem nodes_sound :
    (∀ (o : ByteOrder) ls s, Lts.run (NodeSocket.step o) .init ls = some s →
      s.node.sock.Sound s.destroyed ∧ (s.node.connected = true →
        ∃ e ∈ s.node.sock.table.live, s.node.sock.sockFd = e.2)) ∧
    (∀ (p : TcpNode.Params) ls s,
      Lts.run (StateSocket.step (TcpNode.iter p)) .init ls = some s →
        s.sock.Sound s.destroyed) ∧
    (∀ (p : SimpleNode.Params) (freed : SimpleNode.Freed) ls s,
      Lts.run (StateSocket.step (SimpleNode.iter p freed)) .init ls = some s →
        s.sock.Sound s.destroyed) :=
  ⟨fun _ _ _ hr => NodeSocket.command_sound hr,
    fun p _ _ hr => StateSocket.state_sound (StateSocket.tcp_reconnects p) hr,
    fun p freed _ _ hr => StateSocket.state_sound (StateSocket.simple_reconnects p freed) hr⟩

/-- A heartbeat's failing `send`, a refused connection, a second connection under the number of
the first, and the destructor; and a receiver that reconnects. -/
theorem nodes_sound_reconnected :
    (∃ s, Lts.run (NodeSocket.step .big) .init [.command (.connects 3) 60 startGas,
        .recv (.data 20), .heartbeat (-1), .command ⟨some 3, true, false⟩ 60 startGas,
        .command (.connects 3) 60 startGas, .recv .closed, .destroy] = some s ∧
      s.node.sock.Sound s.destroyed) ∧
    ∃ s, Lts.run (StateSocket.step (TcpNode.iter (TcpNode.launch .big))) .init
        (.init (.connects 3) .empty [] :: List.replicate 6 (.iterate (.connects 3) .empty)) =
        some s ∧
      s.sock.Sound s.destroyed := by
  have hcommand : ((Lts.run (NodeSocket.step .big) .init [.command (.connects 3) 60 startGas,
      .recv (.data 20), .heartbeat (-1), .command ⟨some 3, true, false⟩ 60 startGas,
      .command (.connects 3) 60 startGas, .recv .closed, .destroy]).map
        fun s => s.node.sock.table.closed) = some [0, 1, 2] := by
    decide +kernel
  have hstate : ((Lts.run (StateSocket.step (TcpNode.iter (TcpNode.launch .big))) .init
      (.init (.connects 3) .empty [] :: List.replicate 6 (.iterate (.connects 3) .empty))).map
        fun s => (s.sock.table.live, s.sock.table.closed)) = some ([(1, 3)], [0]) := by
    decide +kernel
  obtain ⟨s, hs, -⟩ := Option.map_eq_some_iff.mp hcommand
  obtain ⟨t, ht, -⟩ := Option.map_eq_some_iff.mp hstate
  exact ⟨⟨s, hs, (nodes_sound.1 _ _ _ hs).1⟩, t, ht, nodes_sound.2.1 _ _ _ ht⟩

end FanucDriver
