import FanucDriver.WeldCommand.NodeSocket

/-!
# Connections that have ended

The two read loops of the command node treat the end of the stream differently: the command's
disconnects, the heartbeat's only stops reading.

* `SeenByCommand` — a `recv` that reports the end of the stream or an error is not a heartbeat's.
* `recv_disconnects_iff` — what one `recv` leaves behind; `step_lostClosed` — a connection
  reported as ended has been closed.
* `run_givesUp_iff` — when the node gives up every dead connection;
  `heartbeat_keeps_lost_connection` — a run in which it does not.
-/

set_option autoImplicit false

namespace FanucDriver

open Wire

namespace SocketNode

/-! ## The descriptors it has closed -/

def closed (n : SocketNode) : List Nat := n.sock.table.closed

theorem closed_connect (env : SocketEnv) (n : SocketNode) :
    n.closed ⊆ (n.connect env).2.closed := by
  unfold SocketNode.connect
  split
  · exact List.Subset.refl _
  · dsimp only
    split <;> exact n.sock.openSocket_closed env

theorem closed_disconnect (n : SocketNode) : n.closed ⊆ n.disconnect.closed :=
  n.sock.closeSocket_closed

/-- What is closed stays closed. -/
theorem closed_keeps (ks : List Nat) : ops.Keeps fun n => ks ⊆ n.closed where
  connect env n h := List.Subset.trans h (n.closed_connect env)
  disconnect n h := List.Subset.trans h n.closed_disconnect
  setSequenceNumber _ _ h := h

theorem closed_beginCommand (o : ByteOrder) (env : SocketEnv) (sent : Int) (msg : WeldCommand)
    (n : SocketNode) : (n.connect env).2.closed ⊆ (n.beginCommand o env sent msg).1.closed := by
  unfold SocketNode.beginCommand NodeOps.beginCommand
  dsimp only
  split
  · exact (closed_keeps (n.connect env).2.closed).sendPacket o sent _ _ (List.Subset.refl _)
  · exact List.Subset.refl _

/-- The connection in use is not among them. -/
theorem Inv.connection_not_closed {n : SocketNode} (h : n.Inv) {k : Nat}
    (hk : n.connection? = some k) : k ∉ n.closed := by
  obtain ⟨e, he, rfl⟩ := Option.map_eq_some_iff.mp hk
  exact Descriptors.Owns.not_mem_closed h.holds (List.mem_of_mem_head? he)

/-- A disconnect puts it there. -/
theorem Inv.connection_disconnect {n : SocketNode} (h : n.Inv) {k : Nat}
    (hk : n.connection? = some k) : k ∈ n.disconnect.closed := by
  obtain ⟨e, he, rfl⟩ := Option.map_eq_some_iff.mp hk
  have hmem := List.mem_of_mem_head? he
  have hfd : 0 ≤ n.sock.sockFd := by
    rw [Descriptors.Owns.held h.holds hmem]
    exact Int.natCast_nonneg _
  unfold closed SocketNode.disconnect ClientSocket.closeSocket
  rw [if_pos hfd]
  exact Descriptors.Owns.mem_close h.holds hmem

end SocketNode

/-- The callback is a heartbeat's, in its read loop. -/
def Callback.heartbeat : Callback → Bool
  | .reading none _ => true
  | _ => false

namespace NodeSocket

/-- `connected_` false, `sock_fd_` -1 -/
def Disconnected (n : SocketNode) : Prop := n.connected = false ∧ n.sock.sockFd = -1

instance (n : SocketNode) : Decidable (Disconnected n) :=
  inferInstanceAs (Decidable (_ ∧ _))

/-- A `recv` that reports the end of the stream or an error is not a heartbeat's. -/
def SeenByCommand (s : SocketRun) : Label → Prop
  | .recv out => ¬ (out.ended = true ∧ s.callback.heartbeat = true)
  | _ => True

instance (s : SocketRun) (l : Label) : Decidable (SeenByCommand s l) :=
  match l with
  | .recv _ => inferInstanceAs (Decidable (¬ (_ ∧ _)))
  | .command _ _ _ | .heartbeat _ | .reply _ | .arrive _ | .destroy =>
    inferInstanceAs (Decidable True)

/-- A callback that reads has a connection. -/
def Reading (s : SocketRun) : Prop := s.callback ≠ .idle → s.node.connected = true

theorem sendPacket_reading {o : ByteOrder} {sent : Int} {p : WeldCommandPacket}
    {seqNr : Option Word} {n : SocketNode} (hn : n.connected = true)
    (h : (SocketNode.ops.sendPacket o sent p seqNr n).2.2 ≠ .idle) :
    (SocketNode.ops.sendPacket o sent p seqNr n).1.connected = true := by
  unfold NodeOps.sendPacket at h ⊢
  split at h
  · exact absurd rfl h
  · rename_i hsent
    rwa [if_neg hsent]

theorem connect_connected {env : SocketEnv} {n : SocketNode} (h : (n.connect env).1 = true) :
    (n.connect env).2.connected = true := by
  unfold SocketNode.connect at h ⊢
  split
  · assumption
  · rename_i hcon
    rw [if_neg hcon] at h
    dsimp only at h ⊢
    split
    · rfl
    · rename_i hok
      rw [if_neg hok] at h
      cases h

theorem step_reading {o : ByteOrder} {s t : SocketRun} {l : Label} (h : Reading s)
    (hs : step o s l = some t) : Reading t := by
  cases l with
  | command env sent msg =>
    obtain ⟨-, -, rfl⟩ := step_command_some hs
    intro hcb
    dsimp only [SocketNode.beginCommand, NodeOps.beginCommand] at hcb ⊢
    split at hcb
    · rename_i hok
      rw [if_pos hok]
      exact sendPacket_reading (connect_connected hok) hcb
    · exact absurd rfl hcb
  | heartbeat sent =>
    obtain ⟨-, -, rfl⟩ := step_heartbeat_some hs
    intro hcb
    dsimp only [SocketNode.beginHeartbeat, NodeOps.beginHeartbeat] at hcb ⊢
    split at hcb
    · rename_i hcon
      rw [if_pos hcon]
      exact sendPacket_reading hcon hcb
    · exact absurd rfl hcb
  | recv out =>
    obtain ⟨seqNr, got, hcb, rfl⟩ := step_recv_some hs
    intro hcb'
    -- a `recv` that ends the stream also ends the callback
    have hend : out.ended = false := by
      cases out with
      | data k => rfl
      | closed => exact absurd rfl hcb'
      | error => exact absurd rfl hcb'
    dsimp only
    rw [SocketNode.recvReply_fst, hend]
    exact h (by simp [hcb])
  | reply bs =>
    cases hs
    exact h
  | arrive k =>
    cases hs
    exact h
  | destroy =>
    obtain ⟨hidle, -, rfl⟩ := step_destroy_some hs
    exact fun hcb => absurd hidle hcb

/-- **What a callback leaves behind**: after a `recv` that reports the end of the stream or an
error the node is disconnected exactly if the callback is not a heartbeat's. -/
theorem recv_disconnects_iff {o : ByteOrder} {s t : SocketRun} {out : RecvOutcome}
    (hinv : s.node.Inv) (hread : Reading s) (hs : step o s (.recv out) = some t)
    (hend : out.ended = true) : Disconnected t.node ↔ SeenByCommand s (.recv out) := by
  obtain ⟨seqNr, got, hcb, rfl⟩ := step_recv_some hs
  have hcon : s.node.connected = true := hread (by simp [hcb])
  dsimp only [SeenByCommand]
  rw [SocketNode.recvReply_fst, hend, hcb]
  cases seqNr with
  | none => simp [Disconnected, Callback.heartbeat, hcon]
  | some w =>
    simp [Disconnected, Callback.heartbeat, SocketNode.disconnect,
      ClientSocket.closeSocket_sockFd hinv.holds]

/-- Every connection that has been reported as ended is closed. -/
structure LostClosed (s : SocketRun) : Prop where
  inv : s.node.Inv
  closed : ∀ k ∈ s.lost, k ∈ s.node.closed
  late : s.late = []

/-- A command goes out on a connection that is still open. -/
theorem LostClosed.connection_not_lost {s : SocketRun} (h : LostClosed s) (env : SocketEnv) :
    ((s.node.connect env).2.connection?.any fun k => s.lost.contains k) = false := by
  cases hk : (s.node.connect env).2.connection? with
  | none => rfl
  | some k =>
    rw [Option.any_some, List.contains_eq_mem, decide_eq_false_iff_not]
    intro hmem
    exact (h.inv.connect env).connection_not_closed hk
      (s.node.closed_connect env (h.closed k hmem))

/-- A connection that a command's `recv` reports as ended is closed with the others. -/
theorem LostClosed.recvReply {o : ByteOrder} {s : SocketRun} (h : LostClosed s) {out : RecvOutcome}
    {seqNr : Option Word} {got : Bytes} (hcb : s.callback = .reading seqNr got)
    (hok : SeenByCommand s (.recv out)) (hend : out.ended = true) {k : Nat}
    (hk : s.node.connection? = some k) :
    k ∈ (s.node.recvReply o out seqNr got s.toNode).1.closed := by
  have hcommand : seqNr.isSome = true := by
    cases seqNr with
    | none => exact absurd ⟨hend, by rw [hcb]; rfl⟩ hok
    | some w => rfl
  rw [SocketNode.recvReply_fst, hend, hcommand]
  exact h.inv.connection_disconnect hk

theorem step_lostClosed {o : ByteOrder} {s t : SocketRun} {l : Label} (h : LostClosed s)
    (hok : SeenByCommand s l) (hs : step o s l = some t) : LostClosed t := by
  have hinv := step_inv h.inv hs
  cases l with
  | command env sent msg =>
    obtain ⟨-, -, rfl⟩ := step_command_some hs
    refine ⟨hinv, fun k hk => ?_, ?_⟩
    · exact SocketNode.closed_beginCommand o env sent msg _
        (s.node.closed_connect env (h.closed k hk))
    · dsimp only
      rw [h.connection_not_lost env, Bool.and_false, h.late]
      rfl
  | heartbeat sent =>
    obtain ⟨-, -, rfl⟩ := step_heartbeat_some hs
    exact ⟨hinv, fun k hk => (SocketNode.closed_keeps s.node.closed).beginHeartbeat o sent
      (List.Subset.refl _) (h.closed k hk), h.late⟩
  | recv out =>
    obtain ⟨seqNr, got, hcb, rfl⟩ := step_recv_some hs
    have hkeep : ∀ k ∈ s.lost, k ∈ (s.node.recvReply o out seqNr got s.toNode).1.closed :=
      fun k hk => (SocketNode.closed_keeps s.node.closed).recvReply o out seqNr got
        (List.Subset.refl _) s.toNode (h.closed k hk)
    refine ⟨hinv, ?_, h.late⟩
    intro k hk
    dsimp only at hk ⊢
    split at hk
    · rename_i hend
      rcases List.mem_append.mp hk with hk | hk
      · exact hkeep k hk
      · exact h.recvReply hcb hok hend (Option.mem_toList.mp hk)
    · exact hkeep k hk
  | reply bs =>
    cases hs
    exact ⟨hinv, h.closed, h.late⟩
  | arrive k =>
    cases hs
    exact ⟨hinv, h.closed, h.late⟩
  | destroy =>
    obtain ⟨-, -, rfl⟩ := step_destroy_some hs
    exact ⟨hinv, fun k hk => s.node.closed_disconnect (h.closed k hk), h.late⟩

/-- **When a dead connection is given up.**  In every run: behind each `recv` that reports the
end of the stream or an error the node is disconnected if and only if no such `recv` is a
heartbeat's; and then no command is sent on a connection reported as ended. -/
theorem run_givesUp_iff {o : ByteOrder} {ls : List Label} {s : SocketRun}
    (hr : Lts.run (step o) .init ls = some s) :
    ((∀ pre out r t, pre ++ [.recv out] <+: ls → Lts.run (step o) .init pre = some r →
        step o r (.recv out) = some t → out.ended = true → Disconnected t.node) ↔
      Lts.Along (step o) SeenByCommand .init ls) ∧
    (Lts.Along (step o) SeenByCommand .init ls → s.late = []) := by
  have hinv : ∀ pre r, Lts.run (step o) .init pre = some r → r.node.Inv ∧ Reading r := by
    intro pre r hpre
    refine ⟨run_inv hpre, Lts.run_inv (fun _ _ _ => step_reading) ?_ hpre⟩
    exact fun hcb => absurd rfl hcb
  constructor
  · rw [Lts.along_iff_steps hr]
    constructor
    · intro h pre l r hpre hrun
      cases l with
      | recv out =>
        rintro ⟨hend, hhb⟩
        obtain ⟨u, hu⟩ := Lts.run_prefix_some hr hpre
        obtain ⟨r', hr', hu⟩ := Lts.run_append_some.mp hu
        rw [hrun] at hr'
        cases hr'
        obtain ⟨t, ht, -⟩ := Lts.run_cons_some.mp hu
        have hdis := h pre out r t hpre hrun ht hend
        obtain ⟨hi, hread⟩ := hinv pre r hrun
        exact (recv_disconnects_iff hi hread ht hend).mp hdis ⟨hend, hhb⟩
      | command | heartbeat | reply | arrive | destroy => trivial
    · intro h pre out r t hpre hrun ht hend
      obtain ⟨hi, hread⟩ := hinv pre r hrun
      exact (recv_disconnects_iff hi hread ht hend).mpr (h pre (.recv out) r hpre hrun)
  · intro hal
    exact (Lts.run_inv_along (fun _ _ _ => step_lostClosed)
      ⟨SocketNode.inv_init, List.forall_mem_nil _, rfl⟩ hal hr).late

theorem run_givesUp_iff_command :
    ∃ s, Lts.run (step .little) .init [.command (.connects 3) 60 startGas, .recv .closed,
        .command (.connects 3) 60 startGas, .recv (.data 20), .heartbeat 60, .recv (.data 20)] =
        some s ∧
      s.late = [] := by
  have hrun : ((Lts.run (step .little) .init [.command (.connects 3) 60 startGas, .recv .closed,
      .command (.connects 3) 60 startGas, .recv (.data 20), .heartbeat 60,
      .recv (.data 20)]).map fun s => s.node.connected) = some true := by
    decide +kernel
  obtain ⟨s, hs, -⟩ := Option.map_eq_some_iff.mp hrun
  exact ⟨s, hs, (run_givesUp_iff hs).2 (by decide +kernel)⟩

/-- **The heartbeat keeps the dead connection**: its `recv` reports the end of the stream, the
node stays connected, and the next command is sent on that connection. -/
theorem heartbeat_keeps_lost_connection :
    (Lts.run (step .little) .init [.command (.connects 3) 60 startGas, .recv (.data 20),
        .heartbeat 60, .recv .closed]).map
        (fun s => (s.lost, s.node.connected, s.node.sock.sockFd)) =
      some ([0], true, 3) ∧
    (Lts.run (step .little) .init [.command (.connects 3) 60 startGas, .recv (.data 20),
        .heartbeat 60, .recv .closed, .command (.connects 3) 60 startGas]).map (fun s => s.late) =
      some [2] := by
  decide +kernel

end NodeSocket

end FanucDriver
