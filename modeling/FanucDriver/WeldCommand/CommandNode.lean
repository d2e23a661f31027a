import FanucDriver.WeldCommand.Packet

/-!
# The welding command node (`fanuc_weld_command_node.cpp`)

The callbacks of `FanucWeldCommandNode`, which `socket_mutex_` runs one at a time, cut at the
points where the robot and the network can come in between: a callback up to and including its
`send`, and then one `recv` after the other.

* `NodeOps` — what the callbacks call of a node, and over it the callbacks: `beginCommand`,
  `beginHeartbeat` are `commandCallback` and `heartbeatCallback` up to the read loop; `recvReply`
  is one round of the read loop, where a command whose 20 bytes are complete evaluates them
  (`Ack`).
* `NodeOps.Keeps`, `NodeOps.Model` — what the callbacks keep, and nodes of which others are a model.
* `CommandNode` — the node as far as `sock_fd_` is open or not; `connect`, `disconnect`.
-/

set_option autoImplicit false

namespace FanucDriver

open Wire

/-- The read loop a callback is in: that of a command with its sequence number or that of a
heartbeat, and the bytes received in it. -/
inductive Callback where
  | idle
  | reading (seqNr : Option Word) (got : Bytes)
  deriving DecidableEq, Repr

/-- What one `recv` returns when there is something to read (at most `n` bytes), or the end of
the stream, or an error other than `EAGAIN`. -/
inductive RecvOutcome where
  | data (n : Nat)
  | closed
  | error
  deriving DecidableEq, Repr

/-- `recv` returned 0, or an error other than `EAGAIN`. -/
def RecvOutcome.ended : RecvOutcome → Bool
  | .data _ => false
  | .closed | .error => true

/-- A reply evaluated by the callback that sent command `seqNr`; `success` is its test of the
reply type. -/
structure Ack where
  seqNr : Word
  reply : Bytes
  success : Bool
  deriving DecidableEq, Repr

/-- The reply type word, through `ntohl` unless the robot is little-endian. -/
def replyType (o : ByteOrder) (reply : Bytes) : Word := hostOrder o (decode .little (reply.drop 12))

/-! ## The callbacks -/

/-- What the callbacks call of a node. -/
structure NodeOps (Env N : Type) where
  connected : N → Bool
  connect : Env → N → Bool × N
  disconnect : N → N
  sequenceNumber : N → Word
  setSequenceNumber : Word → N → N

namespace NodeOps

variable {Env N : Type}

/-- `send`, given its return value: the whole packet, or a disconnect. -/
def sendPacket (ops : NodeOps Env N) (o : ByteOrder) (sent : Int) (packet : WeldCommandPacket)
    (seqNr : Option Word) (n : N) : N × Bytes × Callback :=
  if sent ≠ 60 then (ops.disconnect n, (sendBuf o packet).take sent.toNat, .idle)
  else (n, sendBuf o packet, .reading seqNr [])

/-- `commandCallback` up to its read loop: the node, the bytes sent and where it stands. -/
def beginCommand (ops : NodeOps Env N) (o : ByteOrder) (env : Env) (sent : Int) (msg : WeldCommand)
    (n : N) : N × Bytes × Callback :=
  let c := ops.connect env n
  if c.1 then
    let n := ops.setSequenceNumber (ops.sequenceNumber c.2 + 1) c.2
    ops.sendPacket o sent (commandPacket (ops.sequenceNumber n) msg) (some (ops.sequenceNumber n)) n
  else (c.2, [], .idle)

/-- `heartbeatCallback` up to its read loop. -/
def beginHeartbeat (ops : NodeOps Env N) (o : ByteOrder) (sent : Int) (n : N) :
    N × Bytes × Callback :=
  if ops.connected n then ops.sendPacket o sent heartbeatPacket none n else (n, [], .idle)

/-- One round of the read loop.  With nothing to read it is left (`EAGAIN`); an end of the
stream or an error leaves it too, and a command disconnects then. -/
def recvReply (ops : NodeOps Env N) (o : ByteOrder) (out : RecvOutcome) (seqNr : Option Word)
    (got : Bytes) (n : N) (c : Channel) : N × Callback × Channel × List Ack :=
  match out with
  | .data k =>
    if c.buf = [] then (n, .idle, c, [])
    else
      let r := max 1 (min k (min (20 - got.length) c.buf.length))
      let got := got ++ c.buf.take r
      if got.length < 20 then (n, .reading seqNr got, c.consume r, [])
      else (n, .idle, c.consume r,
        (seqNr.map fun s => ⟨s, got, replyType o got == 1⟩).toList)
  | .closed | .error => (if seqNr.isSome then ops.disconnect n else n, .idle, c, [])

theorem recvReply_fst (ops : NodeOps Env N) (o : ByteOrder) (out : RecvOutcome)
    (seqNr : Option Word) (got : Bytes) (n : N) (c : Channel) :
    (ops.recvReply o out seqNr got n c).1 =
      if out.ended && seqNr.isSome then ops.disconnect n else n := by
  unfold recvReply
  split
  · split
    · rfl
    · dsimp only
      split <;> rfl
  · rfl
  · rfl

/-- What is left of a round without the node does not depend on it. -/
theorem recvReply_snd {Env' M : Type} (ops : NodeOps Env N) (ops' : NodeOps Env' M) (o : ByteOrder)
    (out : RecvOutcome) (seqNr : Option Word) (got : Bytes) (n : N) (m : M) (c : Channel) :
    (ops.recvReply o out seqNr got n c).2 = (ops'.recvReply o out seqNr got m c).2 := by
  unfold recvReply
  split
  · split
    · rfl
    · dsimp only
      split <;> rfl
  · rfl
  · rfl

/-- A property of the node that connecting, disconnecting and numbering keep. -/
structure Keeps (ops : NodeOps Env N) (I : N → Prop) : Prop where
  connect : ∀ env n, I n → I (ops.connect env n).2
  disconnect : ∀ n, I n → I (ops.disconnect n)
  setSequenceNumber : ∀ w n, I n → I (ops.setSequenceNumber w n)

theorem Keeps.sendPacket {ops : NodeOps Env N} {I : N → Prop} (h : ops.Keeps I) (o : ByteOrder)
    (sent : Int) (p : WeldCommandPacket) (seqNr : Option Word) {n : N} (hn : I n) :
    I (ops.sendPacket o sent p seqNr n).1 := by
  unfold NodeOps.sendPacket
  split
  · exact h.disconnect n hn
  · exact hn

theorem Keeps.beginCommand {ops : NodeOps Env N} {I : N → Prop} (h : ops.Keeps I) (o : ByteOrder)
    (env : Env) (sent : Int) (msg : WeldCommand) {n : N} (hn : I n) :
    I (ops.beginCommand o env sent msg n).1 := by
  unfold NodeOps.beginCommand
  dsimp only
  split
  · exact h.sendPacket o sent _ _ (h.setSequenceNumber _ _ (h.connect env n hn))
  · exact h.connect env n hn

theorem Keeps.beginHeartbeat {ops : NodeOps Env N} {I : N → Prop} (h : ops.Keeps I) (o : ByteOrder)
    (sent : Int) {n : N} (hn : I n) : I (ops.beginHeartbeat o sent n).1 := by
  unfold NodeOps.beginHeartbeat
  split
  · exact h.sendPacket o sent _ _ hn
  · exact hn

theorem Keeps.recvReply {ops : NodeOps Env N} {I : N → Prop} (h : ops.Keeps I) (o : ByteOrder)
    (out : RecvOutcome) (seqNr : Option Word) (got : Bytes) {n : N} (hn : I n) (c : Channel) :
    I (ops.recvReply o out seqNr got n c).1 := by
  rw [recvReply_fst]
  split
  · exact h.disconnect n hn
  · exact hn

/-- The nodes `M` are a model of the nodes `N` with the property `I`: each operation of `N` is the
one of `M` through `f`, in an environment seen through `g`. -/
structure Model {Env' M : Type} (ops : NodeOps Env N) (ops' : NodeOps Env' M) (g : Env → Env')
    (f : N → M) (I : N → Prop) : Prop extends ops.Keeps I where
  connected_eq : ∀ n, ops'.connected (f n) = ops.connected n
  connect_eq : ∀ env n, ops'.connect (g env) (f n) =
    ((ops.connect env n).1, f (ops.connect env n).2)
  disconnect_eq : ∀ n, I n → f (ops.disconnect n) = ops'.disconnect (f n)
  sequenceNumber_eq : ∀ n, ops'.sequenceNumber (f n) = ops.sequenceNumber n
  setSequenceNumber_eq : ∀ w n, f (ops.setSequenceNumber w n) = ops'.setSequenceNumber w (f n)

namespace Model

variable {Env' M : Type} {ops : NodeOps Env N} {ops' : NodeOps Env' M} {g : Env → Env'} {f : N → M}
  {I : N → Prop}

theorem sendPacket_eq (h : ops.Model ops' g f I) (o : ByteOrder) (sent : Int)
    (p : WeldCommandPacket) (seqNr : Option Word) {n : N} (hn : I n) :
    ops'.sendPacket o sent p seqNr (f n) =
      (f (ops.sendPacket o sent p seqNr n).1, (ops.sendPacket o sent p seqNr n).2) := by
  unfold NodeOps.sendPacket
  split
  · rw [← h.disconnect_eq n hn]
  · rfl

theorem beginCommand_eq (h : ops.Model ops' g f I) (o : ByteOrder) (env : Env) (sent : Int)
    (msg : WeldCommand) {n : N} (hn : I n) :
    ops'.beginCommand o (g env) sent msg (f n) =
      (f (ops.beginCommand o env sent msg n).1, (ops.beginCommand o env sent msg n).2) := by
  unfold NodeOps.beginCommand
  dsimp only
  rw [h.connect_eq]
  split
  · rw [h.sequenceNumber_eq, ← h.setSequenceNumber_eq, h.sequenceNumber_eq]
    exact h.sendPacket_eq o sent _ _ (h.setSequenceNumber _ _ (h.connect env n hn))
  · rfl

theorem beginHeartbeat_eq (h : ops.Model ops' g f I) (o : ByteOrder) (sent : Int) {n : N}
    (hn : I n) :
    ops'.beginHeartbeat o sent (f n) =
      (f (ops.beginHeartbeat o sent n).1, (ops.beginHeartbeat o sent n).2) := by
  unfold NodeOps.beginHeartbeat
  rw [h.connected_eq]
  split
  · exact h.sendPacket_eq o sent _ _ hn
  · rfl

theorem recvReply_eq (h : ops.Model ops' g f I) (o : ByteOrder) (out : RecvOutcome)
    (seqNr : Option Word) (got : Bytes) {n : N} (hn : I n) (c : Channel) :
    ops'.recvReply o out seqNr got (f n) c =
      (f (ops.recvReply o out seqNr got n c).1, (ops.recvReply o out seqNr got n c).2) := by
  refine Prod.ext ?_ (recvReply_snd ops' ops o out seqNr got (f n) n c)
  rw [recvReply_fst, recvReply_fst]
  split
  · exact (h.disconnect_eq n hn).symm
  · rfl

end Model

end NodeOps

/-! ## The node -/

/-- The members the callbacks change; `sockOpen` is `sock_fd_ >= 0`. -/
structure CommandNode where
  sockOpen : Bool
  connected : Bool
  sequenceNumber : Word
  deriving DecidableEq, Repr

/-- Which of the calls of `connect` succeed. -/
structure ConnectEnv where
  socket : Bool
  inetPton : Bool
  connect : Bool
  deriving DecidableEq, Repr

def ConnectEnv.ok : ConnectEnv := ⟨true, true, true⟩

namespace CommandNode

/-- The node after its constructor. -/
def init : CommandNode := ⟨false, false, 0⟩

def connect (env : ConnectEnv) (n : CommandNode) : Bool × CommandNode :=
  if n.connected then (true, n)
  else if !env.socket then (false, { n with sockOpen := false })
  else if !env.inetPton then (false, { n with sockOpen := false })
  else if !env.connect then (false, { n with sockOpen := false })
  else (true, { n with sockOpen := true, connected := true })

def disconnect (n : CommandNode) : CommandNode :=
  { n with sockOpen := false, connected := false }

def ops : NodeOps ConnectEnv CommandNode where
  connected := connected
  connect := connect
  disconnect := disconnect
  sequenceNumber := sequenceNumber
  setSequenceNumber w n := { n with sequenceNumber := w }

/-- `commandCallback` up to its read loop. -/
def beginCommand (o : ByteOrder) (env : ConnectEnv) (sent : Int) (msg : WeldCommand)
    (n : CommandNode) : CommandNode × Bytes × Callback :=
  ops.beginCommand o env sent msg n

/-- `heartbeatCallback` up to its read loop. -/
def beginHeartbeat (o : ByteOrder) (sent : Int) (n : CommandNode) :
    CommandNode × Bytes × Callback :=
  ops.beginHeartbeat o sent n

/-- One round of the read loop. -/
def recvReply (o : ByteOrder) (out : RecvOutcome) (seqNr : Option Word) (got : Bytes)
    (n : CommandNode) (c : Channel) : CommandNode × Callback × Channel × List Ack :=
  ops.recvReply o out seqNr got n c

theorem beginCommand_ok (o : ByteOrder) (msg : WeldCommand) (n : CommandNode) :
    n.beginCommand o .ok 60 msg =
      ({ sockOpen := if n.connected then n.sockOpen else true
         connected := true
         sequenceNumber := n.sequenceNumber + 1 },
        sendBuf o (commandPacket (n.sequenceNumber + 1) msg),
        .reading (some (n.sequenceNumber + 1)) []) := by
  cases n with
  | mk sockOpen connected sequenceNumber =>
    cases connected <;> rfl

theorem beginHeartbeat_ok (o : ByteOrder) (n : CommandNode) :
    n.beginHeartbeat o 60 = (n, if n.connected then sendBuf o heartbeatPacket else [],
      if n.connected then .reading none [] else .idle) := by
  cases n with
  | mk sockOpen connected sequenceNumber =>
    cases connected <;> rfl

theorem recvReply_sequenceNumber (o : ByteOrder) (out : RecvOutcome) (seqNr : Option Word)
    (got : Bytes) (n : CommandNode) (c : Channel) :
    (n.recvReply o out seqNr got c).1.sequenceNumber = n.sequenceNumber := by
  rw [recvReply, NodeOps.recvReply_fst]
  split <;> rfl

end CommandNode

end FanucDriver
