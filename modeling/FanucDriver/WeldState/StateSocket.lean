import FanucDriver.Lib.Lts
import FanucDriver.Socket.Client
import FanucDriver.WeldState.SimpleNode
import FanucDriver.WeldState.TcpNode

/-!
# The welding state receivers with their socket

`main` constructs the node, calls `init` and, if that succeeds, `run`; then the node is
destroyed.  `run` reconnects on its own.  Both receivers do this alike, around their own `iter`.

* `Phase`, `SocketRun`, `step` — the phases, one iteration of `run`'s loop a step.
* `Reconnects` — an iteration asks for a new connection only through `commError`;
  `tcp_reconnects`, `simple_reconnects`.
* `run_inv` — `sock_fd_` owns the descriptors, and `run` receives from an open one.
-/

set_option autoImplicit false

namespace FanucDriver

open Wire Node

namespace StateSocket

/-- Where `main` stands. -/
inductive Phase where
  | created
  | running (st : RunState)
  | returned
  | destroyed
  deriving DecidableEq, Repr

structure SocketRun where
  sock : ClientSocket
  phase : Phase
  deriving DecidableEq, Repr

def SocketRun.init : SocketRun := ⟨.init, .created⟩

def SocketRun.destroyed (s : SocketRun) : Bool := s.phase == .destroyed

/-- `reconnect` -/
def reconnect (env : SocketEnv) (s : ClientSocket) : Bool × ClientSocket :=
  s.closeSocket.openSocket env

inductive Label where
  /-- `init`, the stream of the connection it opens and how its bytes arrive -/
  | init (env : SocketEnv) (c : Channel) (arrivals : List Nat)
  /-- an iteration of `run`'s loop, and what a `reconnect` in it finds -/
  | iterate (env : SocketEnv) (c : Channel)
  /-- the destructor, when `run` has returned or `ros::ok()` has ended its loop -/
  | destroy
  deriving DecidableEq, Repr

/-- The stream that a connection attempt obtains. -/
def attempt (env : SocketEnv) (c : Channel) : Option Channel := if env.ok then some c else none

/-- The iteration has reconnected when it has used the attempt it was given. -/
def iterate (iter : RunState → RunState) (env : SocketEnv) (c : Channel) (st : RunState)
    (s : ClientSocket) : SocketRun :=
  let st := iter { st with attempts := [attempt env c] }
  ⟨if st.attempts = [] then (reconnect env s).2 else s, .running st⟩

def step (iter : RunState → RunState) (s : SocketRun) : Label → Option SocketRun
  | .init env c arrivals =>
    if s.phase = .created then
      let r := s.sock.openSocket env
      some ⟨r.2, if r.1 then .running (connected c arrivals) else .returned⟩
    else none
  | .iterate env c =>
    match s.phase with
    | .running st => if st.status = .running then some (iterate iter env c st s.sock) else none
    | _ => none
  | .destroy =>
    if s.phase = .destroyed then none else some ⟨s.sock.destroySocket, .destroyed⟩

/-- An iteration leaves the connections to come alone, but for what `commError` takes. -/
def Reconnects (iter : RunState → RunState) : Prop :=
  ∀ st, (iter st).attempts = st.attempts ∨
    ∃ st', st'.attempts = st.attempts ∧ iter st = commError st'

theorem tcp_reconnects (p : TcpNode.Params) : Reconnects (TcpNode.iter p) := by
  intro st
  unfold TcpNode.iter
  split
  · rename_i sock _
    exact .inr ⟨{ st with sock := sock }, rfl, rfl⟩
  · exact .inl (TcpNode.handle_spec p _ _).attempts

theorem process_attempts (p : SimpleNode.Params) (msg : SimpleNode.SimpleMessage)
    (st : RunState) : (SimpleNode.process p msg st).attempts = st.attempts := by
  unfold SimpleNode.process
  dsimp only
  split
  · split <;> rfl
  · rfl

theorem simple_reconnects (p : SimpleNode.Params) (freed : SimpleNode.Freed) :
    Reconnects (SimpleNode.iter p freed) := by
  intro st
  unfold SimpleNode.iter
  split
  · rename_i c ks _
    exact .inr ⟨{ st with sock := c, arrivals := ks }, rfl, rfl⟩
  · exact .inl rfl
  · exact .inl (process_attempts p _ _)

/-! ## The descriptor it holds -/

/-- Before the destructor `sock_fd_` owns the descriptors, behind it none is open; there is one
while `run` is in its loop and none before `init`. -/
structure Inv (s : SocketRun) : Prop where
  holds : s.phase ≠ .destroyed → s.sock.Holds
  created : s.phase = .created → s.sock.sockFd < 0
  running : ∀ st, s.phase = .running st → st.status = .running → 0 ≤ s.sock.sockFd
  destroyed : s.phase = .destroyed → Descriptors.Owns s.sock.table (-1)

theorem inv_init : Inv .init where
  holds := fun _ => ClientSocket.holds_init
  created := by decide
  running := fun st h => by cases h
  destroyed := fun h => by cases h

/-- `commError` goes on only with a connection. -/
theorem commError_one {st : RunState} {a : Option Channel} (hatt : st.attempts = [a])
    (hused : (commError st).attempts = []) (hrun : (commError st).status = .running) :
    a.isSome = true := by
  unfold commError at hused hrun
  dsimp only at hused hrun
  split at hused
  · rename_i hmany
    rw [if_pos hmany, hatt] at hrun
    cases a with
    | none => cases hrun
    | some c => rfl
  · rw [hatt] at hused
    cases hused

theorem iterate_inv {iter : RunState → RunState} (hiter : Reconnects iter) (env : SocketEnv)
    (c : Channel) (st : RunState) {s : ClientSocket} (h : s.Holds) (hfd : 0 ≤ s.sockFd) :
    Inv (iterate iter env c st s) := by
  have hclosed := ClientSocket.closeSocket_sockFd h
  refine ⟨fun _ => ?_, (nomatch ·), fun st' hst' hrun => ?_, (nomatch ·)⟩
  · unfold iterate
    dsimp only
    split
    · exact h.closeSocket.openSocket (by omega) env
    · exact h
  · unfold iterate at hst' ⊢
    dsimp only at hst' ⊢
    cases hst'
    split
    · rename_i hused
      rcases hiter { st with attempts := [attempt env c] } with hatt | hcomm
      · rw [hused] at hatt
        cases hatt
      · obtain ⟨st', hatt, heq⟩ := hcomm
        rw [heq] at hused hrun
        have hsome := commError_one hatt hused hrun
        refine (ClientSocket.openSocket_nonneg env _).mpr ?_
        cases hok : env.ok with
        | true => rfl
        | false => simp [attempt, hok] at hsome
    · exact hfd

theorem step_inv {iter : RunState → RunState} (hiter : Reconnects iter) {s t : SocketRun}
    {l : Label} (h : Inv s) (hs : step iter s l = some t) : Inv t := by
  cases l with
  | init env c arrivals =>
    rw [step] at hs
    split at hs
    · rename_i hcreated
      cases hs
      have hholds := (h.holds (by simp [hcreated])).openSocket (h.created hcreated) env
      have hiff := ClientSocket.openSocket_nonneg env s.sock
      rw [← ClientSocket.openSocket_fst env s.sock] at hiff
      split
      · rename_i hok
        exact ⟨fun _ => hholds, (nomatch ·), fun _ _ _ => hiff.mpr hok, (nomatch ·)⟩
      · exact ⟨fun _ => hholds, (nomatch ·), fun _ => (nomatch ·), (nomatch ·)⟩
    · cases hs
  | iterate env c =>
    rw [step] at hs
    split at hs
    · rename_i st hphase
      split at hs
      · rename_i hrun
        cases hs
        exact iterate_inv hiter env c st (h.holds (by simp [hphase])) (h.running st hphase hrun)
      · cases hs
    · cases hs
  | destroy =>
    rw [step] at hs
    split at hs
    · cases hs
    · rename_i hphase
      cases hs
      exact ⟨fun h => absurd rfl h, (nomatch ·), fun _ => (nomatch ·),
        fun _ => (h.holds hphase).destroySocket⟩

theorem run_inv {iter : RunState → RunState} (hiter : Reconnects iter) {ls : List Label}
    {s : SocketRun} (hr : Lts.run (step iter) .init ls = some s) : Inv s :=
  Lts.run_inv (fun _ _ _ => step_inv hiter) inv_init hr

theorem Inv.sound {s : SocketRun} (h : Inv s) : s.sock.Sound s.destroyed := by
  cases hd : s.destroyed with
  | true => exact ClientSocket.sound_destroyed (h.destroyed (beq_iff_eq.mp hd))
  | false =>
    refine (h.holds ?_).sound
    intro hphase
    simp [SocketRun.destroyed, hphase] at hd

end StateSocket

end FanucDriver
