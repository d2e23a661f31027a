import FanucDriver.Lib.Descriptors

/-!
# The client sockets of the ROS nodes

`fanuc_weld_command_node.cpp`, `fanuc_weld_state_node.cpp` and
`fanuc_weld_state_node_simple.cpp` open and close the socket in `sock_fd_` with the same calls.

* `openSocket` — `connect` and `init` from `socket` on.
* `closeSocket` — `disconnect` and the first half of `reconnect`.
* `destroySocket` — what the destructors do.
* `Sound` — the descriptors obtained, those open and those closed, and what `sock_fd_` has to do
  with them; `Owns.sound`, `Owns.sound_destroyed`.
-/

set_option autoImplicit false

namespace FanucDriver

open Descriptors

/-- What the calls of a connection attempt return: `socket` its descriptor, the others whether
they succeed. -/
structure SocketEnv where
  socket : Option Nat
  inetPton : Bool
  connect : Bool
  deriving DecidableEq, Repr

def SocketEnv.ok (env : SocketEnv) : Bool := env.socket.isSome && env.inetPton && env.connect

def SocketEnv.connects (fd : Nat) : SocketEnv := ⟨some fd, true, true⟩

/-- `sock_fd_` and the descriptors of the process. -/
structure ClientSocket where
  sockFd : Int
  table : Table
  deriving DecidableEq, Repr

namespace ClientSocket

/-- After the constructor. -/
def init : ClientSocket := ⟨-1, .empty⟩

/-- `close(sock_fd_); sock_fd_ = -1;` -/
def close (s : ClientSocket) : ClientSocket := ⟨-1, s.table.close s.sockFd.toNat⟩

/-- From `socket` on, and whether all the calls succeed. -/
def openSocket (env : SocketEnv) (s : ClientSocket) : Bool × ClientSocket :=
  match env.socket with
  | none => (false, { s with sockFd := -1 })
  | some fd =>
    let s : ClientSocket := ⟨fd, s.table.obtain fd⟩
    if !env.inetPton then (false, s.close)
    else if !env.connect then (false, s.close)
    else (true, s)

/-- `if (sock_fd_ >= 0)`, close it. -/
def closeSocket (s : ClientSocket) : ClientSocket := if 0 ≤ s.sockFd then s.close else s

/-- The same in a destructor, which leaves `sock_fd_` as it is. -/
def destroySocket (s : ClientSocket) : ClientSocket :=
  if 0 ≤ s.sockFd then { s with table := s.table.close s.sockFd.toNat } else s

/-- `sock_fd_` owns the descriptors. -/
def Holds (s : ClientSocket) : Prop := Owns s.table s.sockFd

theorem holds_init : init.Holds := owns_empty

theorem openSocket_fst (env : SocketEnv) (s : ClientSocket) : (s.openSocket env).1 = env.ok := by
  unfold openSocket SocketEnv.ok
  cases env with
  | mk socket inetPton connect =>
    cases socket <;> cases inetPton <;> cases connect <;> rfl

/-- **Connecting keeps the descriptors owned**, whichever call fails, if none was held. -/
theorem Holds.openSocket {s : ClientSocket} (h : s.Holds) (hfd : s.sockFd < 0) (env : SocketEnv) :
    (s.openSocket env).2.Holds := by
  unfold ClientSocket.openSocket
  split
  · exact h.of_neg hfd
  · rename_i fd _
    have hone : Owns (s.table.obtain fd) fd := Owns.obtain h hfd fd
    dsimp only
    split
    · exact hone.close (Int.natCast_nonneg fd)
    · split
      · exact hone.close (Int.natCast_nonneg fd)
      · exact hone

/-- A descriptor is held behind it exactly when all the calls succeed. -/
theorem openSocket_nonneg (env : SocketEnv) (s : ClientSocket) :
    0 ≤ (s.openSocket env).2.sockFd ↔ env.ok = true := by
  rw [← openSocket_fst env s]
  unfold ClientSocket.openSocket
  split
  · simp
  · dsimp only
    split
    · simp [close]
    · split
      · simp [close]
      · simp

theorem closeSocket_sockFd {s : ClientSocket} (h : s.Holds) : s.closeSocket.sockFd = -1 := by
  unfold closeSocket
  split
  · rfl
  · cases h with
    | none fd => exact fd
    | one n d fd => omega

theorem Holds.closeSocket {s : ClientSocket} (h : s.Holds) : s.closeSocket.Holds := by
  unfold ClientSocket.closeSocket
  split
  · rename_i hfd
    exact Owns.close h hfd
  · exact h

theorem closeSocket_closed (s : ClientSocket) :
    s.table.closed ⊆ s.closeSocket.table.closed := by
  unfold closeSocket
  split
  · exact Table.subset_close _ _
  · exact List.Subset.refl _

theorem openSocket_closed (env : SocketEnv) (s : ClientSocket) :
    s.table.closed ⊆ (s.openSocket env).2.table.closed := by
  unfold openSocket
  split
  · exact List.Subset.refl _
  · rename_i fd _
    dsimp only
    split
    · exact Table.subset_close _ (s.table.obtain fd)
    · split
      · exact Table.subset_close _ (s.table.obtain fd)
      · exact List.Subset.refl _

/-- Behind a destructor no descriptor is open. -/
theorem Holds.destroySocket {s : ClientSocket} (h : s.Holds) :
    Owns s.destroySocket.table (-1) := by
  unfold ClientSocket.destroySocket
  split
  · rename_i hfd
    exact Owns.close h hfd
  · rename_i hfd
    exact h.of_neg (Int.not_le.mp hfd)

/-- At most one descriptor is open, the one in `sock_fd_` of a node that is still there; every
other one obtained has been closed, and none twice or while it was not open; and none has been
obtained while another one was open, so that `sock_fd_` is not overwritten with an open one. -/
structure Sound (destroyed : Bool) (s : ClientSocket) : Prop where
  atMostOne : s.table.live.length ≤ 1
  held : ∀ e ∈ s.table.live, destroyed = false ∧ s.sockFd = e.2
  closedOnce : s.table.closed = List.range (s.table.opened - s.table.live.length)
  notCrowded : s.table.crowded = 0
  notStray : s.table.stray = 0
  open_of_nonneg : destroyed = false → 0 ≤ s.sockFd → ∃ e ∈ s.table.live, s.sockFd = e.2
  allClosed : destroyed = true → s.table.closed = List.range s.table.opened

theorem Holds.sound {s : ClientSocket} (h : s.Holds) : s.Sound false where
  atMostOne := h.live_le
  held := fun _ he => ⟨rfl, h.held he⟩
  closedOnce := h.closed_eq
  notCrowded := h.crowded_eq
  notStray := h.stray_eq
  open_of_nonneg := fun _ hfd => h.mem_live hfd
  allClosed := fun hd => by cases hd

theorem sound_destroyed {s : ClientSocket} (h : Owns s.table (-1)) : s.Sound true where
  atMostOne := h.live_le
  held := by
    intro e he
    simp [h.live_nil (by decide)] at he
  closedOnce := h.closed_eq
  notCrowded := h.crowded_eq
  notStray := h.stray_eq
  open_of_nonneg := fun hd => by cases hd
  allClosed := fun _ => by
    rw [h.closed_eq, h.live_nil (by decide)]
    rfl

end ClientSocket

end FanucDriver
