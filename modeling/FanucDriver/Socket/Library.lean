import Mathlib.Data.List.Basic

/-!
# The socket library (`libssock.kl`)

A server socket, the file descriptor opened on it, and the routines through which the programs
change them.  How `MSG_CONNECT`, `MSG_DISCO`, `OPEN FILE`, `GET_VAR` and `SET_VAR` end is part of
the input.

* `Ssock`, `ssockCtor`.
* `World` — the socket with its descriptor, and a history of the two calls that must not find
  them in use.  `OPEN FILE` opens the descriptor when its status is 0, `CLOSE FILE` closes it.
* `ssockAccept`, `ssockDconnf`, `ssockOfd`, `ssockCfd`, `ssockAccpt2`, `ssockDconn2`.
* `ssockAccpt2_spec`, `ssockDconn2_spec` — what the programs rely on.
-/

set_option autoImplicit false

namespace FanucDriver

namespace Socket

def TAG_CONF_ERR : Int := -1
def S_OPEN_ERR : Int := -2
def S_ACPT_ERR : Int := -4
def S_NOTCON_ERR : Int := -7

def TAG_STARTED : Int := 3

/-- `ssock_t` -/
structure Ssock where
  connected : Bool
  status : Int
  port : Int
  tagIdx : Int
  tagStr : String
  hcfgStr : String
  deriving DecidableEq, Repr

/-- `ssock_ctor`, with the tag's state and the status from `GET_VAR` and the status of
`SET_VAR`. -/
def ssockCtor (getVar : Int × Int) (setVar : Int) (tcpPort tagIdx : Int) : Ssock × Int :=
  let this : Ssock := ⟨false, 0, tcpPort, tagIdx, "", ""⟩
  if tagIdx < 1 ∨ 8 < tagIdx then (this, S_OPEN_ERR)
  else
    let tmpStr := String.singleton (Char.ofNat (tagIdx.toNat + '0'.toNat))
    let this := { this with
      hcfgStr := "$HOSTS_CFG[" ++ tmpStr ++ "]"
      tagStr := "S" ++ tmpStr ++ ":"
      status := getVar.2 }
    if this.status ≠ 0 ∨ getVar.1 ≠ TAG_STARTED then (this, TAG_CONF_ERR)
    else
      let this := { this with status := setVar }
      if this.status ≠ 0 then (this, TAG_CONF_ERR) else (this, -this.status)

@[simp] theorem ssockCtor_connected (getVar : Int × Int) (setVar tcpPort tagIdx : Int) :
    (ssockCtor getVar setVar tcpPort tagIdx).1.connected = false := by
  unfold ssockCtor
  dsimp only
  split
  · rfl
  · split
    · rfl
    · split <;> rfl

/-- A call of `ssock_accept` or an `OPEN FILE`, with what they find. -/
inductive Call where
  /-- the status is that of `MSG_CONNECT` -/
  | accept (connected fdOpen : Bool) (msgConnect returned : Int)
  | openFile (fdOpen : Bool)
  deriving DecidableEq, Repr

/-- The socket instance of a program and its descriptor. -/
structure World where
  sock : Ssock
  fdOpen : Bool
  calls : List Call
  deriving DecidableEq, Repr

/-- `ssock_accept` -/
def ssockAccept (msgConnect : Int) (this : Ssock) : Ssock × Int :=
  if this.connected then (this, S_ACPT_ERR)
  else (if msgConnect = 0 then { this with connected := true } else this, -msgConnect)

/-- `ssock_dconnf` -/
def ssockDconnf (msgDisco : Int) (w : World) : World × Int :=
  ({ w with sock := { w.sock with connected := false } }, -msgDisco)

/-- `ssock_ofd` -/
def ssockOfd (openFile : Int) (w : World) : World × Int :=
  if w.sock.connected = false then (w, S_NOTCON_ERR)
  else
    ({ w with fdOpen := w.fdOpen || decide (openFile = 0), calls := w.calls ++ [.openFile w.fdOpen] },
      -openFile)

/-- `ssock_cfd` -/
def ssockCfd (w : World) : World × Int :=
  if w.sock.connected = false then (w, S_NOTCON_ERR) else ({ w with fdOpen := false }, 0)

/-- `ssock_accpt2` -/
def ssockAccpt2 (msgConnect openFile : Int) (w : World) : World × Int :=
  let a := ssockAccept msgConnect w.sock
  let w := { w with
    sock := a.1
    calls := w.calls ++ [.accept w.sock.connected w.fdOpen msgConnect a.2] }
  if a.2 ≠ 0 then (w, a.2) else ssockOfd openFile w

/-- `ssock_dconn2` -/
def ssockDconn2 (msgDisco : Int) (w : World) : World × Int :=
  if w.sock.connected = false then (w, S_NOTCON_ERR)
  else
    let w := (ssockCfd w).1
    ({ w with sock := { w.sock with connected := false } }, -msgDisco)

/-! ## What the programs rely on -/

/-- The call finds nothing in use; `ssock_accept` then returns the status of `MSG_CONNECT`. -/
def Call.Fresh : Call → Prop
  | .accept connected fdOpen msgConnect returned =>
    connected = false ∧ fdOpen = false ∧ returned = -msgConnect
  | .openFile fdOpen => fdOpen = false

/-- No client, and no open descriptor. -/
structure World.Idle (w : World) : Prop where
  connected : w.sock.connected = false
  fdOpen : w.fdOpen = false
  calls : ∀ c ∈ w.calls, c.Fresh

/-- A descriptor is open only while there is a client. -/
structure World.Tidy (w : World) : Prop where
  connected : w.fdOpen = true → w.sock.connected = true
  calls : ∀ c ∈ w.calls, c.Fresh

theorem World.Idle.tidy {w : World} (h : w.Idle) : w.Tidy := by
  refine ⟨?_, h.calls⟩
  intro hopen
  rw [h.fdOpen] at hopen
  cases hopen

/-- `ssock_accpt2` is tidy in each of its three ways to end. -/
theorem ssockAccpt2_spec {w : World} (h : w.Idle) (msgConnect openFile : Int) :
    (ssockAccpt2 msgConnect openFile w).1.Tidy := by
  have haccept : Call.Fresh (.accept w.sock.connected w.fdOpen msgConnect (-msgConnect)) :=
    ⟨h.connected, h.fdOpen, rfl⟩
  have hopen : Call.Fresh (.openFile w.fdOpen) := h.fdOpen
  have hret : ssockAccept msgConnect w.sock =
      (if msgConnect = 0 then { w.sock with connected := true } else w.sock, -msgConnect) := by
    rw [ssockAccept, h.connected]
    rfl
  unfold ssockAccpt2
  rw [hret]
  by_cases hzero : msgConnect = 0
  · subst hzero
    refine ⟨fun _ => rfl, ?_⟩
    intro c hc
    replace hc : c ∈ w.calls ++ [Call.accept w.sock.connected w.fdOpen 0 (-0)] ++
        [Call.openFile w.fdOpen] := hc
    rw [List.mem_append, List.mem_append, List.mem_singleton, List.mem_singleton] at hc
    rcases hc with (hc | rfl) | rfl
    · exact h.calls c hc
    · exact haccept
    · exact hopen
  · have hneg : -msgConnect ≠ 0 := by omega
    simp only [if_neg hzero, if_pos hneg]
    refine ⟨?_, ?_⟩
    · intro hfd
      exact absurd hfd (by simp [h.fdOpen])
    · intro c hc
      rw [List.mem_append, List.mem_singleton] at hc
      rcases hc with hc | rfl
      · exact h.calls c hc
      · exact haccept

/-- `ssock_dconn2` leaves nothing in use. -/
theorem ssockDconn2_spec {w : World} (h : w.Tidy) (msgDisco : Int) :
    (ssockDconn2 msgDisco w).1.Idle := by
  unfold ssockDconn2
  split
  · rename_i hno
    refine ⟨hno, ?_, h.calls⟩
    rw [← Bool.not_eq_true]
    intro hopen
    rw [h.connected hopen] at hno
    cases hno
  · rename_i hcon
    rw [ssockCfd, if_neg hcon]
    exact ⟨rfl, rfl, h.calls⟩

end Socket

end FanucDriver
