import FanucDriver.Lib.Lts
import FanucDriver.Motion.Handshake
import FanucDriver.WeldCommand.Packet
import FanucDriver.Socket.Library

/-!
# The four server programs around the socket

The main loops of `ros_relay`, `ros_state`, `ros_weld_relay` and `ros_weld_state_reader`, from the
first line to the end, as far as they decide which routine of `libssock` is called next.  What the
routines of an iteration return is part of the input, and so are the moments at which the
operator aborts the program.

* `Exit`, `rosRelayLoop`, `rosStateLoop`, `rosWeldRelayLoop`, `rosWeldStateReaderLoop` — how an
  iteration of each inner loop ends.
* `Program`, `Pc`, `State`, `Label`, `step` — the four programs, call by call.
* `Inv`, `step_inv`, `run_sockets` — what `ssock_accept`, `OPEN FILE` and the final `ssock_dconnf`
  find.
-/

set_option autoImplicit false

namespace FanucDriver

namespace Socket

/-! ## The inner loops -/

/-- How an iteration ends: with the next one, at `exit_discon`, or with `ssock_dconn2` and
`GOTO exit_inner`. -/
inductive Exit where
  | next
  | discon
  | dconnInner
  deriving DecidableEq, Repr

/-- What the routines called by `ros_relay` return; `seqNr` is that of the packet. -/
structure RelayReturns where
  checkfd : Int
  seqNr : Int
  reqNext : Int
  execMove : Int
  sendErr : Int

/-- `ros_relay` -/
def rosRelayLoop (r : RelayReturns) : Exit :=
  if r.checkfd < 0 then .discon
  else if 0 < r.checkfd then
    if r.seqNr < 0 then
      if r.seqNr = RI_SEQ_STPRJ then
        if r.reqNext ≠ 0 then .discon else .next
      else .next
    else if r.reqNext ≠ 0 then .discon
    else if r.execMove ≠ 0 then
      if r.sendErr ≠ MOVERR_OOR then .discon else .next
    else .next
  else .next

/-- What the serialisers called by `ros_state` return, and whether a status is due. -/
structure StateReturns where
  ipktSrlise : Int
  statusDue : Bool
  irsTpcSrl : Int

/-- `ros_state` -/
def rosStateLoop (r : StateReturns) : Exit :=
  if r.ipktSrlise ≠ 0 then .dconnInner
  else if r.statusDue then
    if r.irsTpcSrl ≠ 0 then .dconnInner else .next
  else .next

/-- What the routines called by `ros_weld_relay` return; `idleTimeout` is the test of the idle
counter with heartbeats enabled. -/
structure WeldRelayReturns where
  dsliceCmd : Int
  seqNr : Wire.Word
  reqNext : Int
  idleTimeout : Bool

/-- `ros_weld_relay` -/
def rosWeldRelayLoop (r : WeldRelayReturns) : Exit :=
  if r.dsliceCmd < 0 then .discon
  else if 0 < r.dsliceCmd then
    if r.seqNr = RI_SEQ_HB then
      if r.reqNext ≠ 0 then .discon else .next
    else if r.reqNext ≠ 0 then .discon
    else .next
  else if r.idleTimeout then .discon
  else .next

/-- `ros_weld_state_reader`, with what `iwd_srlise` returns. -/
def rosWeldStateReaderLoop (srlise : Int) : Exit :=
  if srlise ≠ 0 then .dconnInner else .next

/-! ## The programs -/

inductive Program where
  | rosRelay
  | rosState
  | rosWeldRelay
  | rosWeldStateReader
  deriving DecidableEq, Repr

/-- The two welding programs call `ssock_dconn2` before they wait for a client. -/
def Program.dconnFirst : Program → Bool
  | .rosRelay | .rosState => false
  | .rosWeldRelay | .rosWeldStateReader => true

def Program.Returns : Program → Type
  | .rosRelay => RelayReturns
  | .rosState => StateReturns
  | .rosWeldRelay => WeldRelayReturns
  | .rosWeldStateReader => Int

def Program.loop : (P : Program) → P.Returns → Exit
  | .rosRelay => rosRelayLoop
  | .rosState => rosStateLoop
  | .rosWeldRelay => rosWeldRelayLoop
  | .rosWeldStateReader => rosWeldStateReaderLoop

/-- The call or test the program is at. -/
inductive Pc where
  /-- `check_cfg_`, before the ABORT handler is installed -/
  | checkCfg
  | ctor
  /-- the first `ssock_dconnf` -/
  | dconnf
  /-- the test of the outer loop -/
  | outer
  /-- `ssock_dconn2` before the next client -/
  | dconnFirst
  | accpt2
  /-- the test of the inner loop -/
  | inner
  | iteration
  /-- `ssock_dconn2` in front of `GOTO exit_inner` -/
  | dconnInner
  | exitDiscon
  /-- the final `ssock_dconnf` -/
  | exitOnErr
  | exit
  deriving DecidableEq, Repr

structure State where
  pc : Pc
  world : World
  shutdwnReq : Bool
  deriving DecidableEq, Repr

/-- A program is started: `sock_` has kept its value from the last run, and no file is open. -/
def State.init (sock : Ssock) : State where
  pc := .checkCfg
  world := ⟨sock, false, []⟩
  shutdwnReq := false

/-- What the next step meets.  The numbers are statuses. -/
inductive Label (P : Program) where
  | config (ok : Bool)
  | ctor (getVar : Int × Int) (setVar tcpPort tagIdx : Int)
  | test
  | accpt2 (msgConnect openFile : Int)
  | iteration (r : P.Returns)
  | disco (msgDisco : Int)
  /-- the ABORT handler: `shutdwn_req_`, and `CANCEL FILE`, which may make the operation under way
  fail -/
  | abort

/-- `POST_ERR` after a failed `ssock_ctor` aborts the program, which its own handler prevents. -/
def step (P : Program) (s : State) : Label P → Option State
  | .config ok =>
    if s.pc = .checkCfg then some { s with pc := if ok then .ctor else .exit } else none
  | .ctor getVar setVar tcpPort tagIdx =>
    if s.pc = .ctor then
      some { s with
        pc := .dconnf
        world := { s.world with sock := (ssockCtor getVar setVar tcpPort tagIdx).1 } }
    else none
  | .test =>
    match s.pc with
    | .outer =>
      some { s with pc := if s.shutdwnReq then .exitOnErr
        else if P.dconnFirst then .dconnFirst else .accpt2 }
    | .inner => some { s with pc := if s.shutdwnReq then .exitDiscon else .iteration }
    | _ => none
  | .accpt2 msgConnect openFile =>
    if s.pc = .accpt2 then
      let r := ssockAccpt2 msgConnect openFile s.world
      some { s with pc := if r.2 ≠ 0 then .exitDiscon else .inner, world := r.1 }
    else none
  | .iteration r =>
    if s.pc = .iteration then
      match P.loop r with
      | .next => some { s with pc := .inner }
      | .discon => some { s with pc := .exitDiscon }
      | .dconnInner => some { s with pc := .dconnInner }
    else none
  | .disco msgDisco =>
    match s.pc with
    | .dconnf => some { s with pc := .outer, world := (ssockDconnf msgDisco s.world).1 }
    | .dconnFirst => some { s with pc := .accpt2, world := (ssockDconn2 msgDisco s.world).1 }
    | .dconnInner => some { s with pc := .outer, world := (ssockDconn2 msgDisco s.world).1 }
    | .exitDiscon => some { s with pc := .outer, world := (ssockDconn2 msgDisco s.world).1 }
    | .exitOnErr => some { s with pc := .exit, world := (ssockDconnf msgDisco s.world).1 }
    | _ => none
  | .abort =>
    match s.pc with
    | .checkCfg => some { s with pc := .exit }
    | .exit => none
    | _ => some { s with shutdwnReq := true }

/-! ## The invariant -/

/-- What holds of the socket at each place. -/
def Inv (s : State) : Prop :=
  match s.pc with
  | .checkCfg | .ctor => s.world.fdOpen = false ∧ s.world.calls = []
  | .dconnf | .outer | .dconnFirst | .accpt2 | .exitOnErr => s.world.Idle
  | .inner | .iteration | .dconnInner | .exitDiscon => s.world.Tidy
  | .exit => ∀ c ∈ s.world.calls, c.Fresh

/-- At every place the calls so far have found nothing in use. -/
theorem Inv.calls {s : State} (h : Inv s) : ∀ c ∈ s.world.calls, c.Fresh := by
  unfold Inv at h
  split at h
  · simp [h.2]
  · simp [h.2]
  · exact h.calls
  · exact h.calls
  · exact h.calls
  · exact h.calls
  · exact h.calls
  · exact h.calls
  · exact h.calls
  · exact h.calls
  · exact h.calls
  · exact h

/-- The tests of the two loops. -/
theorem Inv.test {P : Program} {s t : State} (hs : Inv s) (h : step P s .test = some t) : Inv t := by
  rw [step] at h
  split at h
  · rename_i hpc
    cases h
    rw [Inv, hpc] at hs
    cases s.shutdwnReq
    · cases P.dconnFirst
      · exact hs
      · exact hs
    · exact hs
  · rename_i hpc
    cases h
    rw [Inv, hpc] at hs
    cases s.shutdwnReq
    · exact hs
    · exact hs
  · cases h

/-- `ssock_accpt2`, whichever way it ends. -/
theorem Inv.accpt2 {P : Program} {s t : State} {msgConnect openFile : Int} (hs : Inv s)
    (h : step P s (.accpt2 msgConnect openFile) = some t) : Inv t := by
  rw [step] at h
  split at h
  · rename_i hpc
    cases h
    rw [Inv, hpc] at hs
    have hspec := ssockAccpt2_spec hs msgConnect openFile
    by_cases hret : (ssockAccpt2 msgConnect openFile s.world).2 ≠ 0
    · rw [if_pos hret]
      exact hspec
    · rw [if_neg hret]
      exact hspec
  · cases h

/-- The places where the client is disconnected. -/
theorem Inv.disco {P : Program} {s t : State} {msgDisco : Int} (hs : Inv s)
    (h : step P s (.disco msgDisco) = some t) : Inv t := by
  rw [step] at h
  split at h
  · rename_i hpc
    cases h
    rw [Inv, hpc] at hs
    exact ⟨rfl, hs.fdOpen, hs.calls⟩
  · rename_i hpc
    cases h
    rw [Inv, hpc] at hs
    exact ssockDconn2_spec hs.tidy msgDisco
  · rename_i hpc
    cases h
    rw [Inv, hpc] at hs
    exact ssockDconn2_spec hs msgDisco
  · rename_i hpc
    cases h
    rw [Inv, hpc] at hs
    exact ssockDconn2_spec hs msgDisco
  · rename_i hpc
    cases h
    rw [Inv, hpc] at hs
    exact hs.calls
  · cases h

/-- **Step lemma.** -/
theorem step_inv {P : Program} {s t : State} {l : Label P} (hs : Inv s)
    (h : step P s l = some t) : Inv t := by
  cases l with
  | config ok =>
    rw [step] at h
    split at h
    · rename_i hpc
      cases h
      rw [Inv, hpc] at hs
      cases ok
      · intro c hc
        rw [hs.2] at hc
        cases hc
      · exact hs
    · cases h
  | ctor getVar setVar tcpPort tagIdx =>
    rw [step] at h
    split at h
    · rename_i hpc
      cases h
      rw [Inv, hpc] at hs
      exact ⟨ssockCtor_connected getVar setVar tcpPort tagIdx, hs.1, by simp [hs.2]⟩
    · cases h
  | test => exact hs.test h
  | accpt2 msgConnect openFile => exact hs.accpt2 h
  | iteration r =>
    rw [step] at h
    split at h
    · rename_i hpc
      rw [Inv, hpc] at hs
      split at h
      · cases h
        exact hs
      · cases h
        exact hs
      · cases h
        exact hs
    · cases h
  | disco msgDisco => exact hs.disco h
  | abort =>
    rw [step] at h
    split at h
    · cases h
      exact hs.calls
    · cases h
    · cases h
      exact hs

/-- **The socket is free whenever it is needed.** In every run of each of the four programs,
`ssock_accept` finds `connected_` FALSE and the descriptor closed and so returns the status of
`MSG_CONNECT`, which is not `S_ACPT_ERR` unless `MSG_CONNECT` itself ends with status 4;
`OPEN FILE` finds the descriptor closed; and so does the final `ssock_dconnf`. -/
theorem run_sockets (P : Program) (sock : Ssock) {ls : List (Label P)} {s : State}
    (h : Lts.run (step P) (State.init sock) ls = some s) :
    (∀ con fd stat ret, Call.accept con fd stat ret ∈ s.world.calls →
      con = false ∧ fd = false ∧ ret = -stat ∧ (stat ≠ 4 → ret ≠ S_ACPT_ERR)) ∧
      (∀ fd, Call.openFile fd ∈ s.world.calls → fd = false) ∧
      (s.pc = .accpt2 → s.world.sock.connected = false ∧ s.world.fdOpen = false) ∧
      (s.pc = .exitOnErr → s.world.fdOpen = false) := by
  have hinv : Inv s :=
    Lts.run_inv (fun _ _ _ => step_inv) (show Inv (State.init sock) from ⟨rfl, rfl⟩) h
  refine ⟨?_, ?_, ?_, ?_⟩
  · intro con fd stat ret hc
    obtain ⟨hcon, hfd, hret⟩ := hinv.calls _ hc
    refine ⟨hcon, hfd, hret, ?_⟩
    intro hstat
    rw [S_ACPT_ERR]
    omega
  · intro fd hc
    exact hinv.calls _ hc
  · intro hpc
    rw [Inv, hpc] at hinv
    exact ⟨hinv.connected, hinv.fdOpen⟩
  · intro hpc
    rw [Inv, hpc] at hinv
    exact hinv.fdOpen

/-- `OPEN FILE` fails for the first client, `MSG_DISCO` behind it; the second one leaves; abort. -/
def twoClients : List (Label .rosState) :=
  [.config true, .ctor (TAG_STARTED, 0) 0 11002 3, .disco 0, .test, .accpt2 0 2032, .disco 67141,
    .test, .accpt2 0 0, .test, .iteration ⟨-67213, false, 0⟩, .disco 0, .abort, .test]

theorem run_sockets_twoClients :
    ∃ s, Lts.run (step .rosState) (State.init ⟨true, 0, 0, 0, "", ""⟩) twoClients = some s ∧
      s.world.calls = [.accept false false 0 0, .openFile false, .accept false false 0 0,
        .openFile false] ∧ s.pc = .exitOnErr ∧ s.world.fdOpen = false :=
  ⟨_, rfl, rfl, rfl, (run_sockets .rosState ⟨true, 0, 0, 0, "", ""⟩
    (rfl : Lts.run (step .rosState) _ twoClients = some _)).2.2.2 rfl⟩

end Socket

end FanucDriver
