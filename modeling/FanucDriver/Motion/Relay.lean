import FanucDriver.Karel.Packet
import FanucDriver.Motion.HandOver

/-!
# The trajectory relay (`ros_relay.kl`)

The main loops of `ros_relay`, statement by statement, together with `exec_move_`, `ROS_MOVESM`
and the motion in progress; a run ends where the operator aborts the program.

* `Env` — configuration, byte order, and the conversions of joint values.
* `reqNext`, `sendErr` — the two routines that write the reply packet.
* `Pc`, `State`, `Label`, `step` — the statement the relay is at, and what happens next.
* `Handled` — what was done for a packet, kept as history.
* `Trans`, `step_trans` — every step is one of these.
* `run_hand`, `run_handOver` — a run of the relay is a run of the hand-over and has its
  invariants.
-/

set_option autoImplicit false

namespace FanucDriver

open Wire

namespace TrajRelay

open Handshake

variable {P : Type}

/-! ## Replies -/

def MOVE_SPEED : Int := 20
def MOVE_CNT : Int := 50

/-- `rrelay_cfg_t`, as far as `exec_move_` reads it; flags and registers have their default
numbers. -/
structure RrelayCfg where
  moveSpeed : Int
  moveCnt : Int
  deriving DecidableEq, Repr

def rrelayCfgDefault : RrelayCfg := ⟨MOVE_SPEED, MOVE_CNT⟩

/-- What the relay runs on.  `arrRad2deg` and `cnvRelJpos` compute with REALs: the first is
`arr_rad2deg`, the second the position `CNV_REL_JPOS` returns when it succeeds. -/
structure Env (P : Type) where
  byteOrder : ByteOrder
  cr : Bool
  cfg : RrelayCfg
  arrRad2deg : Vector Word 10 → Vector Word 10
  cnvRelJpos : Vector Word 10 → P

/-- An environment in which positions are the words of the first joint. -/
def plainEnv : Env Word where
  byteOrder := .little
  cr := true
  cfg := rrelayCfgDefault
  arrRad2deg := id
  cnvRelJpos := fun v => v[0]

/-- A call that writes a reply: the reply packet afterwards, the bytes written, what
`ipkt_srlise` returned and what the routine returns. -/
structure Written where
  pktOut : IndPkt
  bytes : Bytes
  stat : Int
  ret : Int
  deriving DecidableEq, Repr

def answer (env : Env P) (replyType : Word) (os : List WriteOutcome) (pktIn pktOut : IndPkt) :
    Written :=
  let r := ipktSrlise env.byteOrder env.cr os
    { pktOut with seqNr := pktIn.seqNr, replyType := replyType }
  ⟨r.1, r.2.1, r.2.2, -(r.2.2.natAbs : Int)⟩

/-- `req_next_` -/
def reqNext (env : Env P) : List WriteOutcome → IndPkt → IndPkt → Written :=
  answer env RI_RT_SUCC

/-- `send_err_` -/
def sendErr (env : Env P) : List WriteOutcome → IndPkt → IndPkt → Written :=
  answer env RI_RT_FAIL

theorem answer_ret (env : Env P) (replyType : Word) (os : List WriteOutcome)
    (pktIn pktOut : IndPkt) :
    (answer env replyType os pktIn pktOut).ret =
      -((answer env replyType os pktIn pktOut).stat.natAbs : Int) := rfl

/-- The fields of `pkt_out_` that are set once. -/
structure ReplyHeader (p : IndPkt) : Prop where
  length : p.length = BitVec.ofNat 32 (RI_SZ_HDR + RI_SZB_JPOS)
  msgType : p.msgType = RI_MT_JOINTP
  commType : p.commType = RI_CT_SVCRPL
  jointData : p.jointData = Vector.replicate 10 0

/-- A reply on the wire. -/
def replyBytes (env : Env P) (replyType seqNr : Word) : Bytes :=
  encodeAll env.byteOrder
      ([BitVec.ofNat 32 (RI_SZ_HDR + RI_SZB_JPOS), RI_MT_JOINTP, RI_CT_SVCRPL, replyType, seqNr] ++
        List.replicate 10 0) ++
    crBytes env.cr

/-- The `WRITE`s of a reply: fifteen fields and the CR. -/
def replyWrites (os : List WriteOutcome) : List WriteOutcome := os.take 16

theorem answer_spec (env : Env P) (replyType : Word) (os : List WriteOutcome) (pktIn : IndPkt)
    {pktOut : IndPkt} (hp : ReplyHeader pktOut) :
    ReplyHeader (answer env replyType os pktIn pktOut).pktOut ∧
      (answer env replyType os pktIn pktOut).stat = -ioStatus (replyWrites os) ∧
      (ioStatus (replyWrites os) = 0 → (answer env replyType os pktIn pktOut).bytes =
        replyBytes env replyType pktIn.seqNr) := by
  obtain ⟨hlen, htype, hcomm, hjoints⟩ := hp
  have htraj : pktOut.msgType ≠ RI_MT_JTRAJP := by
    rw [htype]
    decide
  have hstat : ∀ p : IndPkt, (writeSeq os (p.words.map (encode env.byteOrder) ++
      [crBytes env.cr])).2 = ioStatus (replyWrites os) := by
    intro p
    rw [writeSeq_stat, List.length_append, List.length_map, IndPkt.words_length]
    rfl
  simp only [answer, ipktSrlise, if_neg htraj, List.append_nil, hstat]
  refine ⟨⟨hlen, htype, hcomm, hjoints⟩, trivial, ?_⟩
  intro h0
  rw [writeSeq_stat_zero ((hstat _).trans h0), List.flatten_append, List.flatten_singleton,
    replyBytes, IndPkt.words, hlen, htype, hcomm, hjoints, Vector.toList_replicate]
  rfl

/-- A routine returns 0 exactly when every `WRITE` succeeds. -/
theorem answer_ret_eq_zero {env : Env P} {replyType : Word} {os : List WriteOutcome}
    {pktIn pktOut : IndPkt} (hp : ReplyHeader pktOut) :
    (answer env replyType os pktIn pktOut).ret = 0 ↔ ∀ o ∈ replyWrites os, o.stat = 0 := by
  rw [← ioStatus_eq_zero, answer_ret, (answer_spec env replyType os pktIn hp).2.1]
  omega

/-! ## States -/

/-- A position and the number of the packet it came in. -/
structure Received (P : Type) where
  packet : Nat
  pos : P
  deriving DecidableEq, Repr

/-- A reply: its type and what `ipkt_srlise` returned, 0 if it was written. -/
structure Reply where
  replyType : Word
  stat : Int
  deriving DecidableEq, Repr

/-- What has been done for a packet: the replies, what `exec_move_` returned, whether it
executed `SET_JPOS_REG` and raised the data flag, and whether the relay then disconnected. -/
structure Handled where
  pkt : IndPkt
  replies : List Reply
  result : Option Int
  setPos : Bool
  raised : Bool
  discon : Bool
  deriving DecidableEq, Repr

/-- The statement of the main program that comes next. -/
inductive Pc where
  /-- the test of the inner loop and `ipkt_checkfd` -/
  | poll
  /-- `CANCEL` -/
  | cancel (h : Handled)
  /-- `req_next_` for a stop -/
  | ackStop (h : Handled)
  /-- `req_next_` for a point -/
  | ackPoint (h : Handled)
  /-- inside `exec_move_` -/
  | execMove (h : Handled)
  /-- `send_err_` -/
  | nack (h : Handled)
  /-- `exit_discon` -/
  | discon
  deriving DecidableEq, Repr

inductive Event where
  /-- the reply to a stop, the packet with this number, has been written -/
  | stopAcked (packet : Nat)
  /-- the motion to the point received in the packet with this number starts -/
  | started (packet : Nat)
  deriving DecidableEq, Repr

/-- The relay, its connection, what it shares with `ROS_MOVESM`, and the motion in progress.
`sent`, `done` and `log` are history. -/
structure State (P : Type) where
  pc : Pc
  pktIn : IndPkt
  pktOut : IndPkt
  chan : Channel
  hand : Handshake.State (Received P)
  inMotion : Option (Point (Received P))
  sent : Bytes
  done : List Handled
  log : List Event

/-- `pkt_out_` after the initialisation of the program. -/
def pktOutInit : IndPkt :=
  { ipktReset with
    length := BitVec.ofNat 32 (RI_SZ_HDR + RI_SZB_JPOS)
    msgType := RI_MT_JOINTP
    commType := RI_CT_SVCRPL
    replyType := RI_RT_SUCC }

/-- The relay with its first client, which will send `stream`. -/
def start (hand : Handshake.State (Received P)) (stream : Bytes) : State P where
  pc := .poll
  pktIn := ipktReset
  pktOut := pktOutInit
  chan := ⟨[], stream⟩
  hand := hand
  inMotion := none
  sent := []
  done := []
  log := []

/-- A joint packet as a client sends it. -/
def jointPacket (o : ByteOrder) (msgType seqNr : Word) (jointData : Vector Word 10) : Bytes :=
  encodeAll o { ipktReset with
    msgType := msgType, commType := RI_CT_SVCREQ, seqNr := seqNr, jointData := jointData }.words

inductive Label (P : Type) where
  /-- `ssock_accpt2` succeeds with a client that will send `stream` -/
  | accept (stream : Bytes)
  | arrive (n : Nat)
  /-- `ipkt_checkfd`, with the status of `BYTES_AHEAD` and the end of the `READ`s -/
  | poll (ahead : Nat) (read : ReadOutcome)
  | cancel
  /-- `req_next_` or `send_err_`, with the ends of the `WRITE`s -/
  | write (os : List WriteOutcome)
  /-- a statement of `exec_move_` -/
  | exec (out : Outcome (Received P))
  /-- a line of `ROS_MOVESM` -/
  | msm
  /-- the motion in progress has reached its point -/
  | motionEnd

/-! ## Steps -/

/-- The end of the iteration that handled a packet. -/
def State.finish (s : State P) (h : Handled) (discon : Bool) : State P :=
  { s with pc := if discon then .discon else .poll, done := s.done ++ [{ h with discon := discon }] }

/-- The dispatch on the sequence number of a received packet. -/
def State.dispatch (s : State P) : State P :=
  let h : Handled := ⟨s.pktIn, [], none, false, false, false⟩
  if s.pktIn.seqNr.toInt < 0 then
    if s.pktIn.seqNr.toInt = RI_SEQ_STPRJ then { s with pc := .cancel h }
    -- RI_SEQ_STRJD, RI_SEQ_STRJS, RI_SEQ_ETRAJ and unknown numbers: only log messages
    else s.finish h false
  else { s with pc := .ackPoint h }

def State.wrote (s : State P) (w : Written) : State P :=
  { s with pktOut := w.pktOut, sent := s.sent ++ w.bytes }

def State.stopAcked (s : State P) : State P :=
  { s with log := s.log ++ [.stopAcked s.done.length] }

def Handled.reply (h : Handled) (replyType : Word) (w : Written) : Handled :=
  { h with replies := h.replies ++ [⟨replyType, w.stat⟩] }

/-- The point of `pkt_in_`, which `exec_move_` converts in place. -/
def State.point (env : Env P) (s : State P) : Point (Received P) :=
  ⟨⟨s.done.length, env.cnvRelJpos (env.arrRad2deg s.pktIn.jointData)⟩, env.cfg.moveSpeed,
    env.cfg.moveCnt⟩

def writeStep (env : Env P) (s : State P) (os : List WriteOutcome) : Option (State P) :=
  match s.pc with
  | .ackStop h =>
    let w := reqNext env os s.pktIn s.pktOut
    if w.ret ≠ 0 then some ((s.wrote w).finish (h.reply RI_RT_SUCC w) true)
    else some ((s.wrote w).stopAcked.finish (h.reply RI_RT_SUCC w) false)
  | .ackPoint h =>
    let w := reqNext env os s.pktIn s.pktOut
    if w.ret ≠ 0 then some ((s.wrote w).finish (h.reply RI_RT_SUCC w) true)
    else
      (Handshake.step s.hand (.call (s.point env))).map fun hand =>
        { s.wrote w with
          pc := .execMove (h.reply RI_RT_SUCC w)
          hand := hand
          pktIn := { s.pktIn with jointData := env.arrRad2deg s.pktIn.jointData } }
  | .nack h =>
    -- stat_, which held what exec_move_ returned, takes the result of send_err_
    let w := sendErr env os s.pktIn s.pktOut
    some ((s.wrote w).finish (h.reply RI_RT_FAIL w) (decide (w.ret ≠ MOVERR_OOR)))
  | _ => none

/-- The record after a statement of `exec_move_`. -/
def Handled.after (h : Handled) : ExecPc (Received P) → Handled
  | .setPos _ => { h with setPos := true }
  | .raise _ => { h with raised := true }
  | _ => h

/-- What the call that has just returned from `exec_move_` returned. -/
def lastResult (hand : Handshake.State (Received P)) : Int :=
  (hand.returned.getLast?.map Prod.snd).getD 0

/-- The main program after a statement of `exec_move_`. -/
def State.executed (s : State P) (hand : Handshake.State (Received P)) (h : Handled) : State P :=
  match hand.exec with
  | .idle =>
    let h := { h with result := some (lastResult hand) }
    if lastResult hand ≠ 0 then { s with hand := hand, pc := .nack h }
    else { s with hand := hand }.finish h false
  | _ => { s with hand := hand, pc := .execMove h }

/-- The motion line starts a motion. -/
def State.moved (s : State P) (hand : Handshake.State (Received P)) : State P :=
  match s.hand.msm with
  | .move =>
    { s with
      hand := hand
      inMotion := some ⟨s.hand.pr2, s.hand.r1, s.hand.r2⟩
      log := s.log ++ [.started s.hand.pr2.packet] }
  | _ => { s with hand := hand }

def step (env : Env P) (s : State P) : Label P → Option (State P)
  | .accept stream =>
    match s.pc with
    | .discon => some { s with pc := .poll, chan := ⟨[], stream⟩ }
    | _ => none
  | .arrive n => some { s with chan := s.chan.arrive n }
  | .poll ahead read =>
    match s.pc with
    | .poll =>
      (ipktCheckfd env.byteOrder ahead read s.pktIn s.chan).map fun r =>
        let s := { s with pktIn := r.2.1, chan := r.2.2 }
        if r.1 < 0 then { s with pc := .discon }
        else if 0 < r.1 then s.dispatch
        else s
    | _ => none
  | .cancel =>
    match s.pc with
    | .cancel h => some { s with pc := .ackStop h, inMotion := none }
    | _ => none
  | .write os => writeStep env s os
  | .exec out =>
    match s.pc with
    | .execMove h => (execStep s.hand out).map fun hand => s.executed hand (h.after s.hand.exec)
    | _ => none
  | .msm => (msmStep s.hand).map s.moved
  | .motionEnd => some { s with inMotion := none }

/-! ## What a step can do -/

/-- The steps, each with what it requires. -/
inductive Trans (env : Env P) (s : State P) : Label P → State P → Prop
  | accept (stream : Bytes) (pc : s.pc = .discon) :
      Trans env s (.accept stream) { s with pc := .poll, chan := ⟨[], stream⟩ }
  | arrive (n : Nat) : Trans env s (.arrive n) { s with chan := s.chan.arrive n }
  /-- `BYTES_AHEAD` or a `READ` failed -/
  | failed (ahead : Nat) (read : ReadOutcome) (stat : Int) (pkt : IndPkt) (chan : Channel)
      (pc : s.pc = .poll)
      (check : ipktCheckfd env.byteOrder ahead read s.pktIn s.chan = some (stat, pkt, chan))
      (neg : stat < 0) :
      Trans env s (.poll ahead read) { s with pktIn := pkt, chan := chan, pc := .discon }
  /-- too few bytes have arrived -/
  | waits (ahead : Nat) (read : ReadOutcome) (pkt : IndPkt) (chan : Channel) (pc : s.pc = .poll)
      (check : ipktCheckfd env.byteOrder ahead read s.pktIn s.chan = some (0, pkt, chan)) :
      Trans env s (.poll ahead read) { s with pktIn := pkt, chan := chan }
  | received (ahead : Nat) (read : ReadOutcome) (stat : Int) (pkt : IndPkt) (chan : Channel)
      (pc : s.pc = .poll)
      (check : ipktCheckfd env.byteOrder ahead read s.pktIn s.chan = some (stat, pkt, chan))
      (pos : 0 < stat) :
      Trans env s (.poll ahead read) ({ s with pktIn := pkt, chan := chan } : State P).dispatch
  | cancel (h : Handled) (pc : s.pc = .cancel h) :
      Trans env s .cancel { s with pc := .ackStop h, inMotion := none }
  | stopAcked (h : Handled) (os : List WriteOutcome) (w : Written) (pc : s.pc = .ackStop h)
      (call : w = reqNext env os s.pktIn s.pktOut) (ret : w.ret = 0) :
      Trans env s (.write os) ((s.wrote w).stopAcked.finish (h.reply RI_RT_SUCC w) false)
  /-- `req_next_` failed -/
  | ackFailed (h : Handled) (os : List WriteOutcome) (w : Written)
      (pc : s.pc = .ackStop h ∨ s.pc = .ackPoint h)
      (call : w = reqNext env os s.pktIn s.pktOut) (ret : w.ret ≠ 0) :
      Trans env s (.write os) ((s.wrote w).finish (h.reply RI_RT_SUCC w) true)
  /-- the point is acknowledged and `exec_move_` called -/
  | called (h : Handled) (os : List WriteOutcome) (w : Written)
      (hand : Handshake.State (Received P)) (pc : s.pc = .ackPoint h)
      (call : w = reqNext env os s.pktIn s.pktOut) (ret : w.ret = 0)
      (next : Handshake.step s.hand (.call (s.point env)) = some hand) :
      Trans env s (.write os)
        { s.wrote w with
          pc := .execMove (h.reply RI_RT_SUCC w)
          hand := hand
          pktIn := { s.pktIn with jointData := env.arrRad2deg s.pktIn.jointData } }
  | nacked (h : Handled) (os : List WriteOutcome) (w : Written) (pc : s.pc = .nack h)
      (call : w = sendErr env os s.pktIn s.pktOut) :
      Trans env s (.write os)
        ((s.wrote w).finish (h.reply RI_RT_FAIL w) (decide (w.ret ≠ MOVERR_OOR)))
  | exec (h : Handled) (out : Outcome (Received P)) (hand : Handshake.State (Received P))
      (pc : s.pc = .execMove h) (next : execStep s.hand out = some hand) :
      Trans env s (.exec out) (s.executed hand (h.after s.hand.exec))
  | msm (hand : Handshake.State (Received P)) (next : msmStep s.hand = some hand) :
      Trans env s .msm (s.moved hand)
  | motionEnd : Trans env s .motionEnd { s with inMotion := none }

/-- **What a step can do.** -/
theorem step_trans {env : Env P} {s t : State P} {l : Label P} (hs : step env s l = some t) :
    Trans env s l t := by
  cases l with
  | accept stream =>
    rw [step] at hs
    split at hs
    · rename_i hpc
      cases hs
      exact .accept stream hpc
    · cases hs
  | arrive n =>
    cases hs
    exact .arrive n
  | poll ahead read =>
    rw [step] at hs
    split at hs
    · rename_i hpc
      obtain ⟨⟨stat, pkt, chan⟩, hcheck, ht⟩ := Option.map_eq_some_iff.mp hs
      dsimp only at ht
      split at ht
      · rename_i hneg
        exact ht ▸ .failed ahead read stat pkt chan hpc hcheck hneg
      · split at ht
        · rename_i hpos
          exact ht ▸ .received ahead read stat pkt chan hpc hcheck hpos
        · have hstat : stat = 0 := by omega
          exact ht ▸ .waits ahead read pkt chan hpc (hstat ▸ hcheck)
    · cases hs
  | cancel =>
    rw [step] at hs
    split at hs
    · rename_i h hpc
      cases hs
      exact .cancel h hpc
    · cases hs
  | write os =>
    rw [step, writeStep] at hs
    split at hs
    · rename_i h hpc
      dsimp only at hs
      split at hs
      · rename_i hret
        cases hs
        exact .ackFailed h os _ (.inl hpc) rfl hret
      · rename_i hret
        cases hs
        exact .stopAcked h os _ hpc rfl (not_not.mp hret)
    · rename_i h hpc
      dsimp only at hs
      split at hs
      · rename_i hret
        cases hs
        exact .ackFailed h os _ (.inr hpc) rfl hret
      · rename_i hret
        obtain ⟨hand, hnext, ht⟩ := Option.map_eq_some_iff.mp hs
        exact ht ▸ .called h os _ hand hpc rfl (not_not.mp hret) hnext
    · rename_i h hpc
      cases hs
      exact .nacked h os _ hpc rfl
    · cases hs
  | exec out =>
    rw [step] at hs
    split at hs
    · rename_i h hpc
      obtain ⟨hand, hnext, ht⟩ := Option.map_eq_some_iff.mp hs
      exact ht ▸ .exec h out hand hpc hnext
    · cases hs
  | msm =>
    obtain ⟨hand, hnext, ht⟩ := Option.map_eq_some_iff.mp hs
    exact ht ▸ .msm hand hnext
  | motionEnd =>
    cases hs
    exact .motionEnd

/-! ## What the parts of a step leave alone -/

theorem dispatch_eq (s : State P) :
    s.dispatch = { s with pc := s.dispatch.pc, done := s.dispatch.done } := by
  unfold State.dispatch
  dsimp only
  split
  · split <;> rfl
  · rfl

theorem executed_eq (s : State P) (hand : Handshake.State (Received P)) (h : Handled) :
    s.executed hand h =
      { s with hand := hand, pc := (s.executed hand h).pc, done := (s.executed hand h).done } := by
  unfold State.executed
  split
  · dsimp only
    split <;> rfl
  · rfl

theorem moved_eq (s : State P) (hand : Handshake.State (Received P)) :
    s.moved hand =
      { s with
        hand := hand, inMotion := (s.moved hand).inMotion, log := (s.moved hand).log } := by
  unfold State.moved
  split <;> rfl

/-- `pkt_out_` keeps its header. -/
theorem Trans.replyHeader {env : Env P} {s t : State P} {l : Label P} (h : Trans env s l t)
    (hp : ReplyHeader s.pktOut) : ReplyHeader t.pktOut := by
  have hanswer : ∀ replyType os, ReplyHeader (answer env replyType os s.pktIn s.pktOut).pktOut :=
    fun replyType os => (answer_spec env replyType os s.pktIn hp).1
  cases h with
  | received ahead read stat pkt chan =>
    rw [dispatch_eq]
    exact hp
  | stopAcked h os w _ call => exact call ▸ hanswer _ os
  | ackFailed h os w _ call => exact call ▸ hanswer _ os
  | called h os w _ _ call => exact call ▸ hanswer _ os
  | nacked h os w _ call => exact call ▸ hanswer _ os
  | exec h out hand =>
    rw [executed_eq]
    exact hp
  | msm hand =>
    rw [moved_eq]
    exact hp
  | _ => exact hp

/-! ## The hand-over inside the relay -/

/-- A step of the relay is a step of the hand-over or none. -/
theorem Trans.hand {env : Env P} {s t : State P} {l : Label P} (h : Trans env s l t) :
    ∃ ls, Lts.run Handshake.step s.hand ls = some t.hand := by
  have hstep : ∀ {l : Handshake.Label (Received P)} {hand : Handshake.State (Received P)},
      Handshake.step s.hand l = some hand → Lts.run Handshake.step s.hand [l] = some hand :=
    fun h => Lts.run_cons_some.mpr ⟨_, h, rfl⟩
  cases h with
  | received ahead read stat pkt chan =>
    rw [dispatch_eq]
    exact ⟨[], rfl⟩
  | called h os w hand _ _ _ next => exact ⟨[.call (s.point env)], hstep next⟩
  | exec h out hand _ next =>
    rw [executed_eq]
    exact ⟨[.exec out], hstep next⟩
  | msm hand next =>
    rw [moved_eq]
    exact ⟨[.msm], hstep next⟩
  | _ => exact ⟨[], rfl⟩

/-- **A run of the relay is a run of the hand-over.** -/
theorem run_hand {env : Env P} {s t : State P} {ls : List (Label P)}
    (hr : Lts.run (step env) s ls = some t) :
    ∃ ls', Lts.run Handshake.step s.hand ls' = some t.hand := by
  obtain ⟨ls', u, hu, hut⟩ := Lts.run_sim_along (R := fun s u => u = s.hand)
    (fun s a s' u hR _ hs => by
      obtain ⟨ls, hls⟩ := (step_trans hs).hand
      exact ⟨ls, _, hR ▸ hls, rfl⟩) rfl (Lts.along_trivial s ls) hr
  exact ⟨ls', hut ▸ hu⟩

/-- What holds of the hand-over in every interleaving holds of it inside the relay. -/
theorem run_handOver {env : Env P} {pr1 pr2 : Received P} {r1 r2 : Int} {stream : Bytes}
    {ls : List (Label P)} {s : State P}
    (hr : Lts.run (step env) (start (Handshake.init pr1 pr2 r1 r2) stream) ls = some s) :
    Phase s.hand ∧ Results s.hand := by
  obtain ⟨ls', hhand⟩ := run_hand hr
  exact ⟨Lts.run_inv (fun _ _ _ => step_phase) (phase_init pr1 pr2 r1 r2) hhand,
    Lts.run_inv (fun _ _ _ => step_results) (results_init pr1 pr2 r1 r2) hhand⟩

end TrajRelay

end FanucDriver
