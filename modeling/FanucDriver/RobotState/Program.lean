import FanucDriver.Lib.Server
import FanucDriver.RobotState.Status

/-!
# The robot state server (`ros_state.kl`)

The main loops, with a client that connects, reads nothing the program notices, and may go away
at any `WRITE`.  `WRITE` of `CR` emits no byte.

* `RosVars`, `LoopEnv`, `iterate` — the program's variables, and what one iteration of the inner
  loop meets and does.
* `RosState`, `step` — the server of these iterations.
-/

set_option autoImplicit false

namespace FanucDriver

open Wire

namespace RobotState

/-- What one iteration of the inner loop meets: the joint data `CURJPOS`, `CNV_JPOS_REL` and
`arr_deg2rad` leave in the packet, the controller's state at `irs_update`, and how the `WRITE`s of
the two serialisers end. -/
structure LoopEnv where
  joints : Vector Word 10
  jntWrite : List WriteOutcome
  controller : Controller
  rsWrite : List WriteOutcome

/-- The variables of the program. -/
structure RosVars where
  jntPktOut : IndPkt
  rsPktOut : IndRs
  statCount : Int

/-- A connection. -/
abbrev Conn := Server.Conn RosVars LoopEnv UInt8

/-- The program, with `shutdwn_req_` for its `stopping`. -/
abbrev RosState := Server.State RosVars LoopEnv UInt8

/-- `ssock_accpt2`, an iteration, the ABORT handler and `exit_discon`. -/
abbrev Label := Server.Label LoopEnv

/-- The variables in front of the main loop. -/
def RosVars.init (rsPktOut : IndRs) : RosVars where
  jntPktOut := { ipktReset with
    length := BitVec.ofNat 32 (RI_SZ_HDR + RI_SZB_JPOS)
    msgType := RI_MT_JOINTP
    commType := RI_CT_TOPIC }
  rsPktOut := rsPktOut
  statCount := 0

/-- The program in front of its main loop. -/
def RosState.init (rsPktOut : IndRs) : RosState := Server.State.init (RosVars.init rsPktOut)

/-- One iteration: from the joint position to `DELAY`, or to `ssock_dconn2`. -/
def iterate (o : ByteOrder) (sloopDiv : Int) (env : LoopEnv) (v : RosVars) :
    Server.Outcome RosVars UInt8 :=
  let jnt := ipktSrlise o false env.jntWrite { v.jntPktOut with jointData := env.joints }
  let v := { v with jntPktOut := jnt.1 }
  if jnt.2.2 ≠ 0 then ⟨v, jnt.2.1, false⟩
  else if sloopDiv ≤ v.statCount then
    let rs := irsTpcSrl o false env.rsWrite (irsUpdate env.controller)
    let v := { v with rsPktOut := rs.1 }
    if rs.2.2 ≠ 0 then ⟨v, jnt.2.1 ++ rs.2.1, false⟩
    else ⟨{ v with statCount := 0 }, jnt.2.1 ++ rs.2.1, true⟩
  else ⟨{ v with statCount := v.statCount + 1 }, jnt.2.1, true⟩

/-- The server. -/
def step (o : ByteOrder) (sloopDiv : Int) : RosState → Label → Option RosState :=
  Server.step (iterate o sloopDiv)

end RobotState

end FanucDriver
