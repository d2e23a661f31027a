import FanucDriver.Lib.Lts

/-!
# The hand-over of points (`exec_move_` and `ROS_MOVESM`)

`ros_relay`'s `exec_move_` and the motion program `ros_movesm.ls` share two flags, a position
register and two integer registers.  Both are cut into their atomic statements, which interleave
in any order.

* `MsmLine`, `msmStep` — the lines of `ROS_MOVESM`.
* `ExecPc`, `execStep` — the statements of `exec_move_`; how a built-in ends is part of the
  label.
* `State`, `step` — the shared memory and both programs, with the history of what was handed
  over, copied, moved to and returned.

`new_j_pos__` stands for the point of a call from the start; when the conversion fails it is not
used.
-/

set_option autoImplicit false

namespace FanucDriver

/-- Requested JPOS is out-of-range. -/
def MOVERR_OOR : Int := -1

namespace Handshake

/-- A position with the speed and CNT of its motion. -/
structure Point (P : Type) where
  pos : P
  speed : Int
  cnt : Int
  deriving DecidableEq, Repr

/-- A call of `exec_move_`: its number, and `new_j_pos__`, `cfg.move_speed`, `cfg.move_cnt`. -/
structure Call (P : Type) where
  nr : Nat
  point : Point P
  deriving DecidableEq, Repr

/-- The line `ROS_MOVESM` executes next. -/
inductive MsmLine where
  /-- `F[1:rdy]=(OFF)` of the initialisation -/
  | rdyInit
  /-- `F[2:drdy]=(OFF)` of the initialisation -/
  | drdyInit
  | rdyOn
  | waitDrdy
  | copy
  | rdyOff
  | drdyOff
  | move
  | jmp
  deriving DecidableEq, Repr

/-- The statement `exec_move_` executes next; `idle` outside a call. -/
inductive ExecPc (P : Type) where
  | idle
  | convert (c : Call P)
  | inRange (c : Call P)
  | waitRdy (c : Call P)
  | setPos (c : Call P)
  | setSpd (c : Call P)
  | setCnt (c : Call P)
  | raise (c : Call P)
  | waitAck (c : Call P)
  deriving DecidableEq, Repr

/-- Flags, registers and programs.  The lists are the history: the points of all calls, the
calls that raised the data flag, the values copied to `PR[2]`, the motions started, and the
calls that returned with their results. -/
structure State (P : Type) where
  rdy : Bool
  drdy : Bool
  pr1 : P
  pr2 : P
  r1 : Int
  r2 : Int
  msm : MsmLine
  exec : ExecPc P
  calls : List (Point P)
  handed : List (Call P)
  copied : List P
  moved : List (Point P)
  returned : List (Call P × Int)
  deriving DecidableEq, Repr

/-- How a statement with a status ends; a register whose setting fails may be left with any
content. -/
structure Outcome (P : Type) where
  stat : Int
  inRange : Bool
  pos : P
  val : Int
  deriving DecidableEq, Repr

inductive Label (P : Type) where
  /-- `exec_move_` is called -/
  | call (p : Point P)
  /-- its next statement -/
  | exec (out : Outcome P)
  /-- the next line of `ROS_MOVESM` -/
  | msm
  deriving DecidableEq, Repr

variable {P : Type}

/-- `RETURN (r)` -/
def State.return (s : State P) (c : Call P) (r : Int) : State P :=
  { s with exec := .idle, returned := s.returned ++ [(c, r)] }

/-- The next statement of `exec_move_`. -/
def execStep (s : State P) (out : Outcome P) : Option (State P) :=
  match s.exec with
  | .idle => none
  | .convert c =>
    if out.stat ≠ 0 then some (s.return c (-out.stat)) else some { s with exec := .inRange c }
  | .inRange c =>
    if !out.inRange then some (s.return c MOVERR_OOR) else some { s with exec := .waitRdy c }
  | .waitRdy c => if s.rdy then some { s with exec := .setPos c } else none
  | .setPos c =>
    if out.stat ≠ 0 then some ({ s with pr1 := out.pos }.return c (-out.stat))
    else some { s with pr1 := c.point.pos, exec := .setSpd c }
  | .setSpd c =>
    if out.stat ≠ 0 then some ({ s with r1 := out.val }.return c (-out.stat))
    else some { s with r1 := c.point.speed, exec := .setCnt c }
  | .setCnt c =>
    if out.stat ≠ 0 then some ({ s with r2 := out.val }.return c (-out.stat))
    else some { s with r2 := c.point.cnt, exec := .raise c }
  | .raise c => some { s with drdy := true, exec := .waitAck c, handed := s.handed ++ [c] }
  | .waitAck c => if !s.drdy then some (s.return c 0) else none

/-- The next line of `ROS_MOVESM`. -/
def msmStep (s : State P) : Option (State P) :=
  match s.msm with
  | .rdyInit => some { s with rdy := false, msm := .drdyInit }
  | .drdyInit => some { s with drdy := false, msm := .rdyOn }
  | .rdyOn => some { s with rdy := true, msm := .waitDrdy }
  | .waitDrdy => if s.drdy then some { s with msm := .copy } else none
  | .copy => some { s with pr2 := s.pr1, msm := .rdyOff, copied := s.copied ++ [s.pr1] }
  | .rdyOff => some { s with rdy := false, msm := .drdyOff }
  | .drdyOff => some { s with drdy := false, msm := .move }
  | .move => some { s with msm := .jmp, moved := s.moved ++ [⟨s.pr2, s.r1, s.r2⟩] }
  | .jmp => some { s with msm := .rdyOn }

def step (s : State P) : Label P → Option (State P)
  | .call p =>
    match s.exec with
    | .idle => some { s with exec := .convert ⟨s.calls.length, p⟩, calls := s.calls ++ [p] }
    | _ => none
  | .exec out => execStep s out
  | .msm => msmStep s

/-- No call in progress and `ROS_MOVESM` past its initialisation; the registers hold
anything. -/
def init (pr1 pr2 : P) (r1 r2 : Int) : State P where
  rdy := false
  drdy := false
  pr1 := pr1
  pr2 := pr2
  r1 := r1
  r2 := r2
  msm := .rdyOn
  exec := .idle
  calls := []
  handed := []
  copied := []
  moved := []
  returned := []

/-- `ROS_MOVESM` at its first line, with any flags and registers. -/
def boot (rdy drdy : Bool) (pr1 pr2 : P) (r1 r2 : Int) : State P :=
  { init pr1 pr2 r1 r2 with rdy := rdy, drdy := drdy, msm := .rdyInit }

end Handshake

end FanucDriver
