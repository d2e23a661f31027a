import FanucDriver.Motion.HandOver

/-!
# The start of `ROS_MOVESM`

`ROS` runs `ROS_RELAY` before it calls `ROS_MOVESM`, and flags and registers keep their values
between runs.  Lines 3 and 4 clear both flags whatever `exec_move_` is doing.

* `Starts` — `ROS_MOVESM` at its first line, with any flags, and `exec_move_` at any statement.
* `Starting` — how flags and programs stand until line 9; from there on `Phase` holds.
* `NotWaiting` — during the initialisation `exec_move_` is not in its last wait.
* `run_startUp` — along such runs a point reported as handed over has been copied;
  `startUp_lost` — from the first state in which it waits, it has not.
-/

set_option autoImplicit false

namespace FanucDriver

namespace Handshake

variable {P : Type}

/-! ## Until line 9 -/

/-- What `exec_move_` has written so far is still in the registers. -/
def Written (s : State P) : ExecPc P → Prop
  | .setSpd c => s.pr1 = c.point.pos
  | .setCnt c => s.pr1 = c.point.pos ∧ s.r1 = c.point.speed
  | .raise c => s.pr1 = c.point.pos ∧ s.r1 = c.point.speed ∧ s.r2 = c.point.cnt
  | _ => True

theorem Written.writing {s : State P} {e : ExecPc P} (h : Written s e) (hline : s.msm = .waitDrdy) :
    Writing s e := by
  cases e with
  | setPos c => exact hline
  | setSpd c => exact ⟨hline, h⟩
  | setCnt c => exact ⟨hline, h⟩
  | raise c => exact ⟨hline, h⟩
  | _ => trivial

/-- `ROS_MOVESM` at its first line; the history begins here, except that a call in its last wait
has handed its point over. -/
structure Starts (s : State P) : Prop where
  line : s.msm = .rdyInit
  written : Written s s.exec
  handed : s.handed = s.exec.acking?.toList
  copied : s.copied = []
  moved : s.moved = []
  returned : s.returned = []

inductive Starting (s : State P) : Prop
  /-- at line 3 or 4 -/
  | initialising (line : s.msm = .rdyInit ∨ s.msm = .drdyInit) (written : Written s s.exec)
      (handed : s.handed = s.exec.acking?.toList) (copied : s.copied = []) (moved : s.moved = [])
  /-- at line 9, with no point offered -/
  | cleared (line : s.msm = .rdyOn) (drdy : s.drdy = false) (written : Written s s.exec)
      (acking : s.exec.acking? = none) (handed : s.handed = []) (copied : s.copied = [])
      (moved : s.moved = [])
  /-- at line 9, and `exec_move_`, which saw the flag of an earlier run, has offered a point -/
  | offered (c : Call P) (line : s.msm = .rdyOn) (drdy : s.drdy = true) (exec : s.exec = .waitAck c)
      (pr1 : s.pr1 = c.point.pos) (r1 : s.r1 = c.point.speed) (r2 : s.r2 = c.point.cnt)
      (handed : s.handed = [c]) (copied : s.copied = []) (moved : s.moved = [])

theorem Starts.starting {s : State P} (h : Starts s) : Starting s :=
  .initialising (.inl h.line) h.written h.handed h.copied h.moved

/-- During the initialisation `exec_move_` is not in its last wait. -/
def NotWaiting (s : State P) (_ : Label P) : Prop :=
  s.msm = .rdyInit ∨ s.msm = .drdyInit → s.exec.acking? = none

instance (s : State P) (l : Label P) : Decidable (NotWaiting s l) :=
  inferInstanceAs (Decidable (_ → s.exec.acking? = none))

/-! ## Steps -/

/-- A line of `ROS_MOVESM`: the initialisation, or line 9, behind which the phases begin. -/
theorem msmStep_starting {s t : State P} (hI : Starting s)
    (hok : s.msm = .rdyInit ∨ s.msm = .drdyInit → s.exec.acking? = none)
    (hs : msmStep s = some t) : Starting t ∨ Phase t := by
  unfold msmStep at hs
  cases hI with
  | initialising line written handed copied moved =>
    have hack := hok line
    rcases line with line | line
    · rw [line] at hs
      cases hs
      exact .inl (.initialising (.inr rfl) written handed copied moved)
    · rw [line] at hs
      cases hs
      rw [hack] at handed
      exact .inl (.cleared rfl rfl written hack handed copied moved)
  | cleared line drdy written acking handed copied moved =>
    rw [line] at hs
    cases hs
    have hwriting := Written.writing (s := { s with rdy := true, msm := .waitDrdy }) written rfl
    refine .inr (.empty (.inr (.inl rfl)) (fun _ => rfl) drdy hwriting ?_ ?_)
    · show s.handed.map Call.point = s.moved
      rw [handed, moved]
      rfl
    · show s.copied = s.moved.map Point.pos
      rw [copied, moved]
      rfl
  | offered c line drdy exec pr1 r1 r2 handed copied moved =>
    rw [line] at hs
    cases hs
    refine .inr (.offered c (.inl rfl) drdy exec pr1 r1 r2 ?_ ?_)
    · show s.handed.map Call.point = s.moved ++ [c.point]
      rw [handed, moved]
      rfl
    · show s.copied = s.moved.map Point.pos
      rw [copied, moved]
      rfl

/-- What `exec_move_` has written stays written, and `ROS_MOVESM`'s part of the state stays. -/
structure Unmoved (s t : State P) : Prop where
  line : t.msm = s.msm
  copied : t.copied = s.copied
  moved : t.moved = s.moved

/-- A statement of `exec_move_` that neither begins nor ends its last wait, one that begins it,
and the one that ends it. -/
theorem execStep_written {s t : State P} {out : Outcome P} (hw : Written s s.exec)
    (hs : execStep s out = some t) :
    Unmoved s t ∧
      ((s.exec.acking? = none ∧ t.exec.acking? = none ∧ Written t t.exec ∧ t.drdy = s.drdy ∧
          t.handed = s.handed) ∨
        (∃ c, s.exec.acking? = none ∧ t.exec = .waitAck c ∧ t.drdy = true ∧
          t.pr1 = c.point.pos ∧ t.r1 = c.point.speed ∧ t.r2 = c.point.cnt ∧
          t.handed = s.handed ++ [c]) ∨
        (∃ c, s.exec = .waitAck c ∧ s.drdy = false)) := by
  cases execStep_trans hs with
  | refused c r exec =>
    refine ⟨⟨rfl, rfl, rfl⟩, .inl ⟨?_, rfl, trivial, rfl, rfl⟩⟩
    rcases exec with exec | exec <;> rw [exec] <;> rfl
  | failed c pr1 r1 r2 r exec =>
    refine ⟨⟨rfl, rfl, rfl⟩, .inl ⟨?_, rfl, trivial, rfl, rfl⟩⟩
    rcases exec with exec | exec | exec <;> rw [exec] <;> rfl
  | converted c exec | checked c exec | ready c exec =>
    exact ⟨⟨rfl, rfl, rfl⟩, .inl ⟨by rw [exec]; rfl, rfl, trivial, rfl, rfl⟩⟩
  | posSet c exec =>
    exact ⟨⟨rfl, rfl, rfl⟩, .inl ⟨by rw [exec]; rfl, rfl, rfl, rfl, rfl⟩⟩
  | spdSet c exec =>
    rw [exec] at hw
    exact ⟨⟨rfl, rfl, rfl⟩, .inl ⟨by rw [exec]; rfl, rfl, ⟨hw, rfl⟩, rfl, rfl⟩⟩
  | cntSet c exec =>
    rw [exec] at hw
    obtain ⟨hpr1, hr1⟩ := hw
    exact ⟨⟨rfl, rfl, rfl⟩, .inl ⟨by rw [exec]; rfl, rfl, ⟨hpr1, hr1, rfl⟩, rfl, rfl⟩⟩
  | raised c exec =>
    rw [exec] at hw
    obtain ⟨hpr1, hr1, hr2⟩ := hw
    exact ⟨⟨rfl, rfl, rfl⟩, .inr (.inl ⟨c, by rw [exec]; rfl, rfl, rfl, hpr1, hr1, hr2, rfl⟩)⟩
  | acked c exec drdy => exact ⟨⟨rfl, rfl, rfl⟩, .inr (.inr ⟨c, exec, drdy⟩)⟩

theorem execStep_starting {s t : State P} {out : Outcome P} (hI : Starting s)
    (hok : s.msm = .rdyInit ∨ s.msm = .drdyInit → s.exec.acking? = none)
    (hs : execStep s out = some t) : Starting t := by
  cases hI with
  | initialising line written handed copied moved =>
    have hack := hok line
    rw [hack] at handed
    obtain ⟨⟨hline, hcopied, hmoved⟩, hexec⟩ := execStep_written written hs
    rw [← hline] at line
    rw [← hcopied] at copied
    rw [← hmoved] at moved
    rcases hexec with ⟨-, hack', hwritten, -, hhanded⟩ | ⟨c, -, hexec, -, -, -, -, hhanded⟩ |
      ⟨c, hexec, -⟩
    · refine .initialising line hwritten ?_ copied moved
      rw [hhanded, handed, hack']
    · refine .initialising line (by rw [hexec]; trivial) ?_ copied moved
      rw [hhanded, handed, hexec]
      rfl
    · rw [hexec] at hack
      cases hack
  | cleared line drdy written acking handed copied moved =>
    obtain ⟨⟨hline, hcopied, hmoved⟩, hexec⟩ := execStep_written written hs
    rw [← hline] at line
    rw [← hcopied] at copied
    rw [← hmoved] at moved
    rcases hexec with ⟨-, hack', hwritten, hdrdy, hhanded⟩ |
      ⟨c, -, hexec, hdrdy, hpr1, hr1, hr2, hhanded⟩ | ⟨c, hexec, -⟩
    · exact .cleared line (hdrdy.trans drdy) hwritten hack' (hhanded.trans handed) copied moved
    · refine .offered c line hdrdy hexec hpr1 hr1 hr2 ?_ copied moved
      rw [hhanded, handed]
      rfl
    · rw [hexec] at acking
      cases acking
  | offered c line drdy exec =>
    rw [execStep, exec, drdy] at hs
    cases hs

/-- **Step lemma.** -/
theorem step_starting {s t : State P} {l : Label P} (hI : Starting s ∨ Phase s)
    (hok : NotWaiting s l) (hs : step s l = some t) : Starting t ∨ Phase t := by
  rcases hI with hI | hI
  · cases l with
    | call p =>
      rw [step] at hs
      split at hs
      · rename_i hidle
        cases hs
        refine .inl ?_
        cases hI with
        | initialising line _ handed copied moved =>
          rw [hidle] at handed
          exact .initialising line trivial handed copied moved
        | cleared line drdy _ _ handed copied moved =>
          exact .cleared line drdy trivial rfl handed copied moved
        | offered c _ _ exec =>
          rw [exec] at hidle
          cases hidle
      · cases hs
    | exec out => exact .inl (execStep_starting hI hok hs)
    | msm => exact msmStep_starting hI hok hs
  · exact .inr (step_phase hI hs)

/-! ## Runs -/

/-- Until line 9 no call has returned 0. -/
theorem Starting.succeeded {s : State P} (h : Starting s)
    (hhanded : s.succeeded ++ s.exec.acking?.toList = s.handed) : s.succeeded = [] := by
  cases h with
  | initialising _ _ handed => exact List.append_left_eq_self.mp (hhanded.trans handed)
  | cleared _ _ _ _ handed =>
    rw [handed] at hhanded
    exact (List.append_eq_nil_iff.mp hhanded).1
  | offered c _ _ exec _ _ _ handed =>
    rw [handed, exec] at hhanded
    exact List.append_left_eq_self.mp hhanded

/-- **A point reported as handed over has been copied**, whatever the flags were at the start and
wherever `exec_move_` stood, in every run in which it is not in its last wait before `ROS_MOVESM`
has executed line 4: the points of the calls that returned 0 are, in order, the first points
copied. -/
theorem run_startUp {s0 s : State P} (h0 : Starts s0) {ls : List (Label P)}
    (hc : Lts.Along step NotWaiting s0 ls) (hr : Lts.run step s0 ls = some s) :
    s.succeeded.map (fun c => c.point.pos) <+: s.copied := by
  have hstart : s0.succeeded ++ s0.exec.acking?.toList = s0.handed := by
    rw [State.succeeded, h0.returned, h0.handed]
    rfl
  obtain ⟨hI, hhanded⟩ := Lts.run_inv_along
    (I := fun u => (Starting u ∨ Phase u) ∧ u.succeeded ++ u.exec.acking?.toList = u.handed)
    (fun _ _ _ hI hok hs => ⟨step_starting hI.1 hok hs, step_handed hI.2 hs⟩)
    ⟨.inl h0.starting, hstart⟩ hc hr
  rcases hI with hI | hI
  · rw [hI.succeeded hhanded]
    exact List.nil_prefix
  · exact succeeded_prefix_copied hI hhanded

/-- **No less will do.** From any state in which `exec_move_` is in its last wait during the
initialisation, two lines of `ROS_MOVESM` at most make it return 0 with nothing copied. -/
theorem startUp_lost {s : State P} (hline : s.msm = .rdyInit ∨ s.msm = .drdyInit) {c : Call P}
    (hexec : s.exec = .waitAck c) (out : Outcome P) :
    ∃ ls t, Lts.run step s (ls ++ [.exec out]) = some t ∧ t.succeeded = s.succeeded ++ [c] ∧
      t.copied = s.copied := by
  have hback : ∀ u : State P, u.exec = .waitAck c → u.drdy = false →
      Lts.run step u [.exec out] = some (u.return c 0) := by
    intro u hu hdrdy
    rw [Lts.run_cons, step, execStep, hu, hdrdy]
    rfl
  have hsucc : ∀ u : State P, u.returned = s.returned →
      (u.return c 0).succeeded = s.succeeded ++ [c] := by
    intro u hu
    simp [State.succeeded, State.return, hu]
  rcases hline with hline | hline
  · refine ⟨[.msm, .msm], { s with rdy := false, drdy := false, msm := .rdyOn }.return c 0, ?_,
      hsucc _ rfl, rfl⟩
    rw [Lts.run_append_some]
    refine ⟨{ s with rdy := false, drdy := false, msm := .rdyOn }, ?_, hback _ hexec rfl⟩
    simp [step, msmStep, hline]
  · refine ⟨[.msm], { s with drdy := false, msm := .rdyOn }.return c 0, ?_, hsucc _ rfl, rfl⟩
    rw [Lts.run_append_some]
    refine ⟨{ s with drdy := false, msm := .rdyOn }, ?_, hback _ hexec rfl⟩
    simp [step, msmStep, hline]

/-- `exec_move_` in its first wait, with both flags still set from an earlier run, at the start of
`ROS_MOVESM`. -/
def relayFirst : State Nat :=
  { boot true true 0 0 0 0 with exec := .waitRdy ⟨0, 7, 20, 50⟩ }

theorem relayFirst_starts : Starts relayFirst := ⟨rfl, trivial, rfl, rfl, rfl, rfl⟩

/-- It passes the wait at once, but offers its point when `ROS_MOVESM` is at line 9. -/
def offeredInTime : List (Label Nat) :=
  let ok : Label Nat := .exec ⟨0, true, 0, 0⟩
  [ok, .msm, .msm, ok, ok, ok, ok, .msm, .msm, .msm, .msm, .msm, ok]

theorem run_startUp_offeredInTime :
    ∃ s, Lts.run step relayFirst offeredInTime = some s ∧ s.copied = [7] ∧
      s.succeeded = [⟨0, 7, 20, 50⟩] ∧ s.succeeded.map (fun c => c.point.pos) <+: s.copied := by
  have hnotWaiting : Lts.Along step NotWaiting relayFirst offeredInTime := by decide
  exact ⟨_, rfl, rfl, rfl, run_startUp relayFirst_starts hnotWaiting rfl⟩

/-- It offers its point before `ROS_MOVESM` has executed a line, and takes line 4 for the
acknowledgement: the point is reported as handed over and nothing has been copied. -/
theorem startUp_reports_lost_point :
    ∃ ls s, Starts relayFirst ∧ Lts.run step relayFirst ls = some s ∧
      s.succeeded = [⟨0, 7, 20, 50⟩] ∧
      ¬ s.succeeded.map (fun c => c.point.pos) <+: s.copied := by
  let ok : Label Nat := .exec ⟨0, true, 0, 0⟩
  exact ⟨[ok, ok, ok, ok, ok, .msm, .msm, ok], _, relayFirst_starts, rfl, rfl, by decide⟩

end Handshake

end FanucDriver
