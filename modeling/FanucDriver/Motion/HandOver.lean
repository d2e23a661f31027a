import Mathlib.Data.List.Nodup
import FanucDriver.Lib.WorkQueue
import FanucDriver.Motion.Handshake

/-!
# No point is skipped, moved to twice or invented

The invariants of the hand-over, each over every interleaving from `init`.

* `ExecTrans` — what a statement of `exec_move_` can do; `execStep_trans`.
* `Phase` — what flags, registers and programs have to do with each other.  At any time the
  points moved to are those handed over, except for one that has been offered, copied or
  acknowledged last.
* `Results` — the calls that returned 0 are those handed over, up to one still waiting, and the
  calls returned from are those made.
* `run_handed_over` — what both say about a run.
* `run_queue` — the hand-over refines a queue of capacity one.
-/

set_option autoImplicit false

namespace FanucDriver

namespace Handshake

variable {P : Type}

/-! ## The statements of `exec_move_` -/

/-- What the next statement can do. -/
inductive ExecTrans (s : State P) : State P → Prop
  /-- the point cannot be converted, or is out of range -/
  | refused (c : Call P) (r : Int) (exec : s.exec = .convert c ∨ s.exec = .inRange c)
      (fails : r ≠ 0) : ExecTrans s (s.return c r)
  | converted (c : Call P) (exec : s.exec = .convert c) : ExecTrans s { s with exec := .inRange c }
  | checked (c : Call P) (exec : s.exec = .inRange c) : ExecTrans s { s with exec := .waitRdy c }
  | ready (c : Call P) (exec : s.exec = .waitRdy c) (rdy : s.rdy = true) :
      ExecTrans s { s with exec := .setPos c }
  /-- a register cannot be set -/
  | failed (c : Call P) (pr1 : P) (r1 r2 r : Int)
      (exec : s.exec = .setPos c ∨ s.exec = .setSpd c ∨ s.exec = .setCnt c) (fails : r ≠ 0) :
      ExecTrans s ({ s with pr1 := pr1, r1 := r1, r2 := r2 }.return c r)
  | posSet (c : Call P) (exec : s.exec = .setPos c) :
      ExecTrans s { s with pr1 := c.point.pos, exec := .setSpd c }
  | spdSet (c : Call P) (exec : s.exec = .setSpd c) :
      ExecTrans s { s with r1 := c.point.speed, exec := .setCnt c }
  | cntSet (c : Call P) (exec : s.exec = .setCnt c) :
      ExecTrans s { s with r2 := c.point.cnt, exec := .raise c }
  | raised (c : Call P) (exec : s.exec = .raise c) :
      ExecTrans s { s with drdy := true, exec := .waitAck c, handed := s.handed ++ [c] }
  | acked (c : Call P) (exec : s.exec = .waitAck c) (drdy : s.drdy = false) :
      ExecTrans s (s.return c 0)

theorem execStep_trans {s t : State P} {out : Outcome P} (hs : execStep s out = some t) :
    ExecTrans s t := by
  unfold execStep at hs
  cases hexec : s.exec with
  | idle =>
    rw [hexec] at hs
    cases hs
  | convert c =>
    simp only [hexec] at hs
    split at hs
    · cases hs
      exact .refused c _ (.inl hexec) (by omega)
    · cases hs
      exact .converted c hexec
  | inRange c =>
    simp only [hexec] at hs
    split at hs
    · cases hs
      exact .refused c _ (.inr hexec) (by decide)
    · cases hs
      exact .checked c hexec
  | waitRdy c =>
    simp only [hexec] at hs
    split at hs
    · rename_i hrdy
      cases hs
      exact .ready c hexec hrdy
    · cases hs
  | setPos c =>
    simp only [hexec] at hs
    split at hs
    · cases hs
      exact .failed c out.pos s.r1 s.r2 _ (.inl hexec) (by omega)
    · cases hs
      exact .posSet c hexec
  | setSpd c =>
    simp only [hexec] at hs
    split at hs
    · cases hs
      exact .failed c s.pr1 out.val s.r2 _ (.inr (.inl hexec)) (by omega)
    · cases hs
      exact .spdSet c hexec
  | setCnt c =>
    simp only [hexec] at hs
    split at hs
    · cases hs
      exact .failed c s.pr1 s.r1 out.val _ (.inr (.inr hexec)) (by omega)
    · cases hs
      exact .cntSet c hexec
  | raise c =>
    simp only [hexec] at hs
    cases hs
    exact .raised c hexec
  | waitAck c =>
    simp only [hexec] at hs
    split at hs
    · rename_i hdrdy
      cases hs
      exact .acked c hexec (by simpa using hdrdy)
    · cases hs

/-! ## Phases -/

/-- The points handed over. -/
def State.handedPoints (s : State P) : List (Point P) := s.handed.map Call.point

/-- While the registers are being written `ROS_MOVESM` waits, and what has been written
stays. -/
def Writing (s : State P) : ExecPc P → Prop
  | .setPos _ => s.msm = .waitDrdy
  | .setSpd c => s.msm = .waitDrdy ∧ s.pr1 = c.point.pos
  | .setCnt c => s.msm = .waitDrdy ∧ s.pr1 = c.point.pos ∧ s.r1 = c.point.speed
  | .raise c =>
    s.msm = .waitDrdy ∧ s.pr1 = c.point.pos ∧ s.r1 = c.point.speed ∧ s.r2 = c.point.cnt
  | _ => True

/-- No register is being written. -/
def ExecPc.Outside : ExecPc P → Prop
  | .setPos _ | .setSpd _ | .setCnt _ | .raise _ => False
  | _ => True

/-- Where the last point handed over is. -/
inductive Phase (s : State P) : Prop
  /-- it has been moved to, or there is none -/
  | empty (line : s.msm = .rdyOn ∨ s.msm = .waitDrdy ∨ s.msm = .jmp)
      (rdy : s.rdy = true → s.msm = .waitDrdy) (drdy : s.drdy = false)
      (writing : Writing s s.exec) (handed : s.handedPoints = s.moved)
      (copied : s.copied = s.moved.map Point.pos)
  /-- in the registers -/
  | offered (c : Call P) (line : s.msm = .waitDrdy ∨ s.msm = .copy) (drdy : s.drdy = true)
      (exec : s.exec = .waitAck c) (pr1 : s.pr1 = c.point.pos) (r1 : s.r1 = c.point.speed)
      (r2 : s.r2 = c.point.cnt) (handed : s.handedPoints = s.moved ++ [c.point])
      (copied : s.copied = s.moved.map Point.pos)
  /-- copied, not yet acknowledged -/
  | taken (c : Call P) (line : s.msm = .rdyOff ∨ s.msm = .drdyOff)
      (rdy : s.rdy = true → s.msm = .rdyOff) (drdy : s.drdy = true)
      (exec : s.exec = .waitAck c) (pr2 : s.pr2 = c.point.pos) (r1 : s.r1 = c.point.speed)
      (r2 : s.r2 = c.point.cnt) (handed : s.handedPoints = s.moved ++ [c.point])
      (copied : s.copied = s.handedPoints.map Point.pos)
  /-- acknowledged, not yet moved to -/
  | acked (p : Point P) (line : s.msm = .move) (rdy : s.rdy = false) (drdy : s.drdy = false)
      (exec : s.exec.Outside) (pr2 : s.pr2 = p.pos) (r1 : s.r1 = p.speed) (r2 : s.r2 = p.cnt)
      (handed : s.handedPoints = s.moved ++ [p])
      (copied : s.copied = s.handedPoints.map Point.pos)

theorem phase_init (pr1 pr2 : P) (r1 r2 : Int) : Phase (init pr1 pr2 r1 r2) :=
  .empty (.inl rfl) (fun h => by cases h) rfl trivial rfl rfl

theorem Writing.outside {s : State P} {e : ExecPc P} (h : Writing s e) (hne : s.msm ≠ .waitDrdy) :
    e.Outside := by
  cases e with
  | setPos c => exact absurd h hne
  | setSpd c => exact absurd h.1 hne
  | setCnt c => exact absurd h.1 hne
  | raise c => exact absurd h.1 hne
  | _ => trivial

theorem ExecPc.Outside.writing {e : ExecPc P} (h : e.Outside) (s : State P) : Writing s e := by
  cases e <;> trivial

theorem msmStep_phase {s t : State P} (hI : Phase s) (hs : msmStep s = some t) : Phase t := by
  unfold msmStep at hs
  cases hI with
  | empty line rdy drdy writing handed copied =>
    rcases line with line | line | line
    · rw [line] at hs
      cases hs
      exact .empty (.inr (.inl rfl)) (fun _ => rfl) drdy
        ((writing.outside (by rw [line]; decide)).writing _) handed copied
    · rw [line, drdy] at hs
      cases hs
    · rw [line] at hs
      cases hs
      refine .empty (.inl rfl) ?_ drdy
        ((writing.outside (by rw [line]; decide)).writing _) handed copied
      intro h
      have := rdy h
      rw [line] at this
      cases this
  | offered c line drdy exec pr1 r1 r2 handed copied =>
    rcases line with line | line
    · rw [line] at hs
      simp only [if_pos drdy] at hs
      cases hs
      exact .offered c (.inr rfl) drdy exec pr1 r1 r2 handed copied
    · rw [line] at hs
      cases hs
      refine .taken c (.inl rfl) (fun _ => rfl) drdy exec pr1 r1 r2 handed ?_
      show s.copied ++ [s.pr1] = s.handedPoints.map Point.pos
      rw [copied, handed, pr1, List.map_append]
      rfl
  | taken c line rdy drdy exec pr2 r1 r2 handed copied =>
    rcases line with line | line
    · rw [line] at hs
      cases hs
      exact .taken c (.inr rfl) (fun h => by cases h) drdy exec pr2 r1 r2 handed copied
    · rw [line] at hs
      cases hs
      have hrdy : s.rdy = false := by
        apply Bool.eq_false_iff.mpr
        intro h
        rw [rdy h] at line
        cases line
      exact .acked c.point rfl hrdy rfl (by rw [exec]; trivial) pr2 r1 r2 handed copied
  | acked p line rdy drdy exec pr2 r1 r2 handed copied =>
    rw [line] at hs
    cases hs
    have hmoved : s.moved ++ [(⟨s.pr2, s.r1, s.r2⟩ : Point P)] = s.handedPoints := by
      rw [handed, pr2, r1, r2]
    refine .empty (.inr (.inr rfl)) ?_ drdy (exec.writing _) hmoved.symm ?_
    · intro h
      rw [rdy] at h
      cases h
    · show s.copied = (s.moved ++ [(⟨s.pr2, s.r1, s.r2⟩ : Point P)]).map Point.pos
      rw [copied, hmoved]

theorem execStep_phase {s t : State P} {out : Outcome P} (hI : Phase s)
    (hs : execStep s out = some t) : Phase t := by
  have htrans := execStep_trans hs
  cases hI with
  | empty line rdy drdy writing handed copied =>
    cases htrans with
    | refused c r exec | failed c pr1 r1 r2 r exec | converted c exec | checked c exec
    | acked c exec => exact .empty line rdy drdy trivial handed copied
    | ready c exec hrdy => exact .empty line rdy drdy (rdy hrdy) handed copied
    | posSet c exec =>
      rw [exec] at writing
      exact .empty line rdy drdy ⟨writing, rfl⟩ handed copied
    | spdSet c exec =>
      rw [exec] at writing
      obtain ⟨hline, hpr1⟩ := writing
      exact .empty line rdy drdy ⟨hline, hpr1, rfl⟩ handed copied
    | cntSet c exec =>
      rw [exec] at writing
      obtain ⟨hline, hpr1, hr1⟩ := writing
      exact .empty line rdy drdy ⟨hline, hpr1, hr1, rfl⟩ handed copied
    | raised c exec =>
      rw [exec] at writing
      obtain ⟨hline, hpr1, hr1, hr2⟩ := writing
      refine .offered c (.inl hline) rfl rfl hpr1 hr1 hr2 ?_ copied
      show (s.handed ++ [c]).map Call.point = s.moved ++ [c.point]
      rw [List.map_append, ← handed]
      rfl
  | offered c line drdy exec pr1 r1 r2 handed copied =>
    rw [execStep, exec, drdy] at hs
    cases hs
  | taken c line rdy drdy exec pr2 r1 r2 handed copied =>
    rw [execStep, exec, drdy] at hs
    cases hs
  | acked p line rdy drdy outside pr2 r1 r2 handed copied =>
    cases htrans with
    | refused c r exec | converted c exec | checked c exec | acked c exec =>
      exact .acked p line rdy drdy trivial pr2 r1 r2 handed copied
    | ready c exec hrdy =>
      rw [rdy] at hrdy
      cases hrdy
    | failed c pr1 r1 r2 r exec =>
      rcases exec with exec | exec | exec <;> rw [exec] at outside <;> exact outside.elim
    | posSet c exec | spdSet c exec | cntSet c exec | raised c exec =>
      rw [exec] at outside
      exact outside.elim

theorem step_phase {s t : State P} {l : Label P} (hI : Phase s) (hs : step s l = some t) :
    Phase t := by
  cases l with
  | call p =>
    rw [step] at hs
    split at hs
    · rename_i hidle
      cases hs
      cases hI with
      | empty line rdy drdy _ handed copied => exact .empty line rdy drdy trivial handed copied
      | offered c _ _ exec => rw [exec] at hidle; cases hidle
      | taken c _ _ _ exec => rw [exec] at hidle; cases hidle
      | acked p line rdy drdy _ pr2 r1 r2 handed copied =>
        exact .acked p line rdy drdy trivial pr2 r1 r2 handed copied
    · cases hs
  | exec out => exact execStep_phase hI hs
  | msm => exact msmStep_phase hI hs

/-! ## Calls and results -/

/-- The call in progress. -/
def ExecPc.call? : ExecPc P → Option (Call P)
  | .idle => none
  | .convert c | .inRange c | .waitRdy c | .setPos c | .setSpd c | .setCnt c | .raise c
  | .waitAck c => some c

/-- The call that has been handed over and waits for the acknowledgement. -/
def ExecPc.acking? : ExecPc P → Option (Call P)
  | .waitAck c => some c
  | _ => none

/-- The calls that returned 0. -/
def State.succeeded (s : State P) : List (Call P) :=
  (s.returned.filter fun e => e.2 = 0).map Prod.fst

/-- The calls made, with their numbers. -/
def State.allCalls (s : State P) : List (Call P) :=
  s.calls.zipIdx.map fun p => ⟨p.2, p.1⟩

/-- What a statement of `exec_move_` does: go on with its call, hand it over, or return from
it, with 0 exactly when it was handed over. -/
theorem execStep_cases {s t : State P} {out : Outcome P} (hs : execStep s out = some t) :
    ∃ c, s.exec.call? = some c ∧ t.calls = s.calls ∧
      ((s.exec.acking? = none ∧ t.exec.call? = some c ∧ t.returned = s.returned ∧
          (t.exec.acking? = none ∧ t.handed = s.handed ∨
            t.exec.acking? = some c ∧ t.handed = s.handed ++ [c])) ∨
        (t.exec = .idle ∧ t.handed = s.handed ∧
          ((s.exec.acking? = none ∧ ∃ r, r ≠ 0 ∧ t.returned = s.returned ++ [(c, r)]) ∨
            (s.exec.acking? = some c ∧ t.returned = s.returned ++ [(c, 0)])))) := by
  cases execStep_trans hs with
  | refused c r exec fails =>
    rcases exec with exec | exec <;> rw [exec] <;>
      exact ⟨c, rfl, rfl, .inr ⟨rfl, rfl, .inl ⟨rfl, r, fails, rfl⟩⟩⟩
  | failed c pr1 r1 r2 r exec fails =>
    rcases exec with exec | exec | exec <;> rw [exec] <;>
      exact ⟨c, rfl, rfl, .inr ⟨rfl, rfl, .inl ⟨rfl, r, fails, rfl⟩⟩⟩
  | converted c exec | checked c exec | ready c exec | posSet c exec | spdSet c exec
  | cntSet c exec =>
    rw [exec]
    exact ⟨c, rfl, rfl, .inl ⟨rfl, rfl, rfl, .inl ⟨rfl, rfl⟩⟩⟩
  | raised c exec =>
    rw [exec]
    exact ⟨c, rfl, rfl, .inl ⟨rfl, rfl, rfl, .inr ⟨rfl, rfl⟩⟩⟩
  | acked c exec =>
    rw [exec]
    exact ⟨c, rfl, rfl, .inr ⟨rfl, rfl, .inr ⟨rfl, rfl⟩⟩⟩

/-- A line of `ROS_MOVESM` leaves calls and results alone. -/
theorem msmStep_frame {s t : State P} (hs : msmStep s = some t) :
    t.exec = s.exec ∧ t.calls = s.calls ∧ t.handed = s.handed ∧ t.returned = s.returned := by
  unfold msmStep at hs
  split at hs
  case h_4 =>
    split at hs
    · cases hs
      exact ⟨rfl, rfl, rfl, rfl⟩
    · cases hs
  all_goals
    cases hs
    exact ⟨rfl, rfl, rfl, rfl⟩

/-- The calls returned from, and then the one in progress, are the calls made; those that
returned 0, and then the one waiting for its acknowledgement, are the calls handed over. -/
structure Results (s : State P) : Prop where
  calls : s.returned.map Prod.fst ++ s.exec.call?.toList = s.allCalls
  handed : s.succeeded ++ s.exec.acking?.toList = s.handed

theorem results_init (pr1 pr2 : P) (r1 r2 : Int) : Results (init pr1 pr2 r1 r2) := ⟨rfl, rfl⟩

/-- A step keeps the second half on its own. -/
theorem step_handed {s t : State P} {l : Label P}
    (hI : s.succeeded ++ s.exec.acking?.toList = s.handed) (hs : step s l = some t) :
    t.succeeded ++ t.exec.acking?.toList = t.handed := by
  cases l with
  | call p =>
    rw [step] at hs
    split at hs
    · rename_i hidle
      rw [hidle] at hI
      cases hs
      exact hI
    · cases hs
  | exec out =>
    obtain ⟨c, -, -, ⟨hack, -, hret, hgo⟩ | ⟨hidle, hkeep, hret⟩⟩ := execStep_cases hs
    · rw [hack, Option.toList_none, List.append_nil] at hI
      rcases hgo with ⟨hack', hkeep⟩ | ⟨hack', hmore⟩
      · rw [hack', hkeep, ← hI, State.succeeded, State.succeeded, hret]
        simp
      · rw [hack', hmore, ← hI, State.succeeded, State.succeeded, hret]
        rfl
    · rcases hret with ⟨hack, r, hr, hret⟩ | ⟨hack, hret⟩
      · rw [hkeep, ← hI, hack, hidle, State.succeeded, State.succeeded, hret]
        simp [ExecPc.acking?, hr]
      · rw [hkeep, ← hI, hack, hidle, State.succeeded, State.succeeded, hret]
        simp [ExecPc.acking?]
  | msm =>
    obtain ⟨hexec, -, hhanded, hret⟩ := msmStep_frame hs
    rw [hexec, hhanded, ← hI, State.succeeded, State.succeeded, hret]

theorem step_results {s t : State P} {l : Label P} (hI : Results s) (hs : step s l = some t) :
    Results t := by
  refine ⟨?_, step_handed hI.handed hs⟩
  have hcalls := hI.calls
  cases l with
  | call p =>
    rw [step] at hs
    split at hs
    · rename_i hidle
      rw [hidle] at hcalls
      cases hs
      simp only [ExecPc.call?, Option.toList_none, List.append_nil, Option.toList_some,
        State.allCalls] at hcalls ⊢
      rw [hcalls, List.zipIdx_append, List.map_append]
      simp
    · cases hs
  | exec out =>
    obtain ⟨c, hc, htc, ⟨-, hc', hret, -⟩ | ⟨hidle, -, hret⟩⟩ := execStep_cases hs
    · rw [hret, hc', ← hc, hcalls, State.allCalls, State.allCalls, htc]
    · have hone : ∃ r, t.returned = s.returned ++ [(c, r)] := by
        rcases hret with ⟨-, r, -, hret⟩ | ⟨-, hret⟩
        · exact ⟨r, hret⟩
        · exact ⟨0, hret⟩
      obtain ⟨r, hret⟩ := hone
      rw [hc] at hcalls
      rw [hret, hidle, List.map_append, State.allCalls, htc]
      simpa [ExecPc.call?, State.allCalls] using hcalls
  | msm =>
    obtain ⟨hexec, hcalls', -, hret⟩ := msmStep_frame hs
    rw [hret, hexec, hcalls, State.allCalls, State.allCalls, hcalls']

theorem allCalls_nr (s : State P) : s.allCalls.map Call.nr = List.range s.calls.length := by
  rw [State.allCalls, List.map_map, List.range_eq_range']
  exact List.zipIdx_map_snd 0 s.calls

theorem mem_allCalls {s : State P} {c : Call P} (h : c ∈ s.allCalls) :
    s.calls[c.nr]? = some c.point := by
  obtain ⟨⟨p, n⟩, hp, rfl⟩ := List.mem_map.mp h
  exact List.mem_zipIdx_iff_getElem?.mp hp

/-- The calls handed over are among the calls made, in order. -/
theorem Results.handed_sublist {s : State P} (h : Results s) :
    List.Sublist s.handed s.allCalls := by
  rw [← h.calls, ← h.handed]
  refine List.Sublist.append (List.Sublist.map _ List.filter_sublist) ?_
  cases s.exec <;> simp [ExecPc.acking?, ExecPc.call?]

/-- A call that failed has not been handed over. -/
theorem Results.failed_not_handed {s : State P} (h : Results s) {e : Call P × Int}
    (he : e ∈ s.returned) (hne : e.2 ≠ 0) : ∀ c ∈ s.handed, c.nr ≠ e.1.nr := by
  have hnodup : (s.allCalls.map Call.nr).Nodup := by
    rw [allCalls_nr]
    exact List.nodup_range
  rw [← h.calls, List.map_append, List.map_map] at hnodup
  obtain ⟨hret, -, hdisj⟩ := List.nodup_append.mp hnodup
  intro c hc heq
  rw [← h.handed] at hc
  rcases List.mem_append.mp hc with hc | hc
  · -- it would have returned twice, with different results
    obtain ⟨f, hf, rfl⟩ := List.mem_map.mp hc
    rw [List.mem_filter, decide_eq_true_eq] at hf
    have hfe : f = e := List.inj_on_of_nodup_map hret hf.1 he heq
    exact hne (hfe ▸ hf.2)
  · -- it would be in progress
    have hprog : c ∈ s.exec.call?.toList := by
      revert hc
      cases s.exec <;> simp [ExecPc.acking?, ExecPc.call?]
    exact hdisj _ (List.mem_map.mpr ⟨e, he, rfl⟩) _ (List.mem_map.mpr ⟨c, hprog, rfl⟩) heq.symm

/-! ## The queue behind the flags -/

theorem execStep_moved {s t : State P} {out : Outcome P} (hs : execStep s out = some t) :
    t.moved = s.moved := by
  cases execStep_trans hs <;> rfl

/-- A line of `ROS_MOVESM` starts the motion to the point handed over last, or none. -/
theorem msmStep_moved {s t : State P} (hI : Phase s) (hs : msmStep s = some t) :
    t.moved = s.moved ∨ ∃ p, s.handedPoints = s.moved ++ [p] ∧ t.moved = s.moved ++ [p] := by
  by_cases hline : s.msm = .move
  · rw [msmStep, hline] at hs
    cases hs
    cases hI with
    | empty line => rw [hline] at line; simp at line
    | offered _ line => rw [hline] at line; simp at line
    | taken _ line => rw [hline] at line; simp at line
    | acked p _ _ _ _ pr2 r1 r2 handed _ =>
      refine .inr ⟨p, handed, ?_⟩
      rw [pr2, r1, r2]
  · unfold msmStep at hs
    split at hs
    case h_8 hmove => exact absurd hmove hline
    case h_4 =>
      split at hs
      · cases hs
        exact .inl rfl
      · cases hs
    all_goals
      cases hs
      exact .inl rfl

/-- The point last moved to. -/
def goTo (_ : Option (Point P)) (p : Point P) : Option (Point P) := some p

/-- The queue in which the points handed over wait for their motions. -/
def Queued (s : State P) (q : WorkQueue.State (Point P) (Option (Point P))) : Prop :=
  q.done = s.moved ∧ q.done ++ q.todo = s.handedPoints

theorem step_queue {s t : State P} {l : Label P} {q : WorkQueue.State (Point P) (Option (Point P))}
    (hI : Phase s) (hq : Queued s q) (hs : step s l = some t) :
    ∃ qs q', Lts.run (WorkQueue.step goTo) q qs = some q' ∧ Queued t q' := by
  obtain ⟨hdone, htodo⟩ := hq
  have hstay : t.moved = s.moved → t.handed = s.handed →
      ∃ qs q', Lts.run (WorkQueue.step goTo) q qs = some q' ∧ Queued t q' := fun hmoved hhanded =>
    ⟨[], q, rfl, hdone.trans hmoved.symm, by rw [htodo, State.handedPoints, ← hhanded]; rfl⟩
  cases l with
  | call p =>
    rw [step] at hs
    split at hs
    · cases hs
      exact hstay rfl rfl
    · cases hs
  | exec out =>
    obtain ⟨c, -, -, ⟨-, -, -, ⟨-, hhanded⟩ | ⟨-, hhanded⟩⟩ | ⟨-, hhanded, -⟩⟩ := execStep_cases hs
    · exact hstay (execStep_moved hs) hhanded
    · refine ⟨[.submit c.point], _, rfl, hdone.trans (execStep_moved hs).symm, ?_⟩
      rw [State.handedPoints, hhanded, List.map_append, ← State.handedPoints, ← htodo]
      exact (List.append_assoc _ _ _).symm
    · exact hstay (execStep_moved hs) hhanded
  | msm =>
    have hhanded := (msmStep_frame hs).2.2.1
    rcases msmStep_moved hI hs with hmoved | ⟨p, hlast, hmoved⟩
    · exact hstay hmoved hhanded
    · have hwaits : q.todo = [p] := by
        rw [hlast, ← hdone] at htodo
        exact List.append_cancel_left htodo
      refine ⟨[.exec], ⟨q.done ++ [p], [], goTo q.acc p⟩, ?_, ?_, ?_⟩
      · simp [WorkQueue.step, hwaits]
      · rw [hmoved, hdone]
      · rw [List.append_nil, State.handedPoints, hhanded, ← State.handedPoints, hlast, hdone]

/-! ## Runs -/

theorem Phase.moved_prefix {s : State P} (h : Phase s) : s.moved <+: s.handedPoints := by
  cases h with
  | empty _ _ _ _ handed _ => exact handed ▸ List.prefix_refl _
  | offered _ _ _ _ _ _ _ handed _ => exact handed ▸ List.prefix_append _ _
  | taken _ _ _ _ _ _ _ _ handed _ => exact handed ▸ List.prefix_append _ _
  | acked _ _ _ _ _ _ _ _ handed _ => exact handed ▸ List.prefix_append _ _

/-- The calls that returned 0 have been copied. -/
theorem succeeded_prefix_copied {s : State P} (hp : Phase s)
    (hr : s.succeeded ++ s.exec.acking?.toList = s.handed) :
    s.succeeded.map (fun c => c.point.pos) <+: s.copied := by
  have hhanded : s.handedPoints.map Point.pos =
      s.succeeded.map (fun c => c.point.pos) ++ s.exec.acking?.toList.map fun c => c.point.pos := by
    rw [State.handedPoints, ← hr, List.map_map, List.map_append]
    rfl
  have hall : s.succeeded.map (fun c => c.point.pos) <+: s.handedPoints.map Point.pos := by
    rw [hhanded]
    exact List.prefix_append _ _
  cases hp with
  | empty _ _ _ _ handed copied => rwa [copied, ← handed]
  | offered c _ _ exec _ _ _ handed copied =>
    rw [exec, handed, List.map_append] at hhanded
    have hmoved := List.append_inj_left' hhanded rfl
    exact ⟨[], by rw [List.append_nil, copied, hmoved]⟩
  | taken _ _ _ _ _ _ _ _ _ copied => rwa [copied]
  | acked _ _ _ _ _ _ _ _ _ copied => rwa [copied]

/-- **The hand-over.** In every interleaving the motions are, in order, those of the first calls
handed over, with the speed and CNT of the same call; the calls handed over are calls made, in
order; none that failed is among them; and a call that returned 0 has been copied. -/
theorem run_handed_over {pr1 pr2 : P} {r1 r2 : Int} {ls : List (Label P)} {s : State P}
    (hr : Lts.run step (init pr1 pr2 r1 r2) ls = some s) :
    s.moved <+: s.handed.map Call.point ∧
      (s.handed.map Call.nr).Pairwise (· < ·) ∧
      (∀ c ∈ s.handed, s.calls[c.nr]? = some c.point) ∧
      (∀ e ∈ s.returned, e.2 ≠ 0 → ∀ c ∈ s.handed, c.nr ≠ e.1.nr) ∧
      s.succeeded.map (fun c => c.point.pos) <+: s.copied := by
  have hphase : Phase s := Lts.run_inv (fun _ _ _ => step_phase) (phase_init pr1 pr2 r1 r2) hr
  have hresults : Results s :=
    Lts.run_inv (fun _ _ _ => step_results) (results_init pr1 pr2 r1 r2) hr
  refine ⟨hphase.moved_prefix, ?_, ?_, ?_, succeeded_prefix_copied hphase hresults.handed⟩
  · apply List.Pairwise.sublist (hresults.handed_sublist.map _)
    rw [allCalls_nr]
    exact List.pairwise_lt_range
  · intro c hc
    exact mem_allCalls (hresults.handed_sublist.subset hc)
  · intro e he hne
    exact hresults.failed_not_handed he hne

/-- **The two flags implement a queue of capacity one.** Calls that raise the data flag submit
their points, the motion line executes them in order, and at most one is waiting. -/
theorem run_queue {pr1 pr2 : P} {r1 r2 : Int} {ls : List (Label P)} {s : State P}
    (hr : Lts.run step (init pr1 pr2 r1 r2) ls = some s) :
    ∃ qs q, Lts.run (WorkQueue.step goTo) (WorkQueue.init none) qs = some q ∧ q.done = s.moved ∧
      WorkQueue.submitted qs = s.handedPoints ∧ q.todo.length ≤ 1 := by
  obtain ⟨qs, q, hq, hphase, hdone, htodo⟩ := Lts.run_sim_along
    (R := fun s q => Phase s ∧ Queued s q) (t := WorkQueue.init none)
    (fun u a v q hR _ hs => by
      obtain ⟨qs, q', hq, hq'⟩ := step_queue hR.1 hR.2 hs
      exact ⟨qs, q', hq, step_phase hR.1 hs, hq'⟩)
    ⟨phase_init pr1 pr2 r1 r2, rfl, rfl⟩ (Lts.along_trivial _ ls) hr
  refine ⟨qs, q, hq, hdone, (WorkQueue.run_spec hq).1.symm.trans htodo, ?_⟩
  have hlen := congrArg List.length htodo
  rw [List.length_append, hdone] at hlen
  cases hphase with
  | empty _ _ _ _ handed =>
    rw [handed] at hlen
    omega
  | offered _ _ _ _ _ _ _ handed | taken _ _ _ _ _ _ _ _ handed | acked _ _ _ _ _ _ _ _ handed =>
    rw [handed, List.length_append, List.length_singleton] at hlen
    omega

/-- A call whose point is out of range, then one that is handed over and moved to. -/
def oneRejected : List (Label Nat) :=
  let ok : Label Nat := .exec ⟨0, true, 0, 0⟩
  [.call ⟨4, 20, 50⟩, ok, .exec ⟨0, false, 0, 0⟩, .call ⟨7, 20, 50⟩, ok, .msm, ok, ok, ok, ok, ok,
    ok, .msm, .msm, .msm, .msm, ok, .msm]

theorem run_handed_over_oneRejected :
    ∃ s, Lts.run step (init 0 0 0 0) oneRejected = some s ∧ s.moved = [⟨7, 20, 50⟩] ∧
      s.moved <+: s.handed.map Call.point ∧
      s.succeeded.map (fun c => c.point.pos) <+: s.copied := by
  have hrun : ((Lts.run step (init 0 0 0 0) oneRejected).map fun s => s.moved) =
      some [⟨7, 20, 50⟩] := by decide
  obtain ⟨s, hs, hmoved⟩ := Option.map_eq_some_iff.mp hrun
  obtain ⟨hmotions, -, -, -, hcopied⟩ := run_handed_over hs
  exact ⟨s, hs, hmoved, hmotions, hcopied⟩

end Handshake

end FanucDriver
