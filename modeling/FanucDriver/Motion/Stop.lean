import FanucDriver.Motion.Relay

/-!
# Stopping a trajectory

`exec_move_` returns when `ROS_MOVESM` has copied the point, before the motion line; the `CANCEL`
of the stop branch ends the motion in progress and does not reach a point copied that way.

* `Fresh` — the positions that can still be moved to satisfy a condition: the one being written,
  the one on offer, and the one copied.
* `NothingCached` — the reply to a stop is written at a moment at which no copied point waits
  for its motion.
* `run_stops` — then no point received before a stop starts moving after the reply to it, from
  whatever the flags and registers held when the programs were started; `stop_too_early` —
  otherwise one does.
* `moved_after_stop` — a run in which one does.
-/

set_option autoImplicit false

namespace FanucDriver

namespace Handshake

variable {P : Type}

/-! ## Positions that can still be moved to -/

/-- The initialisation is over. -/
def MsmLine.Initialised : MsmLine → Prop
  | .rdyInit | .drdyInit => False
  | _ => True

/-- No copied position waits for its motion, and none is being copied. -/
def MsmLine.Outside : MsmLine → Prop
  | .copy | .rdyOff | .drdyOff | .move => False
  | _ => True

/-- The call that has written its position and not yet raised the data flag. -/
def ExecPc.written? : ExecPc P → Option (Call P)
  | .setSpd c | .setCnt c | .raise c => some c
  | _ => none

/-- Every position `ROS_MOVESM` can still move to, without a further call, satisfies `ok`. -/
structure Fresh (ok : P → Prop) (s : State P) : Prop where
  call : ∀ c, s.exec.call? = some c → ok c.point.pos
  written : ∀ c, s.exec.written? = some c → s.pr1 = c.point.pos
  offered : s.msm.Initialised → s.drdy = true → ∃ c, s.exec = .waitAck c ∧ s.pr1 = c.point.pos
  holding : s.msm = .copy ∨ s.msm = .rdyOff ∨ s.msm = .drdyOff → s.drdy = true
  copied : s.msm = .rdyOff ∨ s.msm = .drdyOff ∨ s.msm = .move → ok s.pr2

variable {ok ok' : P → Prop} {s t : State P}

theorem fresh_boot (ok : P → Prop) (rdy drdy : Bool) (pr1 pr2 : P) (r1 r2 : Int) :
    Fresh ok (boot rdy drdy pr1 pr2 r1 r2) := by
  constructor
  · intro c hc
    cases hc
  · intro c hc
    cases hc
  · intro hinit
    exact hinit.elim
  · intro hl
    rcases hl with hl | hl | hl <;> cases hl
  · intro hl
    rcases hl with hl | hl | hl <;> cases hl

theorem Fresh.mono (h : Fresh ok s) (himp : ∀ p, ok p → ok' p) : Fresh ok' s := by
  refine ⟨?_, h.written, h.offered, h.holding, ?_⟩
  · intro c hc
    exact himp _ (h.call c hc)
  · intro hl
    exact himp _ (h.copied hl)

/-- While a point is held by `ROS_MOVESM` its call waits. -/
theorem Fresh.waiting (h : Fresh ok s) (hinit : s.msm.Initialised)
    (hl : s.msm = .copy ∨ s.msm = .rdyOff ∨ s.msm = .drdyOff) : ∃ c, s.exec = .waitAck c := by
  obtain ⟨c, hc, -⟩ := h.offered hinit (h.holding hl)
  exact ⟨c, hc⟩

/-- **Outside a call, and with no copied point waiting for its motion, nothing can be moved
to.** -/
theorem Fresh.idle (h : Fresh ok s) (hexec : s.exec = .idle) (hmsm : s.msm ≠ .move) :
    Fresh ok' s := by
  refine ⟨?_, h.written, h.offered, h.holding, ?_⟩
  · intro c hc
    rw [hexec] at hc
    cases hc
  · intro hl
    have hwait : ∃ c, s.exec = .waitAck c := by
      rcases hl with hl | hl | hl
      · exact h.waiting (by rw [hl]; trivial) (.inr (.inl hl))
      · exact h.waiting (by rw [hl]; trivial) (.inr (.inr hl))
      · exact absurd hl hmsm
    obtain ⟨c, hc⟩ := hwait
    rw [hexec] at hc
    cases hc

/-- A step of `exec_move_` that neither raises the data flag nor waits for it to be dropped. -/
theorem Fresh.exec (h : Fresh ok s) (hwait : ∀ c, s.exec ≠ .waitAck c) (hmsm : t.msm = s.msm)
    (hdrdy : t.drdy = s.drdy) (hpr2 : t.pr2 = s.pr2)
    (hcall : ∀ c, t.exec.call? = some c → ok c.point.pos)
    (hwritten : ∀ c, t.exec.written? = some c → t.pr1 = c.point.pos) : Fresh ok t := by
  refine ⟨hcall, hwritten, ?_, ?_, ?_⟩
  · intro hinit hd
    obtain ⟨c, hc, -⟩ := h.offered (hmsm ▸ hinit) (hdrdy ▸ hd)
    exact absurd hc (hwait c)
  · intro hl
    rw [hdrdy]
    exact h.holding (hmsm ▸ hl)
  · intro hl
    rw [hpr2]
    exact h.copied (hmsm ▸ hl)

/-- A step of `ROS_MOVESM` to a line at which no position is held. -/
theorem Fresh.outside (h : Fresh ok s) (hexec : t.exec = s.exec) (hpr1 : t.pr1 = s.pr1)
    (hline : t.msm.Outside)
    (hoffer : t.msm.Initialised → t.drdy = true → s.msm.Initialised ∧ s.drdy = true) :
    Fresh ok t := by
  constructor
  · intro c hc
    rw [hexec] at hc
    exact h.call c hc
  · intro c hc
    rw [hexec] at hc
    rw [hpr1]
    exact h.written c hc
  · intro hinit hd
    obtain ⟨hinit', hd'⟩ := hoffer hinit hd
    obtain ⟨c, hc, hp⟩ := h.offered hinit' hd'
    exact ⟨c, hexec.trans hc, hpr1.trans hp⟩
  · intro hl
    rcases hl with hl | hl | hl <;> rw [hl] at hline <;> exact hline.elim
  · intro hl
    rcases hl with hl | hl | hl <;> rw [hl] at hline <;> exact hline.elim

/-- `RETURN` before the data flag has been raised. -/
theorem Fresh.returned (h : Fresh ok s) (hwait : ∀ c, s.exec ≠ .waitAck c) (hmsm : t.msm = s.msm)
    (hdrdy : t.drdy = s.drdy) (hpr2 : t.pr2 = s.pr2) (hidle : t.exec = .idle) : Fresh ok t := by
  apply h.exec hwait hmsm hdrdy hpr2
  · intro c hc
    rw [hidle] at hc
    cases hc
  · intro c hc
    rw [hidle] at hc
    cases hc

theorem Fresh.called {p : Point P} (h : Fresh ok s) (hp : ok p.pos)
    (hs : step s (.call p) = some t) : Fresh ok t := by
  rw [step] at hs
  split at hs
  · rename_i hidle
    cases hs
    refine h.exec ?_ rfl rfl rfl ?_ ?_
    · intro c hc
      rw [hidle] at hc
      cases hc
    · intro c hc
      cases hc
      exact hp
    · intro c hc
      cases hc
  · cases hs

theorem Fresh.execStep {out : Outcome P} (h : Fresh ok s) (hs : execStep s out = some t) :
    Fresh ok t := by
  have hcall := h.call
  have hwritten := h.written
  have hwait : s.exec.acking? = none → ∀ c, s.exec ≠ .waitAck c := by
    intro hnone c hc
    rw [hc] at hnone
    cases hnone
  cases execStep_trans hs with
  | refused c r exec =>
    refine h.returned (hwait ?_) rfl rfl rfl rfl
    rcases exec with exec | exec <;> rw [exec] <;> rfl
  | failed c pr1 r1 r2 r exec =>
    refine h.returned (hwait ?_) rfl rfl rfl rfl
    rcases exec with exec | exec | exec <;> rw [exec] <;> rfl
  | converted c exec | checked c exec | ready c exec =>
    rw [exec] at hcall
    refine h.exec (hwait (by rw [exec]; rfl)) rfl rfl rfl hcall ?_
    intro d hd
    cases hd
  | posSet c exec =>
    rw [exec] at hcall
    refine h.exec (hwait (by rw [exec]; rfl)) rfl rfl rfl hcall ?_
    intro d hd
    cases hd
    rfl
  | spdSet c exec | cntSet c exec =>
    rw [exec] at hcall hwritten
    exact h.exec (hwait (by rw [exec]; rfl)) rfl rfl rfl hcall hwritten
  | raised c exec =>
    rw [exec] at hcall hwritten
    refine ⟨hcall, ?_, fun _ _ => ⟨c, rfl, hwritten c rfl⟩, fun _ => rfl, h.copied⟩
    intro d hd
    cases hd
  | acked c exec drdy =>
    refine ⟨?_, ?_, ?_, h.holding, h.copied⟩
    · intro d hd
      cases hd
    · intro d hd
      cases hd
    · intro _ hd
      exact absurd (drdy.symm.trans hd) Bool.noConfusion

theorem Fresh.msmStep (h : Fresh ok s) (hs : msmStep s = some t) : Fresh ok t := by
  unfold Handshake.msmStep at hs
  cases hmsm : s.msm with
  | rdyInit =>
    simp only [hmsm] at hs
    cases hs
    refine h.outside rfl rfl trivial ?_
    intro hinit
    exact hinit.elim
  | drdyInit =>
    simp only [hmsm] at hs
    cases hs
    refine h.outside rfl rfl trivial ?_
    intro _ hd
    cases hd
  | rdyOn | move | jmp =>
    simp only [hmsm] at hs
    cases hs
    refine h.outside rfl rfl trivial ?_
    intro _ hd
    exact ⟨by rw [hmsm]; trivial, hd⟩
  | waitDrdy =>
    simp only [hmsm] at hs
    split at hs
    · rename_i hdrdy
      cases hs
      refine ⟨h.call, h.written, ?_, fun _ => hdrdy, ?_⟩
      · intro _ hd
        exact h.offered (by rw [hmsm]; trivial) hd
      · intro hl
        rcases hl with hl | hl | hl <;> cases hl
    · cases hs
  | copy =>
    -- the position on offer is that of the call that waits
    have hdrdy := h.holding (.inl hmsm)
    have hoffered := h.offered (by rw [hmsm]; trivial) hdrdy
    obtain ⟨c, hc, hpr1⟩ := hoffered
    have hok : ok s.pr1 := hpr1 ▸ h.call c (by rw [hc]; rfl)
    simp only [hmsm] at hs
    cases hs
    exact ⟨h.call, h.written, fun _ _ => ⟨c, hc, hpr1⟩, fun _ => hdrdy, fun _ => hok⟩
  | rdyOff =>
    have hdrdy := h.holding (.inr (.inl hmsm))
    have hok := h.copied (.inl hmsm)
    have hoffered := h.offered (by rw [hmsm]; trivial)
    simp only [hmsm] at hs
    cases hs
    exact ⟨h.call, h.written, fun _ => hoffered, fun _ => hdrdy, fun _ => hok⟩
  | drdyOff =>
    have hok := h.copied (.inr (.inl hmsm))
    simp only [hmsm] at hs
    cases hs
    refine ⟨h.call, h.written, ?_, ?_, fun _ => hok⟩
    · intro _ hd
      cases hd
    · intro hl
      rcases hl with hl | hl | hl <;> cases hl

end Handshake

namespace TrajRelay

open Wire Handshake

variable {P : Type}

/-! ## Stops and motions -/

/-- `b`, after `a`, does not start a point received before the stop `a` answers. -/
def InOrder (a b : Event) : Prop := ∀ n k, a = .stopAcked n → b = .started k → n ≤ k

/-- Received after every stop that has been answered. -/
def NotStopped (log : List Event) (p : Received P) : Prop :=
  ∀ n, .stopAcked n ∈ log → n ≤ p.packet

def Pc.inStop : Pc → Bool
  | .ackStop _ => true
  | _ => false

/-- When the reply to a stop is written, `ROS_MOVESM` is not between the acknowledgement of a
point and its motion line. -/
def NothingCached (s : State P) : Label P → Prop
  | .write os =>
    s.pc.inStop = true → (∀ o ∈ replyWrites os, o.stat = 0) → s.hand.msm ≠ .move
  | _ => True

instance decidableNothingCached (s : State P) : ∀ l, Decidable (NothingCached s l)
  | .write _ => inferInstanceAs (Decidable (s.pc.inStop = true → _ → s.hand.msm ≠ .move))
  | .accept _ | .arrive _ | .poll _ _ | .cancel | .exec _ | .msm | .motionEnd => isTrue trivial

def Pc.inMove : Pc → Bool
  | .execMove _ => true
  | _ => false

/-- Whether the point of the packet in progress may have been handed over. -/
def Pc.pending : Pc → Nat
  | .execMove _ | .nack _ => 1
  | _ => 0

/-- A position that may be moved to: received after every stop that has been answered, and
received already. -/
def State.Live (s : State P) (p : Received P) : Prop :=
  NotStopped s.log p ∧ p.packet < s.done.length + s.pc.pending

theorem State.Live.mono {s t : State P} (hlog : t.log = s.log)
    (hbound : s.done.length + s.pc.pending ≤ t.done.length + t.pc.pending) (p : Received P)
    (h : s.Live p) : t.Live p :=
  ⟨hlog ▸ h.1, Nat.lt_of_lt_of_le h.2 hbound⟩

structure Stoppable (s : State P) : Prop where
  header : ReplyHeader s.pktOut
  ordered : s.log.Pairwise InOrder
  past : ∀ n, .stopAcked n ∈ s.log → n < s.done.length
  fresh : Fresh s.Live s.hand
  idle : s.pc.inMove = false → s.hand.exec = .idle

theorem pktOutInit_replyHeader : ReplyHeader pktOutInit := ⟨rfl, rfl, rfl, rfl⟩

theorem stoppable_start (rdy drdy : Bool) (pr1 pr2 : Received P) (r1 r2 : Int) (stream : Bytes) :
    Stoppable (start (boot rdy drdy pr1 pr2 r1 r2) stream) where
  header := pktOutInit_replyHeader
  ordered := List.Pairwise.nil
  past n h := by cases h
  fresh := fresh_boot _ rdy drdy pr1 pr2 r1 r2
  idle _ := rfl

theorem bound_of_none {s t : State P} {pc : Pc} (hpc : s.pc = pc) (hnone : pc.pending = 0)
    (hdone : s.done.length ≤ t.done.length) :
    s.done.length + s.pc.pending ≤ t.done.length + t.pc.pending := by
  rw [hpc, hnone]
  exact Nat.le_trans hdone (Nat.le_add_right _ _)

/-- A step outside `exec_move_` and `ROS_MOVESM` that answers no stop. -/
theorem Stoppable.keep {s t : State P} (h : Stoppable s) (hheader : ReplyHeader t.pktOut)
    (hlog : t.log = s.log) (hhand : t.hand = s.hand) (hdone : s.done.length ≤ t.done.length)
    (hbound : s.done.length + s.pc.pending ≤ t.done.length + t.pc.pending)
    (hidle : s.hand.exec = .idle) : Stoppable t where
  header := hheader
  ordered := hlog ▸ h.ordered
  past n hn := Nat.lt_of_lt_of_le (h.past n (hlog ▸ hn)) hdone
  fresh := by
    rw [hhand]
    exact h.fresh.mono (State.Live.mono hlog hbound)
  idle _ := hhand ▸ hidle

theorem dispatch_done (s : State P) : s.done.length ≤ s.dispatch.done.length := by
  unfold State.dispatch
  dsimp only
  split
  · split
    · exact Nat.le_refl _
    · simp [State.finish]
  · exact Nat.le_refl _

theorem executed_done (s : State P) (hand : Handshake.State (Received P)) (h : Handled) :
    s.done.length ≤ (s.executed hand h).done.length := by
  unfold State.executed
  split
  · dsimp only
    split
    · exact Nat.le_refl _
    · simp [State.finish]
  · exact Nat.le_refl _

theorem executed_bound (s : State P) (hand : Handshake.State (Received P)) (h : Handled) :
    s.done.length + 1 ≤ (s.executed hand h).done.length + (s.executed hand h).pc.pending := by
  unfold State.executed
  split
  · dsimp only
    split
    · exact Nat.le_refl _
    · simp [State.finish]
  · exact Nat.le_refl _

theorem executed_idle {s : State P} {hand : Handshake.State (Received P)} {h : Handled}
    (hpc : (s.executed hand h).pc.inMove = false) : hand.exec = .idle := by
  unfold State.executed at hpc
  split at hpc
  · assumption
  · cases hpc

theorem Stoppable.moved {s : State P} {hand : Handshake.State (Received P)} (h : Stoppable s)
    (next : Handshake.msmStep s.hand = some hand) : Stoppable (s.moved hand) := by
  have hfresh := h.fresh.msmStep next
  have hidle : s.pc.inMove = false → hand.exec = .idle := by
    intro hpc
    rw [(msmStep_frame next).1]
    exact h.idle hpc
  unfold State.moved
  split
  · rename_i hline
    have hstarted : ∀ n, Event.stopAcked n ∈ s.log ++ [.started s.hand.pr2.packet] →
        .stopAcked n ∈ s.log := by
      intro n hn
      simpa using hn
    refine ⟨h.header, ?_, ?_, hfresh.mono ?_, hidle⟩
    · refine List.pairwise_append.mpr ⟨h.ordered, List.pairwise_singleton _ _, ?_⟩
      intro a ha b hb n k hn hk
      rw [List.mem_singleton.mp hb] at hk
      cases hk
      exact (h.fresh.copied (.inr (.inr hline))).1 n (hn ▸ ha)
    · intro n hn
      exact h.past n (hstarted n hn)
    · intro p hp
      exact ⟨fun n hn => hp.1 n (hstarted n hn), hp.2⟩
  · exact ⟨h.header, h.ordered, h.past, hfresh, hidle⟩

theorem Stoppable.stopAcked {s : State P} {w : Written} (h : Stoppable s)
    (hheader : ReplyHeader w.pktOut) (hd : Handled) (hidle : s.hand.exec = .idle)
    (hcached : s.hand.msm ≠ .move) : Stoppable ((s.wrote w).stopAcked.finish hd false) where
  header := hheader
  ordered := by
    refine List.pairwise_append.mpr ⟨h.ordered, List.pairwise_singleton _ _, ?_⟩
    intro a ha b hb n k hn hk
    rw [List.mem_singleton.mp hb] at hk
    cases hk
  past n hn := by
    have hlen : ((s.wrote w).stopAcked.finish hd false).done.length = s.done.length + 1 := by
      simp [State.finish, State.stopAcked, State.wrote]
    rw [hlen]
    rcases List.mem_append.mp hn with hn | hn
    · exact Nat.lt_succ_of_lt (h.past n hn)
    · cases List.mem_singleton.mp hn
      exact Nat.lt_succ_self _
  fresh := h.fresh.idle hidle hcached
  idle _ := hidle

theorem step_stoppable {env : Env P} {s t : State P} {l : Label P} (h : Stoppable s)
    (hok : NothingCached s l) (hs : step env s l = some t) : Stoppable t := by
  have htrans := step_trans hs
  have hheader := htrans.replyHeader h.header
  cases htrans with
  | accept stream pc =>
    exact h.keep hheader rfl rfl (Nat.le_refl _) (bound_of_none pc rfl (Nat.le_refl _))
      (h.idle (by rw [pc]; rfl))
  | arrive n => exact ⟨h.header, h.ordered, h.past, h.fresh, h.idle⟩
  | failed ahead read stat pkt chan pc =>
    exact h.keep hheader rfl rfl (Nat.le_refl _) (bound_of_none pc rfl (Nat.le_refl _))
      (h.idle (by rw [pc]; rfl))
  | waits ahead read pkt chan pc =>
    exact h.keep hheader rfl rfl (Nat.le_refl _) (Nat.le_refl _) (h.idle (by rw [pc]; rfl))
  | received ahead read stat pkt chan pc =>
    have hdone := dispatch_done ({ s with pktIn := pkt, chan := chan } : State P)
    refine h.keep hheader ?_ ?_ hdone (bound_of_none pc rfl hdone) (h.idle (by rw [pc]; rfl))
    · rw [dispatch_eq]
    · rw [dispatch_eq]
  | cancel hd pc =>
    exact h.keep hheader rfl rfl (Nat.le_refl _) (bound_of_none pc rfl (Nat.le_refl _))
      (h.idle (by rw [pc]; rfl))
  | stopAcked hd os w pc call ret =>
    refine h.stopAcked hheader _ (h.idle (by rw [pc]; rfl)) ?_
    rw [call] at ret
    exact hok (by rw [pc]; rfl) ((answer_ret_eq_zero h.header).mp ret)
  | ackFailed hd os w pc call ret =>
    have hdone : s.done.length ≤ ((s.wrote w).finish (hd.reply RI_RT_SUCC w) true).done.length := by
      simp [State.finish, State.wrote]
    rcases pc with pc | pc
    · exact h.keep hheader rfl rfl hdone (bound_of_none pc rfl hdone) (h.idle (by rw [pc]; rfl))
    · exact h.keep hheader rfl rfl hdone (bound_of_none pc rfl hdone) (h.idle (by rw [pc]; rfl))
  | called hd os w hand pc call ret next =>
    have hlive := h.fresh.mono (State.Live.mono (t := { s with pc := .execMove hd }) rfl
      (bound_of_none pc rfl (Nat.le_refl _)))
    refine ⟨hheader, h.ordered, h.past, hlive.called ⟨?_, Nat.lt_succ_self _⟩ next, ?_⟩
    · intro n hn
      exact Nat.le_of_lt (h.past n hn)
    · intro hpc
      cases hpc
  | nacked hd os w pc call =>
    have hone : s.pc.pending = 1 := by rw [pc]; rfl
    exact h.keep hheader rfl rfl (by simp [State.finish, State.wrote])
      (by simp [State.finish, State.wrote, hone]) (h.idle (by rw [pc]; rfl))
  | exec hd out hand pc next =>
    have hlog : (s.executed hand (hd.after s.hand.exec)).log = s.log := by rw [executed_eq]
    have hhand : (s.executed hand (hd.after s.hand.exec)).hand = hand := by rw [executed_eq]
    refine ⟨hheader, hlog ▸ h.ordered, ?_, ?_, ?_⟩
    · intro n hn
      exact Nat.lt_of_lt_of_le (h.past n (hlog ▸ hn)) (executed_done _ _ _)
    · have hone : s.pc.pending = 1 := by rw [pc]; rfl
      rw [hhand]
      refine (h.fresh.execStep next).mono (State.Live.mono hlog ?_)
      rw [hone]
      exact executed_bound _ _ _
    · intro hpc
      rw [hhand]
      exact executed_idle hpc
  | msm hand next => exact h.moved next
  | motionEnd => exact ⟨h.header, h.ordered, h.past, h.fresh, h.idle⟩

theorem run_stoppable {env : Env P} {rdy drdy : Bool} {pr1 pr2 : Received P} {r1 r2 : Int}
    {stream : Bytes} {ls : List (Label P)} {s : State P}
    (hc : Lts.Along (step env) NothingCached (start (boot rdy drdy pr1 pr2 r1 r2) stream) ls)
    (hr : Lts.run (step env) (start (boot rdy drdy pr1 pr2 r1 r2) stream) ls = some s) :
    Stoppable s :=
  Lts.run_inv_along (fun _ _ _ h hok hs => step_stoppable h hok hs)
    (stoppable_start rdy drdy pr1 pr2 r1 r2 stream) hc hr

/-- **Stops.** In a run in which no stop is answered while a copied point waits for its motion,
no motion that starts after the reply to a stop is to a point received before that stop. -/
theorem run_stops {env : Env P} {rdy drdy : Bool} {pr1 pr2 : Received P} {r1 r2 : Int}
    {stream : Bytes} {ls : List (Label P)} {s : State P}
    (hc : Lts.Along (step env) NothingCached (start (boot rdy drdy pr1 pr2 r1 r2) stream) ls)
    (hr : Lts.run (step env) (start (boot rdy drdy pr1 pr2 r1 r2) stream) ls = some s) :
    s.log.Pairwise fun a b => ∀ n k, a = .stopAcked n → b = .started k → n ≤ k :=
  (run_stoppable hc hr).ordered

/-- A point, then a stop. -/
def pointThenStop : State Word :=
  start (boot true false ⟨0, 0⟩ ⟨0, 0⟩ 0 0)
    (jointPacket .little RI_MT_JOINTP 1 (Vector.replicate 10 7) ++
      jointPacket .little RI_MT_JOINTP (BitVec.ofInt 32 RI_SEQ_STPRJ) (Vector.replicate 10 0))

/-- The point is received, handed over and copied. -/
def handOver : List (Label Word) :=
  let ok : Label Word := .exec ⟨0, true, ⟨0, 0⟩, 0⟩
  [.msm, .msm, .msm, .arrive 120, .poll 0 .ok, .write [], ok, ok, ok, ok, ok, ok, ok,
    .msm, .msm, .msm, .msm, ok]

/-- The motion starts before the stop is answered. -/
def movedBeforeStop : List (Label Word) :=
  handOver ++ [.poll 0 .ok, .msm, .cancel, .write []]

theorem run_stops_movedBeforeStop :
    ∃ s, Lts.run (step plainEnv) pointThenStop movedBeforeStop = some s ∧
      s.log = [.started 0, .stopAcked 1] ∧
      s.log.Pairwise fun a b => ∀ n k, a = .stopAcked n → b = .started k → n ≤ k := by
  have hrun : ((Lts.run (step plainEnv) pointThenStop movedBeforeStop).map fun s => s.log) =
      some [.started 0, .stopAcked 1] := by decide +kernel
  obtain ⟨s, hs, hlog⟩ := Option.map_eq_some_iff.mp hrun
  have hc : Lts.Along (step plainEnv) NothingCached pointThenStop movedBeforeStop := by
    decide +kernel
  exact ⟨s, hs, hlog, run_stops hc hs⟩

/-- **The condition is needed.** As soon as a stop is answered while a copied point waits for its
motion, the next line of `ROS_MOVESM` starts a motion to a point received before the stop. -/
theorem stop_too_early {env : Env P} {rdy drdy : Bool} {pr1 pr2 : Received P} {r1 r2 : Int}
    {stream : Bytes} {ls : List (Label P)} {s : State P}
    (hc : Lts.Along (step env) NothingCached (start (boot rdy drdy pr1 pr2 r1 r2) stream) ls)
    (hr : Lts.run (step env) (start (boot rdy drdy pr1 pr2 r1 r2) stream) ls = some s)
    {os : List WriteOutcome} (hbad : ¬ NothingCached s (.write os)) :
    ∃ t n k, Lts.run (step env) s [.write os, .msm] = some t ∧
      t.log = s.log ++ [.stopAcked n, .started k] ∧ k < n := by
  have hI := run_stoppable hc hr
  obtain ⟨hstop, hbad⟩ := Classical.not_imp.mp hbad
  obtain ⟨hwrites, hbad⟩ := Classical.not_imp.mp hbad
  have hmsm : s.hand.msm = .move := not_not.mp hbad
  cases hpc : s.pc with
  | ackStop h =>
    have hpr2 := (hI.fresh.copied (.inr (.inr hmsm))).2
    have hret : (reqNext env os s.pktIn s.pktOut).ret = 0 :=
      (answer_ret_eq_zero hI.header).mpr hwrites
    rw [hpc] at hpr2
    have hwrite : step env s (.write os) =
        some ((s.wrote (reqNext env os s.pktIn s.pktOut)).stopAcked.finish
          (h.reply RI_RT_SUCC (reqNext env os s.pktIn s.pktOut)) false) := by
      rw [step, writeStep, hpc]
      exact if_neg (not_not.mpr hret)
    have hmove : ∀ u : State P, u.hand = s.hand → ∃ t, step env u .msm = some t ∧
        t.log = u.log ++ [.started s.hand.pr2.packet] := by
      rintro u hu
      rw [step, hu, Handshake.msmStep, hmsm]
      refine ⟨_, rfl, ?_⟩
      rw [State.moved, hu, hmsm]
    obtain ⟨t, ht, hlog⟩ := hmove ((s.wrote (reqNext env os s.pktIn s.pktOut)).stopAcked.finish
      (h.reply RI_RT_SUCC (reqNext env os s.pktIn s.pktOut)) false) rfl
    refine ⟨t, s.done.length, s.hand.pr2.packet, ?_, ?_, hpr2⟩
    · exact Lts.run_cons_some.mpr ⟨_, hwrite, Lts.run_cons_some.mpr ⟨t, ht, rfl⟩⟩
    · rw [hlog]
      exact List.append_assoc _ _ _
  | poll | cancel | ackPoint | execMove | nack | discon =>
    rw [hpc] at hstop
    cases hstop

/-- The stop is answered first. -/
def movedAfterStop : List (Label Word) :=
  handOver ++ [.poll 0 .ok, .cancel, .write [], .msm]

/-- The point, packet 0, starts moving after the reply to the stop, packet 1. -/
theorem moved_after_stop :
    ∃ s, Lts.run (step plainEnv) pointThenStop movedAfterStop = some s ∧
      (s.done.map fun d => d.pkt.seqNr.toInt) = [1, RI_SEQ_STPRJ] ∧
      s.log = [.stopAcked 1, .started 0] ∧
      ¬ s.log.Pairwise fun a b => ∀ n k, a = .stopAcked n → b = .started k → n ≤ k := by
  have hrun : ((Lts.run (step plainEnv) pointThenStop movedAfterStop).map fun s =>
      (s.done.map fun d => d.pkt.seqNr.toInt, s.log)) =
      some ([1, RI_SEQ_STPRJ], [.stopAcked 1, .started 0]) := by decide +kernel
  obtain ⟨s, hs, heq⟩ := Option.map_eq_some_iff.mp hrun
  obtain ⟨hdone, hlog⟩ := Prod.mk.inj heq
  refine ⟨s, hs, hdone, hlog, ?_⟩
  intro h
  rw [hlog] at h
  have hle := (List.pairwise_cons.mp h).1 _ (List.mem_singleton.mpr rfl) 1 0 rfl rfl
  omega

end TrajRelay

end FanucDriver
