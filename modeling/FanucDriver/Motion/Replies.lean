import FanucDriver.Motion.Stream

/-!
# Replies and disconnects of the trajectory relay

A point is acknowledged before it is executed; when `exec_move_` fails, a negative reply follows.
`stat_` then holds what `send_err_` returned and not what `exec_move_` did.

* `Complete` — the ways in which the handling of a packet can end.
* `run_replies` — the replies on a connection on which every `WRITE` succeeds, byte for byte.
* `run_disconnects_iff` — when the relay disconnects after a negative reply.
* `point_answered_twice`, `outOfRange_disconnects` — a point that is out of range.
-/

set_option autoImplicit false

namespace FanucDriver

open Wire

namespace TrajRelay

open Handshake

variable {P : Type}

/-! ## How a packet is handled -/

/-- No statement of `exec_move_` has been executed. -/
structure Handled.Quiet (d : Handled) : Prop where
  result : d.result = none
  setPos : d.setPos = false
  raised : d.raised = false

/-- The ways in which the handling of a packet ends. -/
inductive Complete (d : Handled) : Prop
  /-- a special sequence number other than that of a stop -/
  | ignored (seqNr : d.pkt.seqNr.toInt < 0) (other : d.pkt.seqNr.toInt ≠ RI_SEQ_STPRJ)
      (replies : d.replies = []) (quiet : d.Quiet) (stays : d.discon = false)
  | stopped (seqNr : d.pkt.seqNr.toInt = RI_SEQ_STPRJ) (replies : d.replies = [⟨RI_RT_SUCC, 0⟩])
      (quiet : d.Quiet) (stays : d.discon = false)
  /-- the acknowledgement could not be written -/
  | unacked (stat : Int) (seqNr : d.pkt.seqNr.toInt = RI_SEQ_STPRJ ∨ 0 ≤ d.pkt.seqNr.toInt)
      (replies : d.replies = [⟨RI_RT_SUCC, stat⟩]) (fails : stat ≠ 0) (quiet : d.Quiet)
      (leaves : d.discon = true)
  | moved (seqNr : 0 ≤ d.pkt.seqNr.toInt) (replies : d.replies = [⟨RI_RT_SUCC, 0⟩])
      (result : d.result = some 0) (stays : d.discon = false)
  /-- `exec_move_` failed -/
  | nacked (r stat : Int) (seqNr : 0 ≤ d.pkt.seqNr.toInt)
      (replies : d.replies = [⟨RI_RT_SUCC, 0⟩, ⟨RI_RT_FAIL, stat⟩]) (result : d.result = some r)
      (fails : r ≠ 0) (leaves : d.discon = decide (stat.natAbs ≠ 1))

/-- What has been done before a statement of the main program. -/
def Pc.Underway : Pc → Prop
  | .poll | .discon => True
  | .cancel h | .ackStop h => h.pkt.seqNr.toInt = RI_SEQ_STPRJ ∧ h.replies = [] ∧ h.Quiet
  | .ackPoint h => 0 ≤ h.pkt.seqNr.toInt ∧ h.replies = [] ∧ h.Quiet
  | .execMove h => 0 ≤ h.pkt.seqNr.toInt ∧ h.replies = [⟨RI_RT_SUCC, 0⟩] ∧ h.result = none
  | .nack h =>
    0 ≤ h.pkt.seqNr.toInt ∧ h.replies = [⟨RI_RT_SUCC, 0⟩] ∧ ∃ r, r ≠ 0 ∧ h.result = some r

structure Recorded (s : State P) : Prop where
  header : ReplyHeader s.pktOut
  complete : ∀ d ∈ s.done, Complete d
  underway : s.pc.Underway
  seqNr : ∀ h, s.pc.current? = some h → h.pkt.seqNr = s.pktIn.seqNr

theorem recorded_start (hand : Handshake.State (Received P)) (stream : Bytes) :
    Recorded (start hand stream) where
  header := ⟨rfl, rfl, rfl, rfl⟩
  complete d hd := by cases hd
  underway := trivial
  seqNr h hc := by cases hc

theorem Recorded.finish {s t : State P} (h : Recorded s) (hheader : ReplyHeader t.pktOut)
    (hdone : t.done = s.done) {d : Handled} {discon : Bool}
    (hd : Complete { d with discon := discon }) : Recorded (t.finish d discon) where
  header := hheader
  complete e he := by
    rcases List.mem_append.mp he with he | he
    · exact h.complete e (hdone ▸ he)
    · exact List.mem_singleton.mp he ▸ hd
  underway := by cases discon <;> trivial
  seqNr h hc := by cases discon <;> cases hc

theorem Recorded.dispatch {s : State P} (h : Recorded s) : Recorded s.dispatch := by
  unfold State.dispatch
  dsimp only
  split
  · rename_i hneg
    split
    · rename_i hstop
      refine ⟨h.header, h.complete, ⟨hstop, rfl, rfl, rfl, rfl⟩, ?_⟩
      intro d hd
      cases hd
      rfl
    · rename_i hstop
      exact h.finish h.header rfl (.ignored hneg hstop rfl ⟨rfl, rfl, rfl⟩ rfl)
  · rename_i hneg
    refine ⟨h.header, h.complete, ⟨Int.not_lt.mp hneg, rfl, rfl, rfl, rfl⟩, ?_⟩
    intro d hd
    cases hd
    rfl

theorem Handled.after_replies (h : Handled) (e : ExecPc (Received P)) :
    (h.after e).replies = h.replies := by
  cases e <;> rfl

theorem Handled.after_result (h : Handled) (e : ExecPc (Received P)) :
    (h.after e).result = h.result := by
  cases e <;> rfl

theorem Recorded.executed {s : State P} {d : Handled} (h : Recorded s) (hpc : s.pc = .execMove d)
    (hand : Handshake.State (Received P)) (e : ExecPc (Received P)) :
    Recorded (s.executed hand (d.after e)) := by
  obtain ⟨hseq, hreplies, hresult⟩ : 0 ≤ d.pkt.seqNr.toInt ∧ d.replies = [⟨RI_RT_SUCC, 0⟩] ∧
      d.result = none := by
    have := h.underway
    rwa [hpc] at this
  have hin : d.pkt.seqNr = s.pktIn.seqNr := h.seqNr d (by rw [hpc]; rfl)
  rw [← d.after_pkt e] at hseq hin
  rw [← d.after_replies e] at hreplies
  rw [← d.after_result e] at hresult
  generalize d.after e = d' at hseq hreplies hresult hin
  unfold State.executed
  split
  · dsimp only
    split
    · rename_i hne
      refine ⟨h.header, h.complete, ⟨hseq, hreplies, _, hne, rfl⟩, ?_⟩
      intro d hd
      cases hd
      exact hin
    · rename_i hzero
      refine h.finish (t := { s with hand := hand }) h.header rfl
        (.moved hseq hreplies ?_ rfl)
      rw [not_not.mp hzero]
  · refine ⟨h.header, h.complete, ⟨hseq, hreplies, hresult⟩, ?_⟩
    intro d hd
    cases hd
    exact hin

theorem step_recorded {env : Env P} {s t : State P} {l : Label P} (h : Recorded s)
    (hs : step env s l = some t) : Recorded t := by
  have htrans := step_trans hs
  have hheader := htrans.replyHeader h.header
  have hunder : ∀ {pc : Pc}, s.pc = pc → pc.Underway := fun hpc => hpc ▸ h.underway
  have hret : ∀ {w : Written} {replyType : Word} {os : List WriteOutcome},
      w = answer env replyType os s.pktIn s.pktOut → (w.ret = 0 ↔ w.stat = 0) := by
    intro w replyType os hw
    rw [hw, answer_ret]
    omega
  cases htrans with
  | accept stream pc =>
    refine ⟨hheader, h.complete, trivial, ?_⟩
    intro d hd
    cases hd
  | arrive n => exact ⟨hheader, h.complete, h.underway, h.seqNr⟩
  | failed ahead read stat pkt chan pc =>
    refine ⟨hheader, h.complete, trivial, ?_⟩
    intro d hd
    cases hd
  | waits ahead read pkt chan pc =>
    refine ⟨hheader, h.complete, h.underway, ?_⟩
    intro d hd
    rw [show ({ s with pktIn := pkt, chan := chan } : State P).pc = .poll from pc] at hd
    cases hd
  | received ahead read stat pkt chan pc =>
    apply Recorded.dispatch (s := { s with pktIn := pkt, chan := chan })
    refine ⟨h.header, h.complete, h.underway, ?_⟩
    intro d hd
    rw [show ({ s with pktIn := pkt, chan := chan } : State P).pc = .poll from pc] at hd
    cases hd
  | cancel hd pc =>
    have hin := h.seqNr hd (by rw [pc]; rfl)
    have hstop : (Pc.cancel hd).Underway := hunder pc
    refine ⟨hheader, h.complete, hstop, ?_⟩
    intro d hd
    cases hd
    exact hin
  | stopAcked hd os w pc call ret =>
    obtain ⟨hseq, hreplies, hquiet⟩ := hunder pc
    have hstat := (hret call).mp ret
    refine h.finish (t := (s.wrote w).stopAcked) hheader rfl
      (.stopped hseq ?_ ⟨hquiet.result, hquiet.setPos, hquiet.raised⟩ rfl)
    simp [Handled.reply, hreplies, hstat]
  | ackFailed hd os w pc call ret =>
    have hstat : w.stat ≠ 0 := by
      intro h0
      exact ret ((hret call).mpr h0)
    obtain ⟨hseq, hreplies, hquiet⟩ : (hd.pkt.seqNr.toInt = RI_SEQ_STPRJ ∨
        0 ≤ hd.pkt.seqNr.toInt) ∧ hd.replies = [] ∧ hd.Quiet := by
      rcases pc with pc | pc
      · exact ⟨.inl (hunder pc).1, (hunder pc).2⟩
      · exact ⟨.inr (hunder pc).1, (hunder pc).2⟩
    refine h.finish (t := s.wrote w) hheader rfl
      (.unacked w.stat hseq ?_ hstat ⟨hquiet.result, hquiet.setPos, hquiet.raised⟩ rfl)
    simp [Handled.reply, hreplies]
  | called hd os w hand pc call ret next =>
    obtain ⟨hseq, hreplies, hquiet⟩ := hunder pc
    have hin := h.seqNr hd (by rw [pc]; rfl)
    refine ⟨hheader, h.complete, ⟨hseq, ?_, hquiet.result⟩, ?_⟩
    · simp [Handled.reply, hreplies, (hret call).mp ret]
    · intro d hd
      cases hd
      exact hin
  | nacked hd os w pc call =>
    obtain ⟨hseq, hreplies, r, hr, hresult⟩ := hunder pc
    have hleave : (w.ret ≠ MOVERR_OOR) = (w.stat.natAbs ≠ 1) := by
      rw [call, sendErr, answer_ret, MOVERR_OOR]
      exact propext (by omega)
    refine h.finish (t := s.wrote w) hheader rfl (.nacked r w.stat hseq ?_ hresult hr ?_)
    · simp [Handled.reply, hreplies]
    · exact decide_eq_decide.mpr (Iff.of_eq hleave)
  | exec hd out hand pc next => exact h.executed pc hand _
  | msm hand next =>
    rw [moved_eq]
    exact ⟨h.header, h.complete, h.underway, h.seqNr⟩
  | motionEnd => exact ⟨h.header, h.complete, h.underway, h.seqNr⟩

theorem run_recorded {env : Env P} {hand : Handshake.State (Received P)} {stream : Bytes}
    {ls : List (Label P)} {s : State P}
    (hr : Lts.run (step env) (start hand stream) ls = some s) : Recorded s :=
  Lts.run_inv (fun _ _ _ => step_recorded) (recorded_start hand stream) hr

/-! ## Disconnects -/

/-- The relay stays connected after a point that was out of range and reported as such, and
leaves after any other failure. -/
def Handled.LeavesRightly (d : Handled) (r stat : Int) : Prop :=
  (r = MOVERR_OOR ∧ stat = 0 → d.discon = false) ∧
    (r ≠ MOVERR_OOR ∨ stat ≠ 0 → d.discon = true)

/-- **Disconnects after a negative reply.**  The relay does the right thing exactly when
`exec_move_` did not report a point out of range that the client was told about, and the
`WRITE`s of the negative reply did not end with status 1 or -1. -/
theorem run_disconnects_iff {env : Env P} {hand : Handshake.State (Received P)} {stream : Bytes}
    {ls : List (Label P)} {s : State P} (hr : Lts.run (step env) (start hand stream) ls = some s)
    {d : Handled} (hd : d ∈ s.done) {r : Int} (hresult : d.result = some r) (hne : r ≠ 0) :
    ∃ stat, d.replies = [⟨RI_RT_SUCC, 0⟩, ⟨RI_RT_FAIL, stat⟩] ∧
      (d.LeavesRightly r stat ↔ ¬ (r = MOVERR_OOR ∧ stat = 0) ∧ stat.natAbs ≠ 1) := by
  have hcomplete := (run_recorded hr).complete d hd
  cases hcomplete with
  | ignored _ _ _ quiet =>
    rw [quiet.result] at hresult
    cases hresult
  | stopped _ _ quiet =>
    rw [quiet.result] at hresult
    cases hresult
  | unacked _ _ _ _ quiet =>
    rw [quiet.result] at hresult
    cases hresult
  | moved _ _ result =>
    rw [result] at hresult
    cases hresult
    exact absurd rfl hne
  | nacked r' stat _ replies result _ leaves =>
    rw [result] at hresult
    cases hresult
    refine ⟨stat, replies, ?_⟩
    rw [Handled.LeavesRightly, leaves, decide_eq_false_iff_not, decide_eq_true_iff, not_not]
    omega

/-- A point whose position is out of range, and how the negative reply is written. -/
def rejected (nack : List WriteOutcome) : List (Label Word) :=
  [.arrive 60, .poll 0 .ok, .write [], .exec ⟨0, true, ⟨0, 0⟩, 0⟩, .exec ⟨0, false, ⟨0, 0⟩, 0⟩,
    .write nack]

/-- The relay with a client that sends a point. -/
def onePoint : State Word :=
  start (Handshake.init ⟨0, 0⟩ ⟨0, 0⟩ 0 0)
    (jointPacket .little RI_MT_JOINTP 1 (Vector.replicate 10 7))

/-- What has been done for the point. -/
def rejectedPoint (stat : Int) : Handled where
  pkt := { ipktReset with
    msgType := RI_MT_JOINTP
    commType := RI_CT_SVCREQ
    seqNr := 1
    jointData := Vector.replicate 10 7 }
  replies := [⟨RI_RT_SUCC, 0⟩, ⟨RI_RT_FAIL, stat⟩]
  result := some MOVERR_OOR
  setPos := false
  raised := false
  discon := true

theorem run_disconnects_iff_nackFailed :
    ∃ s, Lts.run (step plainEnv) onePoint (rejected [⟨5, 0⟩]) = some s ∧
      rejectedPoint (-5) ∈ s.done ∧
      ∃ stat, (rejectedPoint (-5)).replies = [⟨RI_RT_SUCC, 0⟩, ⟨RI_RT_FAIL, stat⟩] ∧
        ((rejectedPoint (-5)).LeavesRightly MOVERR_OOR stat ↔
          ¬ (MOVERR_OOR = MOVERR_OOR ∧ stat = 0) ∧ stat.natAbs ≠ 1) := by
  have hrun : ((Lts.run (step plainEnv) onePoint (rejected [⟨5, 0⟩])).map fun s => s.done) =
      some [rejectedPoint (-5)] := by decide +kernel
  obtain ⟨s, hs, hdone⟩ := Option.map_eq_some_iff.mp hrun
  have hd : rejectedPoint (-5) ∈ s.done := by
    rw [hdone]
    exact List.mem_singleton.mpr rfl
  exact ⟨s, hs, hd, run_disconnects_iff hs hd rfl (by decide)⟩

/-- The point is out of range, the client has been told, and the relay disconnects. -/
theorem outOfRange_disconnects :
    ∃ s, Lts.run (step plainEnv) onePoint (rejected []) = some s ∧ s.pc = .discon ∧
      s.done = [rejectedPoint 0] ∧ ¬ (rejectedPoint 0).LeavesRightly MOVERR_OOR 0 := by
  have hrun : ((Lts.run (step plainEnv) onePoint (rejected [])).map fun s => (s.pc, s.done)) =
      some (.discon, [rejectedPoint 0]) := by decide +kernel
  obtain ⟨s, hs, heq⟩ := Option.map_eq_some_iff.mp hrun
  obtain ⟨hpc, hdone⟩ := Prod.mk.inj heq
  exact ⟨s, hs, hpc, hdone, fun h => Bool.noConfusion (h.1 ⟨rfl, rfl⟩)⟩

/-! ## Replies -/

/-- One connection, on which every `WRITE` succeeds. -/
def AllWritten (_ : State P) : Label P → Prop
  | .accept _ => False
  | .write os => ∀ o ∈ replyWrites os, o.stat = 0
  | _ => True

instance decidableAllWritten (s : State P) : ∀ l, Decidable (AllWritten s l)
  | .accept _ => isFalse id
  | .write os => inferInstanceAs (Decidable (∀ o ∈ replyWrites os, o.stat = 0))
  | .arrive _ | .poll _ _ | .cancel | .exec _ | .msm | .motionEnd => isTrue trivial

/-- The replies to a packet, given what `exec_move_` returned for it. -/
def repliesTo (seqNr : Int) : Option Int → List Reply
  | none => if seqNr = RI_SEQ_STPRJ then [⟨RI_RT_SUCC, 0⟩] else []
  | some r => ⟨RI_RT_SUCC, 0⟩ :: if r ≠ 0 then [⟨RI_RT_FAIL, 0⟩] else []

/-- All replies in the order of the packets, each with the sequence number of its packet. -/
def State.replies (s : State P) : List (Word × Reply) :=
  s.handlings.flatMap fun d => d.replies.map fun r => (d.pkt.seqNr, r)

theorem replies_of_current {s : State P} {d : Handled} (hd : s.handlings = s.done ++ [d]) :
    s.replies = (s.done.flatMap fun d => d.replies.map fun r => (d.pkt.seqNr, r)) ++
      d.replies.map fun r => (d.pkt.seqNr, r) := by
  rw [State.replies, hd, List.flatMap_append, List.flatMap_singleton]

/-- The reply to the packet in progress is the last one. -/
theorem replies_reply {s t : State P} {d e : Handled} {replyType : Word} {w : Written}
    (hd : s.pc.current? = some d) (he : t.handlings = s.done ++ [e])
    (hpkt : e.pkt.seqNr = d.pkt.seqNr) (hreplies : e.replies = (d.reply replyType w).replies) :
    t.replies = s.replies ++ [(d.pkt.seqNr, ⟨replyType, w.stat⟩)] := by
  rw [replies_of_current (handlings_of_current hd), State.replies, he, List.flatMap_append,
    List.flatMap_singleton, hpkt, hreplies, Handled.reply, List.map_append, List.append_assoc]
  rfl

/-- A step sends nothing, or one reply to the packet in progress. -/
theorem Trans.replies {env : Env P} {s t : State P} {l : Label P} (hI : Recorded s)
    (h : Trans env s l t) :
    (t.replies = s.replies ∧ t.sent = s.sent) ∨
      ∃ os replyType w, l = .write os ∧ w = answer env replyType os s.pktIn s.pktOut ∧
        t.replies = s.replies ++ [(s.pktIn.seqNr, ⟨replyType, w.stat⟩)] ∧
        t.sent = s.sent ++ w.bytes := by
  have hcur : ∀ {pc : Pc} {d : Handled}, s.pc = pc → pc.current? = some d →
      s.pc.current? = some d := by
    intro pc d hpc hc
    rw [hpc, hc]
  cases h with
  | accept stream pc =>
    refine .inl ⟨?_, rfl⟩
    rw [State.replies, State.replies, State.handlings, State.handlings, pc]
    rfl
  | failed ahead read stat pkt chan pc =>
    refine .inl ⟨?_, rfl⟩
    rw [State.replies, State.replies, State.handlings, State.handlings, pc]
    rfl
  | received ahead read stat pkt chan pc =>
    have hnone : s.handlings = s.done := handlings_of_none (by rw [pc]; rfl)
    refine .inl ⟨?_, ?_⟩
    · rw [State.replies, State.replies, dispatch_handlings, hnone, List.flatMap_append]
      exact List.append_nil _
    · rw [dispatch_eq]
  | cancel d pc =>
    refine .inl ⟨?_, rfl⟩
    rw [State.replies, State.replies, handlings_of_current (hcur pc rfl)]
    rfl
  | stopAcked d os w pc call ret =>
    have hc := hcur pc rfl
    refine .inr ⟨os, RI_RT_SUCC, w, rfl, call, ?_, rfl⟩
    rw [← hI.seqNr d hc]
    exact replies_reply hc (finish_handlings _ _ _) rfl rfl
  | ackFailed d os w pc call ret =>
    have hc : s.pc.current? = some d := by
      rcases pc with pc | pc
      · exact hcur pc rfl
      · exact hcur pc rfl
    refine .inr ⟨os, RI_RT_SUCC, w, rfl, call, ?_, rfl⟩
    rw [← hI.seqNr d hc]
    exact replies_reply hc (finish_handlings _ _ _) rfl rfl
  | called d os w hand pc call ret next =>
    have hc := hcur pc rfl
    refine .inr ⟨os, RI_RT_SUCC, w, rfl, call, ?_, rfl⟩
    rw [← hI.seqNr d hc]
    exact replies_reply hc (handlings_of_current (h := d.reply RI_RT_SUCC w) rfl) rfl rfl
  | nacked d os w pc call =>
    have hc := hcur pc rfl
    refine .inr ⟨os, RI_RT_FAIL, w, rfl, call, ?_, rfl⟩
    rw [← hI.seqNr d hc]
    exact replies_reply hc (finish_handlings _ _ _) rfl rfl
  | exec d out hand pc next =>
    obtain ⟨result, discon, hexec⟩ := executed_handlings s hand (d.after s.hand.exec)
    refine .inl ⟨?_, ?_⟩
    · rw [replies_of_current (handlings_of_current (hcur pc rfl)), State.replies, hexec,
        List.flatMap_append, List.flatMap_singleton, d.after_replies, d.after_pkt]
    · rw [executed_eq]
  | msm hand next =>
    rw [moved_eq]
    exact .inl ⟨rfl, rfl⟩
  | _ => exact .inl ⟨rfl, rfl⟩

/-- Every reply has been written, and nothing else. -/
structure Replied (env : Env P) (s : State P) : Prop where
  recorded : Recorded s
  written : ∀ p ∈ s.replies, p.2.stat = 0
  sent : s.sent = s.replies.flatMap fun p => replyBytes env p.2.replyType p.1

theorem replied_start (env : Env P) (hand : Handshake.State (Received P)) (stream : Bytes) :
    Replied env (start hand stream) where
  recorded := recorded_start hand stream
  written p hp := by cases hp
  sent := rfl

theorem step_replied {env : Env P} {s t : State P} {l : Label P} (h : Replied env s)
    (hok : AllWritten s l) (hs : step env s l = some t) : Replied env t := by
  have hrecorded := step_recorded h.recorded hs
  obtain ⟨hreplies, hsent⟩ | ⟨os, replyType, w, rfl, rfl, hreplies, hsent⟩ :=
    (step_trans hs).replies h.recorded
  · refine ⟨hrecorded, hreplies ▸ h.written, ?_⟩
    rw [hreplies, hsent]
    exact h.sent
  · obtain ⟨-, hstat, hbytes⟩ := answer_spec env replyType os s.pktIn h.recorded.header
    have hzero : ioStatus (replyWrites os) = 0 := ioStatus_eq_zero.mpr hok
    refine ⟨hrecorded, ?_, ?_⟩
    · intro p hp
      rw [hreplies] at hp
      rcases List.mem_append.mp hp with hp | hp
      · exact h.written p hp
      · rw [List.mem_singleton.mp hp]
        exact hstat.trans (by rw [hzero]; rfl)
    · rw [hreplies, hsent, hbytes hzero, List.flatMap_append, List.flatMap_singleton, ← h.sent]

/-- The handling of a packet to which every reply was written. -/
theorem Complete.replies {d : Handled} (h : Complete d) (hw : ∀ r ∈ d.replies, r.stat = 0) :
    d.replies = repliesTo d.pkt.seqNr.toInt d.result ∧
      (d.result.isSome ↔ 0 ≤ d.pkt.seqNr.toInt) := by
  cases h with
  | ignored seqNr other replies quiet =>
    rw [replies, quiet.result, repliesTo, if_neg other]
    exact ⟨rfl, by simp [seqNr]⟩
  | stopped seqNr replies quiet =>
    rw [replies, quiet.result, repliesTo, if_pos seqNr, seqNr]
    exact ⟨rfl, by decide⟩
  | unacked stat _ replies fails =>
    exact absurd (hw ⟨RI_RT_SUCC, stat⟩ (by rw [replies]; simp)) fails
  | moved seqNr replies result =>
    rw [replies, result]
    exact ⟨rfl, by simp [seqNr]⟩
  | nacked r stat seqNr replies result fails =>
    have hstat : stat = 0 := hw ⟨RI_RT_FAIL, stat⟩ (by rw [replies]; simp)
    rw [replies, result, repliesTo, if_pos fails, hstat]
    exact ⟨rfl, by simp [seqNr]⟩

/-- **Replies.**  On a connection on which every `WRITE` succeeds, the packets handled are the
first packets of the stream; a stop and a point that was moved to have one positive reply, a
point that was not has a negative one behind it, and the other special packets have none; while
`exec_move_` is at work, and until its failure has been reported, the positive reply is out; and
the bytes sent are those of the replies in the order of the packets, each with the sequence
number of its packet. -/
theorem run_replies {env : Env P} {hand : Handshake.State (Received P)} {stream : Bytes}
    {ls : List (Label P)} {s : State P}
    (hw : Lts.Along (step env) AllWritten (start hand stream) ls)
    (hr : Lts.run (step env) (start hand stream) ls = some s) :
    s.received = packets env.byteOrder s.received.length ipktReset stream ∧
      (∀ d ∈ s.done, d.replies = repliesTo d.pkt.seqNr.toInt d.result ∧
        (d.result.isSome ↔ 0 ≤ d.pkt.seqNr.toInt)) ∧
      (∀ d, s.pc.current? = some d → d.replies = [] ∨ d.replies = [⟨RI_RT_SUCC, 0⟩]) ∧
      (∀ d, s.pc = .execMove d ∨ s.pc = .nack d → d.replies = [⟨RI_RT_SUCC, 0⟩]) ∧
      s.sent = s.replies.flatMap fun p => replyBytes env p.2.replyType p.1 := by
  have hone : Lts.Along (step env) OneConnection (start hand stream) ls := by
    apply hw.mono
    intro s l hl
    cases l with
    | accept => exact hl
    | _ => trivial
  have hI : Replied env s :=
    Lts.run_inv_along (fun _ _ _ h hok hs => step_replied h hok hs) (replied_start env hand stream)
      hw hr
  have hunder := hI.recorded.underway
  refine ⟨(run_onStream hone hr).received.symm, ?_, ?_, ?_, hI.sent⟩
  · intro d hd
    apply (hI.recorded.complete d hd).replies
    intro r hr
    apply hI.written (d.pkt.seqNr, r)
    apply List.mem_flatMap.mpr
    exact ⟨d, List.mem_append_left _ hd, List.mem_map.mpr ⟨r, hr, rfl⟩⟩
  · intro d hd
    cases hpc : s.pc with
    | poll | discon =>
      rw [hpc] at hd
      cases hd
    | cancel h | ackStop h | ackPoint h =>
      rw [hpc] at hd hunder
      cases hd
      exact .inl hunder.2.1
    | execMove h | nack h =>
      rw [hpc] at hd hunder
      cases hd
      exact .inr hunder.2.1
  · rintro d (hpc | hpc)
    · rw [hpc] at hunder
      exact hunder.2.1
    · rw [hpc] at hunder
      exact hunder.2.1

theorem run_replies_rejected :
    ∃ s, Lts.run (step plainEnv) onePoint (rejected []) = some s ∧
      s.done.map Handled.replies = [repliesTo 1 (some MOVERR_OOR)] ∧
      s.sent = s.replies.flatMap fun p => replyBytes plainEnv p.2.replyType p.1 := by
  have hrun : ((Lts.run (step plainEnv) onePoint (rejected [])).map fun s =>
      s.done.map Handled.replies) = some [repliesTo 1 (some MOVERR_OOR)] := by decide +kernel
  obtain ⟨s, hs, hreplies⟩ := Option.map_eq_some_iff.mp hrun
  have hw : Lts.Along (step plainEnv) AllWritten onePoint (rejected []) := by decide +kernel
  exact ⟨s, hs, hreplies, (run_replies hw hs).2.2.2.2⟩

/-- A point that is out of range has two replies, both with its sequence number. -/
theorem point_answered_twice :
    Lts.Along (step plainEnv) AllWritten onePoint (rejected []) ∧
      ∃ s, Lts.run (step plainEnv) onePoint (rejected []) = some s ∧
        s.received.map IndPkt.seqNr = [1] ∧
        s.replies = [(1, ⟨RI_RT_SUCC, 0⟩), (1, ⟨RI_RT_FAIL, 0⟩)] := by
  refine ⟨by decide +kernel, ?_⟩
  have hrun : ((Lts.run (step plainEnv) onePoint (rejected [])).map fun s =>
      (s.received.map IndPkt.seqNr, s.replies)) =
      some ([1], [(1, ⟨RI_RT_SUCC, 0⟩), (1, ⟨RI_RT_FAIL, 0⟩)]) := by decide +kernel
  obtain ⟨s, hs, heq⟩ := Option.map_eq_some_iff.mp hrun
  obtain ⟨hreceived, hreplies⟩ := Prod.mk.inj heq
  exact ⟨s, hs, hreceived, hreplies⟩

end TrajRelay

end FanucDriver
