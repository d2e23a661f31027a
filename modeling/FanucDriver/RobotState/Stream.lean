import FanucDriver.Lib.Cut
import FanucDriver.RobotState.Program

/-!
# What the robot state server sends

* `Frame`, `Frame.bytes` — the two kinds of frames; `frames` — those a connection is to carry,
  from the counter at its start and what the loop meets on it.
* `frameSize`, `Frame.sized` — cutting by the rule "length word, then that many bytes".
* `Frame.writes`, `outcomes` — the single `WRITE`s and how they end; `ipktSrlise_frame`,
  `irsTpcSrl_frame` — the serialisers in these terms.
* `Conn.Carries`, `carries_of_ran` — a connection is one sequence of `WRITE`s up to the first
  failure.
* `Conn.Framed`, `run_framed` — what that is when it is cut by the length words.
-/

set_option autoImplicit false

namespace FanucDriver

open Wire

namespace RobotState

/-- A joint position with its readings, or a status as `irs_update` left it. -/
inductive Frame where
  | joints (v : Vector Word 10)
  | status (s : IndRs)
  deriving DecidableEq

/-- The words of a frame. -/
def Frame.words : Frame → List Word
  | .joints v => [56, RI_MT_JOINTP, RI_CT_TOPIC, RI_RT_INVAL, 0] ++ v.toList
  | .status s => [40, RI_MT_STATUS, RI_CT_TOPIC, RI_RT_INVAL] ++
    [s.drvPwd, s.eStopped, s.errorCode, s.inError, s.inMotion, s.mode, s.mtnPsble]

def Frame.bytes (o : ByteOrder) (f : Frame) : Bytes := encodeAll o f.words

/-- 60 bytes for a joint position, 44 for a status. -/
def Frame.size : Frame → Nat
  | .joints _ => 60
  | .status _ => 44

@[simp] theorem Frame.bytes_length (o : ByteOrder) (f : Frame) :
    (f.bytes o).length = f.size := by
  cases f <;> simp [bytes, words, size]

/-- The frames of a connection: the joint positions in the order of the loop, and behind every
one at which the counter has reached the divider the status of that iteration. -/
def frames (sloopDiv : Int) : Int → List LoopEnv → List Frame
  | _, [] => []
  | count, env :: envs =>
    if sloopDiv ≤ count then
      .joints env.joints :: .status (irsUpdate env.controller) :: frames sloopDiv 0 envs
    else .joints env.joints :: frames sloopDiv (count + 1) envs

/-- The counter behind them. -/
def countAfter (sloopDiv : Int) : Int → List LoopEnv → Int
  | count, [] => count
  | count, _ :: envs =>
    if sloopDiv ≤ count then countAfter sloopDiv 0 envs else countAfter sloopDiv (count + 1) envs

theorem frames_append (d : Int) (count : Int) (envs envs' : List LoopEnv) :
    frames d count (envs ++ envs') =
      frames d count envs ++ frames d (countAfter d count envs) envs' := by
  induction envs generalizing count with
  | nil => rfl
  | cons e envs ih =>
    rw [List.cons_append, frames, frames, countAfter]
    split
    · rw [ih]
      rfl
    · rw [ih]
      rfl

theorem countAfter_append (d : Int) (count : Int) (envs envs' : List LoopEnv) :
    countAfter d count (envs ++ envs') = countAfter d (countAfter d count envs) envs' := by
  induction envs generalizing count with
  | nil => rfl
  | cons e envs ih =>
    simp only [List.cons_append, countAfter.eq_2 d count e]
    split
    · exact ih 0
    · exact ih (count + 1)

/-! ## Cutting by the length word -/

/-- A length word, then that many bytes. -/
def frameSize (o : ByteOrder) (bs : Bytes) : Option Nat :=
  if 4 ≤ bs.length then some (4 + (decode o bs).toNat) else none

/-- A frame's first word is the size of the rest. -/
theorem Frame.words_head (f : Frame) : ∃ ws, f.words = BitVec.ofNat 32 (f.size - 4) :: ws := by
  cases f with
  | joints v => exact ⟨_, rfl⟩
  | status s => exact ⟨_, rfl⟩

theorem Frame.decode_bytes (o : ByteOrder) (f : Frame) (r : Bytes) :
    4 + (decode o (f.bytes o ++ r)).toNat = f.size := by
  obtain ⟨ws, hws⟩ := f.words_head
  rw [bytes, hws, encodeAll_cons, List.append_assoc, decode_encode_append]
  cases f <;> rfl

theorem Frame.four_le_size (f : Frame) : 4 ≤ f.size := by
  cases f <;> simp [size]

theorem Frame.sized (o : ByteOrder) (f : Frame) : Cut.Sized (frameSize o) (f.bytes o) where
  pos := by
    have := f.four_le_size
    rw [bytes_length]
    omega
  whole := by
    intro r
    have := f.four_le_size
    rw [frameSize, if_pos (by rw [List.length_append, bytes_length]; omega), decode_bytes,
      bytes_length]
  part := by
    rintro p ⟨q, hq⟩
    by_cases h4 : 4 ≤ p.length
    · right
      have hdecode := f.decode_bytes o []
      rw [List.append_nil, ← hq, decode_append o h4] at hdecode
      rw [frameSize, if_pos h4, hdecode, bytes_length]
    · left
      rw [frameSize, if_neg h4]

/-! ## The serialisers -/

/-- The `WRITE`s of a frame: a joint position word by word and a `CR`, a status in two pieces. -/
def Frame.writes (o : ByteOrder) : Frame → List Bytes
  | .joints v => (Frame.joints v).words.map (encode o) ++ [crBytes false]
  | .status s =>
    [encodeAll o [40, RI_MT_STATUS, RI_CT_TOPIC, RI_RT_INVAL],
      encodeAll o s.words ++ crBytes false]

theorem Frame.writes_flatten (o : ByteOrder) (f : Frame) : (f.writes o).flatten = f.bytes o := by
  cases f with
  | joints v => simp [writes, crBytes, bytes, encodeAll, List.flatMap_def]
  | status s => simp [writes, crBytes, bytes, words, IndRs.words, encodeAll]

/-- The joint packet's fields that are set once. -/
structure JointHeader (p : IndPkt) : Prop where
  length : p.length = 56
  msgType : p.msgType = RI_MT_JOINTP
  commType : p.commType = RI_CT_TOPIC
  replyType : p.replyType = RI_RT_INVAL
  seqNr : p.seqNr = 0

/-- `ipkt_srlise` writes the joint frame. -/
theorem ipktSrlise_frame (o : ByteOrder) (os : List WriteOutcome) {p : IndPkt} (hp : JointHeader p)
    (v : Vector Word 10) :
    ipktSrlise o false os { p with jointData := v } =
      ({ p with jointData := v }, (writeSeq os ((Frame.joints v).writes o)).1,
        -(writeSeq os ((Frame.joints v).writes o)).2) := by
  have htype : ¬ p.msgType = RI_MT_JTRAJP := by
    rw [hp.msgType]
    decide
  have hwords : ({ p with jointData := v } : IndPkt).words = (Frame.joints v).words := by
    simp only [IndPkt.words, Frame.words, hp.length, hp.msgType, hp.commType, hp.replyType,
      hp.seqNr]
  simp only [ipktSrlise, if_neg htype, hwords, List.append_nil, Frame.writes]

/-- `irs_tpc_srl` writes the status frame. -/
theorem irsTpcSrl_frame (o : ByteOrder) (os : List WriteOutcome) (s : IndRs) :
    (irsTpcSrl o false os s).2.1 = (writeSeq os ((Frame.status s).writes o)).1 ∧
      ((irsTpcSrl o false os s).2.2 = 0 ↔ (writeSeq os ((Frame.status s).writes o)).2 = 0) := by
  have h40 : BitVec.ofNat 32 RS_SZ_TOPIC = (40 : Word) := rfl
  have hlen : ¬ (40 : Word).toInt < RI_SZ_HDR := by decide
  simp only [irsTpcSrl, ihdrSrlise, if_neg hlen, IndHdr.words, IndRs.words_header, h40,
    Frame.writes]
  generalize encodeAll o [40, RI_MT_STATUS, RI_CT_TOPIC, RI_RT_INVAL] = hdr
  generalize encodeAll o s.words ++ crBytes false = body
  cases os with
  | nil => simp [writeSeq]
  | cons w os =>
    simp only [writeSeq, List.drop_one, List.tail_cons]
    by_cases hw : w.stat = 0
    · simp [hw]
    · simp [hw]

/-! ## A connection -/

/-- The `WRITE`s of a list of frames. -/
def writes (o : ByteOrder) (fs : List Frame) : List Bytes := fs.flatMap (Frame.writes o)

@[simp] theorem writes_append (o : ByteOrder) (fs gs : List Frame) :
    writes o (fs ++ gs) = writes o fs ++ writes o gs := List.flatMap_append

theorem writes_flatten (o : ByteOrder) (fs : List Frame) :
    (writes o fs).flatten = (fs.map (Frame.bytes o)).flatten := by
  induction fs with
  | nil => rfl
  | cons f fs ih =>
    rw [writes, List.flatMap_cons, List.flatten_append, Frame.writes_flatten, List.map_cons,
      List.flatten_cons, ← ih]
    rfl

/-- How the `WRITE`s of `frames` end. -/
def outcomes (o : ByteOrder) (sloopDiv : Int) : Int → List LoopEnv → List WriteOutcome
  | _, [] => []
  | count, env :: envs =>
    if sloopDiv ≤ count then
      ended env.jntWrite ((Frame.joints env.joints).writes o) ++
        (ended env.rsWrite ((Frame.status (irsUpdate env.controller)).writes o) ++
          outcomes o sloopDiv 0 envs)
    else
      ended env.jntWrite ((Frame.joints env.joints).writes o) ++ outcomes o sloopDiv (count + 1) envs

theorem outcomes_append (o : ByteOrder) (d : Int) (count : Int) (envs envs' : List LoopEnv) :
    outcomes o d count (envs ++ envs') =
      outcomes o d count envs ++ outcomes o d (countAfter d count envs) envs' := by
  induction envs generalizing count with
  | nil => rfl
  | cons e envs ih =>
    rw [List.cons_append, outcomes, outcomes, countAfter]
    split
    · rw [ih, List.append_assoc, List.append_assoc]
    · rw [ih, List.append_assoc]

theorem outcomes_length (o : ByteOrder) (d : Int) (count : Int) (envs : List LoopEnv) :
    (outcomes o d count envs).length = (writes o (frames d count envs)).length := by
  induction envs generalizing count with
  | nil => rfl
  | cons e envs ih =>
    rw [outcomes, frames]
    split
    · simp [ih, writes]
    · simp [ih, writes]

/-- The writes of one iteration: the joint position, then the status if it is due. -/
theorem writeSeq_iteration (o : ByteOrder) (d count : Int) (env : LoopEnv) :
    writeSeq (outcomes o d count [env]) (writes o (frames d count [env])) =
      if (writeSeq env.jntWrite ((Frame.joints env.joints).writes o)).2 = 0 ∧ d ≤ count then
        ((writeSeq env.jntWrite ((Frame.joints env.joints).writes o)).1 ++
            (writeSeq env.rsWrite ((Frame.status (irsUpdate env.controller)).writes o)).1,
          (writeSeq env.rsWrite ((Frame.status (irsUpdate env.controller)).writes o)).2)
      else writeSeq env.jntWrite ((Frame.joints env.joints).writes o) := by
  rw [outcomes, frames]
  by_cases hd : d ≤ count
  · rw [if_pos hd, if_pos hd, outcomes, frames, List.append_nil]
    simp only [writes, List.flatMap_cons, List.flatMap_nil, List.append_nil, hd, and_true]
    rw [writeSeq_append (ended_length _ _), writeSeq_ended, writeSeq_ended]
  · rw [if_neg hd, if_neg hd, outcomes, frames, List.append_nil]
    simp only [writes, List.flatMap_cons, List.flatMap_nil, List.append_nil, hd, and_false,
      if_false]
    exact writeSeq_ended _ _

/-- **One iteration**: what it sends, whether it fails, and the counter. -/
theorem iterate_spec (o : ByteOrder) (d : Int) (env : LoopEnv) {v : RosVars}
    (hv : JointHeader v.jntPktOut) :
    (iterate o d env v).sent = (writeSeq (outcomes o d v.statCount [env])
      (writes o (frames d v.statCount [env]))).1 ∧
    ((iterate o d env v).ok = true ↔ (writeSeq (outcomes o d v.statCount [env])
      (writes o (frames d v.statCount [env]))).2 = 0) ∧
    JointHeader (iterate o d env v).vars.jntPktOut ∧
    ((iterate o d env v).ok = true →
      (iterate o d env v).vars.statCount = countAfter d v.statCount [env]) := by
  obtain ⟨hsent, hstat⟩ := irsTpcSrl_frame o env.rsWrite (irsUpdate env.controller)
  rw [writeSeq_iteration]
  simp only [iterate, ipktSrlise_frame o env.jntWrite hv env.joints, ne_eq, Int.neg_eq_zero,
    hstat, hsent, countAfter]
  generalize writeSeq env.jntWrite ((Frame.joints env.joints).writes o) = j
  generalize writeSeq env.rsWrite ((Frame.status (irsUpdate env.controller)).writes o) = r
  have hjnt : JointHeader { v.jntPktOut with jointData := env.joints } :=
    ⟨hv.length, hv.msgType, hv.commType, hv.replyType, hv.seqNr⟩
  by_cases hj : j.2 = 0
  · by_cases hd : d ≤ v.statCount
    · by_cases hr : r.2 = 0
      · simp [hj, hd, hr, hjnt]
      · simp [hj, hd, hr, hjnt]
    · simp [hj, hd, hjnt]
  · simp [hj, hjnt]

theorem iterate_header (o : ByteOrder) (d : Int) (env : LoopEnv) (v : RosVars)
    (hv : JointHeader v.jntPktOut) : JointHeader (iterate o d env v).vars.jntPktOut :=
  (iterate_spec o d env hv).2.2.1

/-- Iterations that do not fail: their `WRITE`s all succeed, and the counter. -/
theorem output_of_passes (o : ByteOrder) (d : Int) {v : RosVars} (hv : JointHeader v.jntPktOut)
    {envs : List LoopEnv} (h : Server.Passes (iterate o d) v envs) :
    writeSeq (outcomes o d v.statCount envs) (writes o (frames d v.statCount envs)) =
        (Server.output (iterate o d) v envs, 0) ∧
      (Server.after (iterate o d) v envs).statCount = countAfter d v.statCount envs := by
  induction envs generalizing v with
  | nil => exact ⟨rfl, rfl⟩
  | cons env envs ih =>
    obtain ⟨hok, hrest⟩ := h
    obtain ⟨hsent, hstat, hheader, hcount⟩ := iterate_spec o d env hv
    obtain ⟨hwrites, hafter⟩ := ih hheader hrest
    have hfirst := hcount hok
    rw [hfirst] at hwrites hafter
    have hsplit := writeSeq_append (outcomes_length o d v.statCount [env])
      (outcomes o d (countAfter d v.statCount [env]) envs)
      (writes o (frames d (countAfter d v.statCount [env]) envs))
    rw [if_pos (hstat.mp hok), hwrites, ← hsent, ← writes_append, ← frames_append,
      ← outcomes_append] at hsplit
    exact ⟨hsplit, hafter.trans (countAfter_append d v.statCount [env] envs).symm⟩

/-- A connection carries its frames up to the first `WRITE` that fails. -/
structure Conn.Carries (o : ByteOrder) (d : Int) (c : Conn) : Prop where
  sent : c.sent = (writeSeq (outcomes o d c.start.statCount c.loops)
    (writes o (frames d c.start.statCount c.loops))).1
  failed : c.failed = false ↔ (writeSeq (outcomes o d c.start.statCount c.loops)
    (writes o (frames d c.start.statCount c.loops))).2 = 0

theorem carries_of_ran (o : ByteOrder) (d : Int) {c : Conn} (hv : JointHeader c.start.jntPktOut)
    (hc : Server.Conn.Ran (iterate o d) c) : Conn.Carries o d c := by
  cases hfail : c.failed with
  | false =>
    obtain ⟨hwrites, -⟩ := output_of_passes o d hv (hc.whole hfail)
    refine ⟨by rw [hwrites, hc.sent], ?_⟩
    rw [hwrites]
    exact iff_of_true hfail rfl
  | true =>
    obtain ⟨envs, env, hloops, hpass, hbroken⟩ := hc.broken hfail
    obtain ⟨hwrites, hcount⟩ := output_of_passes o d hv hpass
    have hheader : JointHeader (Server.after (iterate o d) c.start envs).jntPktOut :=
      Server.after_keeps (I := fun v : RosVars => JointHeader v.jntPktOut) (iterate_header o d)
        hv envs
    obtain ⟨hsent, hstat, -, -⟩ := iterate_spec o d env hheader
    rw [hcount] at hsent hstat
    have hsplit := writeSeq_append (outcomes_length o d c.start.statCount envs)
      (outcomes o d (countAfter d c.start.statCount envs) [env])
      (writes o (frames d (countAfter d c.start.statCount envs) [env]))
    rw [hwrites, if_pos rfl, ← hsent, ← writes_append, ← frames_append, ← outcomes_append,
      ← hloops] at hsplit
    have hout : c.sent = Server.output (iterate o d) c.start envs ++
        (iterate o d env (Server.after (iterate o d) c.start envs)).sent := by
      rw [hc.sent, hloops, Server.output_append, Server.output, Server.output, List.append_nil]
    have hne : (writeSeq (outcomes o d (countAfter d c.start.statCount envs) [env])
        (writes o (frames d (countAfter d c.start.statCount envs) [env]))).2 ≠ 0 := by
      rw [ne_eq, ← hstat, hbroken]
      decide
    refine ⟨?_, ?_⟩
    · rw [hsplit, hout]
    · rw [hsplit]
      exact iff_of_false (by rw [hfail]; decide) hne

theorem run_carries {o : ByteOrder} {d : Int} {rs : IndRs} {ls : List Label} {s : RosState}
    (h : Lts.run (step o d) (RosState.init rs) ls = some s) :
    ∀ c ∈ s.connections, Conn.Carries o d c := by
  have hinv := Server.run_inv h
  intro c hc
  obtain ⟨hheader, hran⟩ := hinv.chained.forall (I := fun v : RosVars => JointHeader v.jntPktOut)
    (iterate_header o d) ⟨rfl, rfl, rfl, rfl, rfl⟩ c hc
  exact carries_of_ran o d hheader hran

/-- What has been sent on a connection, cut by the length words. -/
structure Conn.Framed (o : ByteOrder) (d : Int) (c : Conn) : Prop where
  /-- whole frames, and then at most a part of the next one -/
  cut : ∃ k t, Cut.cut (frameSize o) c.sent.length c.sent =
      (((frames d c.start.statCount c.loops).take k).map (Frame.bytes o), t) ∧
    (t = [] ∨ ∃ f, (frames d c.start.statCount c.loops)[k]? = some f ∧ Cut.Broken t (f.bytes o))
  /-- all of them, as long as no `WRITE` has failed -/
  whole : c.failed = false → Cut.cut (frameSize o) c.sent.length c.sent =
    ((frames d c.start.statCount c.loops).map (Frame.bytes o), [])
  /-- nothing behind a `WRITE` that has failed -/
  last : ∀ i w, (outcomes o d c.start.statCount c.loops)[i]? = some w → w.stat ≠ 0 →
    c.failed = true ∧
      c.sent <+: ((writes o (frames d c.start.statCount c.loops)).take (i + 1)).flatten

theorem Conn.Carries.framed {o : ByteOrder} {d : Int} {c : Conn} (hc : Conn.Carries o d c) :
    Conn.Framed o d c := by
  have hsized : ∀ b ∈ (frames d c.start.statCount c.loops).map (Frame.bytes o),
      Cut.Sized (frameSize o) b := by
    intro b hb
    obtain ⟨f, -, rfl⟩ := List.mem_map.mp hb
    exact f.sized o
  have hnil : frameSize o [] = none := rfl
  constructor
  · have hprefix :
        c.sent <+: ((frames d c.start.statCount c.loops).map (Frame.bytes o)).flatten := by
      rw [hc.sent, ← writes_flatten]
      exact writeSeq_begins _ _
    obtain ⟨k, t, -, hcut, -, ht⟩ := Cut.cut_prefix hnil hsized hprefix
    refine ⟨k, t, by rw [hcut, List.map_take], ht.imp_right ?_⟩
    rintro ⟨b, hb, hbroken⟩
    rw [List.getElem?_map, Option.map_eq_some_iff] at hb
    obtain ⟨f, hf, rfl⟩ := hb
    exact ⟨f, hf, hbroken⟩
  · intro hok
    have hsent : c.sent =
        ((frames d c.start.statCount c.loops).map (Frame.bytes o)).flatten ++ [] := by
      rw [hc.sent, writeSeq_stat_zero (hc.failed.mp hok), writes_flatten, List.append_nil]
    have hlen := Cut.length_le_flatten hsized
    rw [hsent]
    exact Cut.cut_flatten_append hsized (Cut.cut_nil hnil) (by rwa [List.append_nil])
  · intro i w hw hfail
    have hi : i < (writes o (frames d c.start.statCount c.loops)).length := by
      rw [← outcomes_length]
      exact (List.getElem?_eq_some_iff.mp hw).1
    obtain ⟨hstat, hsent⟩ := writeSeq_failed hi hw hfail
    rw [← hc.sent] at hsent
    exact ⟨by simpa using mt hc.failed.mp hstat, hsent⟩

/-- **Every connection of a run carries whole frames, and at most one broken one at its end.** -/
theorem run_framed (o : ByteOrder) (d : Int) (rs : IndRs) {ls : List Label} {s : RosState}
    (h : Lts.run (step o d) (RosState.init rs) ls = some s) :
    (∀ c ∈ s.connections, Conn.Framed o d c) ∧
      s.connections.flatMap Server.Conn.loops = ls.filterMap Server.Label.env ∧
      (∀ c, s.conn = some c → c.failed = false) ∧
      ∀ ls' t, Lts.run (step o d) s ls' = some t → s.closed <+: t.closed := by
  have hinv := Server.run_inv h
  exact ⟨fun c hc => (run_carries h c hc).framed, Server.run_loops h, hinv.conn,
    fun ls' t ht => Server.run_closed hinv ht⟩

/-- Two iterations; in the second the third `WRITE` fails after two bytes. -/
def brokenRun : List Label :=
  let c : Controller := ⟨true, 0, false, false, false, 0, true, false, false, true, true⟩
  [.accept true, .loop ⟨Vector.replicate 10 0, [], c, []⟩,
    .loop ⟨Vector.replicate 10 0, [.ok, .ok, ⟨67141, 2⟩], c, []⟩]

theorem run_framed_broken :
    ∃ s, Lts.run (step .big 0) (RosState.init irsReset) brokenRun = some s ∧
      s.connections.map (fun c => (c.failed, c.sent.length)) = [(true, 60 + 44 + 10)] ∧
      ∀ c ∈ s.connections, Conn.Framed .big 0 c :=
  ⟨_, rfl, by decide, (run_framed .big 0 irsReset
    (rfl : Lts.run (step .big 0) (RosState.init irsReset) brokenRun = some _)).1⟩

end RobotState

end FanucDriver
