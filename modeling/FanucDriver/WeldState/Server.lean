import FanucDriver.Lib.Server
import FanucDriver.WeldState.Frames
import Mathlib.Algebra.Group.Nat.Defs
import Mathlib.Data.List.Induction

/-!
# The welding state server (`ros_weld_state_reader.kl`)

The main loops, with a client that connects, reads nothing the program notices, and may go away
at any `WRITE`.

* `LoopEnv`, `iterate`, `step` — what one iteration of the inner loop meets and does, and the
  server of these iterations.  `seq_nr_` is the variable they change.
* `LoopEnv.passed` — the header of the message was written, so its number was used.
* `numbered` — the messages with a number; `Conn.Carries` — a connection carries whole ones, and
  then at most a part of one more.
* `run_numbered` — over all connections of a run the numbers are 1, 2, 3, ...
-/

set_option autoImplicit false

namespace FanucDriver

open Wire

namespace StateServer

/-- What one iteration of the inner loop meets: the I/O it reads, and how the `WRITE`s end. -/
structure LoopEnv where
  state : WeldStateT
  write : List WriteOutcome

/-- A connection. -/
abbrev Conn := Server.Conn Word LoopEnv UInt8

/-- The program, with `shutdwn_req_` for its `stopping`. -/
abbrev ServerState := Server.State Word LoopEnv UInt8

/-- `ssock_accpt2`, an iteration, the ABORT handler and `exit_discon`. -/
abbrev Label := Server.Label LoopEnv

/-- The program in front of its main loop. -/
def ServerState.init : ServerState := Server.State.init 0

/-- One iteration: from the I/O to `DELAY`, or to `ssock_dconn2`. -/
def iterate (o : ByteOrder) (cr : Bool) (env : LoopEnv) (seqNr : Word) :
    Server.Outcome Word UInt8 :=
  let r := iwdSrlise o cr env.write seqNr ⟨weldPktHdr, env.state⟩
  if r.2.1 ≠ 0 then ⟨r.2.2, r.1, false⟩ else ⟨r.2.2, r.1, true⟩

/-- The server. -/
def step (o : ByteOrder) (cr : Bool) : ServerState → Label → Option ServerState :=
  Server.step (iterate o cr)

/-! ## One message -/

/-- The four `WRITE`s of the header succeed. -/
def LoopEnv.passed (env : LoopEnv) : Bool := ioStatus (env.write.take 4) = 0

/-- What the serialiser sends is a beginning of the message, all of it when it reports success, and
the number is used when the header is out. -/
theorem iwdSrlise_spec (o : ByteOrder) (cr : Bool) (env : LoopEnv) (n : Word) :
    (iwdSrlise o cr env.write n ⟨weldPktHdr, env.state⟩).1 <+: stateFrame o cr (n + 1) env.state ∧
      ((iwdSrlise o cr env.write n ⟨weldPktHdr, env.state⟩).2.1 = 0 → env.passed = true ∧
        (iwdSrlise o cr env.write n ⟨weldPktHdr, env.state⟩).1 =
          stateFrame o cr (n + 1) env.state) ∧
      (iwdSrlise o cr env.write n ⟨weldPktHdr, env.state⟩).2.2 =
        if env.passed then n + 1 else n := by
  have hstat : (writeSeq env.write (weldPktHdr.words.map (encode o))).2 =
      ioStatus (env.write.take 4) := writeSeq_stat _ _
  have hhdr : (weldPktHdr.words.map (encode o)).flatten = encodeAll o weldPktHdr.words := by
    simp [encodeAll, List.flatMap_def]
  have hbody : (((n + 1) :: env.state.words).map (encode o) ++ [crBytes cr]).flatten =
      encodeAll o ((n + 1) :: env.state.words) ++ crBytes cr := by
    simp [encodeAll, List.flatMap_def]
  by_cases hpassed : ioStatus (env.write.take 4) = 0
  · have hp : env.passed = true := decide_eq_true hpassed
    have hsent := writeSeq_stat_zero (hstat.trans hpassed)
    simp only [iwdSrlise, hstat, hpassed, ne_eq, not_true_eq_false, if_false, hp, if_true, hsent,
      hhdr, stateFrame_eq]
    refine ⟨?_, fun h => ⟨trivial, ?_⟩, trivial⟩
    · rw [List.prefix_append_right_inj, ← hbody]
      exact writeSeq_begins _ _
    · rw [writeSeq_stat_zero (Int.neg_eq_zero.mp h), hbody]
  · have hp : env.passed = false := decide_eq_false hpassed
    simp only [iwdSrlise, hstat, hpassed, ne_eq, not_false_eq_true, if_true, hp, Bool.false_eq_true,
      if_false, stateFrame_eq]
    refine ⟨?_, fun h => absurd (Int.neg_eq_zero.mp h) hpassed, trivial⟩
    rw [← hhdr]
    exact (writeSeq_begins _ _).trans (List.prefix_append _ _)

/-- **One iteration**, in these terms. -/
theorem iterate_spec (o : ByteOrder) (cr : Bool) (env : LoopEnv) (n : Word) :
    (iterate o cr env n).sent <+: stateFrame o cr (n + 1) env.state ∧
      ((iterate o cr env n).ok = true → env.passed = true ∧
        (iterate o cr env n).sent = stateFrame o cr (n + 1) env.state) ∧
      (iterate o cr env n).vars = if env.passed then n + 1 else n := by
  obtain ⟨hbegins, hwhole, hseq⟩ := iwdSrlise_spec o cr env n
  rw [iterate]
  split
  · refine ⟨hbegins, ?_, hseq⟩
    intro hok
    cases hok
  · rename_i hstat
    exact ⟨hbegins, fun _ => hwhole (Decidable.not_not.mp hstat), hseq⟩

/-! ## A connection -/

/-- The messages with a number, from the number in front of the first one on. -/
def numbered : Word → List LoopEnv → List (Word × WeldStateT)
  | _, [] => []
  | n, env :: envs =>
    if env.passed then (n + 1, env.state) :: numbered (n + 1) envs else numbered n envs

/-- The number behind them. -/
def numberAfter (n : Word) (envs : List LoopEnv) : Word :=
  n + BitVec.ofNat 32 (envs.countP LoopEnv.passed)

theorem numberAfter_append (n : Word) (envs envs' : List LoopEnv) :
    numberAfter n (envs ++ envs') = numberAfter (numberAfter n envs) envs' := by
  rw [numberAfter, List.countP_append, BitVec.ofNat_add, ← BitVec.add_assoc]
  rfl

theorem numberAfter_singleton (n : Word) (env : LoopEnv) :
    numberAfter n [env] = if env.passed then n + 1 else n := by
  cases h : env.passed <;> simp [numberAfter, h]

theorem numbered_append (n : Word) (envs envs' : List LoopEnv) :
    numbered n (envs ++ envs') = numbered n envs ++ numbered (numberAfter n envs) envs' := by
  induction envs generalizing n with
  | nil => simp [numbered, numberAfter]
  | cons env envs ih =>
    have hnext := numberAfter_append n [env] envs
    rw [List.singleton_append, numberAfter_singleton] at hnext
    rw [List.cons_append, numbered, numbered, hnext]
    split
    · rw [ih, List.cons_append]
    · rw [ih]

/-- The messages with these numbers, as they are sent. -/
def messages (o : ByteOrder) (cr : Bool) (ms : List (Word × WeldStateT)) : Bytes :=
  (ms.map fun m => stateFrame o cr m.1 m.2).flatten

/-- A connection carries the messages of its iterations, whole ones with consecutive numbers, and
after a failed `WRITE` a part of one more. -/
structure Conn.Carries (o : ByteOrder) (cr : Bool) (c : Conn) : Prop where
  whole : c.failed = false → (∀ env ∈ c.loops, env.passed = true) ∧
    c.sent = messages o cr (numbered c.start c.loops)
  broken : c.failed = true → ∃ envs env part, c.loops = envs ++ [env] ∧
    (∀ env ∈ envs, env.passed = true) ∧
    c.sent = messages o cr (numbered c.start envs) ++ part ∧
    part <+: stateFrame o cr (numberAfter c.start envs + 1) env.state

theorem after_eq (o : ByteOrder) (cr : Bool) (n : Word) (envs : List LoopEnv) :
    Server.after (iterate o cr) n envs = numberAfter n envs := by
  induction envs generalizing n with
  | nil => exact (BitVec.add_zero n).symm
  | cons env envs ih =>
    rw [Server.after, ih, (iterate_spec o cr env n).2.2, ← numberAfter_singleton,
      ← numberAfter_append, List.singleton_append]

/-- Iterations that do not fail send their messages. -/
theorem output_of_passes (o : ByteOrder) (cr : Bool) {n : Word} {envs : List LoopEnv}
    (h : Server.Passes (iterate o cr) n envs) : (∀ env ∈ envs, env.passed = true) ∧
      Server.output (iterate o cr) n envs = messages o cr (numbered n envs) := by
  induction envs generalizing n with
  | nil => exact ⟨List.forall_mem_nil _, rfl⟩
  | cons env envs ih =>
    obtain ⟨hok, hrest⟩ := h
    obtain ⟨-, hwhole, hnext⟩ := iterate_spec o cr env n
    obtain ⟨hpassed, hsent⟩ := hwhole hok
    rw [hpassed, if_pos rfl] at hnext
    rw [hnext] at hrest
    obtain ⟨hpassed', hsent'⟩ := ih hrest
    refine ⟨List.forall_mem_cons.mpr ⟨hpassed, hpassed'⟩, ?_⟩
    rw [Server.output, hsent, hnext, hsent', numbered, if_pos hpassed]
    rfl

theorem carries_of_ran (o : ByteOrder) (cr : Bool) {c : Conn}
    (hc : Server.Conn.Ran (iterate o cr) c) : Conn.Carries o cr c where
  whole := by
    intro hok
    obtain ⟨hpassed, hsent⟩ := output_of_passes o cr (hc.whole hok)
    exact ⟨hpassed, hc.sent.trans hsent⟩
  broken := by
    intro hfail
    obtain ⟨envs, env, hloops, hpass, -⟩ := hc.broken hfail
    obtain ⟨hpassed, hsent⟩ := output_of_passes o cr hpass
    refine ⟨envs, env, (iterate o cr env (numberAfter c.start envs)).sent, hloops, hpassed, ?_,
      (iterate_spec o cr env _).1⟩
    rw [hc.sent, hloops, Server.output_append, hsent, after_eq, Server.output, Server.output,
      List.append_nil]

/-! ## Runs -/

theorem run_carries {o : ByteOrder} {cr : Bool} {ls : List Label} {s : ServerState}
    (h : Lts.run (step o cr) ServerState.init ls = some s) :
    ∀ c ∈ s.connections, Conn.Carries o cr c := by
  intro c hc
  obtain ⟨-, hran⟩ := (Server.run_inv h).chained.forall (I := fun _ => True)
    (fun _ _ _ => trivial) trivial c hc
  exact carries_of_ran o cr hran

/-- The numbers of a run count up. -/
theorem numbered_eq (n : Word) (envs : List LoopEnv) :
    numbered n envs = ((envs.filter LoopEnv.passed).map LoopEnv.state).zipIdx.map
      fun q => (n + BitVec.ofNat 32 (q.2 + 1), q.1) := by
  induction envs using List.reverseRecOn with
  | nil => rfl
  | append_singleton envs env ih =>
    rw [numbered_append, ih, List.filter_append, List.map_append, List.zipIdx_append,
      List.map_append]
    congr 1
    cases h : env.passed with
    | false => simp [numbered, h]
    | true =>
      simp only [numbered, h, if_true, List.filter_cons_of_pos, List.filter_nil, List.map_cons,
        List.map_nil, List.zipIdx_cons, List.zipIdx_nil, List.length_map, numberAfter,
        Nat.zero_add, BitVec.ofNat_add, BitVec.add_assoc, List.countP_eq_length_filter]
      rfl

/-- **Every number is used once, in order, over all connections** of a run, and a connection carries
the messages with its numbers and at most a part of one more. -/
theorem run_numbered (o : ByteOrder) (cr : Bool) {ls : List Label} {s : ServerState}
    (h : Lts.run (step o cr) ServerState.init ls = some s) :
    (∀ c ∈ s.connections, Conn.Carries o cr c) ∧
      s.connections.flatMap Server.Conn.loops = ls.filterMap Server.Label.env ∧
      s.connections.flatMap (fun c => numbered c.start c.loops) =
        (((ls.filterMap Server.Label.env).filter LoopEnv.passed).map LoopEnv.state).zipIdx.map
          (fun q => (BitVec.ofNat 32 (q.2 + 1), q.1)) ∧
      (ls.length < 2 ^ 32 →
        (s.connections.flatMap (fun c => numbered c.start c.loops)).Pairwise
          fun m m' => m.1 < m'.1) := by
  have hloops := Server.run_loops h
  have hnumbers := (Server.run_inv h).chained.flatMap (g := numbered) (fun _ => rfl)
    (fun n envs envs' => by rw [after_eq, numbered_append])
  have hzero : ∀ x : Word, 0 + x = x := fun x => BitVec.zero_add x
  rw [hloops, numbered_eq] at hnumbers
  simp only [hzero] at hnumbers
  refine ⟨run_carries h, hloops, hnumbers, ?_⟩
  intro hlen
  rw [hnumbers]
  have hle : (((ls.filterMap Server.Label.env).filter LoopEnv.passed).map
      LoopEnv.state).length < 2 ^ 32 := by
    rw [List.length_map]
    have hfilter := List.length_filter_le LoopEnv.passed (ls.filterMap Server.Label.env)
    have hlabels := List.length_filterMap_le Server.Label.env ls
    omega
  revert hle
  generalize ((ls.filterMap Server.Label.env).filter LoopEnv.passed).map LoopEnv.state = states
  intro hle
  rw [List.pairwise_map, List.pairwise_iff_getElem]
  intro i j hi hj hij
  simp only [List.length_zipIdx] at hi hj
  simp only [List.getElem_zipIdx, Nat.zero_add, BitVec.lt_def, BitVec.toNat_ofNat]
  rw [Nat.mod_eq_of_lt (by omega), Nat.mod_eq_of_lt (by omega)]
  omega

/-- Two connections: the second message of the first one is broken off behind its header. -/
def reconnectedRun : List Label :=
  let s : WeldStateT := ⟨true, false, true, 0, 3, 2000, 1500, 800, 120⟩
  [.accept true, .loop ⟨s, []⟩, .loop ⟨s, [.ok, .ok, .ok, .ok, ⟨67141, 2⟩]⟩, .accept true,
    .loop ⟨s, []⟩, .abort, .leave]

theorem run_numbered_reconnected :
    ∃ s, Lts.run (step .little true) ServerState.init reconnectedRun = some s ∧
      (∀ c ∈ s.connections, Conn.Carries .little true c) ∧
      (s.connections.flatMap (fun c => numbered c.start c.loops)).map Prod.fst = [1, 2, 3] ∧
      s.connections.map (fun c => c.sent.length) = [57 + 18, 57] := by
  have hsome : (Lts.run (step .little true) ServerState.init reconnectedRun).isSome = true := by
    decide
  obtain ⟨s, hs⟩ := Option.isSome_iff_exists.mp hsome
  obtain ⟨hcarries, -, hnumbers, -⟩ := run_numbered .little true hs
  refine ⟨s, hs, hcarries, by rw [hnumbers]; decide, ?_⟩
  have hlengths : (Lts.run (step .little true) ServerState.init reconnectedRun).map
      (fun s => s.connections.map fun c => c.sent.length) = some [57 + 18, 57] := by
    decide
  rw [hs] at hlengths
  exact Option.some.inj hlengths

end StateServer

end FanucDriver
