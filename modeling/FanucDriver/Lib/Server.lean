import FanucDriver.Lib.Lts

/-!
# Servers of one client at a time

A program accepts a client, repeats an iteration on the connection until one fails, and accepts
the next client.  It is told to stop at any time, and then leaves both loops.  The iteration is a
parameter: from what it meets and the program's variables to an `Outcome`.

* `State`, `Label`, `step` — a connection that has ended moves from `conn` to `closed`; `Trans`,
  `step_trans` — every step is one of these.
* `after`, `output`, `Passes` — iterations one after the other.
* `Conn.Ran`, `Chained` — what a connection is, and connections one behind the other.
* `run_inv`, `run_loops`, `run_closed` — what every run keeps.  `Chained.forall` and
  `Chained.flatMap` get from there to single connections and to what they add up to.
-/

set_option autoImplicit false

namespace Server

variable {σ ε β γ : Type}

/-- What an iteration leaves: the variables, what it has sent, and whether the connection is to go
on. -/
structure Outcome (σ β : Type) where
  vars : σ
  sent : List β
  ok : Bool

/-- A connection: the variables when it was accepted, what its iterations met, what has been sent
on it, and whether an iteration has failed. -/
structure Conn (σ ε β : Type) where
  start : σ
  loops : List ε
  sent : List β
  failed : Bool

structure State (σ ε β : Type) where
  vars : σ
  conn : Option (Conn σ ε β)
  closed : List (Conn σ ε β)
  stopping : Bool

/-- In front of the main loop. -/
def State.init (v : σ) : State σ ε β := ⟨v, none, [], false⟩

inductive Label (ε : Type) where
  /-- a client is accepted, or accepting fails -/
  | accept (ok : Bool)
  /-- one iteration of the inner loop -/
  | loop (env : ε)
  /-- the request to stop -/
  | abort
  /-- the inner loop ends because of it -/
  | leave

/-- What an iteration of the inner loop is given. -/
def Label.env : Label ε → Option ε
  | .loop env => some env
  | _ => none

def State.disconnect (s : State σ ε β) (c : Conn σ ε β) : State σ ε β :=
  { s with conn := none, closed := s.closed ++ [c] }

/-- The connections of a run, the present one last. -/
def State.connections (s : State σ ε β) : List (Conn σ ε β) := s.closed ++ s.conn.toList

variable (iter : ε → σ → Outcome σ β)

/-- One iteration on the connection `c`. -/
def iterate (env : ε) (s : State σ ε β) (c : Conn σ ε β) : State σ ε β :=
  let r := iter env s.vars
  let s := { s with vars := r.vars }
  let c := { c with loops := c.loops ++ [env], sent := c.sent ++ r.sent }
  if r.ok then { s with conn := some c } else s.disconnect { c with failed := true }

def step (s : State σ ε β) : Label ε → Option (State σ ε β)
  | .accept ok =>
    if s.conn.isNone ∧ s.stopping = false then
      if ok then some { s with conn := some ⟨s.vars, [], [], false⟩ } else some s
    else none
  | .loop env =>
    match s.conn with
    | none => none
    | some c => if s.stopping then none else some (iterate iter env s c)
  | .abort => some { s with stopping := true }
  | .leave =>
    match s.conn with
    | none => none
    | some c => if s.stopping then some (s.disconnect c) else none

/-- The steps, each with what it requires. -/
inductive Trans (s : State σ ε β) : Label ε → State σ ε β → Prop
  | accept (conn : s.conn = none) :
      Trans s (.accept true) { s with conn := some ⟨s.vars, [], [], false⟩ }
  | refused (conn : s.conn = none) : Trans s (.accept false) s
  | loop (env : ε) (c : Conn σ ε β) (conn : s.conn = some c) :
      Trans s (.loop env) (iterate iter env s c)
  | abort : Trans s .abort { s with stopping := true }
  | leave (c : Conn σ ε β) (conn : s.conn = some c) : Trans s .leave (s.disconnect c)

variable {iter}

/-- **What a step can do.** -/
theorem step_trans {s t : State σ ε β} {l : Label ε} (h : step iter s l = some t) :
    Trans iter s l t := by
  cases l with
  | accept ok =>
    rw [step] at h
    split at h
    · rename_i hnone
      have hconn : s.conn = none := Option.isNone_iff_eq_none.mp hnone.1
      cases ok with
      | false =>
        cases h
        exact .refused hconn
      | true =>
        cases h
        exact .accept hconn
    · cases h
  | loop env =>
    rw [step] at h
    split at h
    · cases h
    · rename_i c hc
      split at h
      · cases h
      · cases h
        exact .loop env c hc
  | abort =>
    cases h
    exact .abort
  | leave =>
    rw [step] at h
    split at h
    · cases h
    · rename_i c hc
      split at h
      · cases h
        exact .leave c hc
      · cases h

/-! ## Iterations one after the other -/

/-- The variables behind them. -/
def after (iter : ε → σ → Outcome σ β) : σ → List ε → σ
  | v, [] => v
  | v, env :: envs => after iter (iter env v).vars envs

/-- What they send. -/
def output (iter : ε → σ → Outcome σ β) : σ → List ε → List β
  | _, [] => []
  | v, env :: envs => (iter env v).sent ++ output iter (iter env v).vars envs

/-- None of them fails. -/
def Passes (iter : ε → σ → Outcome σ β) : σ → List ε → Prop
  | _, [] => True
  | v, env :: envs => (iter env v).ok = true ∧ Passes iter (iter env v).vars envs

theorem after_append (v : σ) (envs envs' : List ε) :
    after iter v (envs ++ envs') = after iter (after iter v envs) envs' := by
  induction envs generalizing v with
  | nil => rfl
  | cons env envs ih => exact ih _

theorem output_append (v : σ) (envs envs' : List ε) :
    output iter v (envs ++ envs') =
      output iter v envs ++ output iter (after iter v envs) envs' := by
  induction envs generalizing v with
  | nil => rfl
  | cons env envs ih => rw [List.cons_append, output, ih, output, after, List.append_assoc]

theorem passes_append (v : σ) (envs envs' : List ε) :
    Passes iter v (envs ++ envs') ↔
      Passes iter v envs ∧ Passes iter (after iter v envs) envs' := by
  induction envs generalizing v with
  | nil => exact ⟨fun h => ⟨trivial, h⟩, And.right⟩
  | cons env envs ih => rw [List.cons_append, Passes, ih, Passes, after, and_assoc]

/-- What every iteration keeps. -/
theorem after_keeps {I : σ → Prop} (hI : ∀ env v, I v → I (iter env v).vars) {v : σ} (hv : I v)
    (envs : List ε) : I (after iter v envs) := by
  induction envs generalizing v with
  | nil => exact hv
  | cons env envs ih => exact ih (hI env v hv)

/-! ## Connections -/

/-- A connection has the output of its iterations, of which none but the last has failed. -/
structure Conn.Ran (iter : ε → σ → Outcome σ β) (c : Conn σ ε β) : Prop where
  sent : c.sent = output iter c.start c.loops
  whole : c.failed = false → Passes iter c.start c.loops
  broken : c.failed = true → ∃ envs env, c.loops = envs ++ [env] ∧ Passes iter c.start envs ∧
    (iter env (after iter c.start envs)).ok = false

/-- Connections one behind the other, with the variables in front of the first and behind the
last. -/
def Chained (iter : ε → σ → Outcome σ β) : σ → List (Conn σ ε β) → σ → Prop
  | v, [], v' => v' = v
  | v, c :: cs, v' => c.start = v ∧ c.Ran iter ∧ Chained iter (after iter v c.loops) cs v'

theorem chained_append {v v' : σ} {cs cs' : List (Conn σ ε β)} :
    Chained iter v (cs ++ cs') v' ↔ ∃ u, Chained iter v cs u ∧ Chained iter u cs' v' := by
  induction cs generalizing v with
  | nil =>
    constructor
    · intro h
      exact ⟨v, rfl, h⟩
    · rintro ⟨u, rfl, h⟩
      exact h
  | cons c cs ih =>
    rw [List.cons_append, Chained, ih]
    constructor
    · rintro ⟨hstart, hran, u, hu, hu'⟩
      exact ⟨u, ⟨hstart, hran, hu⟩, hu'⟩
    · rintro ⟨u, ⟨hstart, hran, hu⟩, hu'⟩
      exact ⟨hstart, hran, u, hu, hu'⟩

/-- One more connection, at the end. -/
theorem chained_concat {v v' : σ} {cs : List (Conn σ ε β)} {c : Conn σ ε β} :
    Chained iter v (cs ++ [c]) v' ↔
      Chained iter v cs c.start ∧ c.Ran iter ∧ v' = after iter c.start c.loops := by
  rw [chained_append]
  constructor
  · rintro ⟨u, hu, rfl, hran, hafter⟩
    exact ⟨hu, hran, hafter⟩
  · rintro ⟨hcs, hran, hafter⟩
    exact ⟨c.start, hcs, rfl, hran, hafter⟩

/-- What holds of the variables holds where each connection begins. -/
theorem Chained.forall {I : σ → Prop} (hI : ∀ env v, I v → I (iter env v).vars) {v v' : σ}
    {cs : List (Conn σ ε β)} (h : Chained iter v cs v') (hv : I v) :
    ∀ c ∈ cs, I c.start ∧ c.Ran iter := by
  induction cs generalizing v with
  | nil =>
    intro c hc
    cases hc
  | cons c cs ih =>
    obtain ⟨rfl, hran, hrest⟩ := h
    exact List.forall_mem_cons.mpr ⟨⟨hv, hran⟩, ih hrest (after_keeps hI hv c.loops)⟩

/-- What iterations add up to, they add up to over all connections. -/
theorem Chained.flatMap {g : σ → List ε → List γ} (hnil : ∀ v, g v [] = [])
    (happend : ∀ v envs envs', g v (envs ++ envs') = g v envs ++ g (after iter v envs) envs')
    {v v' : σ} {cs : List (Conn σ ε β)} (h : Chained iter v cs v') :
    (cs.flatMap fun c => g c.start c.loops) = g v (cs.flatMap Conn.loops) := by
  induction cs generalizing v with
  | nil => exact (hnil v).symm
  | cons c cs ih =>
    obtain ⟨rfl, -, hrest⟩ := h
    rw [List.flatMap_cons, List.flatMap_cons, happend, ih hrest]

/-- One more iteration on a connection. -/
theorem Conn.Ran.extend {c : Conn σ ε β} (h : c.Ran iter) (hok : c.failed = false) (env : ε) :
    Conn.Ran iter ⟨c.start, c.loops ++ [env],
      c.sent ++ (iter env (after iter c.start c.loops)).sent,
      !(iter env (after iter c.start c.loops)).ok⟩ := by
  refine ⟨?_, ?_, ?_⟩
  · rw [output_append, h.sent, output, output, List.append_nil]
  · intro hpass
    exact (passes_append _ _ _).mpr ⟨h.whole hok, by simpa using hpass, trivial⟩
  · intro hfail
    exact ⟨c.loops, env, rfl, h.whole hok, by simpa using hfail⟩

/-! ## Runs -/

/-- The invariant of runs that begin with the variables `v`. -/
structure Inv (iter : ε → σ → Outcome σ β) (v : σ) (s : State σ ε β) : Prop where
  chained : Chained iter v s.connections s.vars
  conn : ∀ c, s.conn = some c → c.failed = false

theorem init_inv (v : σ) : Inv iter v (State.init v) where
  chained := rfl
  conn := by
    intro c hc
    cases hc

/-- One iteration: the connection is the last one before and after. -/
theorem iterate_spec {v : σ} {s : State σ ε β} (hs : Inv iter v s) {c : Conn σ ε β}
    (hc : s.conn = some c) (env : ε) :
    ∃ c', c'.loops = c.loops ++ [env] ∧ (iterate iter env s c).connections = s.closed ++ [c'] ∧
      s.closed <+: (iterate iter env s c).closed ∧ Inv iter v (iterate iter env s c) := by
  have hconns : s.connections = s.closed ++ [c] := by
    rw [State.connections, hc]
    rfl
  have hchain := hs.chained
  rw [hconns, chained_concat] at hchain
  obtain ⟨hclosed, hran, hvars⟩ := hchain
  have hok := hs.conn c hc
  have hran' := hran.extend hok env
  rw [← hvars] at hran'
  have hvars' : (iter env s.vars).vars = after iter c.start (c.loops ++ [env]) := by
    rw [after_append, ← hvars]
    rfl
  cases hr : (iter env s.vars).ok with
  | true =>
    rw [hr] at hran'
    have hnext : iterate iter env s c = { s with
        vars := (iter env s.vars).vars
        conn := some ⟨c.start, c.loops ++ [env], c.sent ++ (iter env s.vars).sent, c.failed⟩ } := by
      rw [iterate, hr]
      rfl
    rw [hnext, hok]
    refine ⟨⟨c.start, c.loops ++ [env], c.sent ++ (iter env s.vars).sent, false⟩, rfl, rfl,
      List.prefix_rfl, chained_concat.mpr ⟨hclosed, hran', hvars'⟩, ?_⟩
    intro c₁ hc₁
    rw [← Option.some.inj hc₁]
  | false =>
    rw [hr] at hran'
    have hnext : iterate iter env s c = { s with
        vars := (iter env s.vars).vars
        conn := none
        closed := s.closed ++
          [⟨c.start, c.loops ++ [env], c.sent ++ (iter env s.vars).sent, true⟩] } := by
      rw [iterate, hr]
      rfl
    rw [hnext]
    refine ⟨⟨c.start, c.loops ++ [env], c.sent ++ (iter env s.vars).sent, true⟩, rfl,
      List.append_nil _, List.prefix_append _ _, ?_, ?_⟩
    · rw [State.connections, Option.toList_none, List.append_nil]
      exact chained_concat.mpr ⟨hclosed, hran', hvars'⟩
    · intro c₁ hc₁
      cases hc₁

/-- **Step lemma.** -/
theorem step_inv {v : σ} {s t : State σ ε β} {l : Label ε} (hs : Inv iter v s)
    (h : step iter s l = some t) : Inv iter v t := by
  cases step_trans h with
  | accept hconn =>
    have hchain := hs.chained
    rw [State.connections, hconn, Option.toList_none, List.append_nil] at hchain
    refine ⟨chained_concat.mpr ⟨hchain, ⟨rfl, fun _ => trivial, ?_⟩, rfl⟩, ?_⟩
    · intro hfail
      cases hfail
    · intro c hc
      rw [← Option.some.inj hc]
  | refused => exact hs
  | loop env c hc =>
    obtain ⟨-, -, -, -, hinv⟩ := iterate_spec hs hc env
    exact hinv
  | abort => exact ⟨hs.chained, hs.conn⟩
  | leave c hc =>
    refine ⟨?_, ?_⟩
    · have hchain := hs.chained
      rw [State.connections, hc] at hchain
      rw [State.connections, State.disconnect, Option.toList_none, List.append_nil]
      exact hchain
    · intro c₁ hc₁
      cases hc₁

theorem run_inv {v : σ} {s : State σ ε β} {ls : List (Label ε)}
    (h : Lts.run (step iter) (State.init v) ls = some s) : Inv iter v s :=
  Lts.run_inv (fun _ _ _ hu huv => step_inv hu huv) (init_inv v) h

/-- The iterations are shared out among the connections in their order. -/
theorem step_loops {v : σ} {s t : State σ ε β} {l : Label ε} (hs : Inv iter v s)
    (h : step iter s l = some t) :
    t.connections.flatMap Conn.loops = s.connections.flatMap Conn.loops ++ l.env.toList := by
  cases step_trans h with
  | accept hconn => simp [State.connections, hconn, Label.env]
  | refused | abort => exact (List.append_nil _).symm
  | loop env c hc =>
    obtain ⟨c', hloops, hconns, -, -⟩ := iterate_spec hs hc env
    have hconns₀ : s.connections = s.closed ++ [c] := by
      rw [State.connections, hc]
      rfl
    rw [hconns, hconns₀]
    simp [hloops, Label.env]
  | leave c hc => simp [State.connections, State.disconnect, hc, Label.env]

theorem run_loops {v : σ} {s : State σ ε β} {ls : List (Label ε)}
    (h : Lts.run (step iter) (State.init v) ls = some s) :
    s.connections.flatMap Conn.loops = ls.filterMap Label.env := by
  have hrun := Lts.run_hist
    (I := fun done u => Inv iter v u ∧ u.connections.flatMap Conn.loops = done.filterMap Label.env)
    (by
      rintro done u l v ⟨hu, hloops⟩ huv
      refine ⟨step_inv hu huv, ?_⟩
      rw [step_loops hu huv, hloops, List.filterMap_append]
      cases l <;> rfl)
    ⟨init_inv v, rfl⟩ h
  exact hrun.2

/-- A connection that has been left stays as it is. -/
theorem step_closed {v : σ} {s t : State σ ε β} {l : Label ε} (hs : Inv iter v s)
    (h : step iter s l = some t) : s.closed <+: t.closed := by
  cases step_trans h with
  | accept | refused | abort => exact List.prefix_rfl
  | loop env c hc =>
    obtain ⟨-, -, -, hclosed, -⟩ := iterate_spec hs hc env
    exact hclosed
  | leave => exact List.prefix_append _ _

theorem run_closed {v : σ} {s t : State σ ε β} {ls : List (Label ε)} (hs : Inv iter v s)
    (h : Lts.run (step iter) s ls = some t) : s.closed <+: t.closed := by
  have hrun := Lts.run_inv (I := fun u => Inv iter v u ∧ s.closed <+: u.closed)
    (fun u l w hu huw => ⟨step_inv hu.1 huw, hu.2.trans (step_closed hu.1 huw)⟩)
    ⟨hs, List.prefix_rfl⟩ h
  exact hrun.2

end Server
