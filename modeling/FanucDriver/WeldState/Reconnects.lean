import FanucDriver.WeldState.Acceptance
import FanucDriver.WeldState.Server
import Mathlib.Data.List.Flatten
import Mathlib.Data.List.ReduceOption

/-!
# The welding state server and a receiver that reconnects

The server accepts one client after another and goes on counting; a receiver whose connection ends
obtains another one.  What a connection carries may break off at any byte, on either side.

* `Links` — an iteration of a receiver, wherever it stands; `Links.runFor_le` — its run, bounded by
  what the scans of its connections accept.  `TcpNode.links`, `SimpleNode.links`.
* `Conn.Carries.begins` — what a connection carries is the beginning of a list of frames.
* `run_publishes_le` — **at most one state is published for each iteration of the server**.
-/

set_option autoImplicit false

namespace FanucDriver

open Wire

namespace Node

/-- An iteration goes on in the stream and may accept a message, or it counts an error on the
way. -/
structure Links (iter : RunState → RunState) (Ok : Bytes → Prop) (m : Nat) : Prop where
  step : ∀ st, ∃ k, 16 ≤ k ∧
    (((iter st).attempts = st.attempts ∧ (iter st).sock.all = st.sock.all.drop k ∧
        ((iter st).published = st.published ∨ (Ok st.sock.all ∧ m ≤ k ∧ k ≤ st.sock.all.length ∧
          ∃ w, (iter st).published = st.published ++ [w]))) ∨
      ∃ c ks, c.all = st.sock.all.drop k ∧
        iter st = commError { st with sock := c, arrivals := ks })

/-- A bound for the scans of a stream. -/
def ScansBelow (Ok : Bytes → Prop) (m : Nat) (c : Channel) (bound : Nat) : Prop :=
  ∀ n, Framing.Scan Ok m 16 c.all n → n ≤ bound

/-- What counting an error can do. -/
inductive CommError (st : RunState) : RunState → Prop
  | counted {st' : RunState} (sock : st'.sock = st.sock) (attempts : st'.attempts = st.attempts) :
      CommError st st'
  | reconnected {st' : RunState} {c : Channel} {rest : List (Option Channel)}
      (attempts : st.attempts = some c :: rest) (sock' : st'.sock = c)
      (attempts' : st'.attempts = rest) : CommError st st'
  | exited {st' : RunState} (status : st'.status ≠ .running) : CommError st st'

theorem commError_cases (st : RunState) :
    (commError st).published = st.published ∧ CommError st (commError st) := by
  unfold commError
  dsimp only
  split
  · split
    · rename_i c rest hatt
      exact ⟨rfl, .reconnected hatt rfl rfl⟩
    · exact ⟨rfl, .exited (by simp)⟩
    · exact ⟨rfl, .exited (by simp)⟩
  · exact ⟨rfl, .counted rfl rfl⟩

variable {iter : RunState → RunState} {Ok : Bytes → Prop} {m : Nat}

/-- **A run over several connections** publishes what a scan of the present one accepts, and no
more than the bounds of the later ones. -/
theorem Links.runFor_le (h : Links iter Ok m) (n : Nat) {st : RunState} {bounds : List Nat}
    (hlater : List.Forall₂ (ScansBelow Ok m) st.attempts.reduceOption bounds) :
    ∃ count, Framing.Scan Ok m 16 st.sock.all count ∧
      (runFor iter n st).published.length ≤ st.published.length + count + bounds.sum := by
  induction n generalizing st bounds with
  | zero => exact ⟨0, .stop _, by rw [runFor]; omega⟩
  | succ n ih =>
    rw [runFor]
    split
    · obtain ⟨k, h16, ⟨hatt, hk, hpub⟩ | ⟨c, ks, hc, heq⟩⟩ := h.step st
      · rw [← hatt] at hlater
        obtain ⟨count, hscan, hle⟩ := ih hlater
        rw [hk] at hscan
        rcases hpub with hpub | ⟨hok, hsize, hlen, w, hpub⟩
        · exact ⟨count, .skip h16 hscan, by rwa [hpub] at hle⟩
        · refine ⟨count + 1, .accept hok hsize hlen hscan, ?_⟩
          rw [hpub, List.length_append, List.length_singleton] at hle
          omega
      · obtain ⟨hpub, hcases⟩ := commError_cases { st with sock := c, arrivals := ks }
        rw [← heq] at hpub hcases
        rw [← hpub]
        cases hcases with
        | counted hsock hatt =>
          rw [show st.attempts = _ from hatt.symm] at hlater
          obtain ⟨count, hscan, hle⟩ := ih hlater
          rw [hsock, hc] at hscan
          exact ⟨count, .skip h16 hscan, hle⟩
        | reconnected hatt hsock hatt' =>
          rw [show st.attempts = _ from hatt, List.reduceOption_cons_of_some] at hlater
          cases hlater with
          | cons hfirst hrest =>
            rw [← hatt'] at hrest
            obtain ⟨count, hscan, hle⟩ := ih hrest
            rw [hsock] at hscan
            have hcount := hfirst count hscan
            refine ⟨0, .stop _, ?_⟩
            rw [List.sum_cons]
            omega
        | exited hstatus =>
          rw [runFor_stopped iter n hstatus]
          exact ⟨0, .stop _, by omega⟩
    · exact ⟨0, .stop _, by omega⟩

end Node

open Node

theorem TcpNode.links (o : ByteOrder) (d : Bool) :
    Links (TcpNode.iter (TcpNode.launchDump o d)) (LooksLike o) 52 where
  step st := by
    have hlooks : (TcpNode.iter (TcpNode.launchDump o d) st).published ≠ st.published →
        LooksLike o st.sock.all := TcpNode.iter_looksLike o d
    unfold TcpNode.iter at hlooks ⊢
    split
    · rename_i sock hread
      obtain ⟨hshort, hsock⟩ := Channel.readExact_none hread
      have hdrop : st.sock.all.drop 16 = [] := List.drop_of_length_le (by omega)
      exact ⟨16, le_rfl, .inr ⟨sock, st.arrivals, hsock.trans hdrop.symm, rfl⟩⟩
    · rename_i hdr sock hread
      obtain ⟨hlen, -, rfl⟩ := Channel.readExact_some hread
      simp only [hread] at hlooks
      obtain ⟨hatt, k, hk, hpub⟩ :=
        TcpNode.handle_spec (TcpNode.launchDump o d) hdr { st with sock := st.sock.consume 16 }
      simp only [Channel.all_consume, List.drop_drop] at hk hpub
      refine ⟨16 + k, Nat.le_add_right _ _, .inl ⟨hatt, hk, hpub.imp id ?_⟩⟩
      rintro ⟨-, hsize, hle, w, hw⟩
      rw [List.length_drop] at hle
      refine ⟨hlooks (by simp [hw]), Nat.add_le_add_left hsize 16, by omega, w, hw⟩

theorem SimpleNode.links (o : ByteOrder) (freed : SimpleNode.Freed) :
    Links (SimpleNode.iter (SimpleNode.launch o) freed) (LooksLike o) 52 where
  step st := by
    obtain ⟨k, hk, h16, hmsg⟩ :=
      SimpleNode.receive_spec o (freed st.msgCount) st.sock st.arrivals
    unfold SimpleNode.iter
    split
    · rename_i c ks hrec
      rw [hrec] at hk
      exact ⟨k, h16, .inr ⟨c, ks, hk, rfl⟩⟩
    · rename_i c ks hrec
      rw [hrec] at hk
      exact ⟨k, h16, .inl ⟨rfl, hk, .inl rfl⟩⟩
    · rename_i m c ks hrec
      rw [hrec] at hk
      obtain ⟨hlooks, hsize, hle⟩ := hmsg m (by rw [hrec])
      unfold SimpleNode.process
      dsimp only
      split
      · split
        · exact ⟨k, h16, .inl ⟨rfl, hk, .inl rfl⟩⟩
        · exact ⟨k, h16, .inl ⟨rfl, hk, .inl rfl⟩⟩
        · exact ⟨k, h16, .inl ⟨rfl, hk, .inr ⟨hlooks, hsize, hle, _, rfl⟩⟩⟩
      · exact ⟨k, h16, .inl ⟨rfl, hk, .inl rfl⟩⟩

/-! ## What a connection carries -/

theorem LooksLike.append {o : ByteOrder} (t r : Bytes) (hlen : 52 ≤ t.length) (h : LooksLike o t) :
    LooksLike o (t ++ r) where
  msgType := by
    rw [List.drop_append_of_le_length (by omega), decode_append _ (by rw [List.length_drop]; omega)]
    exact h.msgType
  length := by
    rw [decode_append _ (by omega)]
    exact h.length

namespace StateServer

theorem mem_messages {o : ByteOrder} {cr : Bool} {ms : List (Word × WeldStateT)} {f : Bytes}
    (h : f ∈ ms.map fun m => stateFrame o cr m.1 m.2) : IsFrame o cr f := by
  obtain ⟨m, -, rfl⟩ := List.mem_map.mp h
  exact ⟨m.1, m.2, rfl⟩

/-- There is at most one message for an iteration. -/
theorem numbered_length_le (n : Word) (envs : List LoopEnv) :
    (numbered n envs).length ≤ envs.length := by
  rw [numbered_eq, List.length_map, List.length_zipIdx, List.length_map]
  exact List.length_filter_le _ _

/-- What a connection carries is the beginning of at most a frame for each iteration on it. -/
theorem Conn.Carries.begins {o : ByteOrder} {cr : Bool} {c : Conn} (h : Conn.Carries o cr c) :
    ∃ fs : List Bytes, (∀ f ∈ fs, IsFrame o cr f) ∧ fs.length ≤ c.loops.length ∧
      c.sent <+: fs.flatten := by
  cases hfailed : c.failed with
  | false =>
    obtain ⟨-, hsent⟩ := h.whole hfailed
    refine ⟨(numbered c.start c.loops).map fun m => stateFrame o cr m.1 m.2,
      fun _ => mem_messages, ?_, ⟨[], by rw [List.append_nil, hsent, messages]⟩⟩
    rw [List.length_map]
    exact numbered_length_le _ _
  | true =>
    obtain ⟨envs, env, part, hloops, -, hsent, hpart⟩ := h.broken hfailed
    refine ⟨((numbered c.start envs).map fun m => stateFrame o cr m.1 m.2) ++
      [stateFrame o cr (numberAfter c.start envs + 1) env.state], ?_, ?_, ?_⟩
    · rw [List.forall_mem_append, List.forall_mem_singleton]
      exact ⟨fun _ => mem_messages, _, _, rfl⟩
    · rw [hloops, List.length_append, List.length_append, List.length_map]
      exact Nat.add_le_add_right (numbered_length_le _ _) 1
    · rw [hsent, messages, List.flatten_append, List.flatten_singleton,
        List.prefix_append_right_inj]
      exact hpart

/-- A receiver's stream with a beginning of what a connection carries. -/
def Conn.Feeds (ch : Channel) (c : Conn) : Prop := ch.all <+: c.sent

theorem Conn.Feeds.below {o : ByteOrder} {cr : Bool} {ch : Channel} {c : Conn}
    (h : Conn.Carries o cr c)
    (hfeeds : Conn.Feeds ch c) : ScansBelow (LooksLike o) 52 ch c.loops.length := by
  intro n hscan
  obtain ⟨fs, hfs, hlen, hbegins⟩ := h.begins
  obtain ⟨r, hr⟩ := hfeeds.trans hbegins
  have hwhole := hscan.extend (by omega) LooksLike.append r
  rw [hr] at hwhole
  exact (hwhole.le_frames (weldShaped_bounded o) (by omega) (by omega)
    fun f hf => weldShaped_of_isFrame (hfs f hf)).trans hlen

theorem feeds_below {o : ByteOrder} {cr : Bool} {chs : List Channel} {cs : List Conn}
    (h : List.Forall₂ Conn.Feeds chs cs) (hcarries : ∀ c ∈ cs, Conn.Carries o cr c) :
    List.Forall₂ (ScansBelow (LooksLike o) 52) chs (cs.map fun c => c.loops.length) := by
  induction h with
  | nil => exact .nil
  | cons hfeeds _ ih =>
    obtain ⟨hfirst, hrest⟩ := List.forall_mem_cons.mp hcarries
    exact .cons (hfeeds.below hfirst) (ih hrest)

/-- The connections of a receiver, failed attempts aside, are some of the connections of the
server, in their order. -/
def Serves (conns : List Conn) (st : RunState) : Prop :=
  ∃ cs, cs.Sublist conns ∧ List.Forall₂ Conn.Feeds (st.sock :: st.attempts.reduceOption) cs

/-- A run of a receiver over connections of the server. -/
theorem Serves.runFor_le {o : ByteOrder} {cr : Bool} {conns : List Conn}
    (hcarries : ∀ c ∈ conns, Conn.Carries o cr c) {iter : RunState → RunState}
    (hiter : Links iter (LooksLike o) 52) {st : RunState} (hserves : Serves conns st) (n : Nat) :
    (runFor iter n st).published.length ≤
      st.published.length + (conns.flatMap Server.Conn.loops).length := by
  obtain ⟨cs, hsub, hfeeds⟩ := hserves
  have hbelow : List.Forall₂ (ScansBelow (LooksLike o) 52) (st.sock :: st.attempts.reduceOption)
      (cs.map fun c => c.loops.length) :=
    feeds_below hfeeds fun c hc => hcarries c (hsub.subset hc)
  have htotal : (cs.map fun c => c.loops.length).sum ≤
      (conns.flatMap Server.Conn.loops).length := by
    rw [← List.length_flatMap]
    exact (hsub.flatMap Server.Conn.loops).length_le
  cases hcs : cs.map fun c => c.loops.length with
  | nil =>
    rw [hcs] at hbelow
    cases hbelow
  | cons bound bounds =>
    rw [hcs] at hbelow htotal
    obtain ⟨hfirst, hlater⟩ := List.forall₂_cons.mp hbelow
    obtain ⟨count, hscan, hle⟩ := hiter.runFor_le n hlater
    have hcount := hfirst count hscan
    rw [List.sum_cons] at htotal
    omega

/-- **At most one state for each iteration**: over all connections of a run of the server, however
they break off, neither receiver publishes more states than the server has begun to send. -/
theorem run_publishes_le (o : ByteOrder) (cr : Bool) {ls : List Label} {s : ServerState}
    (h : Lts.run (step o cr) ServerState.init ls = some s) {st : RunState}
    (hpub : st.published = []) (hserves : Serves s.connections st) (d : Bool)
    (freed : SimpleNode.Freed) :
    (TcpNode.run (TcpNode.launchDump o d) st).published.length ≤
        (ls.filterMap Server.Label.env).length ∧
      (SimpleNode.run (SimpleNode.launch o) freed st).published.length ≤
        (ls.filterMap Server.Label.env).length := by
  have htcp := hserves.runFor_le (run_carries h) (TcpNode.links o d) (st.measure + 1)
  have hsimple := hserves.runFor_le (run_carries h) (SimpleNode.links o freed) (st.measure + 1)
  rw [hpub, List.length_nil, Nat.zero_add, Server.run_loops h] at htcp hsimple
  exact ⟨htcp, hsimple⟩

/-- A receiver that gets everything, on one connection after the other. -/
def receiving (c : Conn) (cs : List Conn) : RunState :=
  { connected ⟨c.sent, []⟩ [] with attempts := cs.map fun c => some ⟨c.sent, []⟩ }

theorem receiving_serves (c : Conn) (cs : List Conn) : Serves (c :: cs) (receiving c cs) := by
  have hfeeds : ∀ c : Conn, Conn.Feeds ⟨c.sent, []⟩ c := fun c => ⟨[], by simp [Channel.all]⟩
  refine ⟨c :: cs, List.Sublist.refl _, .cons (hfeeds c) ?_⟩
  rw [receiving]
  induction cs with
  | nil => exact .nil
  | cons c cs ih =>
    rw [List.map_cons, List.reduceOption_cons_of_some]
    exact .cons (hfeeds c) ih

theorem run_publishes_le_reconnected :
    ∃ c cs s, Lts.run (step .little true) ServerState.init reconnectedRun = some s ∧
      s.connections = c :: cs ∧
      (TcpNode.run (TcpNode.launchDump .little true) (receiving c cs)).published.length ≤ 3 ∧
      (SimpleNode.run (SimpleNode.launch .little) SimpleNode.cleared
        (receiving c cs)).published.length ≤ 3 := by
  have hsome : (Lts.run (step .little true) ServerState.init reconnectedRun).isSome = true := by
    decide
  obtain ⟨s, hs⟩ := Option.isSome_iff_exists.mp hsome
  cases hconns : s.connections with
  | nil =>
    have hloops := Server.run_loops hs
    rw [hconns] at hloops
    cases hloops
  | cons c cs =>
    have hserves := receiving_serves c cs
    rw [← hconns] at hserves
    exact ⟨c, cs, s, hs, hconns, run_publishes_le .little true hs rfl hserves true _⟩

end StateServer

end FanucDriver
