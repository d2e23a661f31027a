import FanucDriver.Lib.Lts
import FanucDriver.WeldCommand.Relay

/-!
# The welding command relay over many connections

The main loops of `ros_weld_relay` around `poll`, with any clients: they send any bytes, which
arrive in any pieces, and `BYTES_AHEAD`, `READ` and `WRITE` fail at any time.  The relay's packet
and its outputs outlive a connection.

* `Server`, `Label`, `step` — the ghost fields `stream` and `taken` record what the client has
  sent on the connection and how much of it was read, `sent` what the relay has written.
* `Refused`, `poll_outcome` — the three ways an iteration can go.
* `goWrites`, `doWrites` — the writes a block asks for, from its ten payload words alone.
* `Trans`, `step_trans` — every step is one of these.
* `Aligned`, `run_changes` — what every step of every run does to the outputs.
-/

set_option autoImplicit false

namespace FanucDriver

open Wire WeldRelay

namespace WeldServer

/-- A connection, as the relay reads it. -/
structure Conn where
  chan : Channel
  /-- everything the client has sent -/
  stream : Bytes
  /-- how many bytes the relay has read -/
  taken : Nat
  /-- polls without a packet since the last packet or the start -/
  quiet : Nat
  deriving DecidableEq, Repr

def Conn.new : Conn := ⟨.empty, [], 0, 0⟩

/-- Where the main program stands: before `ssock_accpt2`, in its inner loop, or at
`exit_discon`. -/
inductive Phase where
  | waiting
  | polling (c : Conn)
  | leaving
  deriving DecidableEq, Repr

structure Server where
  relay : Relay
  phase : Phase
  shutdwnReq : Bool
  sent : Bytes

/-- The program in front of its main loop. -/
def Server.init (out : Outputs) : Server where
  relay := .init out
  phase := .waiting
  shutdwnReq := false
  sent := []

inductive Label where
  /-- `ssock_accpt2`, with a client or failing -/
  | accept (ok : Bool)
  /-- the client sends -/
  | send (bs : Bytes)
  /-- bytes arrive at the robot -/
  | arrive (k : Nat)
  /-- one iteration of the inner loop -/
  | poll (env : PollEnv)
  /-- the ABORT handler -/
  | abort
  /-- the inner loop ends because of it -/
  | leave
  /-- `ssock_dconn2` at `exit_discon` -/
  | dconn
  deriving DecidableEq, Repr

/-- The connection after an iteration. -/
def Conn.after (c : Conn) (res : Polled) : Conn :=
  let read := c.chan.all.length - res.chan.all.length
  { c with
    chan := res.chan
    taken := c.taken + read
    quiet := if read = 0 then c.quiet + 1 else 0 }

def step (o : ByteOrder) (cfg : WeldCfg) (s : Server) : Label → Option Server
  | .accept ok =>
    if s.phase = .waiting ∧ s.shutdwnReq = false then
      if ok then
        some { s with phase := .polling .new, relay := { s.relay with idleCounter := 0 } }
      else some { s with phase := .leaving }
    else none
  | .send bs =>
    match s.phase with
    | .polling c =>
      some { s with phase := .polling { c with chan := c.chan.send bs, stream := c.stream ++ bs } }
    | _ => none
  | .arrive k =>
    match s.phase with
    | .polling c => some { s with phase := .polling { c with chan := c.chan.arrive k } }
    | _ => none
  | .poll env =>
    match s.phase with
    | .polling c =>
      if s.shutdwnReq then none
      else
        match poll o cfg env s.relay c.chan with
        | none => none
        | some res =>
          some { s with
            relay := res.relay
            phase := if res.discon then .leaving else .polling (c.after res)
            sent := s.sent ++ res.sent }
    | _ => none
  | .abort => some { s with shutdwnReq := true }
  | .leave =>
    match s.phase with
    | .polling _ => if s.shutdwnReq then some { s with phase := .leaving } else none
    | _ => none
  | .dconn => if s.phase = .leaving then some { s with phase := .waiting } else none

/-! ## One iteration -/

/-- `BYTES_AHEAD` or `READ` reports an error, or the block read has another message type. -/
def Refused (o : ByteOrder) (env : PollEnv) (c : Channel) : Prop :=
  env.ahead ≠ 0 ∨ (56 ≤ c.buf.length ∧
    ((env.read.stat ≠ 0 ∧ env.read.got < 15) ∨ decode o (c.all.drop 4) ≠ RI_MT_WELDCMD))

theorem readFields_stat {o : ByteOrder} {r : ReadOutcome} {n : Nat} {c c' : Channel}
    {ws : List Word} {stat : Nat} (h : readFields o r n c = some (ws, stat, c')) :
    stat ≠ 0 ↔ r.stat ≠ 0 ∧ r.got < n := by
  unfold readFields at h
  dsimp only at h
  generalize hk : (if r.stat = 0 then n else min r.got n) = k at h
  split at h
  · simp only [Option.some.injEq, Prod.mk.injEq] at h
    obtain ⟨-, hstat, -⟩ := h
    split at hk <;> split at hstat <;> omega
  · cases h

/-- The type of the packet read is the second word of the block. -/
theorem assign_msgType (o : ByteOrder) (pkt : IndWeldCmd) (bs : Bytes) :
    (pkt.assign (decodeWords o 15 bs)).hdr.msgType = decode o (bs.drop 4) := rfl

theorem iwdDsliceCmd_outcome {o : ByteOrder} {env : PollEnv} {pkt pkt' : IndWeldCmd}
    {c c' : Channel} {stat : Int} (h : iwdDsliceCmd o env pkt c = some (stat, pkt', c')) :
    (Refused o env c ∧ stat < 0) ∨
      (¬ Refused o env c ∧ c.buf.length < 56 ∧ stat = 0 ∧ pkt' = pkt ∧ c' = c) ∨
      (¬ Refused o env c ∧ 60 ≤ c.all.length ∧ decode o (c.all.drop 4) = RI_MT_WELDCMD ∧
        stat = 1 ∧ pkt' = pkt.assign (decodeWords o 15 c.all) ∧ c' = c.consume 60) := by
  have hidle : env.ahead = 0 → c.buf.length < 56 → ¬ Refused o env c := by
    rintro h0 hbuf (h' | ⟨h', -⟩)
    · exact h' h0
    · omega
  unfold iwdDsliceCmd at h
  split at h
  · rename_i hahead
    cases h
    exact .inl ⟨.inl hahead, by omega⟩
  · rename_i hahead
    have h0 := not_not.mp hahead
    split at h
    · cases h
      exact .inr (.inl ⟨hidle h0 (by omega), by omega, rfl, rfl, rfl⟩)
    · split at h
      · rename_i hbuf
        cases h
        exact .inr (.inl ⟨hidle h0 hbuf, hbuf, rfl, rfl, rfl⟩)
      · rename_i hbuf
        have h56 : 56 ≤ c.buf.length := Nat.le_of_not_lt hbuf
        split at h
        · cases h
        · rename_i ws rstat c'' hread
          have hstat := readFields_stat hread
          dsimp only at h
          split at h
          · rename_i hfail
            cases h
            exact .inl ⟨.inr ⟨h56, .inl (hstat.mp hfail)⟩, by omega⟩
          · rename_i hfail
            obtain ⟨hle, rfl, rfl⟩ := readFields_stat_zero hread (not_not.mp hfail)
            rw [assign_msgType] at h
            split at h
            · rename_i htype
              cases h
              exact .inl ⟨.inr ⟨h56, .inr htype⟩, by decide⟩
            · rename_i htype
              cases h
              refine .inr (.inr ⟨?_, hle, not_not.mp htype, rfl, rfl, rfl⟩)
              rintro (h' | ⟨-, h' | h'⟩)
              · exact hahead h'
              · exact hfail (hstat.mpr h')
              · exact htype h'

/-- A packet leaves the outputs as it demands and, unless its reply fails, the counter at 0. -/
theorem processPacket_state (o : ByteOrder) (cfg : WeldCfg) (env : PollEnv) (r : Relay)
    (c : Channel) :
    (processPacket o cfg env r c).relay.outputs = execPacket cfg r.outputs r.weldCmdIn ∧
      (processPacket o cfg env r c).chan = c ∧
      ((processPacket o cfg env r c).relay.idleCounter = 0 ∨
        ((processPacket o cfg env r c).discon = true ∧
          (processPacket o cfg env r c).relay.idleCounter = r.idleCounter)) := by
  unfold processPacket execPacket
  by_cases hhb : r.weldCmdIn.seqNr = RI_SEQ_HB
  · rw [if_pos hhb, if_pos hhb]
    dsimp only
    split
    · exact ⟨rfl, rfl, .inl rfl⟩
    · exact ⟨rfl, rfl, .inl rfl⟩
  · have hexec : (execWeldCmd r.weldCmdIn cfg r.outputs).2 = 0 := rfl
    rw [if_neg hhb, if_neg hhb]
    simp only [hexec, ne_eq, not_true_eq_false, if_false]
    split
    · exact ⟨rfl, rfl, .inr ⟨rfl, rfl⟩⟩
    · exact ⟨rfl, rfl, .inl rfl⟩

/-- **How an iteration goes**: it is refused, it finds too few bytes, or it processes the sixty
bytes at the front. -/
theorem poll_outcome {o : ByteOrder} {cfg : WeldCfg} {env : PollEnv} {r : Relay} {c : Channel}
    {res : Polled} (h : poll o cfg env r c = some res) :
    (Refused o env c ∧ res.discon = true ∧ res.sent = [] ∧ res.relay.outputs = r.outputs ∧
        res.relay.idleCounter = r.idleCounter) ∨
      (¬ Refused o env c ∧ c.buf.length < 56 ∧
        res = ⟨{ r with idleCounter := r.idleCounter + 1 }, c, [],
          cfg.hbEn && decide (10 * cfg.loopHz < r.idleCounter + 1)⟩) ∨
      (¬ Refused o env c ∧ 60 ≤ c.all.length ∧ decode o (c.all.drop 4) = RI_MT_WELDCMD ∧
        res = processPacket o cfg env
          { r with weldCmdIn := r.weldCmdIn.assign (decodeWords o 15 c.all) } (c.consume 60)) := by
  unfold poll at h
  split at h
  · cases h
  · rename_i stat pkt c' hdslice
    rcases iwdDsliceCmd_outcome hdslice with ⟨href, hneg⟩ | ⟨href, hbuf, rfl, rfl, rfl⟩ |
      ⟨href, hle, htype, rfl, rfl, rfl⟩
    · rw [if_pos hneg] at h
      cases h
      exact .inl ⟨href, rfl, rfl, rfl, rfl⟩
    · cases h
      exact .inr (.inl ⟨href, hbuf, rfl⟩)
    · cases h
      exact .inr (.inr ⟨href, hle, htype, rfl⟩)

/-! ## What a block asks for -/

/-- The payload record made of ten words. -/
def payloadData (ws : List Word) : IndWeldCmdData where
  targetWireSpd := ws.getD 0 0
  correctionVal := ws.getD 1 0
  dynSetting := ws.getD 2 0
  operationMode := ws.getD 3 0
  stdPulseVal := ws.getD 4 0
  programNumber := ws.getD 5 0
  arcStartCmd := ws.getD 6 0
  gasControl := ws.getD 7 0
  jogFeedCmd := ws.getD 8 0
  jogRetractCmd := ws.getD 9 0

/-- The writes to group outputs, in their order. -/
def goWrites (cfg : WeldCfg) (payload : List Word) : List (Int × Option Word) :=
  GoField.all.map fun f => (cfg.go f, goValue ((payloadData payload).go f))

/-- The writes to digital outputs, in their order. -/
def doWrites (cfg : WeldCfg) (payload : List Word) : List (Int × Option Bool) :=
  DoField.all.map fun f => (cfg.dout f, doValue ((payloadData payload).dout f))

/-- The change from `out` to `out'` comes from the sixty bytes `block` at the reading position
of the connection, and the values written are those of its ten payload words. -/
structure Caused (o : ByteOrder) (cfg : WeldCfg) (c : Conn) (out out' : Outputs)
    (block : Bytes) : Prop where
  start : 60 ∣ c.taken
  bytes : ∃ rest, c.stream.drop c.taken = block ++ rest
  size : block.length = 60
  msgType : decode o (block.drop 4) = RI_MT_WELDCMD
  seqNr : decode o (block.drop 16) ≠ RI_SEQ_HB
  gout : out'.gout = Assign.puts out.gout (goWrites cfg (decodeWords o 10 (block.drop 20)))
  dout : out'.dout = Assign.puts out.dout (doWrites cfg (decodeWords o 10 (block.drop 20)))

/-- Whatever the packet held before, a block of fifteen words fills its payload. -/
theorem assign_payload (o : ByteOrder) (pkt : IndWeldCmd) (bs : Bytes) :
    (pkt.assign (decodeWords o 15 bs)).weldCmdData =
      payloadData (decodeWords o 10 (bs.drop 20)) := by
  simp only [IndWeldCmd.assign, payloadData, decodeWords, List.drop_drop, List.getElem?_cons_succ,
    List.getElem?_cons_zero, Option.getD_some, List.getD_cons_succ, List.getD_cons_zero,
    Nat.reduceAdd]

theorem decodeWords_take (o : ByteOrder) {n m : Nat} (h : 4 * n ≤ m) (bs : Bytes) :
    decodeWords o n (bs.take m) = decodeWords o n bs := by
  induction n generalizing m bs with
  | zero => rfl
  | succ n ih => rw [decodeWords, decodeWords, decode_take o (by omega), List.drop_take, ih (by omega)]

/-- **A packet that changes the outputs** is the block at the front, a command of the right
type. -/
theorem execPacket_changes {o : ByteOrder} {cfg : WeldCfg} {out : Outputs} {pkt : IndWeldCmd}
    {bs : Bytes} (hchange : execPacket cfg out (pkt.assign (decodeWords o 15 bs)) ≠ out) :
    decode o (bs.drop 16) ≠ RI_SEQ_HB ∧
      (execPacket cfg out (pkt.assign (decodeWords o 15 bs))).gout =
        Assign.puts out.gout (goWrites cfg (decodeWords o 10 (bs.drop 20))) ∧
      (execPacket cfg out (pkt.assign (decodeWords o 15 bs))).dout =
        Assign.puts out.dout (doWrites cfg (decodeWords o 10 (bs.drop 20))) := by
  have hseq : (pkt.assign (decodeWords o 15 bs)).seqNr = decode o (bs.drop 16) := by
    simp only [IndWeldCmd.assign, decodeWords, List.drop_drop, List.getElem?_cons_succ,
      List.getElem?_cons_zero, Option.getD_some, Nat.reduceAdd]
  unfold execPacket at hchange ⊢
  rw [hseq] at hchange ⊢
  split at hchange
  · exact absurd rfl hchange
  · rename_i hhb
    rw [if_neg hhb, execWeldCmd_gout, execWeldCmd_dout, assign_payload]
    exact ⟨hhb, rfl, rfl⟩

/-! ## Runs -/

/-- The relay stands a multiple of sixty bytes behind the start of the connection. -/
structure Conn.Aligned (c : Conn) : Prop where
  rest : c.chan.all = c.stream.drop c.taken
  le : c.taken ≤ c.stream.length
  sixty : 60 ∣ c.taken

def Server.Aligned (s : Server) : Prop := ∀ c, s.phase = .polling c → c.Aligned

theorem Conn.new_aligned : Conn.new.Aligned := ⟨rfl, Nat.le_refl _, Nat.dvd_zero _⟩

theorem Conn.Aligned.send {c : Conn} (h : c.Aligned) (bs : Bytes) :
    ({ c with chan := c.chan.send bs, stream := c.stream ++ bs } : Conn).Aligned where
  rest := by
    rw [Channel.all_send, h.rest, List.drop_append_of_le_length h.le]
  le := by
    show c.taken ≤ (c.stream ++ bs).length
    rw [List.length_append]
    exact Nat.le_add_right_of_le h.le
  sixty := h.sixty

/-- An iteration that goes on has read nothing, or sixty bytes. -/
theorem Conn.Aligned.after {c : Conn} (h : c.Aligned) {o : ByteOrder} {cfg : WeldCfg}
    {env : PollEnv} {r : Relay} {res : Polled} (hpoll : poll o cfg env r c.chan = some res)
    (hdis : res.discon ≠ true) : (c.after res).Aligned := by
  have hlen : c.chan.all.length = c.stream.length - c.taken := by
    rw [h.rest, List.length_drop]
  have hle := h.le
  have hsixty := h.sixty
  rcases poll_outcome hpoll with ⟨-, hd, -⟩ | ⟨-, -, rfl⟩ | ⟨-, h60, -, rfl⟩
  · exact absurd hd hdis
  · refine ⟨?_, ?_, ?_⟩
    · rw [show (c.after _).taken = c.taken + (c.chan.all.length - c.chan.all.length) from rfl,
        Nat.sub_self]
      exact h.rest
    · simp only [Conn.after, Nat.sub_self, Nat.add_zero]
      exact hle
    · simp only [Conn.after, Nat.sub_self, Nat.add_zero]
      exact hsixty
  · have hchan := (processPacket_state o cfg env
      { r with weldCmdIn := r.weldCmdIn.assign (decodeWords o 15 c.chan.all) }
      (c.chan.consume 60)).2.1
    have hread : c.chan.all.length - (c.chan.consume 60).all.length = 60 := by
      rw [Channel.all_consume, List.length_drop]
      omega
    refine ⟨?_, ?_, ?_⟩
    · simp only [Conn.after, hchan, hread]
      rw [Channel.all_consume, h.rest, List.drop_drop]
    · simp only [Conn.after, hchan, hread]
      omega
    · simp only [Conn.after, hchan, hread]
      exact Nat.dvd_add hsixty (Nat.dvd_refl 60)

/-- The steps, each with what it requires. -/
inductive Trans (o : ByteOrder) (cfg : WeldCfg) (s : Server) : Label → Server → Prop
  | accept (phase : s.phase = .waiting) :
      Trans o cfg s (.accept true)
        { s with phase := .polling .new, relay := { s.relay with idleCounter := 0 } }
  /-- `ssock_accpt2` failed -/
  | refused (phase : s.phase = .waiting) :
      Trans o cfg s (.accept false) { s with phase := .leaving }
  | send (c : Conn) (bs : Bytes) (phase : s.phase = .polling c) :
      Trans o cfg s (.send bs)
        { s with phase := .polling { c with chan := c.chan.send bs, stream := c.stream ++ bs } }
  | arrive (c : Conn) (k : Nat) (phase : s.phase = .polling c) :
      Trans o cfg s (.arrive k) { s with phase := .polling { c with chan := c.chan.arrive k } }
  | poll (c : Conn) (env : PollEnv) (res : Polled) (phase : s.phase = .polling c)
      (next : poll o cfg env s.relay c.chan = some res) :
      Trans o cfg s (.poll env)
        { s with
          relay := res.relay
          phase := if res.discon then .leaving else .polling (c.after res)
          sent := s.sent ++ res.sent }
  | abort : Trans o cfg s .abort { s with shutdwnReq := true }
  | leave (c : Conn) (phase : s.phase = .polling c) :
      Trans o cfg s .leave { s with phase := .leaving }
  | dconn (phase : s.phase = .leaving) : Trans o cfg s .dconn { s with phase := .waiting }

/-- **What a step can do.** -/
theorem step_trans {o : ByteOrder} {cfg : WeldCfg} {s t : Server} {l : Label}
    (hs : step o cfg s l = some t) : Trans o cfg s l t := by
  cases l with
  | accept ok =>
    rw [step] at hs
    split at hs
    · rename_i hwait
      cases ok with
      | true =>
        cases hs
        exact .accept hwait.1
      | false =>
        cases hs
        exact .refused hwait.1
    · cases hs
  | send bs =>
    rw [step] at hs
    split at hs
    · rename_i c hc
      cases hs
      exact .send c bs hc
    · cases hs
  | arrive k =>
    rw [step] at hs
    split at hs
    · rename_i c hc
      cases hs
      exact .arrive c k hc
    · cases hs
  | poll env =>
    rw [step] at hs
    split at hs
    · rename_i c hc
      split at hs
      · cases hs
      · split at hs
        · cases hs
        · rename_i res hpoll
          cases hs
          exact .poll c env res hc hpoll
    · cases hs
  | abort =>
    cases hs
    exact .abort
  | leave =>
    rw [step] at hs
    split at hs
    · rename_i c hc
      split at hs
      · cases hs
        exact .leave c hc
      · cases hs
    · cases hs
  | dconn =>
    rw [step] at hs
    split at hs
    · rename_i hleaving
      cases hs
      exact .dconn hleaving
    · cases hs

/-- Only iterations touch the outputs and write. -/
theorem Trans.quiet {o : ByteOrder} {cfg : WeldCfg} {s t : Server} {l : Label}
    (h : Trans o cfg s l t) (hl : ∀ env, l ≠ .poll env) :
    t.relay.outputs = s.relay.outputs ∧ t.sent = s.sent := by
  cases h with
  | poll c env => exact absurd rfl (hl env)
  | accept | refused | send | arrive | abort | leave | dconn => exact ⟨rfl, rfl⟩

theorem step_aligned {o : ByteOrder} {cfg : WeldCfg} {s t : Server} {l : Label}
    (hI : s.Aligned) (hs : step o cfg s l = some t) : t.Aligned := by
  intro c' hc'
  cases step_trans hs with
  | accept =>
    cases hc'
    exact Conn.new_aligned
  | send c bs hc =>
    cases hc'
    exact (hI c hc).send bs
  | arrive c k hc =>
    cases hc'
    exact ⟨(Channel.all_arrive k c.chan).trans (hI c hc).rest, (hI c hc).le, (hI c hc).sixty⟩
  | poll c env res hc hpoll =>
    by_cases hdis : res.discon = true
    · simp only [if_pos hdis] at hc'
      cases hc'
    · simp only [if_neg hdis] at hc'
      cases hc'
      exact (hI c hc).after hpoll hdis
  | abort => exact hI c' hc'
  | refused | leave | dconn => cases hc'

theorem run_aligned {o : ByteOrder} {cfg : WeldCfg} {out : Outputs} {ls : List Label} {s : Server}
    (hr : Lts.run (step o cfg) (.init out) ls = some s) : s.Aligned :=
  Lts.run_inv (fun _ _ _ => step_aligned) (fun _ h => by cases h) hr

/-- **What an iteration does to the outputs.** -/
theorem poll_caused {o : ByteOrder} {cfg : WeldCfg} {env : PollEnv} {r : Relay} {c : Conn}
    {res : Polled} (hal : c.Aligned) (hpoll : poll o cfg env r c.chan = some res)
    (hchange : res.relay.outputs ≠ r.outputs) :
    ∃ block, Caused o cfg c r.outputs res.relay.outputs block := by
  rcases poll_outcome hpoll with ⟨-, -, -, hout, -⟩ | ⟨-, -, rfl⟩ | ⟨-, h60, htype, rfl⟩
  · exact absurd hout hchange
  · exact absurd rfl hchange
  · obtain ⟨hout, -, -⟩ := processPacket_state o cfg env
      { r with weldCmdIn := r.weldCmdIn.assign (decodeWords o 15 c.chan.all) } (c.chan.consume 60)
    rw [hout] at hchange ⊢
    obtain ⟨hseq, hgo, hdo⟩ := execPacket_changes hchange
    have hdrop : ∀ i, 4 ≤ 60 - i → decode o ((c.chan.all.take 60).drop i) =
        decode o (c.chan.all.drop i) := by
      intro i hi
      rw [List.drop_take, decode_take o hi]
    refine ⟨c.chan.all.take 60, hal.sixty, ⟨c.chan.all.drop 60, ?_⟩, ?_, ?_, ?_, ?_, ?_⟩
    · rw [← hal.rest, List.take_append_drop]
    · rw [List.length_take]
      omega
    · rw [hdrop 4 (by omega), htype]
    · rw [hdrop 16 (by omega)]
      exact hseq
    · rw [List.drop_take, decodeWords_take o (by omega)]
      exact hgo
    · rw [List.drop_take, decodeWords_take o (by omega)]
      exact hdo

/-- **What a step of any run does to the outputs.** A change is caused by the block at the
relay's position, a multiple of sixty bytes behind the start of the connection; an iteration
that is refused ends the connection, with the outputs unchanged and nothing written. -/
theorem run_changes {o : ByteOrder} {cfg : WeldCfg} {out : Outputs} {ls : List Label}
    {s t : Server} {l : Label} (hr : Lts.run (step o cfg) (.init out) ls = some s)
    (hs : step o cfg s l = some t) :
    (t.relay.outputs ≠ s.relay.outputs → ∃ c env block, s.phase = .polling c ∧ l = .poll env ∧
        Caused o cfg c s.relay.outputs t.relay.outputs block) ∧
      ∀ c env, s.phase = .polling c → l = .poll env → Refused o env c.chan →
        t.phase = .leaving ∧ t.relay.outputs = s.relay.outputs ∧ t.sent = s.sent := by
  have haligned := run_aligned hr
  have htrans := step_trans hs
  constructor
  · intro hchange
    by_cases hl : ∃ env, l = .poll env
    · obtain ⟨env, rfl⟩ := hl
      cases htrans with
      | poll c _ res hc hpoll =>
        obtain ⟨block, hcaused⟩ := poll_caused (haligned c hc) hpoll hchange
        exact ⟨c, env, block, hc, rfl, hcaused⟩
    · have hl' : ∀ env, l ≠ .poll env := fun env h => hl ⟨env, h⟩
      exact absurd (htrans.quiet hl').1 hchange
  · rintro c env hc rfl href
    cases htrans with
    | poll c' _ res hc' hpoll =>
      rw [hc] at hc'
      cases hc'
      rcases poll_outcome hpoll with ⟨-, hdis, hsent, hout, -⟩ | ⟨hok, -⟩ | ⟨hok, -⟩
      · refine ⟨if_pos hdis, hout, ?_⟩
        simp only [hsent, List.append_nil]
      · exact absurd href hok
      · exact absurd href hok

/-- A client that sends one command and, behind it, sixty bytes of another type. -/
def commandThenGarbage : List Label :=
  [.accept true, .send (sendBuf .big (commandPacket 1 startGas) ++ encodeAll .big
    (List.replicate 15 7)), .arrive 120]

theorem run_changes_command :
    ∃ s t, Lts.run (step .big weldCfgDefault) (.init ⟨fun _ => 0, fun _ => false⟩)
        commandThenGarbage = some s ∧ step .big weldCfgDefault s (.poll .ok) = some t ∧
      ∃ c env block, s.phase = .polling c ∧ Label.poll .ok = .poll env ∧
        Caused .big weldCfgDefault c s.relay.outputs t.relay.outputs block := by
  have hs : ((Lts.run (step .big weldCfgDefault) (.init ⟨fun _ => 0, fun _ => false⟩)
      commandThenGarbage).map fun s => s.relay.outputs.dout 255) = some false := by decide +kernel
  have ht : ((Lts.run (step .big weldCfgDefault) (.init ⟨fun _ => 0, fun _ => false⟩)
      (commandThenGarbage ++ [.poll .ok])).map fun t => t.relay.outputs.dout 255) = some true := by
    decide +kernel
  obtain ⟨t, ht, hton⟩ := Option.map_eq_some_iff.mp ht
  obtain ⟨s', hs', hsoff⟩ := Option.map_eq_some_iff.mp hs
  obtain ⟨s, hs, hlast⟩ := Lts.run_append_some.mp ht
  rw [hs, Option.some.injEq] at hs'
  subst hs'
  obtain ⟨t', hstep, hend⟩ := Lts.run_cons_some.mp hlast
  cases hend
  refine ⟨s, t, hs, hstep, (run_changes hs hstep).1 ?_⟩
  intro heq
  rw [heq, hsoff] at hton
  cases hton

end WeldServer

end FanucDriver
