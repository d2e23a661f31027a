import FanucDriver.WeldCommand.Connections

/-!
# The idle timeout of the welding command relay

* `WeldCfgVars`, `checkCfg` — `cfg_` with its uninitialised entries and `check_cfg_`.
* `IdleBound`, `run_idle_le` — with `hb_en` set the idle counter stays below ten seconds' worth
  of polls, and a silent client is let go.
* `run_silent_polls`, `idle_unbounded` — without it the counter grows for ever.
-/

set_option autoImplicit false

namespace FanucDriver

open Wire WeldRelay

namespace WeldServer

/-! ## The configuration -/

def CFG_OK : Int := 0
def CFG_NOTDONE : Int := -1

def WELD_TAG : Int := 3
def WELD_TCP_P : Int := 11002
def LOOP_HZ : Int := 10

/-- `weld_cfg_t`; an entry that is `UNINIT` is `none`. -/
structure WeldCfgVars where
  checked : Option Bool
  loopHz : Option Int
  sTcpNr : Option Int
  sTagNr : Option Int
  umClear : Option Bool
  hbEn : Option Bool
  wireGo : Option Int
  correctionGo : Option Int
  dynGo : Option Int
  modeGo : Option Int
  stdPulseGo : Option Int
  progNumGo : Option Int
  arcStartDo : Option Int
  gasDo : Option Int
  jogFeedDo : Option Int
  jogRetractDo : Option Int
  deriving DecidableEq, Repr

/-- `IF (UNINIT(x)) THEN x = default; a__ = TRUE; ENDIF` -/
def setDefault {α : Type} (x : Option α) (default : α) (a : Bool) : Option α × Bool :=
  match x with
  | none => (some default, true)
  | some v => (some v, a)

/-- `check_cfg_`: the value returned and the configuration with its defaults filled in. -/
def checkCfg (cfg : WeldCfgVars) : Int × WeldCfgVars :=
  let a := false
  let (loopHz, a) := setDefault cfg.loopHz LOOP_HZ a
  let (sTcpNr, a) := setDefault cfg.sTcpNr WELD_TCP_P a
  let (sTagNr, a) := setDefault cfg.sTagNr WELD_TAG a
  let (umClear, a) := setDefault cfg.umClear true a
  let (hbEn, a) := setDefault cfg.hbEn false a
  let (progNumGo, a) := setDefault cfg.progNumGo weldCfgDefault.progNumGo a
  let (wireGo, a) := setDefault cfg.wireGo weldCfgDefault.wireGo a
  let (correctionGo, a) := setDefault cfg.correctionGo weldCfgDefault.correctionGo a
  let (dynGo, a) := setDefault cfg.dynGo weldCfgDefault.dynGo a
  let (modeGo, a) := setDefault cfg.modeGo weldCfgDefault.modeGo a
  let (stdPulseGo, a) := setDefault cfg.stdPulseGo weldCfgDefault.stdPulseGo a
  let (arcStartDo, a) := setDefault cfg.arcStartDo weldCfgDefault.arcStartDo a
  let (gasDo, a) := setDefault cfg.gasDo weldCfgDefault.gasDo a
  let (jogFeedDo, a) := setDefault cfg.jogFeedDo weldCfgDefault.jogFeedDo a
  let (jogRetractDo, a) := setDefault cfg.jogRetractDo weldCfgDefault.jogRetractDo a
  let (checked, a) := setDefault cfg.checked false a
  let cfg := ⟨checked, loopHz, sTcpNr, sTagNr, umClear, hbEn, wireGo, correctionGo, dynGo, modeGo,
    stdPulseGo, progNumGo, arcStartDo, gasDo, jogFeedDo, jogRetractDo⟩
  if checked ≠ some true ∨ a then (CFG_NOTDONE, cfg) else (CFG_OK, cfg)

/-- The entries the relay's loop reads, once they are initialised. -/
def WeldCfgVars.values (v : WeldCfgVars) : Option WeldCfg := do
  return {
    loopHz := ← v.loopHz
    hbEn := ← v.hbEn
    wireGo := ← v.wireGo
    correctionGo := ← v.correctionGo
    dynGo := ← v.dynGo
    modeGo := ← v.modeGo
    stdPulseGo := ← v.stdPulseGo
    progNumGo := ← v.progNumGo
    arcStartDo := ← v.arcStartDo
    gasDo := ← v.gasDo
    jogFeedDo := ← v.jogFeedDo
    jogRetractDo := ← v.jogRetractDo }

theorem setDefault_eq {α : Type} (x : Option α) (default : α) (a : Bool) :
    setDefault x default a = (some (x.getD default), a || x.isNone) := by
  cases x <;> simp [setDefault]

/-- The last lines of a `check_cfg_`. -/
theorem verdict_eq {C : Type} (cfg : C) (x : Option Bool) (a : Bool) :
    (if some (x.getD false) ≠ some true ∨ a then (CFG_NOTDONE, cfg) else (CFG_OK, cfg)) =
      (if x = some true ∧ a = false then CFG_OK else CFG_NOTDONE, cfg) := by
  rcases x with _ | _ | _ <;> cases a <;> rfl

/-- An accepted configuration was complete and is unchanged. -/
theorem checkCfg_ok {v v' : WeldCfgVars} (h : checkCfg v = (CFG_OK, v')) :
    v' = v ∧ v.checked = some true ∧ ∃ cfg, v.values = some cfg := by
  simp only [checkCfg, setDefault_eq, verdict_eq, Prod.mk.injEq] at h
  obtain ⟨hok, rfl⟩ := h
  split at hok
  · rename_i hall
    cases v
    simp only [Bool.or_eq_false_iff, Option.isNone_eq_false_iff, Option.isSome_iff_exists] at hall
    obtain ⟨hchecked, ⟨⟨⟨⟨⟨⟨⟨⟨⟨⟨⟨⟨⟨⟨⟨⟨-, ⟨_, rfl⟩⟩, ⟨_, rfl⟩⟩, ⟨_, rfl⟩⟩, ⟨_, rfl⟩⟩, ⟨_, rfl⟩⟩,
      ⟨_, rfl⟩⟩, ⟨_, rfl⟩⟩, ⟨_, rfl⟩⟩, ⟨_, rfl⟩⟩, ⟨_, rfl⟩⟩, ⟨_, rfl⟩⟩, ⟨_, rfl⟩⟩, ⟨_, rfl⟩⟩,
      ⟨_, rfl⟩⟩, ⟨_, rfl⟩⟩, ⟨_, rfl⟩⟩⟩ := hall
    exact ⟨rfl, hchecked, _, rfl⟩
  · exact absurd hok (by decide)

theorem WeldCfgVars.values_eq {v : WeldCfgVars} {cfg : WeldCfg} (h : v.values = some cfg) :
    v.loopHz = some cfg.loopHz ∧ v.hbEn = some cfg.hbEn := by
  simp only [values, bind, Option.bind_eq_some_iff] at h
  obtain ⟨_, hloopHz, _, hhbEn, _, -, _, -, _, -, _, -, _, -, _, -, _, -, _, -, _, -, _, -, h⟩ := h
  cases h
  exact ⟨hloopHz, hhbEn⟩

/-! ## The bound -/

/-- The counter counts the polls without a packet, and these are few while the relay goes on. -/
structure IdleBound (cfg : WeldCfg) (s : Server) : Prop where
  counter : s.relay.idleCounter ≤ 10 * cfg.loopHz + 1
  quiet : ∀ c, s.phase = .polling c → s.relay.idleCounter = c.quiet ∧ (c.quiet : Int) ≤ 10 * cfg.loopHz

theorem IdleBound.init {cfg : WeldCfg} (hz : 0 ≤ cfg.loopHz) (out : Outputs) :
    IdleBound cfg (.init out) := by
  refine ⟨?_, fun c hc => by cases hc⟩
  show (0 : Int) ≤ _
  omega

/-- **An iteration keeps the bound**: it lets the client go with the first poll too many. -/
theorem IdleBound.poll {o : ByteOrder} {cfg : WeldCfg} (hhb : cfg.hbEn = true)
    (hz : 0 ≤ cfg.loopHz) {s : Server} (hI : IdleBound cfg s) {env : PollEnv} {c : Conn}
    {res : Polled} (hc : s.phase = .polling c)
    (hpoll : WeldRelay.poll o cfg env s.relay c.chan = some res) (t : Server)
    (hrelay : t.relay = res.relay)
    (hphase : t.phase = if res.discon then .leaving else .polling (c.after res)) :
    IdleBound cfg t := by
  obtain ⟨hcount, hle⟩ := hI.quiet c hc
  have hbound := hI.counter
  constructor
  · rw [hrelay]
    rcases poll_outcome hpoll with ⟨-, -, -, -, hidle⟩ | ⟨-, -, rfl⟩ | ⟨-, -, -, rfl⟩
    · omega
    · dsimp only
      omega
    · rcases (processPacket_state o cfg env
        { s.relay with weldCmdIn := s.relay.weldCmdIn.assign (decodeWords o 15 c.chan.all) }
        (c.chan.consume 60)).2.2 with hidle | ⟨-, hidle⟩
      · refine Int.le_trans (Int.le_of_eq hidle) ?_
        omega
      · exact Int.le_trans (Int.le_of_eq hidle) hbound
  · intro c' hc'
    rw [hphase] at hc'
    by_cases hdis : res.discon = true
    · rw [if_pos hdis] at hc'
      cases hc'
    · rw [if_neg hdis] at hc'
      cases hc'
      rw [hrelay]
      rcases poll_outcome hpoll with ⟨-, hd, -⟩ | ⟨-, -, rfl⟩ | ⟨-, h60, -, rfl⟩
      · exact absurd hd hdis
      · simp only [hhb, Bool.true_and, decide_eq_true_eq] at hdis
        simp only [Conn.after, Nat.sub_self, if_true]
        omega
      · obtain ⟨-, hchan, hidle⟩ := processPacket_state o cfg env
          { s.relay with weldCmdIn := s.relay.weldCmdIn.assign (decodeWords o 15 c.chan.all) }
          (c.chan.consume 60)
        have hread : ¬ c.chan.all.length - (c.chan.consume 60).all.length = 0 := by
          rw [Channel.all_consume, List.length_drop]
          omega
        have hzero := hidle.resolve_right fun h => hdis h.1
        simp only [Conn.after, hchan, if_neg hread, hzero]
        omega

theorem IdleBound.step {o : ByteOrder} {cfg : WeldCfg} (hhb : cfg.hbEn = true)
    (hz : 0 ≤ cfg.loopHz) {s t : Server} {l : Label} (hI : IdleBound cfg s)
    (hs : WeldServer.step o cfg s l = some t) : IdleBound cfg t := by
  cases step_trans hs with
  | accept =>
    refine ⟨?_, ?_⟩
    · show (0 : Int) ≤ _
      omega
    · intro c hc
      cases hc
      exact ⟨rfl, by show (0 : Int) ≤ _; omega⟩
  | send c bs hc | arrive c k hc =>
    refine ⟨hI.counter, ?_⟩
    intro c' hc'
    cases hc'
    exact hI.quiet c hc
  | poll c env res hc hpoll => exact hI.poll hhb hz hc hpoll _ rfl rfl
  | abort => exact ⟨hI.counter, hI.quiet⟩
  | refused | leave | dconn => exact ⟨hI.counter, fun c hc => by cases hc⟩

/-- **The idle timeout.** For every accepted configuration with `hb_en` set and `loop_hz` at least
1, in every reachable state: the counter is at most `10 * loop_hz + 1`; a client still polled has
been silent for at most `10 * loop_hz` polls; and from `exit_discon` the next client can be
accepted unless the program is to end. -/
theorem run_idle_le {v v' : WeldCfgVars} (hok : checkCfg v = (CFG_OK, v')) (hhb : v.hbEn = some true)
    {hz : Int} (hloop : v.loopHz = some hz) (hpos : 1 ≤ hz) :
    ∃ cfg, v'.values = some cfg ∧ ∀ (o : ByteOrder) (out : Outputs) (ls : List Label) (s : Server),
      Lts.run (step o cfg) (.init out) ls = some s →
        s.relay.idleCounter ≤ 10 * hz + 1 ∧
        (∀ c, s.phase = .polling c → (c.quiet : Int) ≤ 10 * hz) ∧
        (s.phase = .leaving → ∃ t, step o cfg s .dconn = some t ∧
          (t.shutdwnReq = false → ∃ u, step o cfg t (.accept true) = some u)) := by
  obtain ⟨rfl, -, cfg, hcfg⟩ := checkCfg_ok hok
  refine ⟨cfg, hcfg, ?_⟩
  intro o out ls s hr
  obtain ⟨hloop', hhb'⟩ := WeldCfgVars.values_eq hcfg
  have hhz : cfg.loopHz = hz := Option.some.inj (hloop'.symm.trans hloop)
  have hen : cfg.hbEn = true := Option.some.inj (hhb'.symm.trans hhb)
  have hbound : IdleBound cfg s :=
    Lts.run_inv (fun _ _ _ hI hs => hI.step hen (by omega) hs) (.init (by omega) out) hr
  refine ⟨hhz ▸ hbound.counter, ?_, ?_⟩
  · intro c hc
    exact hhz ▸ (hbound.quiet c hc).2
  · intro hleave
    refine ⟨{ s with phase := .waiting }, by rw [step, if_pos hleave], ?_⟩
    intro hgo
    exact ⟨_, by rw [step, if_pos ⟨rfl, hgo⟩, if_pos rfl]⟩

/-- The configuration after a first start and with `checked` set by hand. -/
def checkedDefaults : WeldCfgVars where
  checked := some true
  loopHz := some LOOP_HZ
  sTcpNr := some WELD_TCP_P
  sTagNr := some WELD_TAG
  umClear := some true
  hbEn := some false
  wireGo := some weldCfgDefault.wireGo
  correctionGo := some weldCfgDefault.correctionGo
  dynGo := some weldCfgDefault.dynGo
  modeGo := some weldCfgDefault.modeGo
  stdPulseGo := some weldCfgDefault.stdPulseGo
  progNumGo := some weldCfgDefault.progNumGo
  arcStartDo := some weldCfgDefault.arcStartDo
  gasDo := some weldCfgDefault.gasDo
  jogFeedDo := some weldCfgDefault.jogFeedDo
  jogRetractDo := some weldCfgDefault.jogRetractDo

theorem run_idle_le_heartbeat :
    ∃ cfg, { checkedDefaults with hbEn := some true }.values = some cfg ∧
      ∀ (o : ByteOrder) (out : Outputs) (ls : List Label) (s : Server),
        Lts.run (step o cfg) (.init out) ls = some s →
          s.relay.idleCounter ≤ 10 * 10 + 1 ∧
          (∀ c, s.phase = .polling c → (c.quiet : Int) ≤ 10 * 10) ∧
          (s.phase = .leaving → ∃ t, step o cfg s .dconn = some t ∧
            (t.shutdwnReq = false → ∃ u, step o cfg t (.accept true) = some u)) :=
  run_idle_le (v := { checkedDefaults with hbEn := some true }) (by decide) rfl rfl (by decide)

/-! ## Without the timeout -/

/-- Polls of a client that has sent nothing only count. -/
theorem run_silent_polls (o : ByteOrder) {cfg : WeldCfg} (hhb : cfg.hbEn = false) (n : Nat)
    {s : Server} {c : Conn} (hphase : s.phase = .polling c) (hchan : c.chan = .empty)
    (hreq : s.shutdwnReq = false) :
    ∃ t c', Lts.run (step o cfg) s (List.replicate n (.poll .ok)) = some t ∧
      t.phase = .polling c' ∧ t.relay.idleCounter = s.relay.idleCounter + n := by
  induction n generalizing s c with
  | zero => exact ⟨s, c, rfl, hphase, by omega⟩
  | succ n ih =>
    have hbuf : c.chan.buf.length < 56 := by
      rw [hchan]
      decide
    have hpoll := poll_idle o cfg s.relay hbuf
    simp only [hhb, Bool.false_and] at hpoll
    obtain ⟨t, c', hrun, hph, hidle⟩ := ih (s := { s with
      relay := { s.relay with idleCounter := s.relay.idleCounter + 1 }
      phase := .polling (c.after ⟨{ s.relay with idleCounter := s.relay.idleCounter + 1 },
        c.chan, [], false⟩)
      sent := s.sent ++ [] }) rfl hchan hreq
    refine ⟨t, c', ?_, hph, ?_⟩
    · rw [List.replicate_succ, Lts.run_cons_some]
      refine ⟨_, ?_, hrun⟩
      simp only [step, hphase, hreq, hpoll, Bool.false_eq_true, if_false]
    · dsimp only at hidle
      omega

/-- With these an idle client is kept, and the counter passes every bound, `10 * 10 + 1` among
them. -/
theorem idle_unbounded :
    checkCfg checkedDefaults = (CFG_OK, checkedDefaults) ∧
      checkedDefaults.values = some weldCfgDefault ∧ 1 ≤ weldCfgDefault.loopHz ∧
      ∀ n : Nat, ∃ s c, Lts.run (step .big weldCfgDefault) (.init ⟨fun _ => 0, fun _ => false⟩)
          (.accept true :: List.replicate n (.poll .ok)) = some s ∧
        s.phase = .polling c ∧ s.relay.idleCounter = n := by
  refine ⟨by decide, by decide, by decide, ?_⟩
  intro n
  obtain ⟨s, c, hrun, hphase, hidle⟩ := run_silent_polls .big
    (show weldCfgDefault.hbEn = false from rfl) n
    (s := { Server.init ⟨fun _ => 0, fun _ => false⟩ with phase := .polling .new }) rfl rfl rfl
  refine ⟨s, c, Lts.run_cons_some.mpr ⟨_, rfl, hrun⟩, hphase, ?_⟩
  rw [hidle]
  exact Int.zero_add _

end WeldServer

end FanucDriver
