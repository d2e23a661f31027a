import FanucDriver.Lib.Assign
import FanucDriver.WeldCommand.Packet

/-!
# Executing a welding command (`exec_weld_cmd_`)

* `WeldCfg`, `Outputs` — the relay's I/O mapping and the controller's outputs.
* `execWeldCmd` — the ten conditional writes.  `execWeldCmd_gout`, `execWeldCmd_dout` show them
  as assignments; with distinct indices they do not interfere.
* `applyCommand` — what a command is for, stated output by output; `execWeldCmd_eq_apply`.
* `execWeldCmd_documented_iff` — when a command with the values `WeldCommand.msg` documents has
  the effect documented there: -1 is also a correction value, and the ON test is a sign test.
-/

set_option autoImplicit false

namespace FanucDriver

open Wire

/-- The part of `weld_cfg_t` the relay's loop reads. -/
structure WeldCfg where
  loopHz : Int
  hbEn : Bool
  wireGo : Int
  correctionGo : Int
  dynGo : Int
  modeGo : Int
  stdPulseGo : Int
  progNumGo : Int
  arcStartDo : Int
  gasDo : Int
  jogFeedDo : Int
  jogRetractDo : Int
  deriving DecidableEq, Repr

/-- `GOUT` and `DOUT`. -/
structure Outputs where
  gout : Int → Word
  dout : Int → Bool

/-! ## The writes -/

/-- `IF v <> NO_CHANGE THEN GOUT[i] = v` -/
def setGout (i : Int) (v : Word) (out : Outputs) : Outputs :=
  if v ≠ NO_CHANGE then { out with gout := Function.update out.gout i v } else out

/-- `IF v <> NO_CHANGE THEN IF (v > 0) THEN DOUT[i] = TRUE ELSE DOUT[i] = FALSE` -/
def setDout (i : Int) (v : Word) (out : Outputs) : Outputs :=
  if v ≠ NO_CHANGE then
    if 0 < v.toInt then { out with dout := Function.update out.dout i true }
    else { out with dout := Function.update out.dout i false }
  else out

/-- `exec_weld_cmd_`: the outputs and the value returned. -/
def execWeldCmd (cmd : IndWeldCmd) (cfg : WeldCfg) (out : Outputs) : Outputs × Int :=
  let d := cmd.weldCmdData
  let out := setGout cfg.progNumGo d.programNumber out
  let out := setGout cfg.wireGo d.targetWireSpd out
  let out := setGout cfg.correctionGo d.correctionVal out
  let out := setGout cfg.dynGo d.dynSetting out
  let out := setGout cfg.modeGo d.operationMode out
  let out := setGout cfg.stdPulseGo d.stdPulseVal out
  let out := setDout cfg.arcStartDo d.arcStartCmd out
  let out := setDout cfg.gasDo d.gasControl out
  let out := setDout cfg.jogFeedDo d.jogFeedCmd out
  let out := setDout cfg.jogRetractDo d.jogRetractCmd out
  (out, 0)

/-! ## The writes as assignments -/

/-- The group output a field is mapped to. -/
def WeldCfg.go (cfg : WeldCfg) : GoField → Int
  | .programNumber => cfg.progNumGo
  | .targetWireSpd => cfg.wireGo
  | .correctionVal => cfg.correctionGo
  | .dynSetting => cfg.dynGo
  | .operationMode => cfg.modeGo
  | .stdPulseVal => cfg.stdPulseGo

/-- The digital output a field is mapped to. -/
def WeldCfg.dout (cfg : WeldCfg) : DoField → Int
  | .arcStartCmd => cfg.arcStartDo
  | .gasControl => cfg.gasDo
  | .jogFeedCmd => cfg.jogFeedDo
  | .jogRetractCmd => cfg.jogRetractDo

/-- Output indices pairwise distinct within GO and within DO. -/
structure WeldCfg.Distinct (cfg : WeldCfg) : Prop where
  go : Function.Injective cfg.go
  dout : Function.Injective cfg.dout

def goValue (v : Word) : Option Word := if v ≠ NO_CHANGE then some v else none

def doValue (v : Word) : Option Bool := if v ≠ NO_CHANGE then some (decide (0 < v.toInt)) else none

theorem setGout_gout (i : Int) (v : Word) (out : Outputs) :
    (setGout i v out).gout = Assign.put out.gout i (goValue v) := by
  unfold setGout goValue
  split <;> rfl

theorem setGout_dout (i : Int) (v : Word) (out : Outputs) : (setGout i v out).dout = out.dout := by
  unfold setGout
  split <;> rfl

theorem setDout_dout (i : Int) (v : Word) (out : Outputs) :
    (setDout i v out).dout = Assign.put out.dout i (doValue v) := by
  unfold setDout doValue
  split
  · split
    · rename_i hpos
      rw [decide_eq_true hpos]
      rfl
    · rename_i hpos
      rw [decide_eq_false hpos]
      rfl
  · rfl

theorem setDout_gout (i : Int) (v : Word) (out : Outputs) : (setDout i v out).gout = out.gout := by
  unfold setDout
  split
  · split <;> rfl
  · rfl

theorem execWeldCmd_gout (cmd : IndWeldCmd) (cfg : WeldCfg) (out : Outputs) :
    (execWeldCmd cmd cfg out).1.gout = Assign.puts out.gout
      (GoField.all.map fun f => (cfg.go f, goValue (cmd.weldCmdData.go f))) := by
  simp only [execWeldCmd, setDout_gout, setGout_gout]
  rfl

theorem execWeldCmd_dout (cmd : IndWeldCmd) (cfg : WeldCfg) (out : Outputs) :
    (execWeldCmd cmd cfg out).1.dout = Assign.puts out.dout
      (DoField.all.map fun f => (cfg.dout f, doValue (cmd.weldCmdData.dout f))) := by
  simp only [execWeldCmd, setDout_dout, setGout_dout]
  rfl

theorem execWeldCmd_go {cfg : WeldCfg} (hcfg : cfg.Distinct) (cmd : IndWeldCmd) (out : Outputs)
    (f : GoField) : (execWeldCmd cmd cfg out).1.gout (cfg.go f) =
      (goValue (cmd.weldCmdData.go f)).getD (out.gout (cfg.go f)) := by
  rw [execWeldCmd_gout, Assign.puts_map_of_mem hcfg.go GoField.nodup_all f.mem_all]

theorem execWeldCmd_do {cfg : WeldCfg} (hcfg : cfg.Distinct) (cmd : IndWeldCmd) (out : Outputs)
    (f : DoField) : (execWeldCmd cmd cfg out).1.dout (cfg.dout f) =
      (doValue (cmd.weldCmdData.dout f)).getD (out.dout (cfg.dout f)) := by
  rw [execWeldCmd_dout, Assign.puts_map_of_mem hcfg.dout DoField.nodup_all f.mem_all]

theorem execWeldCmd_go_other {cfg : WeldCfg} (cmd : IndWeldCmd) (out : Outputs) {i : Int}
    (h : ∀ f, cmd.weldCmdData.go f ≠ NO_CHANGE → cfg.go f ≠ i) :
    (execWeldCmd cmd cfg out).1.gout i = out.gout i := by
  rw [execWeldCmd_gout]
  refine Assign.puts_map_of_forall_ne fun f _ hv => h f fun hn => hv ?_
  rw [goValue, if_neg (not_not.mpr hn)]

theorem execWeldCmd_do_other {cfg : WeldCfg} (cmd : IndWeldCmd) (out : Outputs) {i : Int}
    (h : ∀ f, cmd.weldCmdData.dout f ≠ NO_CHANGE → cfg.dout f ≠ i) :
    (execWeldCmd cmd cfg out).1.dout i = out.dout i := by
  rw [execWeldCmd_dout]
  refine Assign.puts_map_of_forall_ne fun f _ hv => h f fun hn => hv ?_
  rw [doValue, if_neg (not_not.mpr hn)]

/-! ## What a command is for -/

/-- The outputs after a command: an output mapped to a field that is not `NO_CHANGE` takes
the field's value (a digital one is ON for 1), any other stays as it was. -/
def applyCommand (cfg : WeldCfg) (out : Outputs) (m : WeldCommand) : Outputs where
  gout i :=
    match GoField.all.find? fun f => cfg.go f = i ∧ m.go f ≠ NO_CHANGE with
    | some f => m.go f
    | none => out.gout i
  dout i :=
    match DoField.all.find? fun f => cfg.dout f = i ∧ m.dout f ≠ NO_CHANGE with
    | some f => decide (m.dout f = 1)
    | none => out.dout i

theorem execWeldCmd_gout_eq {cfg : WeldCfg} (hcfg : cfg.Distinct) (cmd : IndWeldCmd)
    (out : Outputs) {m : WeldCommand} (hgo : cmd.weldCmdData.go = m.go) :
    (execWeldCmd cmd cfg out).1.gout = (applyCommand cfg out m).gout := by
  funext i
  unfold applyCommand
  dsimp only
  split
  · rename_i f hf
    have hfound := List.find?_some hf
    obtain ⟨rfl, hne⟩ := of_decide_eq_true hfound
    rw [execWeldCmd_go hcfg, hgo, goValue, if_pos hne, Option.getD_some]
  · rename_i hnone
    rw [List.find?_eq_none] at hnone
    apply execWeldCmd_go_other
    intro f hne heq
    rw [hgo] at hne
    exact hnone f f.mem_all (decide_eq_true ⟨heq, hne⟩)

theorem execWeldCmd_dout_eq {cfg : WeldCfg} (hcfg : cfg.Distinct) (cmd : IndWeldCmd)
    (out : Outputs) {m : WeldCommand} (hdo : cmd.weldCmdData.dout = m.dout)
    (hdom : ∀ f, m.dout f = 0 ∨ m.dout f = 1 ∨ m.dout f = NO_CHANGE) :
    (execWeldCmd cmd cfg out).1.dout = (applyCommand cfg out m).dout := by
  funext i
  unfold applyCommand
  dsimp only
  split
  · rename_i f hf
    have hfound := List.find?_some hf
    obtain ⟨rfl, hne⟩ := of_decide_eq_true hfound
    rw [execWeldCmd_do hcfg, hdo, doValue, if_pos hne, Option.getD_some]
    rcases hdom f with h | h | h
    · rw [h]
      rfl
    · rw [h]
      rfl
    · exact absurd h hne
  · rename_i hnone
    rw [List.find?_eq_none] at hnone
    apply execWeldCmd_do_other
    intro f hne heq
    rw [hdo] at hne
    exact hnone f f.mem_all (decide_eq_true ⟨heq, hne⟩)

/-- **The relay applies the command** the node packed, whatever packet was there before. -/
theorem execWeldCmd_eq_apply {cfg : WeldCfg} (hcfg : cfg.Distinct) (p : IndWeldCmd)
    (seqNr : Word) (out : Outputs) {m : WeldCommand}
    (hdom : ∀ f, m.dout f = 0 ∨ m.dout f = 1 ∨ m.dout f = NO_CHANGE) :
    execWeldCmd (p.assign (commandPacket seqNr m).words) cfg out = (applyCommand cfg out m, 0) := by
  obtain ⟨hgo, hdo⟩ := assign_packet p seqNr m
  have hgout := execWeldCmd_gout_eq hcfg (p.assign (commandPacket seqNr m).words) out hgo
  have hdout := execWeldCmd_dout_eq hcfg (p.assign (commandPacket seqNr m).words) out hdo hdom
  refine Prod.ext ?_ rfl
  rw [show (execWeldCmd (p.assign (commandPacket seqNr m).words) cfg out).1 =
    ⟨(execWeldCmd (p.assign (commandPacket seqNr m).words) cfg out).1.gout,
      (execWeldCmd (p.assign (commandPacket seqNr m).words) cfg out).1.dout⟩ from rfl, hgout, hdout]

/-! ## Documented commands -/

/-- A command whose fields in `S` and `T` have values `WeldCommand.msg` documents and whose
other fields are unused. -/
structure Documented (m : WeldCommand) (S : GoField → Prop) (T : DoField → Prop) : Prop where
  correction : S .correctionVal → -999 ≤ m.correctionVal.toInt ∧ m.correctionVal.toInt ≤ 999
  go : ∀ f, S f → f ≠ .correctionVal → 0 ≤ (m.go f).toInt
  dout : ∀ f, T f → m.dout f ≠ NO_CHANGE
  goUnused : ∀ f, ¬ S f → m.go f = NO_CHANGE
  doutUnused : ∀ f, ¬ T f → m.dout f = NO_CHANGE

/-- The documented effect: the number for a group output, ON for any non-zero value of a
digital one, and nothing else changed. -/
structure CommandedEffect (cfg : WeldCfg) (m : WeldCommand) (S : GoField → Prop)
    (T : DoField → Prop) (out out' : Outputs) : Prop where
  go : ∀ f, S f → out'.gout (cfg.go f) = m.go f
  dout : ∀ f, T f → out'.dout (cfg.dout f) = decide (m.dout f ≠ 0)
  goOther : ∀ i, (∀ f, S f → cfg.go f ≠ i) → out'.gout i = out.gout i
  doutOther : ∀ i, (∀ f, T f → cfg.dout f ≠ i) → out'.dout i = out.dout i

theorem sign_test_iff {v : Word} : decide (0 < v.toInt) = decide (v ≠ 0) ↔ 0 ≤ v.toInt := by
  have hzero : v = 0 ↔ v.toInt = 0 := by
    constructor
    · intro h
      rw [h]
      rfl
    · intro h
      exact BitVec.eq_of_toInt_eq h
  rw [decide_eq_decide, ne_eq, hzero]
  omega

/-- **When a documented command has the documented effect.** Unless the correction is set to -1
while the output has another value, or a digital field is below zero. -/
theorem execWeldCmd_documented_iff {cfg : WeldCfg} (hcfg : cfg.Distinct) (p : IndWeldCmd)
    (seqNr : Word) (out : Outputs) {m : WeldCommand} {S : GoField → Prop} {T : DoField → Prop}
    (hm : Documented m S T) :
    CommandedEffect cfg m S T out
        (execWeldCmd (p.assign (commandPacket seqNr m).words) cfg out).1 ↔
      (S .correctionVal → m.correctionVal = -1 → out.gout cfg.correctionGo = -1) ∧
        ∀ f, T f → 0 ≤ (m.dout f).toInt := by
  obtain ⟨hgo, hdo⟩ := assign_packet p seqNr m
  generalize p.assign (commandPacket seqNr m).words = cmd at hgo hdo
  have hgout := fun f => execWeldCmd_go hcfg cmd out f
  have hdout := fun f => execWeldCmd_do hcfg cmd out f
  rw [hgo] at hgout
  rw [hdo] at hdout
  constructor
  · intro h
    constructor
    · intro hS hcorr
      have hv : m.go .correctionVal = NO_CHANGE := hcorr
      have hkeep := hgout .correctionVal
      rw [h.go _ hS, hv, goValue, if_neg (not_not.mpr rfl), Option.getD_none] at hkeep
      exact hkeep.symm
    · intro f hT
      have hset := hdout f
      rw [h.dout f hT, doValue, if_pos (hm.dout f hT), Option.getD_some] at hset
      exact sign_test_iff.mp hset.symm
  · rintro ⟨hcorr, hpos⟩
    constructor
    · intro f hS
      rw [hgout]
      by_cases hv : m.go f = NO_CHANGE
      · -- only the correction may have the value that means no change
        have hf : f = .correctionVal := by
          apply Decidable.not_not.mp
          intro hne
          have := hm.go f hS hne
          rw [hv] at this
          exact absurd this (by decide)
        subst hf
        rw [goValue, if_neg (not_not.mpr hv), Option.getD_none, hv]
        exact hcorr hS hv
      · rw [goValue, if_pos hv, Option.getD_some]
    · intro f hT
      rw [hdout, doValue, if_pos (hm.dout f hT), Option.getD_some, sign_test_iff]
      exact hpos f hT
    · intro i hi
      apply execWeldCmd_go_other
      intro f hne
      apply hi f
      by_contra hS
      exact hne (by rw [hgo, hm.goUnused f hS])
    · intro i hi
      apply execWeldCmd_do_other
      intro f hne
      apply hi f
      by_contra hT
      exact hne (by rw [hdo, hm.doutUnused f hT])

/-- The default I/O mapping of `check_cfg_`. -/
def weldCfgDefault : WeldCfg where
  loopHz := 10
  hbEn := false
  wireGo := 3
  correctionGo := 4
  dynGo := 5
  modeGo := 6
  stdPulseGo := 7
  progNumGo := 2
  arcStartDo := 253
  gasDo := 255
  jogFeedDo := 257
  jogRetractDo := 259

theorem weldCfgDefault_distinct : weldCfgDefault.Distinct where
  go := by
    intro f g h
    cases f <;> cases g <;> first | rfl | exact absurd h (by decide)
  dout := by
    intro f g h
    cases f <;> cases g <;> first | rfl | exact absurd h (by decide)

/-- Program 5, correction 0 and gas on, nothing else. -/
def startGas : WeldCommand := ⟨-1, 0, -1, -1, -1, 5, -1, 1, -1, -1⟩

theorem startGas_documented :
    Documented startGas (fun f => f = .correctionVal ∨ f = .programNumber) (· = .gasControl) where
  correction := by decide
  go := by
    rintro f (rfl | rfl) hne
    · exact absurd rfl hne
    · decide
  dout := by
    rintro f rfl
    decide
  goUnused := by
    intro f hf
    cases f <;> first | rfl | exact absurd (by simp) hf
  doutUnused := by
    intro f hf
    cases f <;> first | rfl | exact absurd rfl hf

theorem execWeldCmd_documented_startGas :
    CommandedEffect weldCfgDefault startGas (fun f => f = .correctionVal ∨ f = .programNumber)
      (· = .gasControl) ⟨fun _ => 0, fun _ => false⟩
      (execWeldCmd (weldCmdInit.assign (commandPacket 1 startGas).words) weldCfgDefault
        ⟨fun _ => 0, fun _ => false⟩).1 :=
  (execWeldCmd_documented_iff weldCfgDefault_distinct weldCmdInit 1 _ startGas_documented).mpr
    ⟨fun _ h => absurd h (by decide), fun f h => by rw [h]; decide⟩

/-- Correction -1 with gas set by a negative number: the correction stays 5, the gas stays
off. -/
def correctDown : WeldCommand := ⟨-1, -1, -1, -1, -1, -1, -1, -2, -1, -1⟩

theorem execWeldCmd_drops_correction :
    Documented correctDown (· = .correctionVal) (· = .gasControl) ∧
      ¬ CommandedEffect weldCfgDefault correctDown (· = .correctionVal) (· = .gasControl)
        ⟨fun i => if i = 4 then 5 else 0, fun _ => false⟩
        (execWeldCmd (weldCmdInit.assign (commandPacket 1 correctDown).words) weldCfgDefault
          ⟨fun i => if i = 4 then 5 else 0, fun _ => false⟩).1 := by
  refine ⟨⟨by decide, ?_, ?_, ?_, ?_⟩, ?_⟩
  · intro f hS hne
    exact absurd hS hne
  · rintro f rfl
    decide
  · intro f hf
    cases f <;> rfl
  · intro f hf
    cases f <;> first | rfl | exact absurd rfl hf
  · intro h
    exact absurd (h.go .correctionVal rfl) (by decide)

end FanucDriver
