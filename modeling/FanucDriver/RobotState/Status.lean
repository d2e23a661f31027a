import FanucDriver.Karel.Packet

/-!
# Robot status packets (`libind_rs`, `libind_hdr`)

* `ihdrSrlise` — the serialiser of a header, in a single `WRITE`.
* `IndRs`, `irsUpdate` — the status packet and how it is filled from what the controller says of
  itself (`Controller`).
* `irsTpcSrl` — the serialiser of the packet as a topic message.
-/

set_option autoImplicit false

namespace FanucDriver

open Wire

/-! ## The header on its own (`libind_hdr.kl`) -/

def RI_MT_INVAL : Word := 0
def RI_CT_INVAL : Word := 0

/-- `ihdr_reset` -/
def ihdrReset : IndHdr where
  length := 0
  msgType := RI_MT_INVAL
  commType := RI_CT_INVAL
  replyType := RI_RT_INVAL

/-- `ihdr_srlise`: the header, the bytes sent and the value returned. -/
def ihdrSrlise (o : ByteOrder) (os : List WriteOutcome) (h : IndHdr) : IndHdr × Bytes × Int :=
  let h := if h.length.toInt < RI_SZ_HDR then { h with length := BitVec.ofNat 32 RI_SZ_HDR } else h
  let w := writeSeq os [encodeAll o h.words]
  (h, w.1, -w.2)

/-! ## The status packet (`libind_rs.kl`) -/

def RI_MT_STATUS : Word := 13
def RS_SZ_TOPIC : Nat := 40

def RS_M_UNKNWN : Word := -1
def RS_M_MAN : Word := 1
def RS_M_AUTO : Word := 2

def TS_UNKNOWN : Word := -1
def TS_TRUE : Word := 1
def TS_FALSE : Word := 0

def MFS_EMGOP : Word := 1
def MFS_EMGTP : Word := 2
def MFS_DEADMAN : Word := 4
def MFS_EMGEX : Word := 64

/-- `ind_rs_t` -/
structure IndRs where
  header : IndHdr
  drvPwd : Word
  eStopped : Word
  errorCode : Word
  inError : Word
  inMotion : Word
  mode : Word
  mtnPsble : Word
  deriving DecidableEq, Repr

/-- `irs_reset` -/
def irsReset : IndRs where
  header := { ihdrReset with msgType := RI_MT_STATUS }
  drvPwd := TS_UNKNOWN
  eStopped := TS_UNKNOWN
  errorCode := TS_UNKNOWN
  inError := TS_UNKNOWN
  inMotion := TS_UNKNOWN
  mode := RS_M_UNKNWN
  mtnPsble := TS_UNKNOWN

/-- What `irs_update` reads: system variables, operator panel and teach pendant, the most recent
error, and whether the two programs run. -/
structure Controller where
  inAutoMode : Bool
  safetyStat : Word
  robMove : Bool
  sopoFault : Bool
  sopoHeld : Bool
  errCode : Word
  servoReady : Bool
  tpEnabled : Bool
  kyShift : Bool
  rosRelayRunning : Bool
  rosRunning : Bool
  deriving DecidableEq, Repr

/-- `mot_poss_` -/
def motPoss (c : Controller) (this : IndRs) (sstat : Word) : Bool :=
  if this.inError ≠ TS_FALSE then false
  else if c.sopoHeld then false
  else if this.drvPwd ≠ TS_TRUE then false
  else if this.mode ≠ RS_M_AUTO ∧ c.tpEnabled then
    decide (sstat &&& MFS_DEADMAN = 0) && c.kyShift
  else true

/-- `irs_update` -/
def irsUpdate (c : Controller) : IndRs :=
  let this := irsReset
  let this := { this with mode := if c.inAutoMode then RS_M_AUTO else RS_M_MAN }
  let this := { this with
    eStopped := if c.safetyStat &&& (MFS_EMGOP ||| MFS_EMGTP ||| MFS_EMGEX) ≠ 0 then TS_TRUE
      else TS_FALSE }
  let this := { this with inMotion := if c.robMove then TS_TRUE else TS_FALSE }
  let this := { this with
    inError := if c.sopoFault then TS_TRUE else TS_FALSE
    errorCode := if c.sopoFault then c.errCode else 0 }
  let this := { this with drvPwd := if c.servoReady then TS_TRUE else TS_FALSE }
  let this := { this with
    mtnPsble := if motPoss c this c.safetyStat then TS_TRUE else TS_FALSE }
  if ¬ c.rosRelayRunning ∨ ¬ c.rosRunning then { this with mtnPsble := TS_FALSE } else this

/-- The status words in the order in which they are written. -/
def IndRs.words (this : IndRs) : List Word :=
  [this.drvPwd, this.eStopped, this.errorCode, this.inError, this.inMotion, this.mode,
    this.mtnPsble]

@[simp] theorem IndRs.words_header (this : IndRs) (h : IndHdr) :
    ({ this with header := h } : IndRs).words = this.words := rfl

/-- `irs_tpc_srl`: the packet with its header set, the bytes sent and the value returned. -/
def irsTpcSrl (o : ByteOrder) (cr : Bool) (os : List WriteOutcome) (this : IndRs) :
    IndRs × Bytes × Int :=
  let hdr : IndHdr := {
    length := BitVec.ofNat 32 RS_SZ_TOPIC
    msgType := RI_MT_STATUS
    commType := RI_CT_TOPIC
    replyType := RI_RT_INVAL }
  let h := ihdrSrlise o os hdr
  let this := { this with header := h.1 }
  if h.2.2 ≠ 0 then (this, h.2.1, -(h.2.2.natAbs : Int))
  else
    let w := writeSeq (os.drop 1) [encodeAll o this.words ++ crBytes cr]
    (this, h.2.1 ++ w.1, -w.2)

end FanucDriver
