import FanucDriver.Karel.Packet

/-!
# The welding state sender (`ros_weld_state_reader.kl`)

* `WeldStateT`, `IndWeld` — `weld_state_t` and `ind_weld_t`.
* `weldPktHdr` — the header of `weld_pkt_out_`, set once at program start.
* `iwdSrlise` — the serialiser, with the global sequence number it increments.
* `readerStream` — what the transmission loop puts on one connection.
-/

set_option autoImplicit false

namespace FanucDriver

open Wire

/-- `RI_MT_WELDST` (`libind_weld_t.kl`). -/
def RI_MT_WELDST : Word := 15

/-- `weld_state_t`. -/
structure WeldStateT where
  arcOk : Bool
  powerErr : Bool
  deposDi : Bool
  ewmErr : Word
  warnState : Word
  actVoltage : Word
  actCurrent : Word
  actWireSpd : Word
  motCurr : Word
  deriving DecidableEq, Repr

/-- `ind_weld_t`. -/
structure IndWeld where
  hdr : IndHdr
  weldData : WeldStateT
  deriving DecidableEq, Repr

/-- The header of `weld_pkt_out_`. -/
def weldPktHdr : IndHdr where
  length := 49
  msgType := RI_MT_WELDST
  commType := RI_CT_TOPIC
  replyType := RI_RT_INVAL

/-- `IF b THEN bool_int = 1; ELSE bool_int = 0; ENDIF` -/
def boolInt (b : Bool) : Word := if b then 1 else 0

/-- The payload in the order in which it is written. -/
def WeldStateT.words (s : WeldStateT) : List Word :=
  [boolInt s.arcOk, boolInt s.powerErr, boolInt s.deposDi, s.ewmErr, s.warnState, s.actVoltage,
    s.actCurrent, s.actWireSpd, s.motCurr]

/-- `iwd_srlise`: the bytes sent, the value returned and `seq_nr_` afterwards. -/
def iwdSrlise (o : ByteOrder) (cr : Bool) (os : List WriteOutcome) (seqNr : Word) (pkt : IndWeld) :
    Bytes × Int × Word :=
  let hdr := writeSeq os (pkt.hdr.words.map (encode o))
  if hdr.2 ≠ 0 then (hdr.1, -hdr.2, seqNr)
  else
    let seqNr := seqNr + 1
    let body := writeSeq (os.drop 4)
      ((seqNr :: pkt.weldData.words).map (encode o) ++ [crBytes cr])
    (hdr.1 ++ body.1, -body.2, seqNr)

/-- What the transmission loop sends for the states it reads, when no `WRITE` fails. -/
def readerStream (o : ByteOrder) (cr : Bool) : Word → List WeldStateT → Bytes
  | _, [] => []
  | seqNr, s :: ss =>
    let r := iwdSrlise o cr [] seqNr ⟨weldPktHdr, s⟩
    r.1 ++ readerStream o cr r.2.2 ss

end FanucDriver
