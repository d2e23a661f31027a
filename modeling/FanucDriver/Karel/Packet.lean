import FanucDriver.Karel.File

/-!
# Joint packets (`libind_pkt`)

The header `ind_hdr_t`, the packet type shared by `ros_relay`, `ros_state` and (as reply)
`ros_weld_relay`, its constants (`libind_pkt_t.kl`), and the routines `ipkt_reset`,
`ipkt_srlise`, `ipkt_dsrlse` and `ipkt_checkfd`.
-/

set_option autoImplicit false

namespace FanucDriver

open Wire

/-! ## Constants (`libind_pkt_t.kl`) -/

def RI_SZ_HDR : Nat := 12
def RI_SZB_JPOS : Nat := 44
def RI_SZB_TRAJP : Nat := 52

def RI_SEQ_STRJD : Int := -1
def RI_SEQ_STRJS : Int := -2
def RI_SEQ_ETRAJ : Int := -3
def RI_SEQ_STPRJ : Int := -4

def RI_MT_JOINTP : Word := 10
def RI_MT_JTRAJP : Word := 11

def RI_CT_TOPIC : Word := 1
def RI_CT_SVCREQ : Word := 2
def RI_CT_SVCRPL : Word := 3

def RI_RT_INVAL : Word := 0
def RI_RT_SUCC : Word := 1
def RI_RT_FAIL : Word := 2

/-! ## The packet -/

/-- `ind_hdr_t`, the header on its own (`libind_hdr_t.kl`). -/
structure IndHdr where
  length : Word
  msgType : Word
  commType : Word
  replyType : Word
  deriving DecidableEq, Repr

def IndHdr.words (h : IndHdr) : List Word := [h.length, h.msgType, h.commType, h.replyType]

/-- `ind_pkt_t`; REALs are kept as the words that represent them. -/
structure IndPkt where
  length : Word
  msgType : Word
  commType : Word
  replyType : Word
  seqNr : Word
  jointData : Vector Word 10
  velocity : Word
  duration : Word
  deriving DecidableEq, Repr

/-- `ipkt_reset`, which `ipkt_ctor` calls. -/
def ipktReset : IndPkt where
  length := BitVec.ofNat 32 (RI_SZ_HDR + RI_SZB_JPOS)
  msgType := 0
  commType := 0
  replyType := 0
  seqNr := 0
  jointData := Vector.replicate 10 0
  velocity := 0
  duration := 0

/-- The fields every packet has, in the order in which they are written and read. -/
def IndPkt.words (p : IndPkt) : List Word :=
  [p.length, p.msgType, p.commType, p.replyType, p.seqNr] ++ p.jointData.toList

@[simp] theorem IndPkt.words_length (p : IndPkt) : p.words.length = 15 := by
  simp [IndPkt.words]

/-- `READ` into the fields, from the first on, as far as words were read. -/
def IndPkt.assign (p : IndPkt) (ws : List Word) : IndPkt :=
  { p with
    length := ws[0]?.getD p.length
    msgType := ws[1]?.getD p.msgType
    commType := ws[2]?.getD p.commType
    replyType := ws[3]?.getD p.replyType
    seqNr := ws[4]?.getD p.seqNr
    jointData := Vector.ofFn fun i => ws[5 + i.val]?.getD p.jointData[i] }

/-- `ipkt_srlise`: the packet with its length made correct, the bytes sent and the value
returned. -/
def ipktSrlise (o : ByteOrder) (cr : Bool) (os : List WriteOutcome) (p : IndPkt) :
    IndPkt × Bytes × Int :=
  let p := if p.msgType = RI_MT_JTRAJP then
      { p with length := BitVec.ofNat 32 (RI_SZ_HDR + RI_SZB_TRAJP) } else p
  let tail := if p.msgType = RI_MT_JTRAJP then [p.velocity, p.duration] else []
  let w := writeSeq os ((p.words ++ tail).map (encode o) ++ [crBytes cr])
  (p, w.1, -w.2)

/-- `ipkt_dsrlse`: the value returned, the packet and the channel; `none` while a `READ`
waits. -/
def ipktDsrlse (o : ByteOrder) (r : ReadOutcome) (p : IndPkt) (c : Channel) :
    Option (Int × IndPkt × Channel) :=
  match readFields o r 15 c with
  | none => none
  | some (ws, stat, c) =>
    let p := p.assign ws
    if stat ≠ 0 then some (-stat, p, c)
    else if p.msgType = RI_MT_JTRAJP ∧ (RI_SZ_HDR + RI_SZB_TRAJP : Int) ≤ p.length.toInt then
      match readFields o ⟨r.stat, r.got - 15⟩ 2 c with
      | none => none
      | some (ws, stat, c) =>
        some (-stat, { p with velocity := ws[0]?.getD p.velocity,
                              duration := ws[1]?.getD p.duration }, c)
    else some (0, p, c)

/-- `ipkt_checkfd`, with the status `BYTES_AHEAD` reports. -/
def ipktCheckfd (o : ByteOrder) (ahead : Nat) (r : ReadOutcome) (p : IndPkt) (c : Channel) :
    Option (Int × IndPkt × Channel) :=
  if ahead ≠ 0 then some (-ahead, p, c)
  else if RI_SZ_HDR + RI_SZB_JPOS ≤ c.buf.length then
    match ipktDsrlse o r p c with
    | none => none
    | some (stat, p, c) => if stat ≠ 0 then some (-(stat.natAbs : Int), p, c) else some (1, p, c)
  else some (0, p, c)

end FanucDriver
