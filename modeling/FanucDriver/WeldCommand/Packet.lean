import FanucDriver.Karel.Packet

/-!
# Welding command packets

* `WeldCommand` — the ROS message, `WeldCommandPacket` — the node's packed struct with its two
  uses `commandPacket` and `heartbeatPacket`, `sendBuf` — the bytes sent.
* `IndWeldCmd` — the packet of `ros_weld_relay.kl`; `IndWeldCmd.assign` is the `READ` of its
  fifteen words, `IndWeldCmd.clear` the clearing at the end of an iteration.
* `GoField`, `DoField` — the ten payload fields by the kind of output they command.
* `assign_packet` — the relay's payload is the message's, field by field.
-/

set_option autoImplicit false

namespace FanucDriver

open Wire

/-! ## Constants -/

def RI_MT_WELDCMD : Word := 14

/-- Heartbeat frame sequence number. -/
def RI_SEQ_HB : Word := -110

/-- Sentinel value for unchanged parameters. -/
def NO_CHANGE : Word := -1

/-! ## The message and the node's packet -/

/-- `fanuc_driver/WeldCommand.msg` -/
structure WeldCommand where
  targetWireSpd : Word
  correctionVal : Word
  dynSetting : Word
  operationMode : Word
  stdPulseVal : Word
  programNumber : Word
  arcStartCmd : Word
  gasControl : Word
  jogFeedCmd : Word
  jogRetractCmd : Word
  deriving DecidableEq, Repr

structure WeldCommandPacket where
  length : Word
  msgType : Word
  commType : Word
  replyType : Word
  seqNr : Word
  targetWireSpd : Word
  correctionVal : Word
  dynSetting : Word
  operationMode : Word
  stdPulseVal : Word
  programNumber : Word
  arcStartCmd : Word
  gasControl : Word
  jogFeedCmd : Word
  jogRetractCmd : Word
  deriving DecidableEq, Repr

/-- The packet of `commandCallback`. -/
def commandPacket (seqNr : Word) (msg : WeldCommand) : WeldCommandPacket where
  length := 60
  msgType := RI_MT_WELDCMD
  commType := 1
  replyType := 0
  seqNr := seqNr
  targetWireSpd := msg.targetWireSpd
  correctionVal := msg.correctionVal
  dynSetting := msg.dynSetting
  operationMode := msg.operationMode
  stdPulseVal := msg.stdPulseVal
  programNumber := msg.programNumber
  arcStartCmd := msg.arcStartCmd
  gasControl := msg.gasControl
  jogFeedCmd := msg.jogFeedCmd
  jogRetractCmd := msg.jogRetractCmd

/-- The packet of `heartbeatCallback`. -/
def heartbeatPacket : WeldCommandPacket where
  length := 60
  msgType := RI_MT_WELDCMD
  commType := 1
  replyType := 0
  seqNr := RI_SEQ_HB
  targetWireSpd := NO_CHANGE
  correctionVal := NO_CHANGE
  dynSetting := NO_CHANGE
  operationMode := NO_CHANGE
  stdPulseVal := NO_CHANGE
  programNumber := NO_CHANGE
  arcStartCmd := NO_CHANGE
  gasControl := NO_CHANGE
  jogFeedCmd := NO_CHANGE
  jogRetractCmd := NO_CHANGE

/-- The struct in memory, word by word. -/
def WeldCommandPacket.words (p : WeldCommandPacket) : List Word :=
  [p.length, p.msgType, p.commType, p.replyType, p.seqNr, p.targetWireSpd, p.correctionVal,
    p.dynSetting, p.operationMode, p.stdPulseVal, p.programNumber, p.arcStartCmd, p.gasControl,
    p.jogFeedCmd, p.jogRetractCmd]

/-- `send_buf`: a copy of the struct, its words through `htonl` unless the robot is
little-endian. -/
def sendBuf (o : ByteOrder) (p : WeldCommandPacket) : Bytes :=
  encodeAll .little (p.words.map (hostOrder o))

theorem sendBuf_eq (o : ByteOrder) (p : WeldCommandPacket) :
    sendBuf o p = encodeAll o p.words := by
  simp only [sendBuf, encodeAll, List.flatMap_map, encode_little_hostOrder]

@[simp] theorem sendBuf_length (o : ByteOrder) (p : WeldCommandPacket) :
    (sendBuf o p).length = 60 := by
  rw [sendBuf_eq, encodeAll_length]
  rfl

/-! ## The relay's packet -/

/-- `ind_weld_cmd_data_t` -/
structure IndWeldCmdData where
  targetWireSpd : Word
  correctionVal : Word
  dynSetting : Word
  operationMode : Word
  stdPulseVal : Word
  programNumber : Word
  arcStartCmd : Word
  gasControl : Word
  jogFeedCmd : Word
  jogRetractCmd : Word
  deriving DecidableEq, Repr

/-- `ind_weld_cmd_t` -/
structure IndWeldCmd where
  hdr : IndHdr
  seqNr : Word
  weldCmdData : IndWeldCmdData
  deriving DecidableEq, Repr

def IndWeldCmdData.zero : IndWeldCmdData := ⟨0, 0, 0, 0, 0, 0, 0, 0, 0, 0⟩

/-- `weld_cmd_in_` at program start. -/
def weldCmdInit : IndWeldCmd where
  hdr := {
    length := BitVec.ofNat 32 (RI_SZ_HDR + 4 + 40)
    msgType := RI_MT_WELDCMD
    commType := RI_CT_SVCREQ
    replyType := RI_RT_INVAL }
  seqNr := 0
  weldCmdData := .zero

/-- `READ` into the fields, as far as words were read. -/
def IndWeldCmd.assign (p : IndWeldCmd) (ws : List Word) : IndWeldCmd where
  hdr := {
    length := ws[0]?.getD p.hdr.length
    msgType := ws[1]?.getD p.hdr.msgType
    commType := ws[2]?.getD p.hdr.commType
    replyType := ws[3]?.getD p.hdr.replyType }
  seqNr := ws[4]?.getD p.seqNr
  weldCmdData := {
    targetWireSpd := ws[5]?.getD p.weldCmdData.targetWireSpd
    correctionVal := ws[6]?.getD p.weldCmdData.correctionVal
    dynSetting := ws[7]?.getD p.weldCmdData.dynSetting
    operationMode := ws[8]?.getD p.weldCmdData.operationMode
    stdPulseVal := ws[9]?.getD p.weldCmdData.stdPulseVal
    programNumber := ws[10]?.getD p.weldCmdData.programNumber
    arcStartCmd := ws[11]?.getD p.weldCmdData.arcStartCmd
    gasControl := ws[12]?.getD p.weldCmdData.gasControl
    jogFeedCmd := ws[13]?.getD p.weldCmdData.jogFeedCmd
    jogRetractCmd := ws[14]?.getD p.weldCmdData.jogRetractCmd }

/-- What is cleared after a command has been processed: not the communication and the reply
type. -/
def IndWeldCmd.clear (p : IndWeldCmd) : IndWeldCmd where
  hdr := { p.hdr with length := 0, msgType := 0 }
  seqNr := 0
  weldCmdData := .zero

/-! ## Fields -/

/-- The fields that set a group output, in the order in which the relay writes them. -/
inductive GoField where
  | programNumber
  | targetWireSpd
  | correctionVal
  | dynSetting
  | operationMode
  | stdPulseVal
  deriving DecidableEq, Repr

/-- The fields that set a digital output. -/
inductive DoField where
  | arcStartCmd
  | gasControl
  | jogFeedCmd
  | jogRetractCmd
  deriving DecidableEq, Repr

def GoField.all : List GoField :=
  [.programNumber, .targetWireSpd, .correctionVal, .dynSetting, .operationMode, .stdPulseVal]

def DoField.all : List DoField := [.arcStartCmd, .gasControl, .jogFeedCmd, .jogRetractCmd]

theorem GoField.mem_all (f : GoField) : f ∈ GoField.all := by
  cases f <;> decide

theorem DoField.mem_all (f : DoField) : f ∈ DoField.all := by
  cases f <;> decide

theorem GoField.nodup_all : GoField.all.Nodup := by decide

theorem DoField.nodup_all : DoField.all.Nodup := by decide

def WeldCommand.go (m : WeldCommand) : GoField → Word
  | .programNumber => m.programNumber
  | .targetWireSpd => m.targetWireSpd
  | .correctionVal => m.correctionVal
  | .dynSetting => m.dynSetting
  | .operationMode => m.operationMode
  | .stdPulseVal => m.stdPulseVal

def WeldCommand.dout (m : WeldCommand) : DoField → Word
  | .arcStartCmd => m.arcStartCmd
  | .gasControl => m.gasControl
  | .jogFeedCmd => m.jogFeedCmd
  | .jogRetractCmd => m.jogRetractCmd

def IndWeldCmdData.go (d : IndWeldCmdData) : GoField → Word
  | .programNumber => d.programNumber
  | .targetWireSpd => d.targetWireSpd
  | .correctionVal => d.correctionVal
  | .dynSetting => d.dynSetting
  | .operationMode => d.operationMode
  | .stdPulseVal => d.stdPulseVal

def IndWeldCmdData.dout (d : IndWeldCmdData) : DoField → Word
  | .arcStartCmd => d.arcStartCmd
  | .gasControl => d.gasControl
  | .jogFeedCmd => d.jogFeedCmd
  | .jogRetractCmd => d.jogRetractCmd

/-- **No field is swapped** on the way from the message to the relay's packet. -/
theorem assign_packet (p : IndWeldCmd) (seqNr : Word) (m : WeldCommand) :
    (p.assign (commandPacket seqNr m).words).weldCmdData.go = m.go ∧
      (p.assign (commandPacket seqNr m).words).weldCmdData.dout = m.dout := by
  constructor
  · funext f
    cases f <;> rfl
  · funext f
    cases f <;> rfl

end FanucDriver
