import FanucDriver.WeldState.Mixed

/-!
# Standard frames, for either receiver

`weld_state.launch` lets the user choose the receiver.  On streams of standard frames (length 53,
type 15, communication type 1, a number, nine integers, a CR) that have arrived in full, the
Simple Message receiver publishes a message for every frame, of what is in the memory that the
frame's buffer was in.  The TCP receiver takes a last byte of the payload that is CR or LF for a
terminator, and skips the frame.

* `StandardFrame`, `standardStream`.
* `TcpNode.decodeRemainder_standard`, `TcpNode.iter_standard` — one frame; `TcpNode.run_standard`,
  `SimpleNode.run_standard` — the streams.
* `run_agree_iff` — when the two publish the same; `run_disagree` — a frame for which they do not.
-/

set_option autoImplicit false

namespace FanucDriver

open Wire Node

structure StandardFrame where
  reply : Word
  seqNr : Word
  fields : Vector Word 9
  deriving DecidableEq, Repr

namespace StandardFrame

/-- What the header announces, but for the CR. -/
def body (o : ByteOrder) (f : StandardFrame) : Bytes := encodeAll o (f.seqNr :: f.fields.toList)

def bytes (o : ByteOrder) (f : StandardFrame) : Bytes :=
  encodeAll o [53, 15, 1, f.reply] ++ (f.body o ++ [0x0D])

/-- The message of its nine integers. -/
def state (f : StandardFrame) : WeldState := fieldsMsg f.fields

/-- The last byte of the payload is CR or LF. -/
def endsInTerminator (o : ByteOrder) (f : StandardFrame) : Bool :=
  (encode o (f.fields.get 8)).getLast?.any isTerminator

end StandardFrame

def standardStream (o : ByteOrder) (fs : List StandardFrame) : Bytes :=
  (fs.map (StandardFrame.bytes o)).flatten

theorem standardStream_cons (o : ByteOrder) (f : StandardFrame) (fs : List StandardFrame) :
    standardStream o (f :: fs) = f.bytes o ++ standardStream o fs := rfl

theorem standardStream_clean (o : ByteOrder) (fs : List StandardFrame) :
    Clean (standardStream o fs) := by
  cases fs with
  | nil => exact clean_nil
  | cons f fs =>
    have hne : encodeAll o [53, 15, 1, f.reply] ≠ [] := by
      rw [← List.length_pos_iff]
      simp
    have hclean := clean_header o (n := 53) (by omega) (by omega) f.reply
    rw [standardStream_cons, StandardFrame.bytes, List.append_assoc]
    exact hclean.append hne _

namespace TcpNode

/-- With a terminator at the end of the payload 39 bytes are left, which is no size at all. -/
theorem decodeRemainder_standard (o : ByteOrder) (d : Bool) (f : StandardFrame) :
    decodeRemainder (launchDump o d) (f.body o ++ [0x0D]) =
      if f.endsInTerminator o then .skip else .state f.state := by
  cases hlast : f.endsInTerminator o with
  | false =>
    exact decodeRemainder_weld o d f.seqNr f.fields hlast
  | true =>
    have htrim := trimBytes_weld o f.seqNr f.fields
    have hlen := encodeAll_fields_length o f.seqNr f.fields
    rw [show (encode o f.fields[8]).getLast?.any isTerminator = true from hlast] at htrim
    rw [StandardFrame.body, decodeRemainder_eq o d htrim, List.length_append, hlen, classify,
      if_neg (by decide), if_neg (by decide)]
    rfl

/-- **One standard frame**, with everything behind it arrived: it is gone, and its state is
published or not. -/
theorem iter_standard (o : ByteOrder) (f : StandardFrame) (fs : List StandardFrame) {s : RunState}
    (hsock : s.sock = ⟨standardStream o (f :: fs), []⟩) :
    (iter (launch o) s).sock = ⟨standardStream o fs, []⟩ ∧
      (iter (launch o) s).attempts = s.attempts ∧ (iter (launch o) s).status = s.status ∧
      (iter (launch o) s).published =
        s.published ++ if f.endsInTerminator o then [] else [f.state] := by
  have hlen : (f.body o ++ [0x0D]).length = 41 := by
    rw [List.length_append, StandardFrame.body, encodeAll_fields_length]
    rfl
  have hbytes : (f.bytes o).length = 16 + (f.body o ++ [0x0D]).length := by
    rw [StandardFrame.bytes, List.length_append, encodeAll_length]
    rfl
  have hall : s.sock.all = weldHeader o (12 + (f.body o ++ [0x0D]).length) f.reply ++
      ((f.body o ++ [0x0D]) ++ standardStream o fs) := by
    rw [hsock, hlen, standardStream_cons, Channel.all, List.append_nil, StandardFrame.bytes,
      List.append_assoc]
    rfl
  have hiter := iter_weldFrame o true s hall (by omega) (by omega) (fun _ => by omega)
  rw [← hbytes, hsock, standardStream_cons, consume_arrived, decodeRemainder_standard] at hiter
  rw [show launch o = launchDump o true from rfl, hiter]
  cases f.endsInTerminator o with
  | true => exact ⟨rfl, rfl, rfl, (List.append_nil _).symm⟩
  | false => exact ⟨leftover_stay _ _ (standardStream_clean o fs), rfl, rfl, rfl⟩

/-- **A stream of standard frames**: those are skipped that end in a terminator twice. -/
theorem run_standard (o : ByteOrder) (fs : List StandardFrame) {s : RunState}
    (hsock : s.sock = ⟨standardStream o fs, []⟩) (hatt : s.attempts = [])
    (hrun : s.status = .running) :
    (run (launch o) s).published =
      s.published ++ (fs.filter fun f => !f.endsInTerminator o).map StandardFrame.state := by
  have R := receiver o true
  induction fs generalizing s with
  | nil =>
    have hend := R.run_end (by rw [hsock]; exact Nat.succ_pos 15) hatt hrun
    exact hend.1.trans (List.append_nil _).symm
  | cons f fs ih =>
    obtain ⟨hsock', hatt', hrun', hpub⟩ := iter_standard o f fs hsock
    have hstep : run (launch o) s = run (launch o) (iter (launch o) s) :=
      runAll_step R.measure hrun
    rw [hstep, ih hsock' (hatt'.trans hatt) (hrun'.trans hrun), hpub, List.append_assoc]
    cases hlast : f.endsInTerminator o with
    | true => simp [hlast]
    | false => simp [hlast]

end TcpNode

namespace SimpleNode

/-- A standard frame, for `Receiver.run_available`. -/
def ofStandard (o : ByteOrder) (f : StandardFrame) : Frame where
  standard := true
  reply := f.reply
  body := f.body o
  cr := true
  length := encodeAll_fields_length o f.seqNr f.fields

theorem frames_ofStandard (o : ByteOrder) (fs : List StandardFrame) :
    frames o (fs.map (ofStandard o)) = standardStream o fs := by
  rw [frames, standardStream, List.map_map]
  refine congrArg List.flatten (List.map_congr_left ?_)
  intro f _
  exact List.append_assoc _ _ _

theorem delivered_ofStandard (o : ByteOrder) (freed : Freed) (fs : List StandardFrame) (n : Nat) :
    delivered n ((fs.map (ofStandard o)).map (Frame.sent o freed)) =
      (List.range' n fs.length).map fun k => memoryMsg o (freed k) := by
  induction fs generalizing n with
  | nil => rfl
  | cons f fs ih =>
    simp only [List.map_cons, delivered, ih, List.length_cons, List.range'_succ]
    rfl

/-- **A stream of standard frames**: a message is published for every frame, of the memory. -/
theorem run_standard (o : ByteOrder) (freed : Freed) (fs : List StandardFrame) {s : RunState}
    (hsock : s.sock = ⟨standardStream o fs, []⟩) (hatt : s.attempts = [])
    (hrun : s.status = .running) :
    (run (launch o) freed s).published = s.published ++
      (List.range' s.msgCount fs.length).map fun k => memoryMsg o (freed k) := by
  rw [← delivered_ofStandard o freed fs s.msgCount]
  exact (receiver o freed).run_available (Frame.deliverable o freed (fs.map (ofStandard o)))
    (hsock.trans (by rw [stream_sent, frames_ofStandard])) hatt hrun

end SimpleNode

/-- Frames of which none is skipped, and messages that are their states. -/
theorem agree_iff (o : ByteOrder) (freed : SimpleNode.Freed) (fs : List StandardFrame) :
    (fs.filter fun f => !f.endsInTerminator o).map StandardFrame.state =
        ((List.range' 0 fs.length).map fun k => SimpleNode.memoryMsg o (freed k)) ↔
      (∀ f ∈ fs, f.endsInTerminator o = false) ∧
        ∀ k f, fs[k]? = some f → SimpleNode.memoryMsg o (freed k) = f.state := by
  have hmemory := SimpleNode.memoryMsgs_eq_iff o freed (fs.map StandardFrame.state)
  rw [List.length_map] at hmemory
  have hstate : (∀ k w, (fs.map StandardFrame.state)[k]? = some w →
      SimpleNode.memoryMsg o (freed k) = w) ↔
      ∀ k f, fs[k]? = some f → SimpleNode.memoryMsg o (freed k) = f.state := by
    constructor
    · intro h k f hk
      exact h k f.state (by rw [List.getElem?_map, hk]; rfl)
    · intro h k w hk
      rw [List.getElem?_map, Option.map_eq_some_iff] at hk
      obtain ⟨f, hf, rfl⟩ := hk
      exact h k f hf
  constructor
  · intro h
    have hlen := congrArg List.length h
    rw [List.length_map, List.length_map, List.length_range', List.length_filter_eq_length_iff]
      at hlen
    have hkept : ∀ f ∈ fs, (!f.endsInTerminator o) = true := hlen
    rw [List.filter_eq_self.mpr hkept] at h
    refine ⟨?_, hstate.mp (hmemory.mp h.symm)⟩
    intro f hf
    simpa using hkept f hf
  · rintro ⟨hkept, hmem⟩
    rw [List.filter_eq_self.mpr, hmemory.mpr (hstate.mpr hmem)]
    intro f hf
    simp [hkept f hf]

/-- **When the receivers are interchangeable.**  On every stream of standard frames, in either byte
order, whatever the peeks see arrive and whatever is in the memory of the buffers that the Simple
Message receiver has destroyed: they publish the same if and only if no payload ends in CR or LF
and that memory makes the state of every frame.  For every memory they do only where there is no
frame. -/
theorem run_agree_iff (o : ByteOrder) (fs : List StandardFrame) (ks ks' : List Nat) :
    (∀ freed, (TcpNode.run (TcpNode.launch o) (connected ⟨standardStream o fs, []⟩ ks)).published =
        (SimpleNode.run (SimpleNode.launch o) freed
          (connected ⟨standardStream o fs, []⟩ ks')).published ↔
      (∀ f ∈ fs, f.endsInTerminator o = false) ∧
        ∀ k f, fs[k]? = some f → SimpleNode.memoryMsg o (freed k) = f.state) ∧
    ((∀ freed, (TcpNode.run (TcpNode.launch o) (connected ⟨standardStream o fs, []⟩ ks)).published =
        (SimpleNode.run (SimpleNode.launch o) freed
          (connected ⟨standardStream o fs, []⟩ ks')).published) ↔ fs = []) := by
  have hagree : ∀ freed,
      (TcpNode.run (TcpNode.launch o) (connected ⟨standardStream o fs, []⟩ ks)).published =
        (SimpleNode.run (SimpleNode.launch o) freed
          (connected ⟨standardStream o fs, []⟩ ks')).published ↔
      (∀ f ∈ fs, f.endsInTerminator o = false) ∧
        ∀ k f, fs[k]? = some f → SimpleNode.memoryMsg o (freed k) = f.state := by
    intro freed
    rw [TcpNode.run_standard o fs (s := connected ⟨standardStream o fs, []⟩ ks) rfl rfl rfl,
      SimpleNode.run_standard o freed fs (s := connected ⟨standardStream o fs, []⟩ ks') rfl rfl rfl]
    exact agree_iff o freed fs
  refine ⟨hagree, ?_⟩
  constructor
  · intro h
    cases fs with
    | nil => rfl
    | cons f fs =>
      have hcleared := ((hagree SimpleNode.cleared).mp (h _)).2 0 f rfl
      have hones := ((hagree SimpleNode.ones).mp (h _)).2 0 f rfl
      exact absurd (hcleared.trans hones.symm) (SimpleNode.memoryMsg_ones_ne o 0)
  · rintro rfl freed
    exact (hagree freed).mpr (by simp)

/-- A motor current of 13, in big-endian order, whatever the memory holds; and one of 120 where the
memory has been cleared. -/
theorem run_disagree :
    (TcpNode.run (TcpNode.launch .big) (connected ⟨standardStream .big
        [⟨0, 1, #v[1, 0, 0, 0, 0, 2000, 1500, 800, 13]⟩], []⟩ [])).published = [] ∧
    (∀ freed : SimpleNode.Freed, (SimpleNode.run (SimpleNode.launch .big) freed
        (connected ⟨standardStream .big
          [⟨0, 1, #v[1, 0, 0, 0, 0, 2000, 1500, 800, 13]⟩], []⟩ [])).published.length = 1) ∧
    (TcpNode.run (TcpNode.launch .big) (connected ⟨standardStream .big
        [⟨0, 1, #v[1, 0, 0, 0, 0, 2000, 1500, 800, 120]⟩], []⟩ [])).published =
      [⟨true, false, false, 0, 0, 2000, 1500, 800, 120⟩] ∧
    (SimpleNode.run (SimpleNode.launch .big) SimpleNode.cleared (connected ⟨standardStream .big
        [⟨0, 1, #v[1, 0, 0, 0, 0, 2000, 1500, 800, 120]⟩], []⟩ [])).published =
      [⟨false, false, false, 0, 0, 0, 0, 0, 0⟩] := by
  refine ⟨by decide +kernel, ?_, by decide +kernel, by decide +kernel⟩
  intro freed
  rw [SimpleNode.run_standard .big freed _ rfl rfl rfl]
  rfl

end FanucDriver
