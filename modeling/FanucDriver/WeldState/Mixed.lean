import FanucDriver.WeldState.Schedules
import FanucDriver.WeldState.SimpleStream

/-!
# Welding state frames among others

Streams of frames of which some are of other types, with all bytes available.  The TCP receiver
discards as many bytes as the length word of a refused header says, although it has read twelve
of them already; the Simple Message receiver discards none and counts an error.

* `Item`, `Item.bytes`, `states` — the streams and what they stand for; `fieldsMsg` is the message
  of nine integers.
* `TcpNode.iter_other`, `TcpNode.run_alone` — another frame, and that it costs a state when
  welding state frames follow it.
* `SimpleNode.runAll_blocks` — bytes of other frames that are refused, 16 at a time.
* `TcpNode.Harmless`, `SimpleNode.Harmless`, `run_mixed` — the streams in which the other frames
  do no harm.  Of these the TCP receiver publishes the states, and the Simple Message receiver as
  many messages, each for what is in the memory that it reads.
-/

set_option autoImplicit false

namespace FanucDriver

open Wire Node

/-- A well-formed frame: a welding state of length 53 (number, nine integers of which the last does
not end in CR or LF, a CR), or one of another type. -/
inductive Item (o : ByteOrder) where
  | weld (reply seqNr : Word) (fields : Vector Word 9)
      (last : (encode o fields[8]).getLast?.any isTerminator = false)
  | other (msgType commType reply : Word) (body : Bytes) (type : msgType ≠ 15)
      (fits : 12 + body.length < 4294967296)

/-- The message of nine integers. -/
def fieldsMsg (fields : Vector Word 9) : WeldState where
  arcOk := fields[0] != 0
  powerErr := fields[1] != 0
  deposDi := fields[2] != 0
  ewmErr := fields[3].setWidth 16
  warningState := fields[4].setWidth 16
  actVoltage := fields[5].setWidth 16
  actCurrent := fields[6].setWidth 16
  actWireSpd := fields[7].setWidth 16
  motorCurrent := fields[8].setWidth 16

theorem weldMsg?_toList (fields : Vector Word 9) :
    weldMsg? fields.toList = some (fieldsMsg fields) := by
  obtain ⟨⟨ws⟩, hlen⟩ := fields
  match ws, hlen with
  | [_, _, _, _, _, _, _, _, _], _ => rfl

namespace Item

variable {o : ByteOrder}

def bytes : Item o → Bytes
  | .weld reply seqNr fields _ =>
    encodeAll o [53, 15, 1, reply] ++ (encodeAll o (seqNr :: fields.toList) ++ [0x0D])
  | .other msgType commType reply body _ _ =>
    encodeAll o [BitVec.ofNat 32 (12 + body.length), msgType, commType, reply] ++ body

/-- The state to be published. -/
def state? : Item o → Option WeldState
  | .weld _ _ fields _ => some (fieldsMsg fields)
  | .other .. => none

end Item

def bytesOf {o : ByteOrder} (items : List (Item o)) : Bytes := (items.map Item.bytes).flatten

def states {o : ByteOrder} (items : List (Item o)) : List WeldState := items.filterMap Item.state?

theorem bytesOf_cons {o : ByteOrder} (i : Item o) (items : List (Item o)) :
    bytesOf (i :: items) = i.bytes ++ bytesOf items := rfl

theorem states_weld {o : ByteOrder} (reply seqNr : Word) {fields : Vector Word 9}
    (last : (encode o fields[8]).getLast?.any isTerminator = false) (items : List (Item o)) :
    states (.weld reply seqNr fields last :: items) = fieldsMsg fields :: states items := rfl

/-- The nine integers of a frame, in front of its CR. -/
theorem decodeWords_fields (o : ByteOrder) (seqNr : Word) (fields : Vector Word 9) (r : Bytes) :
    decodeWords o 9 ((encodeAll o (seqNr :: fields.toList) ++ r).drop 4) = fields.toList := by
  have hwords := decodeWords_encodeAll o fields.toList r
  rw [Vector.length_toList] at hwords
  rw [encodeAll_cons, List.append_assoc, drop_encode_append, hwords]

theorem encodeAll_fields_length (o : ByteOrder) (seqNr : Word) (fields : Vector Word 9) :
    (encodeAll o (seqNr :: fields.toList)).length = 40 := by
  rw [encodeAll_length, List.length_cons, Vector.length_toList]

namespace TcpNode

/-- From the end of a welding state frame its CR is removed, and the byte in front of it if that
is a terminator too. -/
theorem trimBytes_weld (o : ByteOrder) (seqNr : Word) (fields : Vector Word 9) :
    trimBytes (encodeAll o (seqNr :: fields.toList) ++ [0x0D]) =
      some (if (encode o fields[8]).getLast?.any isTerminator then 2 else 1) := by
  obtain ⟨a, b, c, x, hx⟩ := encode_eq_four o fields[8]
  obtain ⟨pre, hpre⟩ : ∃ pre, encodeAll o (seqNr :: fields.toList) = pre ++ [x] := by
    have hne : fields.toList ≠ [] := by
      rw [← List.length_pos_iff, Vector.length_toList]
      omega
    have hlast : fields.toList.getLast hne = fields[8] := by
      simp [List.getLast_eq_getElem]
    refine ⟨encodeAll o (seqNr :: fields.toList.dropLast) ++ [a, b, c], ?_⟩
    conv => lhs; rw [← List.dropLast_concat_getLast hne, hlast, ← List.cons_append,
      encodeAll_append]
    simp [hx]
  rw [hpre, List.append_assoc, hx]
  exact trimBytes_append pre x 0x0D

/-- The analysis of a welding state frame removes its CR and nothing else. -/
theorem decodeRemainder_weld (o : ByteOrder) (d : Bool) (seqNr : Word) (fields : Vector Word 9)
    (last : (encode o fields[8]).getLast?.any isTerminator = false) :
    decodeRemainder (launchDump o d) (encodeAll o (seqNr :: fields.toList) ++ [0x0D]) =
      .state (fieldsMsg fields) := by
  have htrim := trimBytes_weld o seqNr fields
  have hlen := encodeAll_fields_length o seqNr fields
  rw [last] at htrim
  rw [decodeRemainder_eq o d htrim, List.length_append, hlen, classify, if_neg (by decide),
    if_pos (by decide), decodeWords_fields, Option.bind_some, weldMsg?_toList]

/-- A welding state frame, as the TCP receiver takes it. -/
theorem accepted_weld (o : ByteOrder) (d : Bool) (reply seqNr : Word) (fields : Vector Word 9)
    (last : (encode o fields[8]).getLast?.any isTerminator = false) :
    Accepted (iter (launchDump o d)) (fun c => c.all.length + 1)
      (Item.weld reply seqNr fields last).bytes fun _ => fieldsMsg fields := by
  have h := accepted o d reply (decodeRemainder_weld o d seqNr fields last)
  rw [List.length_append, encodeAll_fields_length] at h
  exact h

/-- **A frame of another type.** The header is refused and the bytes it counts are discarded, as if
none of them had been read: twelve bytes of what follows the frame are gone. -/
theorem iter_other (o : ByteOrder) (s : RunState) {msgType commType reply : Word}
    {body rest : Bytes} (htype : msgType ≠ 15) (hfits : 12 + body.length < 4294967280)
    (hall : s.sock.all = encodeAll o [BitVec.ofNat 32 (12 + body.length), msgType, commType, reply]
      ++ (body ++ rest)) :
    ∃ sock, iter (launch o) s = { s with msgCount := s.msgCount + 1, sock := sock } ∧
      sock.all = rest.drop 12 := by
  have hnat : (BitVec.ofNat 32 (12 + body.length)).toNat = 12 + body.length := by
    rw [BitVec.toNat_ofNat, Nat.mod_eq_of_lt (by omega)]
  obtain ⟨hlength, hmsg, -⟩ :=
    readWord_header o (BitVec.ofNat 32 (12 + body.length)) msgType commType reply
  have hall16 : (s.sock.consume 16).all = body ++ rest := by
    rw [Channel.all_consume, hall, List.drop_left' (by simp)]
  have hguard : ¬ ((launch o).dumpRaw = true ∧
      ¬ dumpInBounds (BitVec.ofNat 32 (12 + body.length)) (s.sock.consume 16) = true) := by
    rintro ⟨-, hdump⟩
    apply hdump
    refine decide_eq_true ?_
    rw [hnat]
    omega
  have hinvalid : msgType ≠ (launch o).expectedMsgType ∨ commType ≠ (launch o).expectedCommType ∨
      12 + body.length < 4 + (launch o).payloadSizeBytes := .inl htype
  refine ⟨((s.sock.consume 16).readExact (12 + body.length)).2, ?_, ?_⟩
  · rw [iter_header (launch o) s hall]
    simp only [handle, show (launch o).byteOrder = o from rfl, hlength, hmsg, hnat, if_neg hguard]
    rw [if_pos ?_, if_pos (by omega)]
    exact .inl htype
  · rw [Channel.all_readExact, hall16, Nat.add_comm, ← List.drop_drop, List.drop_left' rfl]

/-- **Welding states behind a frame of another type**: one of them is lost. -/
theorem run_alone {o : ByteOrder} {g : Sent} {gs : List Sent}
    (hfs : Deliverable o (iter (launch o)) (fun c => c.all.length + 1) (g :: gs)) {s : RunState}
    {msgType commType reply : Word} {body : Bytes} (htype : msgType ≠ 15)
    (hfits : 12 + body.length < 4294967280)
    (hall : s.sock.all = encodeAll o [BitVec.ofNat 32 (12 + body.length), msgType, commType, reply]
      ++ (body ++ stream (g :: gs))) (hatt : s.attempts = []) (hrun : s.status = .running) :
    (run (launch o) s).published.length ≤ s.published.length + gs.length := by
  have R := receiver o true
  obtain ⟨sock, hiter, hsock⟩ := iter_other o s htype hfits hall
  have hstep : run (launch o) s = run (launch o)
      { s with msgCount := s.msgCount + 1, sock := sock } :=
    (runAll_step R.measure hrun).trans (congrArg _ hiter)
  rw [hstep]
  exact R.run_misaligned hfs (s := { s with msgCount := s.msgCount + 1, sock := sock }) (by decide)
    hsock hatt

/-- No frame of another type is followed by anything, nor begins with CR or LF behind a welding
state, nor announces so many bytes that the raw dump leaves its buffer. -/
def Harmless {o : ByteOrder} : List (Item o) → Prop
  | [] => True
  | .weld .. :: items => Clean (bytesOf items) ∧ Harmless items
  | [.other _ _ _ body _ _] => 12 + body.length < 4294967280
  | .other .. :: _ :: _ => False

theorem run_harmless {o : ByteOrder} {items : List (Item o)} (h : Harmless items) {s : RunState}
    (hsock : s.sock = ⟨bytesOf items, []⟩) (hatt : s.attempts = [])
    (hrun : s.status = .running) :
    (run (launch o) s).published = s.published ++ states items ∧
      (run (launch o) s).status = .exited := by
  have R := receiver o true
  induction items generalizing s with
  | nil =>
    have hend := R.run_end (by rw [hsock]; exact Nat.succ_pos 15) hatt hrun
    rw [states, List.filterMap_nil, List.append_nil]
    exact hend
  | cons i items ih =>
    cases i with
    | weld reply seqNr fields last =>
      obtain ⟨hclean, htail⟩ := h
      rw [bytesOf_cons] at hsock
      have hleft := leftover_stay ((⟨bytesOf items, []⟩ : Channel).all.length + 1) s.arrivals hclean
      have hrest := ih htail (s := s.deliver _ _ (fieldsMsg fields)) hleft hatt hrun
      have hstep : run (launch o) s = run (launch o) (s.deliver _ _ (fieldsMsg fields)) :=
        R.run_arrived (accepted_weld o true reply seqNr fields last) hsock hrun
      rw [hstep, hrest.1, hrest.2, states_weld, RunState.deliver_published, List.append_assoc]
      exact ⟨rfl, rfl⟩
    | other msgType commType reply body type fits =>
      cases items with
      | cons i' items => exact h.elim
      | nil =>
        have hframe : s.sock.all = encodeAll o [BitVec.ofNat 32 (12 + body.length), msgType,
            commType, reply] ++ (body ++ []) := by
          rw [hsock, bytesOf_cons]
          simp [Channel.all, bytesOf, Item.bytes]
        obtain ⟨sock, hiter, hall⟩ := iter_other o s type h hframe
        rw [List.drop_nil] at hall
        have hend := R.run_end (s := { s with msgCount := s.msgCount + 1, sock := sock })
          (by rw [hall]; decide) hatt hrun
        have hstep : run (launch o) s = run (launch o)
            { s with msgCount := s.msgCount + 1, sock := sock } :=
          (runAll_step R.measure hrun).trans (congrArg _ hiter)
        rw [hstep]
        refine ⟨hend.1.trans ?_, hend.2⟩
        exact (List.append_nil _).symm

end TcpNode

namespace SimpleNode

/-- A welding state frame, as the Simple Message receiver takes it: up to its CR, and for what is in
the memory its integers are read from. -/
theorem accepted_weld (o : ByteOrder) (freed : Freed) (reply seqNr : Word)
    (fields : Vector Word 9) : Accepted (iter (launch o) freed) (fun _ => 1)
      (encodeAll o [53, 15, 1, reply] ++ encodeAll o (seqNr :: fields.toList))
      fun k => memoryMsg o (freed k) :=
  Frame.accepted o freed
    ⟨true, reply, encodeAll o (seqNr :: fields.toList), true, encodeAll_fields_length o seqNr fields⟩

/-- **A refused block.** The error counter has room for it. -/
theorem iter_refused (p : Params) (freed : Freed) {s : RunState} (hwhole : 16 ≤ s.sock.all.length)
    (h : ¬ p.Announced s.sock.all) (hcount : s.errorCount < 5) :
    iter p freed s = { s with sock := s.sock.consume 16, errorCount := s.errorCount + 1 } := by
  have h1 : ∀ n, (n = p.payloadOnlyLength ∨ n = p.standardFormatLength) →
      ¬ p.announces (s.sock.all.take 16) n = true := by
    intro n hn ha
    obtain ⟨hlen, htype, hcomm⟩ := (announces_take p _ _).mp ha
    exact h ⟨hwhole, hn.imp (hlen.trans ·) (hlen.trans ·), htype, hcomm⟩
  have hrec : receiveSimpleMessage p (freed s.msgCount) s.sock s.arrivals =
      (.failed, s.sock.consume 16, s.arrivals) := by
    simp only [receiveSimpleMessage, receiveFrame, Channel.readExact_of_le hwhole,
      if_neg (h1 _ (.inl rfl)),
      if_neg (h1 _ (.inr rfl))]
  simp only [iter, hrec, commError]
  rw [if_neg (by omega)]

/-- Whether a header announces a format is told by its first bytes. -/
theorem announced_append {p : Params} {bs : Bytes} (hwhole : 16 ≤ bs.length) (r : Bytes) :
    p.Announced (bs ++ r) ↔ p.Announced bs := by
  have h0 := decode_append p.byteOrder (a := bs) (by omega) r
  have h4 : decode p.byteOrder ((bs ++ r).drop 4) = decode p.byteOrder (bs.drop 4) := by
    rw [List.drop_append_of_le_length (by omega), decode_append _ (by rw [List.length_drop]; omega)]
  have h8 : decode p.byteOrder ((bs ++ r).drop 8) = decode p.byteOrder (bs.drop 8) := by
    rw [List.drop_append_of_le_length (by omega), decode_append _ (by rw [List.length_drop]; omega)]
  constructor
  · rintro ⟨-, hlen, htype, hcomm⟩
    exact ⟨hwhole, h0 ▸ hlen, h4 ▸ htype, h8 ▸ hcomm⟩
  · rintro ⟨-, hlen, htype, hcomm⟩
    exact ⟨by rw [List.length_append]; omega, h0 ▸ hlen, h4 ▸ htype, h8 ▸ hcomm⟩

/-- `n` blocks of 16 bytes that are all refused. -/
structure Blocks (o : ByteOrder) (n : Nat) (gap : Bytes) : Prop where
  length : gap.length = 16 * n
  refused : ∀ i, i < n → ¬ (launch o).Announced (gap.drop (16 * i))

/-- The receiver works through them one after the other. -/
theorem runAll_blocks (o : ByteOrder) (freed : Freed) {n : Nat} {gap rest : Bytes}
    (h : Blocks o n gap) {s : RunState} (hsock : s.sock = ⟨gap ++ rest, []⟩)
    (hcount : s.errorCount + n ≤ 5)
    (hrun : s.status = .running) :
    ∃ count, runAll (iter (launch o) freed) s =
      runAll (iter (launch o) freed) { s with sock := ⟨rest, []⟩, errorCount := count } := by
  induction n generalizing gap s with
  | zero =>
    have hnil : gap = [] := List.eq_nil_of_length_eq_zero h.length
    rw [hnil, List.nil_append] at hsock
    exact ⟨s.errorCount, by rw [← hsock]⟩
  | succ n ih =>
    have h16 : 16 ≤ gap.length := by
      rw [h.length]
      omega
    have hall : s.sock.all = gap ++ rest := by
      rw [hsock]
      exact List.append_nil _
    have hfirst : ¬ (launch o).Announced s.sock.all := by
      rw [hall, announced_append h16]
      exact h.refused 0 (Nat.succ_pos n)
    have hiter := iter_refused (launch o) freed (by rw [hall, List.length_append]; omega) hfirst
      (by omega)
    have hnext : s.sock.consume 16 = ⟨gap.drop 16 ++ rest, []⟩ := by
      rw [hsock, Channel.consume, List.drop_append_of_le_length h16, List.drop_nil]
    have hblocks : Blocks o n (gap.drop 16) := by
      refine ⟨by rw [List.length_drop, h.length]; omega, ?_⟩
      intro i hi
      rw [List.drop_drop, show 16 + 16 * i = 16 * (i + 1) by omega]
      exact h.refused (i + 1) (by omega)
    obtain ⟨count, hcountEq⟩ := ih hblocks (s := { s with
      sock := s.sock.consume 16
      errorCount := s.errorCount + 1 }) hnext (by dsimp only; omega) hrun
    exact ⟨count, by rw [runAll_step (receiver o freed).measure hrun, hiter, hcountEq]⟩

/-- In front of every welding state the frames of other types make up at most five blocks, all of
them refused; behind the last one the first six blocks are. -/
def Harmless (o : ByteOrder) : Bytes → List (Item o) → Prop
  | gap, [] => ∀ i, i ≤ 5 → ¬ (launch o).Announced (gap.drop (16 * i))
  | gap, .weld .. :: items => (∃ n, n ≤ 5 ∧ Blocks o n gap) ∧ Harmless o [] items
  | gap, i :: items => Harmless o (gap ++ i.bytes) items

/-- As many messages are published as there are welding states, each for what is in the memory
that it is read from. -/
theorem run_harmless {o : ByteOrder} (freed : Freed) {gap : Bytes} {items : List (Item o)}
    (h : Harmless o gap items) {s : RunState} (hsock : s.sock = ⟨gap ++ bytesOf items, []⟩)
    (hcount : s.errorCount = 0) (hatt : s.attempts = []) (hrun : s.status = .running) :
    (run (launch o) freed s).published = s.published ++
      (List.range' s.msgCount (states items).length).map fun k => memoryMsg o (freed k) := by
  have R := receiver o freed
  induction items generalizing gap s with
  | nil =>
    have hall : s.sock.all = gap := by
      rw [hsock]
      simp [Channel.all, bytesOf]
    rw [states, List.filterMap_nil, List.length_nil, List.range'_zero, List.map_nil,
      List.append_nil]
    exact runFor_refuses (launch o) freed 5 _ hatt (by omega) (by rw [hall]; exact h)
  | cons i items ih =>
    rw [bytesOf_cons] at hsock
    cases i with
    | weld reply seqNr fields last =>
      obtain ⟨⟨n, hn, hblocks⟩, htail⟩ := h
      obtain ⟨count, hblocksRun⟩ := runAll_blocks o freed hblocks hsock (by omega) hrun
      -- the state at the start of the frame
      generalize hst' : ({ s with
        sock := ⟨(Item.weld reply seqNr fields last).bytes ++ bytesOf items, []⟩
        errorCount := count } : RunState) = s' at hblocksRun
      have hsock' : s'.sock = ⟨(encodeAll o [53, 15, 1, reply] ++
          encodeAll o (seqNr :: fields.toList)) ++ (0x0D :: bytesOf items), []⟩ := by
        rw [← hst']
        simp [Item.bytes]
      have hleft : (leftover 1 ⟨0x0D :: bytesOf items, []⟩ s'.arrivals).1 =
          ⟨[] ++ bytesOf items, []⟩ := leftover_cons 0 rfl (bytesOf items) s'.arrivals
      have hrest := ih htail (s := s'.deliver 1 ⟨0x0D :: bytesOf items, []⟩
        (memoryMsg o (freed s'.msgCount))) hleft rfl (by rw [← hst']; exact hatt)
        (by rw [← hst']; exact hrun)
      have hstep : run (launch o) freed s = run (launch o) freed
          (s'.deliver 1 ⟨0x0D :: bytesOf items, []⟩ (memoryMsg o (freed s'.msgCount))) :=
        hblocksRun.trans (R.run_arrived (accepted_weld o freed reply seqNr fields) hsock'
          (by rw [← hst']; exact hrun))
      rw [hstep, hrest, states_weld, RunState.deliver_published, List.append_assoc, ← hst']
      rfl
    | other msgType commType reply body type fits =>
      rw [← List.append_assoc] at hsock
      exact ih h hsock hcount hatt hrun

/-- Messages are the states of a stream exactly when each is. -/
theorem memoryMsgs_eq_iff (o : ByteOrder) (freed : Freed) (ws : List WeldState) :
    ((List.range' 0 ws.length).map fun k => memoryMsg o (freed k)) = ws ↔
      ∀ k w, ws[k]? = some w → memoryMsg o (freed k) = w := by
  constructor
  · intro h k w hk
    have hlt : k < ws.length := (List.getElem?_eq_some_iff.mp hk).1
    rw [← h, List.getElem?_map, List.getElem?_range' hlt] at hk
    simpa using hk
  · intro h
    refine List.ext_getElem (by simp) ?_
    intro k hk hk'
    simpa using h k ws[k] (List.getElem?_eq_getElem hk')

end SimpleNode

/-- **What is published of a stream of welding state frames and others**, all of it having
arrived, when the others do the receiver no harm.  By the TCP receiver: the states of the welding
state frames.  By the Simple Message receiver: as many messages, and the states exactly when the
memory of every destroyed buffer still makes its frame's state. -/
theorem run_mixed (o : ByteOrder) (items : List (Item o)) (ks : List Nat) :
    (TcpNode.Harmless items →
      (TcpNode.run (TcpNode.launch o) (connected ⟨bytesOf items, []⟩ ks)).published =
        states items) ∧
    (SimpleNode.Harmless o [] items → ∀ freed,
      (SimpleNode.run (SimpleNode.launch o) freed
          (connected ⟨bytesOf items, []⟩ ks)).published.length = (states items).length ∧
      ((SimpleNode.run (SimpleNode.launch o) freed
          (connected ⟨bytesOf items, []⟩ ks)).published = states items ↔
        ∀ k w, (states items)[k]? = some w → SimpleNode.memoryMsg o (freed k) = w)) := by
  constructor
  · intro h
    exact (TcpNode.run_harmless h (s := connected ⟨bytesOf items, []⟩ ks) rfl rfl rfl).1
  · intro h freed
    have hpub := SimpleNode.run_harmless freed h (s := connected ⟨bytesOf items, []⟩ ks)
      rfl rfl rfl rfl
    rw [hpub]
    refine ⟨?_, SimpleNode.memoryMsgs_eq_iff o freed (states items)⟩
    exact (List.length_map _).trans List.length_range'

/-- A welding state, and a status of another type where each receiver gets over it.  The memory
still holds the integers 1, 0, 0, 0, 0, 2000, 1500, 800 and 120. -/
theorem run_mixed_lastOther :
    (TcpNode.run (TcpNode.launch .little) (connected ⟨bytesOf (o := .little) [
        .weld 0 1 #v[1, 0, 0, 0, 0, 2000, 1500, 800, 120] (by decide),
        .other 13 1 0 (List.replicate 28 0) (by decide) (by decide)], []⟩ [])).published =
      states (o := .little) [
        .weld 0 1 #v[1, 0, 0, 0, 0, 2000, 1500, 800, 120] (by decide),
        .other 13 1 0 (List.replicate 28 0) (by decide) (by decide)] ∧
    (SimpleNode.run (SimpleNode.launch .little)
        (fun _ i => (encodeAll .little [1, 1, 0, 0, 0, 0, 2000, 1500, 800, 120]).getD i 0)
        (connected ⟨bytesOf (o := .little) [
          .other 13 1 0 (List.replicate 16 0) (by decide) (by decide),
          .weld 0 1 #v[1, 0, 0, 0, 0, 2000, 1500, 800, 120] (by decide)], []⟩ [])).published =
      states (o := .little) [
        .other 13 1 0 (List.replicate 16 0) (by decide) (by decide),
        .weld 0 1 #v[1, 0, 0, 0, 0, 2000, 1500, 800, 120] (by decide)] := by
  constructor
  · refine (run_mixed .little _ []).1 ⟨?_, show 12 + 28 < 4294967280 by decide⟩
    intro b hb
    cases hb
    rfl
  · have hharmless : SimpleNode.Harmless .little [] [
        .other 13 1 0 (List.replicate 16 0) (by decide) (by decide),
        .weld 0 1 #v[1, 0, 0, 0, 0, 2000, 1500, 800, 120] (by decide)] := by
      refine ⟨⟨2, by decide, rfl, by decide⟩, ?_⟩
      exact (by decide : ∀ i, i ≤ 5 → ¬ (SimpleNode.launch .little).Announced
        (([] : Bytes).drop (16 * i)))
    refine ((run_mixed .little _ []).2 hharmless _).2.mpr ?_
    intro k w hk
    cases k with
    | zero =>
      rw [← Option.some.inj hk]
      decide
    | succ k => cases hk

/-- A status of another type in front of a welding state: neither receiver publishes the state.
A welding state alone: the Simple Message receiver publishes what is in the memory. -/
theorem run_mixed_loses :
    (TcpNode.run (TcpNode.launch .little) (connected ⟨bytesOf (o := .little) [
        .other 13 1 0 (List.replicate 28 0) (by decide) (by decide),
        .weld 0 1 #v[1, 0, 0, 0, 0, 2000, 1500, 800, 120] (by decide)], []⟩ [])).published ≠
      states (o := .little) [
        .other 13 1 0 (List.replicate 28 0) (by decide) (by decide),
        .weld 0 1 #v[1, 0, 0, 0, 0, 2000, 1500, 800, 120] (by decide)] ∧
    (∀ freed : SimpleNode.Freed,
      (SimpleNode.run (SimpleNode.launch .little) freed (connected ⟨bytesOf (o := .little) [
          .other 13 1 0 (List.replicate 28 0) (by decide) (by decide),
          .weld 0 1 #v[1, 0, 0, 0, 0, 2000, 1500, 800, 120] (by decide)], []⟩ [])).published ≠
        states (o := .little) [
          .other 13 1 0 (List.replicate 28 0) (by decide) (by decide),
          .weld 0 1 #v[1, 0, 0, 0, 0, 2000, 1500, 800, 120] (by decide)]) ∧
    (SimpleNode.run (SimpleNode.launch .little) SimpleNode.cleared
        (connected ⟨bytesOf (o := .little) [
          .weld 0 1 #v[1, 0, 0, 0, 0, 2000, 1500, 800, 120] (by decide)], []⟩ [])).published ≠
      states (o := .little) [
        .weld 0 1 #v[1, 0, 0, 0, 0, 2000, 1500, 800, 120] (by decide)] := by
  refine ⟨by decide +kernel, ?_, by decide +kernel⟩
  intro freed h
  refine absurd ((SimpleNode.runFor_refuses _ freed 5 _ rfl rfl ?_).symm.trans h) (by decide)
  -- nothing at the first six positions of this stream selects a format
  decide +kernel

end FanucDriver
