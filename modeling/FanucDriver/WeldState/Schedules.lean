import FanucDriver.WeldState.Acceptance

/-!
# Welding state frames and when they arrive

Both receivers look for a CR behind a frame without waiting.  A CR that has not arrived by then
stays in front of the next frame.

* `Sent`, `stream`, `delivered` — frames a receiver accepts, with or without a CR behind them, and
  the states it publishes for them.
* `Receiver.run_available`, `Receiver.run_unterminated`, `Receiver.run_late` — what is published
  when everything has arrived, when no CR stands between two frames, and when nothing arrives
  before the receiver waits for it.
* `Receiver.run_misaligned` — a receiver that misses the start of a frame loses at least one.
* `Receiver.scheduleFree_iff`, `run_scheduleFree_iff` — the schedule does not matter exactly when
  no CR stands between two frames and, for the Simple Message receiver, no frame is a standard one.
-/

set_option autoImplicit false

namespace FanucDriver

open Wire

namespace Node

/-- A frame as it is sent: what the receiver accepts, for which state when it is the message with
a number, and whether a CR follows. -/
structure Sent where
  core : Bytes
  state : Nat → WeldState
  cr : Bool

def Sent.bytes (f : Sent) : Bytes := f.core ++ crBytes f.cr

def stream (fs : List Sent) : Bytes := (fs.map Sent.bytes).flatten

/-- The states that frames are published for, the first of them as message number `n`. -/
def delivered : Nat → List Sent → List WeldState
  | _, [] => []
  | n, f :: fs => f.state n :: delivered (n + 1) fs

theorem delivered_length (n : Nat) (fs : List Sent) : (delivered n fs).length = fs.length := by
  induction fs generalizing n with
  | nil => rfl
  | cons f fs ih => rw [delivered, List.length_cons, List.length_cons, ih]

theorem stream_cons (f : Sent) (fs : List Sent) :
    stream (f :: fs) = f.core ++ (crBytes f.cr ++ stream fs) := by
  simp [stream, Sent.bytes]

variable {o : ByteOrder} {iter : RunState → RunState} {fuel : Channel → Nat}

/-- The frames of a stream, for the receiver. -/
def Deliverable (o : ByteOrder) (iter : RunState → RunState) (fuel : Channel → Nat)
    (fs : List Sent) : Prop :=
  ∀ f ∈ fs, Accepted iter fuel f.core f.state ∧ WeldShaped o f.bytes

theorem Deliverable.clean {fs : List Sent} (h : Deliverable o iter fuel fs) : Clean (stream fs) := by
  cases fs with
  | nil => exact clean_nil
  | cons f fs =>
    have hf := (h f (by simp)).1
    rw [stream_cons]
    exact hf.clean.append hf.nonempty _

theorem Deliverable.tail {f : Sent} {fs : List Sent} (h : Deliverable o iter fuel (f :: fs)) :
    Deliverable o iter fuel fs := fun g hg => h g (by simp [hg])

theorem leftover_length_le (n : Nat) (c : Channel) (ks : List Nat) :
    (leftover n c ks).1.all.length ≤ c.all.length := by
  obtain ⟨j, -, hall, -⟩ := leftover_spec n c ks
  rw [hall, List.length_drop]
  omega

/-- Taking a frame off a stream that has arrived. -/
theorem consume_arrived (f rest : Bytes) :
    (⟨f ++ rest, []⟩ : Channel).consume f.length = ⟨rest, []⟩ := by
  simp [Channel.consume]

/-- Taking a frame off a stream that has not. -/
theorem consume_late (f rest : Bytes) :
    (⟨[], f ++ rest⟩ : Channel).consume f.length = ⟨[], rest⟩ := by
  simp [Channel.consume]

/-- A frame at the head of a stream that has arrived. -/
theorem Receiver.run_arrived (R : Receiver o iter fuel) {f : Bytes} {w : Nat → WeldState}
    (hf : Accepted iter fuel f w) {s : RunState} {rest : Bytes} (hsock : s.sock = ⟨f ++ rest, []⟩)
    (hrun : s.status = .running) :
    runAll iter s = runAll iter (s.deliver (fuel ⟨rest, []⟩) ⟨rest, []⟩ (w s.msgCount)) := by
  have hall : s.sock.all = f ++ rest := by
    rw [hsock]
    exact List.append_nil _
  rw [R.run_takes hf hall hrun, hsock, consume_arrived]

/-- **Everything has arrived**: all states are published. -/
theorem Receiver.run_available (R : Receiver o iter fuel) {fs : List Sent}
    (hfs : Deliverable o iter fuel fs) {s : RunState} (hsock : s.sock = ⟨stream fs, []⟩)
    (hatt : s.attempts = []) (hrun : s.status = .running) :
    (runAll iter s).published = s.published ++ delivered s.msgCount fs := by
  induction fs generalizing s with
  | nil =>
    rw [(R.run_end (by rw [hsock]; decide) hatt hrun).1]
    exact (List.append_nil _).symm
  | cons f fs ih =>
    have hf := (hfs f (by simp)).1
    rw [stream_cons] at hsock
    have hleft : (leftover (fuel ⟨crBytes f.cr ++ stream fs, []⟩) ⟨crBytes f.cr ++ stream fs, []⟩
        s.arrivals).1 = ⟨stream fs, []⟩ := by
      cases hcr : f.cr with
      | false => exact leftover_stay _ _ hfs.tail.clean
      | true => exact leftover_one (R.fuel_pos _) rfl _ hfs.tail.clean
    have hrest := ih hfs.tail (s := s.deliver _ _ (f.state s.msgCount)) hleft hatt hrun
    rw [R.run_arrived hf hsock hrun, hrest, RunState.deliver_published, List.append_assoc]
    rfl

/-- No CR stands between two frames. -/
def Unterminated (fs : List Sent) : Prop := ∀ f ∈ fs.dropLast, f.cr = false

/-- **No CR between the frames**: all states are published, however the bytes arrive. -/
theorem Receiver.run_unterminated (R : Receiver o iter fuel) {fs : List Sent}
    (hfs : Deliverable o iter fuel fs) (hcr : Unterminated fs) {s : RunState}
    (hall : s.sock.all = stream fs) (hatt : s.attempts = []) (hrun : s.status = .running) :
    (runAll iter s).published = s.published ++ delivered s.msgCount fs := by
  induction fs generalizing s with
  | nil =>
    rw [(R.run_end (by rw [hall]; decide) hatt hrun).1]
    exact (List.append_nil _).symm
  | cons f fs ih =>
    have hf := (hfs f (by simp)).1
    rw [stream_cons] at hall
    have hrest : (s.sock.consume f.core.length).all = crBytes f.cr ++ stream fs := by
      rw [Channel.all_consume, hall, List.drop_left' rfl]
    rw [R.run_takes hf hall hrun]
    cases fs with
    | nil =>
      -- what may be left of the last frame is its CR
      have hshort : (s.deliver (fuel (s.sock.consume f.core.length))
          (s.sock.consume f.core.length) (f.state s.msgCount)).sock.all.length < 16 := by
        have hle := leftover_length_le (fuel (s.sock.consume f.core.length))
          (s.sock.consume f.core.length) s.arrivals
        have hcrlen := crBytes_length_le f.cr
        rw [hrest, List.length_append, show (stream []).length = 0 from rfl] at hle
        exact Nat.lt_of_le_of_lt hle (by omega)
      rw [(R.run_end hshort hatt hrun).1]
      rfl
    | cons g gs =>
      have hnone : f.cr = false := hcr f (by simp)
      rw [hnone] at hrest
      have hleft := leftover_clean (fuel (s.sock.consume f.core.length)) s.arrivals
        (show Clean (s.sock.consume f.core.length).all by rw [hrest]; exact hfs.tail.clean)
      have htail : Unterminated (g :: gs) := fun h hh => hcr h (by simp [hh])
      have htailrun := ih hfs.tail htail (s := s.deliver _ _ (f.state s.msgCount))
        (hleft.trans hrest) hatt hrun
      rw [htailrun, RunState.deliver_published, List.append_assoc]
      rfl

/-- A scan that has lost the start of a frame accepts at most as often as there are frames behind
it. -/
theorem Deliverable.scan_le {g : Sent} {gs : List Sent} (hfs : Deliverable o iter fuel (g :: gs))
    {k n : Nat} (hk : 1 ≤ k)
    (hscan : Framing.Scan (LooksLike o) 52 16 ((stream (g :: gs)).drop k) n) : n ≤ gs.length := by
  have hstream : stream (g :: gs) = g.bytes.drop 0 ++ (gs.map Sent.bytes).flatten := by
    simp [stream]
  have hshape : ∀ f ∈ gs.map Sent.bytes, WeldShaped o f := by
    intro f hf
    obtain ⟨s, hs, rfl⟩ := List.mem_map.mp hf
    exact (hfs s (by simp [hs])).2
  obtain ⟨fs', hP, hle, hin⟩ := (weldShaped_bounded o).move 0 k (hfs g (by simp)).2 hshape
    (by omega) (Nat.zero_le _)
  rw [← hstream] at hin
  rw [List.length_map] at hle
  exact Nat.le_trans (hscan.le_bounded (weldShaped_bounded o) fs' hP hin) hle

/-- **A start that is missed**: of the frames from there on at least one is lost. -/
theorem Receiver.run_misaligned (R : Receiver o iter fuel) {g : Sent} {gs : List Sent}
    (hfs : Deliverable o iter fuel (g :: gs)) {s : RunState} {k : Nat} (hk : 1 ≤ k)
    (hall : s.sock.all = (stream (g :: gs)).drop k) (hatt : s.attempts = []) :
    (runAll iter s).published.length ≤ s.published.length + gs.length := by
  obtain ⟨ws, hws, hscan⟩ := R.runAll_scan hatt
  rw [hall] at hscan
  rw [hws, List.length_append]
  exact Nat.add_le_add_left (hfs.scan_le hk hscan) _

/-- **A CR in front of a frame**: that frame or a later one is lost. -/
theorem Receiver.run_behind (R : Receiver o iter fuel) {g : Sent} {gs : List Sent}
    (hfs : Deliverable o iter fuel (g :: gs)) {s : RunState} {b : UInt8}
    (hall : s.sock.all = b :: stream (g :: gs)) (hatt : s.attempts = []) :
    (runAll iter s).published.length ≤ s.published.length + gs.length := by
  obtain ⟨ws, hws, hscan⟩ := R.runAll_scan hatt
  have hlate : ¬ LooksLike o (b :: stream (g :: gs)) := weldShaped_late b _ (hfs g (by simp)).2
  rw [hall] at hscan
  rw [hws, List.length_append]
  generalize ws.length = n at hscan ⊢
  cases hscan with
  | stop => omega
  | accept hok _ _ _ => exact absurd hok hlate
  | @skip _ k _ hk hrest =>
    obtain ⟨k, rfl⟩ : ∃ j, k = j + 1 := ⟨k - 1, by omega⟩
    rw [List.drop_succ_cons] at hrest
    have := hfs.scan_le (by omega) hrest
    omega

/-- **Nothing arrives before it is waited for**: with a CR between two frames a state is lost. -/
theorem Receiver.run_late (R : Receiver o iter fuel) {fs : List Sent}
    (hfs : Deliverable o iter fuel fs) (hcr : ¬ Unterminated fs) {s : RunState}
    (hsock : s.sock = ⟨[], stream fs⟩) (harr : s.arrivals = []) (hatt : s.attempts = [])
    (hrun : s.status = .running) :
    (runAll iter s).published.length < s.published.length + fs.length := by
  induction fs generalizing s with
  | nil => exact absurd (fun f hf => by cases hf) hcr
  | cons f fs ih =>
    have hf := (hfs f (by simp)).1
    rw [stream_cons] at hsock
    have hall : s.sock.all = f.core ++ (crBytes f.cr ++ stream fs) := by rw [hsock]; rfl
    have hleft : leftover (fuel ⟨[], crBytes f.cr ++ stream fs⟩) ⟨[], crBytes f.cr ++ stream fs⟩
        s.arrivals = (⟨[], crBytes f.cr ++ stream fs⟩, []) := by
      rw [harr]
      exact leftover_late _ _
    rw [R.run_takes hf hall hrun, hsock, consume_late]
    cases fs with
    | nil => exact absurd (fun g hg => by cases hg) hcr
    | cons g gs =>
      cases hfcr : f.cr with
      | false =>
        rw [hfcr] at hleft
        have htail : ¬ Unterminated (g :: gs) := by
          intro h
          apply hcr
          intro e he
          rcases List.mem_cons.mp he with rfl | he
          · exact hfcr
          · exact h e he
        have hrest := ih hfs.tail htail (s := s.deliver _ _ (f.state s.msgCount))
          (congrArg Prod.fst hleft) (congrArg Prod.snd hleft) hatt hrun
        rw [RunState.deliver_published, List.length_append, List.length_singleton] at hrest
        simp only [List.length_cons] at hrest ⊢
        omega
      | true =>
        rw [hfcr] at hleft
        have hrest := R.run_behind hfs.tail (s := s.deliver _ _ (f.state s.msgCount))
          (congrArg (fun l => l.1.all) hleft) hatt
        rw [RunState.deliver_published, List.length_append, List.length_singleton] at hrest
        simp only [List.length_cons]
        omega

/-- A run of either kind on these bytes publishes the same, whatever has arrived at which peek. -/
def ScheduleFree (run run' : RunState → RunState) (bs : Bytes) : Prop :=
  ∀ k ks k' ks', (run (connected ((Channel.empty.send bs).arrive k) ks)).published =
    (run' (connected ((Channel.empty.send bs).arrive k') ks')).published

theorem sent_all (bs : Bytes) (k : Nat) (ks : List Nat) :
    (connected ((Channel.empty.send bs).arrive k) ks).sock.all = bs := by
  rw [connected, Channel.all_arrive, Channel.all_send, Channel.all_empty, List.nil_append]

theorem sent_arrived (bs : Bytes) : (Channel.empty.send bs).arrive bs.length = ⟨bs, []⟩ := by
  simp [Channel.empty, Channel.send, Channel.arrive]

/-- **When the schedule does not matter**: exactly when no CR stands between two frames. -/
theorem Receiver.scheduleFree_iff (R : Receiver o iter fuel) {fs : List Sent}
    (hfs : Deliverable o iter fuel fs) :
    ScheduleFree (runAll iter) (runAll iter) (stream fs) ↔ Unterminated fs := by
  have hlate : (Channel.empty.send (stream fs)).arrive 0 = ⟨[], stream fs⟩ := by
    simp [Channel.empty, Channel.send, Channel.arrive]
  constructor
  · intro hfree
    by_contra hcr
    have hall := R.run_available hfs (s := connected ⟨stream fs, []⟩ []) rfl rfl rfl
    have hfew := R.run_late hfs hcr (s := connected ⟨[], stream fs⟩ []) rfl rfl rfl rfl
    have hsame := hfree (stream fs).length [] 0 []
    rw [sent_arrived, hlate] at hsame
    rw [← hsame, hall, List.length_append, delivered_length] at hfew
    exact absurd hfew (Nat.lt_irrefl _)
  · intro hcr k ks k' ks'
    rw [R.run_unterminated hfs hcr (sent_all _ k ks) rfl rfl,
      R.run_unterminated hfs hcr (sent_all _ k' ks') rfl rfl]
    rfl

end Node

open Node

namespace TcpNode

/-- A frame the TCP receiver accepts: the header announces `r`, and a CR it does not count may
follow. -/
structure Frame (o : ByteOrder) (d : Bool) where
  reply : Word
  r : Bytes
  state : WeldState
  cr : Bool
  accepted : decodeRemainder (launchDump o d) r = .state state

variable {o : ByteOrder} {d : Bool}

def Frame.sent (f : Frame o d) : Sent :=
  ⟨weldHeader o (12 + f.r.length) f.reply ++ f.r, fun _ => f.state, f.cr⟩

theorem Frame.deliverable (fs : List (Frame o d)) :
    Deliverable o (iter (launchDump o d)) (fun c => c.all.length + 1) (fs.map Frame.sent) := by
  intro g hg
  obtain ⟨f, -, rfl⟩ := List.mem_map.mp hg
  refine ⟨TcpNode.accepted o d f.reply f.accepted, _, f.reply, f.r ++ crBytes f.cr,
    List.append_assoc _ _ _, ?_⟩
  have hlen := (decodeRemainder_length f.accepted).2
  have hcr := crBytes_length_le f.cr
  rw [List.length_append]
  omega

end TcpNode

namespace SimpleNode

/-- A frame the Simple Message receiver accepts, with or without a CR: 40 bytes behind the length
word 53, or 36 behind 36. -/
structure Frame where
  standard : Bool
  reply : Word
  body : Bytes
  cr : Bool
  length : body.length = if standard then 40 else 36

def Frame.len (f : Frame) : Word := if f.standard then 53 else 36

def Frame.core (o : ByteOrder) (f : Frame) : Bytes :=
  encodeAll o [f.len, 15, 1, f.reply] ++ f.body

/-- The stream of such frames. -/
def frames (o : ByteOrder) (fs : List Frame) : Bytes :=
  (fs.map fun f => f.core o ++ crBytes f.cr).flatten

/-- The message of the memory that a standard frame's integers are read from. -/
def memoryMsg (o : ByteOrder) (mem : Nat → UInt8) : WeldState :=
  payloadMsg o ((List.range 36).map fun i => mem (4 + i))

def Frame.state (o : ByteOrder) (mem : Nat → UInt8) (f : Frame) : WeldState :=
  if f.standard then memoryMsg o mem else payloadMsg o f.body

def Frame.sent (o : ByteOrder) (freed : Freed) (f : Frame) : Sent :=
  ⟨f.core o, fun k => f.state o (freed k), f.cr⟩

theorem stream_sent (o : ByteOrder) (freed : Freed) (fs : List Frame) :
    stream (fs.map (Frame.sent o freed)) = frames o fs := by
  rw [stream, frames, List.map_map]
  rfl

/-- **A frame is taken** for the message of its payload or, when it is a standard one, of the
memory that its payload was in. -/
theorem Frame.accepted (o : ByteOrder) (freed : Freed) (f : Frame) :
    Accepted (iter (launch o) freed) (fun _ => 1) (f.core o) fun k => f.state o (freed k) := by
  obtain ⟨standard, reply, body, cr, hlen⟩ := f
  cases standard with
  | false =>
    refine SimpleNode.accepted o freed (.inl ⟨rfl, rfl⟩) hlen reply ?_
    intro k
    exact weldMsg?_decodeWords o body
  | true =>
    refine SimpleNode.accepted o freed (.inr ⟨rfl, rfl⟩) hlen reply ?_
    intro k
    rw [ReceivedFrame.payload, show body.length = 40 from hlen]
    exact weldMsg?_decodeWords o _

theorem Frame.deliverable (o : ByteOrder) (freed : Freed) (fs : List Frame) :
    Deliverable o (iter (launch o) freed) (fun _ => 1) (fs.map (Frame.sent o freed)) := by
  intro g hg
  obtain ⟨f, -, rfl⟩ := List.mem_map.mp hg
  refine ⟨f.accepted o freed, f.len, f.reply, f.body ++ crBytes f.cr, List.append_assoc _ _ _, ?_⟩
  have hcr := crBytes_length_le f.cr
  have hlen : f.body.length ≤ 40 := by
    rw [f.length]
    split <;> omega
  rw [List.length_append]
  omega

end SimpleNode

namespace SimpleNode

variable {o : ByteOrder}

theorem delivered_payloadOnly {fs : List Frame} (h : ∀ f ∈ fs, f.standard = false)
    (freed freed' : Freed) (n : Nat) : delivered n (fs.map (Frame.sent o freed)) =
      delivered n (fs.map (Frame.sent o freed')) := by
  induction fs generalizing n with
  | nil => rfl
  | cons f fs ih =>
    have hf : f.standard = false := h f (by simp)
    simp only [List.map_cons, delivered, Frame.sent, Frame.state, hf,
      ih (fun g hg => h g (by simp [hg]))]
    rfl

/-- Where a standard frame is published alike under two memories, their messages are alike. -/
theorem delivered_standard {fs : List Frame} {freed freed' : Freed} {n : Nat}
    (h : delivered n (fs.map (Frame.sent o freed)) = delivered n (fs.map (Frame.sent o freed')))
    {f : Frame} (hf : f ∈ fs) (hstd : f.standard = true) :
    ∃ k, memoryMsg o (freed k) = memoryMsg o (freed' k) := by
  induction fs generalizing n with
  | nil => cases hf
  | cons g gs ih =>
    simp only [List.map_cons, delivered, List.cons.injEq] at h
    rcases List.mem_cons.mp hf with rfl | hf
    · refine ⟨n, ?_⟩
      simpa only [Frame.sent, Frame.state, hstd, if_true] using h.1
    · exact ih h.2 hf

/-- Memory with every byte one. -/
def ones : Freed := fun _ _ => 1

theorem memoryMsg_ones_ne (o : ByteOrder) (k : Nat) :
    memoryMsg o (cleared k) ≠ memoryMsg o (ones k) := by
  show memoryMsg o (fun _ => 0) ≠ memoryMsg o fun _ => 1
  cases o <;> decide

end SimpleNode

/-- **When what is published does not depend on the schedule**, for either receiver and any frames
it accepts.  The TCP receiver: exactly when no frame but the last is followed by a CR that it looks
for without waiting.  The Simple Message receiver, with the same memory in both runs: the same.
With any memory: exactly when no frame is a standard one, too. -/
theorem run_scheduleFree_iff (o : ByteOrder) :
    (∀ d (fs : List (TcpNode.Frame o d)),
      ScheduleFree (TcpNode.run (TcpNode.launchDump o d)) (TcpNode.run (TcpNode.launchDump o d))
          (stream (fs.map TcpNode.Frame.sent)) ↔
        ∀ f ∈ fs.dropLast, f.cr = false) ∧
    (∀ freed (fs : List SimpleNode.Frame),
      ScheduleFree (SimpleNode.run (SimpleNode.launch o) freed)
          (SimpleNode.run (SimpleNode.launch o) freed) (SimpleNode.frames o fs) ↔
        ∀ f ∈ fs.dropLast, f.cr = false) ∧
    ∀ fs : List SimpleNode.Frame,
      (∀ freed freed', ScheduleFree (SimpleNode.run (SimpleNode.launch o) freed)
          (SimpleNode.run (SimpleNode.launch o) freed') (SimpleNode.frames o fs)) ↔
        (∀ f ∈ fs, f.standard = false) ∧ ∀ f ∈ fs.dropLast, f.cr = false := by
  have hsimple : ∀ freed (fs : List SimpleNode.Frame),
      ScheduleFree (SimpleNode.run (SimpleNode.launch o) freed)
          (SimpleNode.run (SimpleNode.launch o) freed) (SimpleNode.frames o fs) ↔
        ∀ f ∈ fs.dropLast, f.cr = false := by
    intro freed fs
    rw [← SimpleNode.stream_sent o freed fs]
    refine ((SimpleNode.receiver o freed).scheduleFree_iff
      (SimpleNode.Frame.deliverable o freed fs)).trans ?_
    rw [Unterminated, ← List.map_dropLast, List.forall_mem_map]
    rfl
  refine ⟨?_, hsimple, ?_⟩
  · intro d fs
    refine ((TcpNode.receiver o d).scheduleFree_iff (TcpNode.Frame.deliverable fs)).trans ?_
    rw [Unterminated, ← List.map_dropLast, List.forall_mem_map]
    rfl
  · intro fs
    constructor
    · intro hfree
      refine ⟨?_, (hsimple SimpleNode.cleared fs).mp (hfree _ _)⟩
      intro f hf
      cases hstd : f.standard with
      | false => rfl
      | true =>
        have hsame := hfree SimpleNode.cleared SimpleNode.ones
          (SimpleNode.frames o fs).length [] (SimpleNode.frames o fs).length []
        rw [sent_arrived] at hsame
        have hpub := fun freed => (SimpleNode.receiver o freed).run_available
          (SimpleNode.Frame.deliverable o freed fs)
          (s := connected ⟨SimpleNode.frames o fs, []⟩ [])
          (by rw [SimpleNode.stream_sent]; rfl) rfl rfl
        have hlists := (hpub SimpleNode.cleared).symm.trans (hsame.trans (hpub SimpleNode.ones))
        obtain ⟨k, hk⟩ := SimpleNode.delivered_standard (List.append_cancel_left hlists) hf hstd
        exact absurd hk (SimpleNode.memoryMsg_ones_ne o k)
    · rintro ⟨hpayload, hcr⟩ freed freed' k ks k' ks'
      have hun : ∀ freed, Unterminated (fs.map (SimpleNode.Frame.sent o freed)) := by
        intro freed
        rw [Unterminated, ← List.map_dropLast, List.forall_mem_map]
        exact hcr
      have hpub := fun freed k ks => (SimpleNode.receiver o freed).run_unterminated
        (SimpleNode.Frame.deliverable o freed fs) (hun freed)
        (s := connected ((Channel.empty.send (SimpleNode.frames o fs)).arrive k) ks)
        (by rw [sent_all, SimpleNode.stream_sent]) rfl rfl
      exact (hpub freed k ks).trans ((congrArg _
        (SimpleNode.delivered_payloadOnly hpayload freed freed' _)).trans (hpub freed' k' ks').symm)

/-- Two states with a CR behind each; in the second run of each receiver the first CR comes late.
And a standard frame, in two runs that differ in the memory alone. -/
theorem run_schedule_matters :
    (TcpNode.run (TcpNode.launch .little) (connected
        ⟨encodeAll .little [48, 15, 1, 0, 1, 0, 0, 0, 0, 2000, 1500, 800, 120] ++ [0x0D] ++
          encodeAll .little [48, 15, 1, 0, 1, 0, 0, 0, 0, 2010, 1490, 800, 121] ++ [0x0D], []⟩
        [])).published ≠
      (TcpNode.run (TcpNode.launch .little) (connected
        ⟨[], encodeAll .little [48, 15, 1, 0, 1, 0, 0, 0, 0, 2000, 1500, 800, 120] ++ [0x0D] ++
          encodeAll .little [48, 15, 1, 0, 1, 0, 0, 0, 0, 2010, 1490, 800, 121] ++ [0x0D]⟩
        [])).published ∧
    (SimpleNode.run (SimpleNode.launch .little) SimpleNode.cleared (connected
        ⟨encodeAll .little [36, 15, 1, 0, 1, 0, 0, 0, 0, 2000, 1500, 800, 120] ++ [0x0D] ++
          encodeAll .little [36, 15, 1, 0, 1, 0, 0, 0, 0, 2010, 1490, 800, 121] ++ [0x0D], []⟩
        [])).published ≠
      (SimpleNode.run (SimpleNode.launch .little) SimpleNode.cleared (connected
        ⟨[], encodeAll .little [36, 15, 1, 0, 1, 0, 0, 0, 0, 2000, 1500, 800, 120] ++ [0x0D] ++
          encodeAll .little [36, 15, 1, 0, 1, 0, 0, 0, 0, 2010, 1490, 800, 121] ++ [0x0D]⟩
        [])).published ∧
    (SimpleNode.run (SimpleNode.launch .little) SimpleNode.cleared (connected
        ⟨encodeAll .little [53, 15, 1, 0, 1, 1, 0, 0, 0, 0, 2000, 1500, 800, 120] ++ [0x0D], []⟩
        [])).published ≠
      (SimpleNode.run (SimpleNode.launch .little) SimpleNode.ones (connected
        ⟨encodeAll .little [53, 15, 1, 0, 1, 1, 0, 0, 0, 0, 2000, 1500, 800, 120] ++ [0x0D], []⟩
        [])).published := by
  decide +kernel

end FanucDriver
