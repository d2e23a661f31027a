import FanucDriver.WeldState.Acceptance

/-!
# From the welding state sender to the Simple Message receiver

The receiver knows the lengths 36 and 53; the sender announces 49.  The receiver refuses the first
header, is off the boundary of the frames from there on, and gives up at the sixth refusal.

* `iter_refuses` — one iteration at a position that is refused.
* `runFor_refuses` — positions refused until the error counter is full: nothing is published.
* `run_cons_published` — fewer states are published than were sent, whatever memory the receiver
  reads.
* `run_publishes_iff_nil` — only the empty stream is received as sent.
-/

set_option autoImplicit false

namespace FanucDriver

open Wire Node

namespace SimpleNode

/-! ## Refusals -/

theorem iter_refuses (p : Params) (freed : Freed) (st : RunState) (hatt : st.attempts = [])
    (h : ¬ p.Announced st.sock.all) :
    (iter p freed st).attempts = [] ∧ (iter p freed st).published = st.published ∧
      (iter p freed st).errorCount = st.errorCount + 1 ∧
      (5 ≤ st.errorCount → (iter p freed st).status ≠ .running) ∧
      (st.errorCount < 5 → (iter p freed st).status = st.status ∧
        (iter p freed st).sock.all = st.sock.all.drop 16) := by
  obtain ⟨c, hrec, hc⟩ := receive_refuses p (freed st.msgCount) st.sock st.arrivals h
  simp only [iter, hrec, commError, hatt]
  split
  · refine ⟨rfl, rfl, rfl, ?_, ?_⟩
    · intro _
      simp
    · intro _
      omega
  · refine ⟨rfl, rfl, rfl, ?_, ?_⟩
    · intro _
      omega
    · intro _
      exact ⟨rfl, hc⟩

/-- **Refused until the end**: with the error counter running full the stream is left. -/
theorem runFor_refuses (p : Params) (freed : Freed) (n m : Nat) {st : RunState}
    (hatt : st.attempts = []) (hcount : st.errorCount + n = 5)
    (href : ∀ i, i ≤ n → ¬ p.Announced (st.sock.all.drop (16 * i))) :
    (runFor (iter p freed) m st).published = st.published := by
  induction m generalizing n st with
  | zero => rfl
  | succ m ih =>
    rw [runFor]
    split
    · obtain ⟨hatt', hpub, herr, hexit, hsock⟩ :=
        iter_refuses p freed st hatt (href 0 (Nat.zero_le _))
      cases n with
      | zero =>
        have hstop := hexit (by omega)
        cases m with
        | zero => exact hpub
        | succ m => rw [runFor, if_neg hstop, hpub]
      | succ n =>
        rw [ih n hatt' (by omega) ?_, hpub]
        intro i hi
        rw [(hsock (by omega)).2, List.drop_drop, show 16 + 16 * i = 16 * (i + 1) by omega]
        exact href (i + 1) (by omega)
    · rfl

/-! ## The streams received as sent -/

/-- The length word of the sender is neither of the two known ones. -/
theorem stateFrame_refused (o : ByteOrder) (cr : Bool) (n : Word) (s : WeldStateT) (r : Bytes) :
    ¬ (launch o).Announced (stateFrame o cr n s ++ r) := by
  rintro ⟨-, hlength, -, -⟩
  have hword : decode o (stateFrame o cr n s ++ r) = decode o (encodeAll o weldPktHdr.words) :=
    decode_frame_drop o cr n s r (Nat.zero_le 12)
  rw [show (launch o).byteOrder = o from rfl, hword] at hlength
  rcases hlength with h | h <;> revert h <;> cases o <;> decide

/-- **A whole run on a stream that is not empty**: behind the first refusal the receiver is inside
the first frame, and accepts at most once for each frame behind it. -/
theorem run_cons_published (o : ByteOrder) (freed : Freed) (cr : Bool) (seqNr : Word)
    (s : WeldStateT) (ss : List WeldStateT) (c : Channel) (arrivals : List Nat)
    (hc : c.all = readerStream o cr seqNr (s :: ss)) :
    (run (launch o) freed (connected c arrivals)).published.length ≤ ss.length := by
  have R := receiver o freed
  rw [readerStream_eq, stateFrames, List.flatten_cons] at hc
  have href : ¬ (launch o).Announced (connected c arrivals).sock.all := by
    rw [show (connected c arrivals).sock.all = _ from hc]
    exact stateFrame_refused o cr (seqNr + 1) s _
  obtain ⟨hatt, hpub, -, -, hsock⟩ := iter_refuses (launch o) freed (connected c arrivals) rfl href
  have hstep : run (launch o) freed (connected c arrivals) =
      runAll (iter (launch o) freed) (iter (launch o) freed (connected c arrivals)) :=
    runAll_step R.measure rfl
  obtain ⟨ws, hws, hscan⟩ := R.runAll_scan hatt
  rw [(hsock (Nat.succ_pos 4)).2, show (connected c arrivals).sock.all = _ from hc] at hscan
  have hshape : ∀ f ∈ stateFrames o cr (seqNr + 1) ss, WeldShaped o f :=
    fun f hf => weldShaped_of_isFrame (mem_stateFrames hf)
  obtain ⟨fs', hP, hle, hin⟩ := (weldShaped_bounded o).move 0 16
    (weldShaped_of_isFrame ⟨seqNr + 1, s, rfl⟩) hshape (by omega) (Nat.zero_le _)
  rw [List.drop_zero] at hin
  have hcount := hscan.le_bounded (weldShaped_bounded o) fs' hP hin
  rw [stateFrames_length] at hle
  rw [hstep, hws, hpub]
  exact hcount.trans hle

/-- **When the receiver publishes the states sent.** Only for the empty stream; this holds in
either byte order, with or without the CR, from any sequence number, however the bytes arrive and
whatever the memory holds that the receiver reads. -/
theorem run_publishes_iff_nil (o : ByteOrder) (cr : Bool) (seqNr : Word) (ss : List WeldStateT)
    (k : Nat) (arrivals : List Nat) (freed : Freed) :
    (run (launch o) freed (connected
        ((Channel.empty.send (readerStream o cr seqNr ss)).arrive k) arrivals)).published =
      ss.map WeldStateT.msg ↔ ss = [] := by
  have hc : ((Channel.empty.send (readerStream o cr seqNr ss)).arrive k).all =
      readerStream o cr seqNr ss := by
    rw [Channel.all_arrive, Channel.all_send, Channel.all_empty, List.nil_append]
  generalize (Channel.empty.send (readerStream o cr seqNr ss)).arrive k = c at hc
  cases ss with
  | nil =>
    constructor
    · intro _
      rfl
    · intro _
      refine runFor_refuses (launch o) freed 5 _ rfl rfl ?_
      intro i _ h
      have := h.whole
      rw [show (connected c arrivals).sock.all = [] from hc, List.drop_nil] at this
      exact absurd this (by simp)
  | cons s ss =>
    constructor
    · intro h
      have hle := run_cons_published o freed cr seqNr s ss c arrivals hc
      rw [h, List.length_map, List.length_cons] at hle
      exact absurd hle (Nat.not_succ_le_self _)
    · intro h
      cases h

/-- Two states, and the receiver leaves its loop without having published anything. -/
theorem run_refuses_states :
    (run (launch .little) cleared (connected ⟨readerStream .little true 0
      [⟨true, false, true, 0, 3, 2000, 1500, 800, 120⟩,
        ⟨true, false, true, 0, 0, 2010, 1490, 800, 121⟩], []⟩ [])).published = [] ∧
    ([] : List WeldState) ≠ [(⟨true, false, true, 0, 3, 2000, 1500, 800, 120⟩ : WeldStateT),
      ⟨true, false, true, 0, 0, 2010, 1490, 800, 121⟩].map WeldStateT.msg := by
  decide +kernel

end SimpleNode

end FanucDriver
