import FanucDriver.Lib.Framing
import FanucDriver.WeldState.Frames
import Mathlib.Tactic.IntervalCases

/-!
# A receiver of welding state frames

What both receivers do with a stream that is cut into frames of theirs.

* `runAll`, `runAll_step` — a whole run, and a run behind its first iteration;
  `runAll_exited_iff` — when it returns.
* `leftover_enough`, `leftover_clean`, `leftover_stay`, `leftover_cons`, `leftover_late` — the
  removal of CR and LF by what is there and has arrived.
* `LooksLike`, `WeldShaped`, `weldShaped_bounded` — where a stream of frames can be taken for the
  start of a frame.
* `Receiver`, `Accepted` — an iteration at any bytes, and at a frame it accepts; `run_end`,
  `runAll_scan` — runs made of them.
-/

set_option autoImplicit false

namespace FanucDriver

open Wire

namespace Node

/-! ## Whole runs -/

/-- The loop from a state until it ends. -/
def runAll (iter : RunState → RunState) (st : RunState) : RunState :=
  runFor iter (st.measure + 1) st

theorem runFor_stopped (iter : RunState → RunState) (n : Nat) {st : RunState}
    (h : st.status ≠ .running) : runFor iter n st = st := by
  cases n with
  | zero => rfl
  | succ n => rw [runFor, if_neg h]

/-- Enough iterations are enough. -/
theorem runFor_stable {iter : RunState → RunState}
    (hiter : ∀ st, (iter st).status = .running → (iter st).measure < st.measure) {n m : Nat}
    {st : RunState} (hn : st.measure < n) (hm : st.measure < m) :
    runFor iter n st = runFor iter m st := by
  induction n generalizing m st with
  | zero => exact absurd hn (Nat.not_lt_zero _)
  | succ n ih =>
    cases m with
    | zero => exact absurd hm (Nat.not_lt_zero _)
    | succ m =>
      rw [runFor, runFor]
      split
      · by_cases hr : (iter st).status = .running
        · have := hiter st hr
          exact ih (by omega) (by omega)
        · rw [runFor_stopped iter n hr, runFor_stopped iter m hr]
      · rfl

theorem runAll_step {iter : RunState → RunState}
    (hiter : ∀ st, (iter st).status = .running → (iter st).measure < st.measure) {st : RunState}
    (hrun : st.status = .running) : runAll iter st = runAll iter (iter st) := by
  rw [runAll, runFor, if_pos hrun, runAll]
  by_cases hr : (iter st).status = .running
  · exact runFor_stable hiter (hiter st hr) (Nat.lt_succ_self _)
  · rw [runFor_stopped iter _ hr, runFor_stopped iter _ hr]

theorem runFor_add (iter : RunState → RunState) (m n : Nat) (st : RunState) :
    runFor iter (m + n) st = runFor iter n (runFor iter m st) := by
  induction m generalizing st with
  | zero => rw [Nat.zero_add, runFor]
  | succ m ih =>
    rw [Nat.succ_add, runFor, runFor]
    split
    · exact ih (iter st)
    · rename_i hstop
      rw [runFor_stopped iter n hstop]

/-- **When a run returns**: when none of its iterations ends in a fault, which happens where `Bad`
holds. -/
theorem runAll_exited_iff {iter : RunState → RunState} {Bad : RunState → Prop}
    (hiter : ∀ st, (iter st).status = .running → (iter st).measure < st.measure)
    (hbad : ∀ st, st.status = .running → ((iter st).status = .fault ↔ Bad st)) {st : RunState}
    (hrun : st.status = .running) :
    (runAll iter st).status = .exited ↔
      ∀ k, (runFor iter k st).status = .running → ¬ Bad (runFor iter k st) := by
  have hends : (runAll iter st).status ≠ .running := runFor_exits hiter (Nat.lt_succ_self _)
  have hlast : ∀ k, (runFor iter k st).status = .running →
      runFor iter (k + 1) st = iter (runFor iter k st) := by
    intro k hk
    rw [runFor_add, runFor, if_pos hk]
    rfl
  constructor
  · intro hexit k hk hb
    have hfault := (hbad _ hk).mpr hb
    rw [← hlast k hk] at hfault
    -- the run is at least as long, and the same from there on
    have hle : k + 1 ≤ st.measure + 1 := by
      by_contra hlt
      obtain ⟨d, rfl⟩ : ∃ d, k = (st.measure + 1) + d := Nat.exists_eq_add_of_le (by omega)
      rw [runFor_add, ← runAll, runFor_stopped iter d hends] at hk
      exact hends hk
    obtain ⟨d, hd⟩ := Nat.exists_eq_add_of_le hle
    rw [runAll, hd, runFor_add, runFor_stopped iter d (by rw [hfault]; decide), hfault] at hexit
    cases hexit
  · intro h
    have hnofault : ∀ k, (runFor iter k st).status ≠ .fault := by
      intro k
      induction k with
      | zero => simp [runFor, hrun]
      | succ k ih =>
        by_cases hk : (runFor iter k st).status = .running
        · rw [hlast k hk]
          exact fun hfault => h k hk ((hbad _ hk).mp hfault)
        · rwa [runFor_add, runFor_stopped iter 1 hk]
    cases hstatus : (runAll iter st).status with
    | exited => rfl
    | running => exact absurd hstatus hends
    | fault => exact absurd hstatus (hnofault _)

/-! ## CR and LF behind a frame -/

/-- Rounds enough to look at every byte are enough. -/
theorem leftover_enough {n : Nat} {c : Channel} (ks : List Nat) (h : c.all.length < n) :
    leftover n c ks = leftover (c.all.length + 1) c ks := by
  generalize hm : c.all.length + 1 = m
  have hm' : c.all.length < m := by omega
  clear hm
  induction n generalizing m c ks with
  | zero => exact absurd h (Nat.not_lt_zero _)
  | succ n ih =>
    obtain ⟨m, rfl⟩ : ∃ j, m = j + 1 := ⟨m - 1, by omega⟩
    rw [leftover, leftover]
    split
    · rfl
    · rename_i b hb
      split
      · have hlen : ((c.arrive (ks.headD 0)).consume 1).all.length < c.all.length := by
          have hpos : 0 < (c.arrive (ks.headD 0)).all.length := by
            obtain ⟨buf, hbuf⟩ := List.head?_eq_some_iff.mp hb
            rw [Channel.all, hbuf, List.length_append, List.length_cons]
            omega
          rw [Channel.all_arrive] at hpos
          rw [Channel.all_consume, Channel.all_arrive, List.length_drop]
          omega
        exact ih ks.tail (by omega) m (by omega)
      · rfl

/-- What a stream may go on with for nothing of it to be removed. -/
def Clean (bs : Bytes) : Prop := ∀ b, bs.head? = some b → isTerminator b = false

theorem clean_nil : Clean [] := by
  intro b h
  cases h

theorem Clean.append {f : Bytes} (h : Clean f) (hne : f ≠ []) (r : Bytes) : Clean (f ++ r) := by
  intro b hb
  rw [List.head?_append_of_ne_nil _ hne] at hb
  exact h b hb

theorem leftover_clean (fuel : Nat) {c : Channel} (ks : List Nat) (h : Clean c.all) :
    (leftover fuel c ks).1.all = c.all := by
  obtain ⟨j, -, hall, hterm⟩ := leftover_spec fuel c ks
  cases j with
  | zero => exact hall
  | succ j =>
    obtain ⟨b, hb, ht⟩ := hterm 0 (Nat.succ_pos j)
    rw [h b (by rw [List.head?_eq_getElem?, hb])] at ht
    cases ht

/-- Everything has arrived, and nothing is to be removed. -/
theorem leftover_stay (fuel : Nat) {bs : Bytes} (ks : List Nat) (h : Clean bs) :
    (leftover fuel ⟨bs, []⟩ ks).1 = ⟨bs, []⟩ := by
  cases fuel with
  | zero => rfl
  | succ fuel =>
    have harrive : (⟨bs, []⟩ : Channel).arrive (ks.headD 0) = ⟨bs, []⟩ := by
      simp [Channel.arrive]
    rw [leftover, harrive]
    cases bs with
    | nil => rfl
    | cons b bs =>
      simp only [Channel.peek, List.head?_cons, h b rfl]
      rfl

/-- Everything has arrived, and there is a byte to be removed. -/
theorem leftover_cons (n : Nat) {b : UInt8} (hb : isTerminator b = true) (bs : Bytes)
    (ks : List Nat) :
    (leftover (n + 1) ⟨b :: bs, []⟩ ks).1 = (leftover n ⟨bs, []⟩ ks.tail).1 := by
  have harrive : (⟨b :: bs, []⟩ : Channel).arrive (ks.headD 0) = ⟨b :: bs, []⟩ := by
    simp [Channel.arrive]
  have hconsume : (⟨b :: bs, []⟩ : Channel).consume 1 = ⟨bs, []⟩ := by
    simp [Channel.consume]
  rw [leftover, harrive]
  simp only [Channel.peek, List.head?_cons, hb, if_true, hconsume]

/-- It is the only one. -/
theorem leftover_one {fuel : Nat} (hfuel : 1 ≤ fuel) {b : UInt8} (hb : isTerminator b = true)
    {bs : Bytes} (ks : List Nat) (h : Clean bs) :
    (leftover fuel ⟨b :: bs, []⟩ ks).1 = ⟨bs, []⟩ := by
  obtain ⟨n, rfl⟩ := Nat.exists_eq_add_of_le' hfuel
  rw [leftover_cons n hb]
  exact leftover_stay n _ h

/-- Nothing has arrived, nor does anything. -/
theorem leftover_late (fuel : Nat) (bs : Bytes) : leftover fuel ⟨[], bs⟩ [] = (⟨[], bs⟩, []) := by
  cases fuel with
  | zero => rfl
  | succ fuel => rfl

/-! ## Where a frame may seem to begin -/

/-- The first words may be those of a frame that is accepted. -/
structure LooksLike (o : ByteOrder) (t : Bytes) : Prop where
  msgType : decode o (t.drop 4) = 15
  length : 36 ≤ (decode o t).toNat ∧ (decode o t).toNat ≤ 55

/-- The shape of the frames that are accepted, with their CR. -/
def WeldShaped (o : ByteOrder) (f : Bytes) : Prop :=
  ∃ len reply r, f = encodeAll o [len, 15, 1, reply] ++ r ∧ r.length ≤ 44

theorem decode_little (a b c d : UInt8) (r : Bytes) :
    (decode .little (a :: b :: c :: d :: r)).toNat = leNat a b c d := by
  have ha := a.toNat_lt
  have hb := b.toNat_lt
  have hc := c.toNat_lt
  have hd := d.toNat_lt
  rw [decode, BitVec.toNat_ofNat, Nat.mod_eq_of_lt]
  rw [leNat]
  omega

theorem decode_big (a b c d : UInt8) (r : Bytes) :
    (decode .big (a :: b :: c :: d :: r)).toNat = leNat d c b a := by
  rw [← decode_little d c b a r]
  rfl

/-- The header, byte by byte. -/
theorem header_little (len reply : Word) :
    ∃ l0 l1 l2 l3 r0 r1 r2 r3, encodeAll .little [len, 15, 1, reply] =
      [l0, l1, l2, l3, 15, 0, 0, 0, 1, 0, 0, 0, r0, r1, r2, r3] :=
  ⟨_, _, _, _, _, _, _, _, rfl⟩

theorem header_big (len reply : Word) :
    ∃ l0 l1 l2 l3 r0 r1 r2 r3, encodeAll .big [len, 15, 1, reply] =
      [l3, l2, l1, l0, 0, 0, 0, 15, 0, 0, 0, 1, r0, r1, r2, r3] :=
  ⟨_, _, _, _, _, _, _, _, rfl⟩

/-- **No frame seems to begin in the first twelve bytes of another**, behind its start. -/
theorem weldShaped_gap {o : ByteOrder} {f : Bytes} {q : Nat} (r : Bytes) (h : WeldShaped o f)
    (hq : 1 ≤ q) (hq12 : q < 12) : ¬ LooksLike o (f.drop q ++ r) := by
  obtain ⟨len, reply, t, rfl, -⟩ := h
  rintro ⟨htype, h36, h55⟩
  replace htype := congrArg BitVec.toNat htype
  cases o with
  | little =>
    obtain ⟨l0, l1, l2, l3, r0, r1, r2, r3, hhdr⟩ := header_little len reply
    rw [hhdr] at htype h36 h55
    interval_cases q <;> simp [decode_little, leNat] at htype h36 h55 <;> omega
  | big =>
    obtain ⟨l0, l1, l2, l3, r0, r1, r2, r3, hhdr⟩ := header_big len reply
    rw [hhdr] at htype h36 h55
    interval_cases q <;> simp [decode_big, leNat] at htype h36 h55

/-- Nor one byte in front of one. -/
theorem weldShaped_late {o : ByteOrder} {f : Bytes} (b : UInt8) (r : Bytes) (h : WeldShaped o f) :
    ¬ LooksLike o (b :: (f ++ r)) := by
  obtain ⟨len, reply, t, rfl, -⟩ := h
  rintro ⟨htype, -⟩
  replace htype := congrArg BitVec.toNat htype
  cases o with
  | little =>
    obtain ⟨l0, l1, l2, l3, r0, r1, r2, r3, hhdr⟩ := header_little len reply
    rw [hhdr] at htype
    simp [decode_little, leNat] at htype
  | big =>
    obtain ⟨l0, l1, l2, l3, r0, r1, r2, r3, hhdr⟩ := header_big len reply
    rw [hhdr] at htype
    simp [decode_big, leNat] at htype
    omega

theorem weldShaped_bounded (o : ByteOrder) :
    Framing.Bounded (LooksLike o) (WeldShaped o) 60 12 52 where
  pos := by
    rintro f ⟨len, reply, r, rfl, -⟩
    rw [List.length_append, encodeAll_length]
    simp only [List.length_cons, List.length_nil]
    omega
  len := by
    rintro f ⟨len, reply, r, rfl, hr⟩
    rw [List.length_append, encodeAll_length]
    simp only [List.length_cons, List.length_nil]
    omega
  gap := fun _ _ r hf hq hq12 => weldShaped_gap r hf hq hq12
  window := by omega

theorem weldShaped_of_isFrame {o : ByteOrder} {cr : Bool} {f : Bytes} (h : IsFrame o cr f) :
    WeldShaped o f := by
  obtain ⟨n, s, rfl⟩ := h
  have hcr := crBytes_length_le cr
  refine ⟨49, RI_RT_INVAL, _, rfl, ?_⟩
  rw [List.length_append, encodeAll_length]
  simp only [List.length_cons, List.length_nil]
  omega

/-! ## Receivers -/

/-- An iteration at any bytes.  `fuel` is how many bytes the receiver may remove behind a frame. -/
structure Receiver (o : ByteOrder) (iter : RunState → RunState) (fuel : Channel → Nat) : Prop where
  measure : ∀ st, (iter st).status = .running → (iter st).measure < st.measure
  /-- too few bytes for a header -/
  ended : ∀ st, st.sock.all.length < 16 →
    iter st = commError { st with sock := st.sock.consume st.sock.all.length }
  /-- a message is published only where a frame seems to begin -/
  scans : Scans iter (LooksLike o) 52
  fuel_pos : ∀ c, 1 ≤ fuel c

/-- Count the message, publish the state and remove what is left of the frame. -/
def RunState.deliver (fuel : Nat) (c : Channel) (w : WeldState) (s : RunState) : RunState :=
  let l := leftover fuel c s.arrivals
  { s with
    msgCount := s.msgCount + 1
    sock := l.1
    arrivals := l.2
    published := s.published ++ [w]
    errorCount := 0 }

@[simp] theorem RunState.deliver_published (n : Nat) (c : Channel) (w : WeldState)
    (s : RunState) : (s.deliver n c w).published = s.published ++ [w] := rfl

/-- A frame that is accepted, and the state it is accepted for when it is the message with a
number. -/
structure Accepted (iter : RunState → RunState) (fuel : Channel → Nat) (f : Bytes)
    (w : Nat → WeldState) : Prop where
  takes : ∀ s rest, s.sock.all = f ++ rest →
    iter s = s.deliver (fuel (s.sock.consume f.length)) (s.sock.consume f.length) (w s.msgCount)
  clean : Clean f
  nonempty : f ≠ []

variable {o : ByteOrder} {iter : RunState → RunState} {fuel : Channel → Nat}

theorem commError_ended {s : RunState} (hatt : s.attempts = []) (hall : s.sock.all = []) :
    (commError s).published = s.published ∧ (commError s).attempts = [] ∧
      (commError s).sock.all = [] ∧
      ((commError s).status = s.status ∨ (commError s).status = .exited) := by
  unfold commError
  dsimp only
  split
  · rw [hatt]
    exact ⟨rfl, rfl, rfl, .inr rfl⟩
  · exact ⟨rfl, hatt, hall, .inl rfl⟩

/-- **Where too little is left the run ends**, and publishes nothing more. -/
theorem Receiver.run_end (R : Receiver o iter fuel) {s : RunState}
    (hshort : s.sock.all.length < 16) (hatt : s.attempts = []) (hrun : s.status = .running) :
    (runAll iter s).published = s.published ∧ (runAll iter s).status = .exited := by
  induction hm : s.measure using Nat.strongRecOn generalizing s with
  | ind m ih =>
    subst hm
    obtain ⟨hpub, hatt', hall, hstatus⟩ := commError_ended
      (s := { s with sock := s.sock.consume s.sock.all.length }) hatt
      (by rw [Channel.all_consume, List.drop_length])
    rw [← R.ended s hshort] at hpub hatt' hall hstatus
    rw [runAll_step R.measure hrun]
    rcases hstatus with hstatus | hstatus
    · have hrun' := hstatus.trans hrun
      have hend := ih _ (R.measure s hrun') (by rw [hall]; decide) hatt' hrun' rfl
      exact ⟨hend.1.trans hpub, hend.2⟩
    · have hstop : (iter s).status ≠ .running := by
        rw [hstatus]
        decide
      rw [runAll, runFor_stopped iter _ hstop]
      exact ⟨hpub, hstatus⟩

/-- A run whose first iteration takes a frame. -/
theorem Receiver.run_takes (R : Receiver o iter fuel) {f : Bytes} {w : Nat → WeldState}
    (hf : Accepted iter fuel f w) {s : RunState} {rest : Bytes} (hall : s.sock.all = f ++ rest)
    (hrun : s.status = .running) :
    runAll iter s = runAll iter (s.deliver (fuel (s.sock.consume f.length))
      (s.sock.consume f.length) (w s.msgCount)) := by
  rw [runAll_step R.measure hrun, hf.takes s rest hall]

/-- **Every message is one acceptance** of a scan of the stream. -/
theorem Receiver.runAll_scan (R : Receiver o iter fuel) {s : RunState} (hatt : s.attempts = []) :
    ∃ ws, (runAll iter s).published = s.published ++ ws ∧
      Framing.Scan (LooksLike o) 52 16 s.sock.all ws.length :=
  R.scans.runFor_scan _ hatt

end Node

end FanucDriver
