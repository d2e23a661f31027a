import FanucDriver.WeldState.TcpStream

/-!
# What the TCP receiver accepts behind a header

The comment in front of the analysis lists the data sizes 36 and 40, each followed by at most one
CR or LF.  The code removes up to two such bytes, from the payload as well, and then takes four
sizes.

* `weldHeader`, `iter_weldFrame` — a frame of the expected types and what an iteration makes
  of it.
* `decodeRemainder_eq` — the analysis by the number of bytes left.
* `Listed` — the formats of the comment; `Unambiguous` — the lengths and last bytes for which the
  code follows it, and `iter_publishes_iff_unambiguous`.
-/

set_option autoImplicit false

namespace FanucDriver

open Wire Node

namespace TcpNode

/-- The parameters of `weld_state.launch`, with or without its raw dump. -/
def launchDump (o : ByteOrder) (dumpRaw : Bool) : Params := { launch o with dumpRaw := dumpRaw }

/-! ## The analysis -/

theorem exists_append_two {r : Bytes} (h : 2 ≤ r.length) : ∃ a x y, r = a ++ [x, y] := by
  obtain ⟨x, y, hxy⟩ : ∃ x y, r.drop (r.length - 2) = [x, y] := by
    apply List.length_eq_two.mp
    rw [List.length_drop]
    omega
  exact ⟨r.take (r.length - 2), x, y, by rw [← hxy, List.take_append_drop]⟩

theorem decodePayload_eq (o : ByteOrder) (d : Bool) {r : Bytes} {i n : Nat} (hn : i + 36 ≤ n)
    (hr : n ≤ r.length) :
    decodePayload (launchDump o d) r i n = .state (payloadMsg o (r.drop i)) := by
  have hfields : (launchDump o d).payloadFields = 9 := rfl
  have horder : (launchDump o d).byteOrder = o := rfl
  have hints := readInts?_eq o r (n := 9) (i := i) (by omega)
  rw [decodePayload, if_neg (by rw [hfields]; omega)]
  simp only [hfields, horder, hints, weldMsg?_decodeWords]

/-- What the code does with `n` bytes left of `r` after trimming. -/
def classify (o : ByteOrder) (r : Bytes) (n : Nat) : Option (List Word) :=
  if n = 36 ∨ n = 37 then some (decodeWords o 9 r)
  else if n = 40 ∨ n = 41 then some (decodeWords o 9 (r.drop 4))
  else none

/-- **The analysis, by the size left.** It never leaves the buffer. -/
theorem decodeRemainder_eq (o : ByteOrder) (d : Bool) {r : Bytes} {t : Nat}
    (ht : trimBytes r = some t) :
    decodeRemainder (launchDump o d) r =
      match (classify o r (r.length - t)).bind weldMsg? with
      | some w => .state w
      | none => .skip := by
  have hsize : (launchDump o d).payloadSizeBytes = 36 := rfl
  have horder : (launchDump o d).byteOrder = o := rfl
  simp only [decodeRemainder, ht, hsize, classify]
  have hle : r.length - t ≤ r.length := Nat.sub_le _ _
  generalize r.length - t = n at hle
  by_cases h36 : n = 36 ∨ n = 37
  · rw [if_pos h36, if_pos h36, decodePayload_eq o d (i := 0) (by omega) hle]
    simp only [Option.bind_some, weldMsg?_decodeWords, List.drop_zero]
  · rw [if_neg h36, if_neg h36]
    by_cases h40 : n = 40 ∨ n = 41
    · have hread : readWord? o r 0 = some (decode o r) := by
        rw [readWord?_eq, Wire.readWord?, if_pos (by omega), List.drop_zero]
      rw [if_pos h40, if_pos h40, horder, hread]
      simp only [decodePayload_eq o d (i := 4) (by omega) hle, Option.bind_some,
        weldMsg?_decodeWords]
    · rw [if_neg h40, if_neg h40]
      rfl

/-! ## One frame -/

/-- A header of the expected types with length word `n`. -/
def weldHeader (o : ByteOrder) (n : Nat) (reply : Word) : Bytes :=
  encodeAll o [BitVec.ofNat 32 n, 15, 1, reply]

/-- The words the receiver finds in a header. -/
theorem readWord_header (o : ByteOrder) (len ty ct reply : Word) :
    readWord o (encodeAll o [len, ty, ct, reply]) = len ∧
      readWord o ((encodeAll o [len, ty, ct, reply]).drop 4) = ty ∧
      readWord o ((encodeAll o [len, ty, ct, reply]).drop 8) = ct := by
  have hword := fun i hi => decode_drop_encodeAll o [len, ty, ct, reply] [] (i := i) hi
  simp only [List.append_nil] at hword
  simp only [readWord_eq]
  exact ⟨hword 0 (by simp), hword 1 (by simp), hword 2 (by simp)⟩

/-- An iteration at a header receives it. -/
theorem iter_header (p : Params) (st : RunState) {len ty ct reply : Word} {rest : Bytes}
    (hall : st.sock.all = encodeAll p.byteOrder [len, ty, ct, reply] ++ rest) :
    iter p st = handle p (encodeAll p.byteOrder [len, ty, ct, reply])
      { st with sock := st.sock.consume 16 } := by
  have h16 : (encodeAll p.byteOrder [len, ty, ct, reply]).length = 16 := by simp
  have hread : st.sock.readExact 16 =
      (some (encodeAll p.byteOrder [len, ty, ct, reply]), st.sock.consume 16) := by
    rw [Channel.readExact_of_le (by rw [hall, List.length_append]; omega), hall,
      List.take_left' h16]
  simp only [iter, hread]

/-- What the message of an analysed remainder adds to those published. -/
def publishedBy : Decoded → List WeldState
  | .state w => [w]
  | _ => []

/-- The state behind a frame that was received whole. -/
def afterFrame (st : RunState) (sock : Channel) : Decoded → RunState
  | .fault => { st with msgCount := st.msgCount + 1, sock := sock, status := .fault }
  | .skip => { st with msgCount := st.msgCount + 1, sock := sock }
  | .state w =>
    let l := leftover (sock.all.length + 1) sock st.arrivals
    { st with
      msgCount := st.msgCount + 1
      sock := l.1
      arrivals := l.2
      published := st.published ++ [w]
      errorCount := 0 }

theorem afterFrame_published (st : RunState) (sock : Channel) (dec : Decoded) :
    (afterFrame st sock dec).published = st.published ++ publishedBy dec := by
  cases dec with
  | fault => exact (List.append_nil _).symm
  | skip => exact (List.append_nil _).symm
  | state w => rfl

/-- **One iteration at the start of a frame of the expected types**, all of whose bytes come:
the analysis of what the header announces decides. -/
theorem iter_weldFrame (o : ByteOrder) (d : Bool) (st : RunState) {r rest : Bytes} {reply : Word}
    (hall : st.sock.all = weldHeader o (12 + r.length) reply ++ (r ++ rest))
    (h28 : 28 ≤ r.length) (hword : 12 + r.length < 4294967296)
    (hfit : d = true → r.length + 28 < 4294967296) :
    iter (launchDump o d) st = afterFrame st (st.sock.consume (16 + r.length))
      (decodeRemainder (launchDump o d) r) := by
  have hnat : (BitVec.ofNat 32 (12 + r.length)).toNat = 12 + r.length := by
    rw [BitVec.toNat_ofNat, Nat.mod_eq_of_lt (by omega)]
  obtain ⟨hlength, htype, hcomm⟩ :=
    readWord_header o (BitVec.ofNat 32 (12 + r.length)) 15 1 reply
  have hall16 : (st.sock.consume 16).all = r ++ rest := by
    rw [Channel.all_consume, hall, weldHeader, List.drop_left' (by simp)]
  have hguard : ¬ ((launchDump o d).dumpRaw = true ∧
      ¬ dumpInBounds (BitVec.ofNat 32 (12 + r.length)) (st.sock.consume 16) = true) := by
    rintro ⟨hd, hdump⟩
    have := hfit hd
    apply hdump
    refine decide_eq_true ?_
    rw [hnat]
    omega
  have hvalid : ¬ ((15 : Word) ≠ (launchDump o d).expectedMsgType ∨
      (1 : Word) ≠ (launchDump o d).expectedCommType ∨
      12 + r.length < 4 + (launchDump o d).payloadSizeBytes) := by
    rintro (h | h | h)
    · exact h rfl
    · exact h rfl
    · have : (launchDump o d).payloadSizeBytes = 36 := rfl
      omega
  have hread : (st.sock.consume 16).readExact r.length =
      (some r, st.sock.consume (16 + r.length)) := by
    rw [Channel.readExact_of_le (by rw [hall16, List.length_append]; omega), hall16,
      List.take_left' rfl, Channel.consume_consume]
  rw [iter_header (launchDump o d) st hall]
  simp only [handle, show (launchDump o d).byteOrder = o from rfl, hlength, htype, hcomm, hnat,
    if_neg hguard, if_neg hvalid, Nat.add_sub_cancel_left, hread,
    if_neg (show ¬ 12 + r.length < 12 by omega)]
  cases decodeRemainder (launchDump o d) r <;> rfl

/-- Where the raw dump leaves its buffer nothing is published. -/
theorem iter_dump_fault (o : ByteOrder) (st : RunState) {n : Nat} {rest : Bytes} {reply : Word}
    (hall : st.sock.all = weldHeader o n reply ++ rest) (hword : n < 4294967296)
    (hover : 4294967280 ≤ n) : (iter (launchDump o true) st).published = st.published := by
  have hnat : (BitVec.ofNat 32 n).toNat = n := by
    rw [BitVec.toNat_ofNat, Nat.mod_eq_of_lt hword]
  have hlength := (readWord_header o (BitVec.ofNat 32 n) 15 1 reply).1
  have hdump : ¬ dumpInBounds (BitVec.ofNat 32 n) (st.sock.consume 16) = true := by
    intro h
    have := (of_decide_eq_true h).1
    rw [hnat] at this
    omega
  rw [iter_header (launchDump o true) st hall]
  simp only [handle, show (launchDump o true).byteOrder = o from rfl, hlength,
    if_pos (And.intro (show (launchDump o true).dumpRaw = true from rfl) hdump)]

/-- **The published messages**, for every length: a frame long enough to make the raw dump fail
has no accepted size. -/
theorem iter_weldFrame_published (o : ByteOrder) (d : Bool) (st : RunState) {r rest : Bytes}
    {reply : Word} (hall : st.sock.all = weldHeader o (12 + r.length) reply ++ (r ++ rest))
    (h28 : 28 ≤ r.length) (hword : 12 + r.length < 4294967296) :
    (iter (launchDump o d) st).published =
      st.published ++ publishedBy (decodeRemainder (launchDump o d) r) := by
  by_cases hfit : d = true → r.length + 28 < 4294967296
  · rw [iter_weldFrame o d st hall h28 hword hfit, afterFrame_published]
  · obtain ⟨rfl, hlong⟩ := Classical.not_imp.mp hfit
    obtain ⟨a, x, y, hr⟩ := exists_append_two (r := r) (by omega)
    have hskip : decodeRemainder (launchDump o true) r = .skip := by
      have hnone : ∀ t, t ≤ 2 → classify o r (r.length - t) = none := by
        intro t ht
        rw [classify, if_neg (by omega), if_neg (by omega)]
      rw [decodeRemainder_eq o true (hr ▸ trimBytes_append a x y),
        hnone _ (by split <;> [split; skip] <;> omega)]
      rfl
    rw [iter_dump_fault o st hall hword (by omega), hskip]
    exact (List.append_nil _).symm

/-! ## The listed formats -/

/-- `r` is in one of the formats of the comment: 36 bytes of payload, a sequence number in front
or not, and at most one CR or LF behind it. -/
def Listed (r payload : Bytes) : Prop :=
  payload.length = 36 ∧ ∃ seqNr term, (seqNr = [] ∨ seqNr.length = 4) ∧
    (term = [] ∨ ∃ b, term = [b] ∧ isTerminator b = true) ∧ r = seqNr ++ (payload ++ term)

/-- The iteration publishes a message exactly for a listed format, and then the message of the
nine integers of the payload. -/
def PublishesListed (p : Params) (st : RunState) (r : Bytes) : Prop :=
  ∀ w, (iter p st).published = st.published ++ [w] ↔
    ∃ payload, Listed r payload ∧ w = payloadMsg p.byteOrder payload

def EndsInTerminator (r : Bytes) : Prop := ∃ b, r.getLast? = some b ∧ isTerminator b = true

/-- No CR or LF at the end can be taken for what it is not, nor another byte for a CR or LF. -/
structure Unambiguous (r : Bytes) : Prop where
  payload : r.length = 36 ∨ r.length = 40 → ¬ EndsInTerminator r
  terminated : r.length = 37 ∨ r.length = 41 → EndsInTerminator r ∧ ¬ EndsInTerminator r.dropLast
  twoMore : r.length = 38 ∨ r.length = 42 → ¬ EndsInTerminator r
  threeMore : r.length = 39 ∨ r.length = 43 →
    ¬ (EndsInTerminator r ∧ EndsInTerminator r.dropLast)

theorem endsInTerminator_append (a : Bytes) (y : UInt8) :
    EndsInTerminator (a ++ [y]) ↔ isTerminator y = true := by
  simp [EndsInTerminator]

theorem decodeWords_append (o : ByteOrder) {n : Nat} {a : Bytes} (h : 4 * n ≤ a.length)
    (r : Bytes) : decodeWords o n (a ++ r) = decodeWords o n a := by
  induction n generalizing a with
  | zero => rfl
  | succ n ih =>
    rw [decodeWords, decodeWords, decode_append o (by omega),
      List.drop_append_of_le_length (by omega), ih (by rw [List.length_drop]; omega)]

/-- The integers of a listed format, told by its length and its last byte. -/
def listedWords (o : ByteOrder) (r : Bytes) (last : Bool) : Option (List Word) :=
  if r.length = 36 ∨ (r.length = 37 ∧ last = true) then some (decodeWords o 9 r)
  else if r.length = 40 ∨ (r.length = 41 ∧ last = true) then some (decodeWords o 9 (r.drop 4))
  else none

/-- The same formats, built from their parts. -/
theorem Listed.of_parts {core term : Bytes} (hterm : term = [] ∨ ∃ b, term = [b] ∧ isTerminator b)
    (hcore : core.length = 36 ∨ core.length = 40) :
    Listed (core ++ term) (core.drop (core.length - 36)) := by
  refine ⟨by rw [List.length_drop]; omega, core.take (core.length - 36), term, ?_, hterm, ?_⟩
  · rcases hcore with h | h
    · rw [h]
      exact .inl rfl
    · rw [h]
      exact .inr (by rw [List.length_take, h]; rfl)
  · rw [← List.append_assoc, List.take_append_drop]

theorem listed_iff (o : ByteOrder) (a : Bytes) (y : UInt8) (w : WeldState) :
    (∃ payload, Listed (a ++ [y]) payload ∧ w = payloadMsg o payload) ↔
      (listedWords o (a ++ [y]) (isTerminator y)).bind weldMsg? = some w := by
  have hmsg : ∀ payload, w = payloadMsg o payload ↔
      weldMsg? (decodeWords o 9 payload) = some w := by
    intro payload
    rw [weldMsg?_decodeWords, Option.some.injEq, eq_comm]
  simp only [hmsg]
  generalize hr : a ++ [y] = r
  constructor
  · rintro ⟨payload, ⟨h36, seqNr, term, hseq, hterm, hsplit⟩, hw⟩
    have hwords : decodeWords o 9 (payload ++ term) = decodeWords o 9 payload :=
      decodeWords_append o (by omega) term
    have hlen : r.length = seqNr.length + (36 + term.length) := by
      rw [hsplit, List.length_append, List.length_append, h36]
    have hlast : r.length = seqNr.length + 36 ∨
        (r.length = seqNr.length + 37 ∧ isTerminator y = true) := by
      rcases hterm with rfl | ⟨b, rfl, hb⟩
      · exact .inl hlen
      · refine .inr ⟨hlen, ?_⟩
        have hy : r.getLast? = some y := by rw [← hr]; simp
        rw [hsplit, List.getLast?_append_of_ne_nil _ (by simp)] at hy
        simp at hy
        rw [← hy]
        exact hb
    rcases hseq with rfl | h4
    · rw [listedWords, if_pos (by simpa using hlast), Option.bind_some, hsplit, List.nil_append,
        hwords]
      exact hw
    · rw [listedWords, if_neg (by omega), if_pos (by rw [h4] at hlast; exact hlast),
        Option.bind_some, hsplit, List.drop_left' h4, hwords]
      exact hw
  · intro h
    -- the core is what is left without the terminator that the length demands
    obtain ⟨core, term, hsplit, hterm, hcore, hw⟩ : ∃ core term, r = core ++ term ∧
        (term = [] ∨ ∃ b, term = [b] ∧ isTerminator b = true) ∧
        (core.length = 36 ∨ core.length = 40) ∧
        weldMsg? (decodeWords o 9 (r.drop (core.length - 36))) = some w := by
      have hlen : r.length = a.length + 1 := by
        rw [← hr, List.length_append, List.length_singleton]
      unfold listedWords at h
      split at h
      · rename_i hn
        rcases hn with hn | ⟨hn, hy⟩
        · exact ⟨r, [], (List.append_nil r).symm, .inl rfl, .inl hn, by rw [hn]; exact h⟩
        · have ha : a.length = 36 := by omega
          exact ⟨a, [y], hr.symm, .inr ⟨y, rfl, hy⟩, .inl ha, by rw [ha]; exact h⟩
      · split at h
        · rename_i hn
          rcases hn with hn | ⟨hn, hy⟩
          · exact ⟨r, [], (List.append_nil r).symm, .inl rfl, .inr hn, by rw [hn]; exact h⟩
          · have ha : a.length = 40 := by omega
            exact ⟨a, [y], hr.symm, .inr ⟨y, rfl, hy⟩, .inr ha, by rw [ha]; exact h⟩
        · cases h
    refine ⟨core.drop (core.length - 36), hsplit ▸ Listed.of_parts hterm hcore, ?_⟩
    rwa [hsplit, List.drop_append_of_le_length (Nat.sub_le _ _),
      decodeWords_append o (by rw [List.length_drop]; omega)] at hw

theorem publishedBy_eq {dec : Decoded} {w : WeldState} :
    publishedBy dec = [w] ↔ dec = .state w := by
  cases dec <;> simp [publishedBy]

/-- Two choices among the same alternatives agree when they are made alike. -/
theorem choice_eq_iff {α : Type} {P Q P' Q' : Prop} [Decidable P] [Decidable Q] [Decidable P']
    [Decidable Q'] {u v : α} (hP : P → ¬ Q ∧ ¬ Q') (hP' : P' → ¬ Q ∧ ¬ Q') :
    (if P then some u else if Q then some v else none) =
        (if P' then some u else if Q' then some v else none) ↔ (P ↔ P') ∧ (Q ↔ Q') := by
  by_cases h : P
  · by_cases h' : P' <;> simp [h, h', hP h]
  · by_cases h' : P'
    · simp [h, h', hP' h']
    · by_cases k : Q <;> by_cases k' : Q' <;> simp [h, h', k, k']

/-- Trimming by the last two bytes and reading the list agree, by length. -/
theorem classify_eq_listed_iff (o : ByteOrder) (r : Bytes) (prev last : Bool) :
    (classify o r (r.length - if last then if prev then 2 else 1 else 0)).bind weldMsg? =
        (listedWords o r last).bind weldMsg? ↔
      (r.length = 36 ∨ r.length = 40 → last = false) ∧
      (r.length = 37 ∨ r.length = 41 → last = true ∧ prev = false) ∧
      (r.length = 38 ∨ r.length = 42 → last = false) ∧
      (r.length = 39 ∨ r.length = 43 → ¬ (last = true ∧ prev = true)) := by
  have hv := weldMsg?_decodeWords o r
  have hu := weldMsg?_decodeWords o (r.drop 4)
  have hbind : ∀ (P Q : Prop) [Decidable P] [Decidable Q],
      (if P then some (decodeWords o 9 r)
        else if Q then some (decodeWords o 9 (r.drop 4)) else none).bind weldMsg? =
      if P then some (payloadMsg o r) else if Q then some (payloadMsg o (r.drop 4)) else none := by
    intro P Q _ _
    split
    · exact hv
    · split
      · exact hu
      · rfl
  rw [classify, listedWords, hbind, hbind]
  have htrim : (if last then if prev then 2 else 1 else 0) ≤ 2 := by
    split <;> [split; skip] <;> omega
  rw [choice_eq_iff (by omega) (by omega)]
  generalize r.length = n
  cases last <;> cases prev <;> simp <;> omega

/-- **When the receiver follows the list.** For every remainder behind a header that announces
it, in either byte order and with or without the raw dump: a message is published exactly for
the listed formats, and is that of the payload, if and only if no byte at the end of `r` is
ambiguous. -/
theorem iter_publishes_iff_unambiguous (o : ByteOrder) (d : Bool) (st : RunState)
    (r rest : Bytes) (reply : Word)
    (hall : st.sock.all = weldHeader o (12 + r.length) reply ++ (r ++ rest))
    (h28 : 40 ≤ 12 + r.length) (hword : 12 + r.length < 4294967296) :
    PublishesListed (launchDump o d) st r ↔ Unambiguous r := by
  obtain ⟨a, x, y, hr⟩ := exists_append_two (r := r) (by omega)
  have hr' : r = (a ++ [x]) ++ [y] := by rw [hr, List.append_assoc, List.singleton_append]
  have hlast : EndsInTerminator r ↔ isTerminator y = true := by
    rw [hr', endsInTerminator_append]
  have hprev : EndsInTerminator r.dropLast ↔ isTerminator x = true := by
    rw [hr', List.dropLast_concat, endsInTerminator_append]
  have hlisted := listed_iff o (a ++ [x]) y
  rw [← hr'] at hlisted
  have hpub : ∀ w, (iter (launchDump o d) st).published = st.published ++ [w] ↔
      (classify o r (r.length - if isTerminator y then if isTerminator x then 2 else 1 else 0)).bind
        weldMsg? = some w := by
    intro w
    rw [iter_weldFrame_published o d st hall (by omega) hword, List.append_cancel_left_eq,
      publishedBy_eq, decodeRemainder_eq o d (hr ▸ trimBytes_append a x y)]
    split
    · rename_i v hv
      rw [hv, Decoded.state.injEq, Option.some.injEq]
    · rename_i hnone
      simp [hnone]
  have hagree : PublishesListed (launchDump o d) st r ↔
      (classify o r (r.length - if isTerminator y then if isTerminator x then 2 else 1 else 0)).bind
        weldMsg? = (listedWords o r (isTerminator y)).bind weldMsg? := by
    rw [Option.ext_iff]
    apply forall_congr'
    intro w
    rw [hpub, show (launchDump o d).byteOrder = o from rfl, hlisted]
  rw [hagree, classify_eq_listed_iff]
  constructor
  · rintro ⟨h1, h2, h3, h4⟩
    refine ⟨?_, ?_, ?_, ?_⟩ <;> simpa only [hlast, hprev, Bool.not_eq_true] using by assumption
  · rintro ⟨h1, h2, h3, h4⟩
    simp only [hlast, hprev, Bool.not_eq_true] at h1 h2 h3 h4
    exact ⟨h1, h2, h3, h4⟩

/-- A payload whose last byte is neither CR nor LF is published. -/
theorem iter_publishes_iff_unambiguous_payload :
    PublishesListed (launchDump .big true)
      (connected ⟨weldHeader .big 48 0 ++ (encodeAll .big [1, 0, 0, 0, 0, 0, 0, 0, 120] ++ []), []⟩
        [])
      (encodeAll .big [1, 0, 0, 0, 0, 0, 0, 0, 120]) := by
  have hend : ¬ EndsInTerminator (encodeAll .big [1, 0, 0, 0, 0, 0, 0, 0, 120]) := by
    rintro ⟨b, hb, ht⟩
    cases hb
    cases ht
  apply (iter_publishes_iff_unambiguous .big true _ (encodeAll .big [1, 0, 0, 0, 0, 0, 0, 0, 120])
    [] 0 (List.append_nil _) (by decide) (by decide)).mpr
  exact ⟨fun _ => hend, fun h => absurd h (by decide), fun h => absurd h (by decide),
    fun h => absurd h (by decide)⟩

/-- A motor current of 13 in big-endian order ends in 0x0D: the payload is listed and lost. -/
theorem iter_trims_payload :
    (run (launchDump .big true) (connected
      ⟨weldHeader .big 48 0 ++ encodeAll .big [1, 0, 0, 0, 0, 0, 0, 0, 13], []⟩ [])).published = [] ∧
    ¬ PublishesListed (launchDump .big true)
      (connected ⟨weldHeader .big 48 0 ++ encodeAll .big [1, 0, 0, 0, 0, 0, 0, 0, 13], []⟩ [])
      (encodeAll .big [1, 0, 0, 0, 0, 0, 0, 0, 13]) := by
  refine ⟨by decide +kernel, ?_⟩
  intro h
  have hlisted : Listed (encodeAll .big [1, 0, 0, 0, 0, 0, 0, 0, 13])
      (encodeAll .big [1, 0, 0, 0, 0, 0, 0, 0, 13]) :=
    ⟨rfl, [], [], .inl rfl, .inl rfl, (List.append_nil _).symm⟩
  have hpub := (h ⟨true, false, false, 0, 0, 0, 0, 0, 13⟩).mpr ⟨_, hlisted, by decide +kernel⟩
  exact absurd hpub (by decide +kernel)

/-- A 37th byte that is no terminator is ignored, and so are two terminators. -/
example :
    (run (launchDump .little true) (connected ⟨weldHeader .little 49 0 ++
      (encodeAll .little [1, 0, 0, 0, 0, 0, 0, 0, 120] ++ [0x41]), []⟩ [])).published =
        [⟨true, false, false, 0, 0, 0, 0, 0, 120⟩] ∧
    (run (launchDump .little true) (connected ⟨weldHeader .little 50 0 ++
      (encodeAll .little [1, 0, 0, 0, 0, 0, 0, 0, 120] ++ [0x0D, 0x0A]), []⟩ [])).published =
        [⟨true, false, false, 0, 0, 0, 0, 0, 120⟩] := by
  decide +kernel

end TcpNode

end FanucDriver
