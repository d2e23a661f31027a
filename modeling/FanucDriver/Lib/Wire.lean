import Mathlib.Data.List.Basic

/-!
# Words on a byte stream

A 32-bit word crosses a connection as four bytes, in one of two orders.

* `encode` / `decode` — one word and its four bytes; `decode_encode`, `encode_decode`.
* `encodeAll` / `decodeWords` — a record of words field after field, with the round trip
  `decodeWords_encodeAll`.
* `readWord?` — the bounds-checked read at a byte offset; `readWord?_encodeAll` finds the
  `i`-th word of a record at offset `4 * i`.
* `byteSwap` — the conversion between host and network order on a little-endian host
  (`htonl`, `ntohl`); `encode_little_hostOrder` and `decode_eq_hostOrder` say that swapping on
  a host of the one order is writing or reading in the other.
-/

set_option autoImplicit false

namespace Wire

/-- A 32-bit register, read as unsigned or (`BitVec.toInt`) as signed. -/
abbrev Word := BitVec 32

abbrev Bytes := List UInt8

inductive ByteOrder where
  | little
  | big
  deriving DecidableEq, Repr

/-! ## One word -/

/-- The four bytes of a number, least significant first. -/
def leBytes (n : Nat) : Bytes :=
  [UInt8.ofNat n, UInt8.ofNat (n / 256), UInt8.ofNat (n / 65536), UInt8.ofNat (n / 16777216)]

/-- The number with the given bytes, least significant first. -/
def leNat (a b c d : UInt8) : Nat :=
  a.toNat + 256 * b.toNat + 65536 * c.toNat + 16777216 * d.toNat

def encode : ByteOrder → Word → Bytes
  | .little, w => leBytes w.toNat
  | .big, w => (leBytes w.toNat).reverse

/-- The word in the first four bytes (0 when there are fewer). -/
def decode : ByteOrder → Bytes → Word
  | .little, a :: b :: c :: d :: _ => BitVec.ofNat 32 (leNat a b c d)
  | .big, a :: b :: c :: d :: _ => BitVec.ofNat 32 (leNat d c b a)
  | _, _ => 0

@[simp] theorem encode_length (o : ByteOrder) (w : Word) : (encode o w).length = 4 := by
  cases o <;> rfl

theorem leNat_leBytes {n : Nat} (h : n < 4294967296) :
    leNat (UInt8.ofNat n) (UInt8.ofNat (n / 256)) (UInt8.ofNat (n / 65536))
      (UInt8.ofNat (n / 16777216)) = n := by
  simp only [leNat, UInt8.toNat_ofNat']
  omega

/-- Reading back the word just written, whatever follows it on the stream. -/
@[simp] theorem decode_encode_append (o : ByteOrder) (w : Word) (r : Bytes) :
    decode o (encode o w ++ r) = w := by
  have hw : w.toNat < 4294967296 := w.isLt
  cases o with
  | little =>
    show BitVec.ofNat 32 (leNat _ _ _ _) = w
    rw [leNat_leBytes hw, BitVec.ofNat_toNat, BitVec.setWidth_eq]
  | big =>
    show BitVec.ofNat 32 (leNat _ _ _ _) = w
    rw [leNat_leBytes hw, BitVec.ofNat_toNat, BitVec.setWidth_eq]

@[simp] theorem decode_encode (o : ByteOrder) (w : Word) : decode o (encode o w) = w := by
  simpa using decode_encode_append o w []

theorem decode_append (o : ByteOrder) {a : Bytes} (h : 4 ≤ a.length) (r : Bytes) :
    decode o (a ++ r) = decode o a := by
  match a, h with
  | _ :: _ :: _ :: _ :: _, _ => cases o <;> rfl

theorem decode_take (o : ByteOrder) {n : Nat} (h : 4 ≤ n) (l : Bytes) :
    decode o (l.take n) = decode o l := by
  by_cases hn : n ≤ l.length
  · conv => rhs; rw [← List.take_append_drop n l]
    rw [decode_append o (by rw [List.length_take]; omega)]
  · rw [List.take_of_length_le (by omega)]

theorem leBytes_leNat (a b c d : UInt8) : leBytes (leNat a b c d) = [a, b, c, d] := by
  have ha := a.toNat_lt
  have hb := b.toNat_lt
  have hc := c.toNat_lt
  have hd := d.toNat_lt
  have key : ∀ (x : UInt8) (n : Nat), n % 256 = x.toNat → UInt8.ofNat n = x := by
    intro x n h
    rw [← UInt8.toNat_inj, UInt8.toNat_ofNat', h]
  simp only [leBytes, leNat, List.cons.injEq, and_true]
  refine ⟨key _ _ ?_, key _ _ ?_, key _ _ ?_, key _ _ ?_⟩ <;> omega

/-- Any four bytes are the bytes of the word they decode to. -/
theorem encode_decode (o : ByteOrder) (a b c d : UInt8) (r : Bytes) :
    encode o (decode o (a :: b :: c :: d :: r)) = [a, b, c, d] := by
  have hlt : ∀ a b c d : UInt8, leNat a b c d < 4294967296 := by
    intro a b c d
    have ha := a.toNat_lt
    have hb := b.toNat_lt
    have hc := c.toNat_lt
    have hd := d.toNat_lt
    simp only [leNat]
    omega
  cases o with
  | little =>
    simp only [decode, encode, BitVec.toNat_ofNat, Nat.reducePow, Nat.mod_eq_of_lt (hlt a b c d),
      leBytes_leNat]
  | big =>
    simp only [decode, encode, BitVec.toNat_ofNat, Nat.reducePow, Nat.mod_eq_of_lt (hlt d c b a),
      leBytes_leNat, List.reverse_cons, List.reverse_nil, List.nil_append, List.cons_append]

/-! ## Records of words -/

/-- Field after field, as consecutive unformatted writes put them on the wire. -/
def encodeAll (o : ByteOrder) (ws : List Word) : Bytes := ws.flatMap (encode o)

/-- The first `n` words of a stream. -/
def decodeWords (o : ByteOrder) : Nat → Bytes → List Word
  | 0, _ => []
  | n + 1, bs => decode o bs :: decodeWords o n (bs.drop 4)

@[simp] theorem encodeAll_nil (o : ByteOrder) : encodeAll o [] = [] := rfl

@[simp] theorem encodeAll_cons (o : ByteOrder) (w : Word) (ws : List Word) :
    encodeAll o (w :: ws) = encode o w ++ encodeAll o ws := by
  simp [encodeAll]

@[simp] theorem encodeAll_append (o : ByteOrder) (vs ws : List Word) :
    encodeAll o (vs ++ ws) = encodeAll o vs ++ encodeAll o ws := by
  simp [encodeAll]

@[simp] theorem encodeAll_length (o : ByteOrder) (ws : List Word) :
    (encodeAll o ws).length = 4 * ws.length := by
  induction ws with
  | nil => rfl
  | cons w ws ih =>
    simp only [encodeAll_cons, List.length_append, encode_length, ih, List.length_cons]
    omega

@[simp] theorem decodeWords_length (o : ByteOrder) (n : Nat) (bs : Bytes) :
    (decodeWords o n bs).length = n := by
  induction n generalizing bs with
  | zero => rfl
  | succ n ih => simp only [decodeWords, List.length_cons, ih]

theorem drop_encode_append (o : ByteOrder) (w : Word) (r : Bytes) :
    (encode o w ++ r).drop 4 = r := by
  rw [List.drop_append_of_le_length (by simp), List.drop_of_length_le (by simp), List.nil_append]

/-- A record is read back as it was written, whatever follows it. -/
theorem decodeWords_encodeAll (o : ByteOrder) (ws : List Word) (r : Bytes) :
    decodeWords o ws.length (encodeAll o ws ++ r) = ws := by
  induction ws with
  | nil => rfl
  | cons w ws ih =>
    simp only [encodeAll_cons, List.append_assoc, List.length_cons, decodeWords,
      decode_encode_append, drop_encode_append, ih]

/-! ## Checked reads -/

/-- The word at byte offset `i`; `none` when the read would pass the end. -/
def readWord? (o : ByteOrder) (bs : Bytes) (i : Nat) : Option Word :=
  if i + 4 ≤ bs.length then some (decode o (bs.drop i)) else none

theorem readWord?_append (o : ByteOrder) (a bs : Bytes) (i : Nat) :
    readWord? o (a ++ bs) (a.length + i) = readWord? o bs i := by
  simp only [readWord?, List.length_append, List.drop_append, Nat.add_sub_cancel_left,
    List.drop_of_length_le (Nat.le_add_right a.length i), List.nil_append]
  congr 1
  simp only [eq_iff_iff]
  omega

/-- The `i`-th field of a record stands at byte offset `4 * i`. -/
theorem readWord?_encodeAll (o : ByteOrder) (ws : List Word) (r : Bytes) {i : Nat}
    (hi : i < ws.length) : readWord? o (encodeAll o ws ++ r) (4 * i) = some ws[i] := by
  induction ws generalizing i with
  | nil => simp at hi
  | cons w ws ih =>
    cases i with
    | zero => simp [readWord?]
    | succ i =>
      have := readWord?_append o (encode o w) (encodeAll o ws ++ r) (4 * i)
      rw [encode_length] at this
      rw [encodeAll_cons, List.append_assoc, show 4 * (i + 1) = 4 + 4 * i by omega, this,
        ih (by simpa using hi), List.getElem_cons_succ]

theorem decode_drop_encodeAll (o : ByteOrder) (ws : List Word) (r : Bytes) {i : Nat}
    (hi : i < ws.length) : decode o ((encodeAll o ws ++ r).drop (4 * i)) = ws[i] := by
  have h := readWord?_encodeAll o ws r hi
  unfold readWord? at h
  split at h
  · exact Option.some.inj h
  · cases h

/-! ## Host order -/

/-- The four bytes of a word in the other order. -/
def byteSwap (w : Word) : Word := decode .little (encode .big w)

/-- What a host of little-endian order stores to have the word appear in order `o`. -/
def hostOrder (o : ByteOrder) (w : Word) : Word :=
  match o with
  | .little => w
  | .big => byteSwap w

theorem encode_little_hostOrder (o : ByteOrder) (w : Word) :
    encode .little (hostOrder o w) = encode o w := by
  cases o with
  | little => rfl
  | big => exact encode_decode .little _ _ _ _ []

theorem decode_eq_hostOrder (o : ByteOrder) (bs : Bytes) :
    hostOrder o (decode .little bs) = decode o bs := by
  cases o with
  | little => rfl
  | big =>
    match bs with
    | [] | [_] | [_, _] | [_, _, _] => exact (by decide : byteSwap 0 = 0)
    | a :: b :: c :: d :: r =>
      have h := encode_decode .little a b c d r
      simp only [hostOrder, byteSwap, encode, decode] at h ⊢
      rw [h]
      rfl

end Wire
