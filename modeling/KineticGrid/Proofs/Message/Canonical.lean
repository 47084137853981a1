import KineticGrid.Proofs.Message.Codec
/-!
# Canonical letters

A message of whole values says nothing that its values do not say. Main statement: for every type
of value that is sent, a message is decoded exactly if it has the length of the expected values,
the values are encoded as the bytes that they were decoded from, whatever numbers these bytes stand
for, and a message of another length is refused with both lengths.
-/

namespace KineticGrid

/-- Every list of bytes of the right length is the encoding of the value that is read from it. -/
class CanonicalEncoding (E : Type) [Encoding UInt8 E] : Prop extends LawfulEncoding UInt8 E where
  encode_decode (bytes : List UInt8) (h : bytes.length = Encoding.width UInt8 E) :
    Encoding.encode (Encoding.decode bytes : E) = bytes

/-! ## Words -/

theorem ofLittleEndian_lt (bytes : List UInt8) : ofLittleEndian bytes < 256 ^ bytes.length := by
  induction bytes with
  | nil => exact Nat.one_pos
  | cons byte bytes ih =>
      have hbyte : (Letter.toByte byte).toNat < 256 := UInt8.toNat_lt _
      rw [ofLittleEndian, List.length_cons, Nat.pow_succ]
      omega

theorem littleEndian_ofLittleEndian (bytes : List UInt8) :
    littleEndian bytes.length (ofLittleEndian bytes) = bytes := by
  induction bytes with
  | nil => rfl
  | cons byte bytes ih =>
      have hbyte : byte.toNat < 256 := UInt8.toNat_lt byte
      have hnumber : ofLittleEndian (byte :: bytes) = byte.toNat + 256 * ofLittleEndian bytes := rfl
      have hfirst : (byte.toNat + 256 * ofLittleEndian bytes) % 256 = byte.toNat := by omega
      have hrest : (byte.toNat + 256 * ofLittleEndian bytes) / 256 = ofLittleEndian bytes := by
        omega
      rw [hnumber, List.length_cons, littleEndian, hrest, ih]
      congr 1
      change UInt8.ofNat _ = byte
      rw [← UInt8.toNat_inj, UInt8.toNat_ofNat']
      exact hfirst

theorem littleEndian_of_length {k : Nat} {bytes : List UInt8} (h : bytes.length = k) :
    littleEndian k (ofLittleEndian bytes) = bytes ∧ ofLittleEndian bytes < 256 ^ k := by
  subst h
  exact ⟨littleEndian_ofLittleEndian bytes, ofLittleEndian_lt bytes⟩

instance : CanonicalEncoding UInt32 where
  encode_decode bytes h := by
    obtain ⟨hbytes, hlt⟩ := littleEndian_of_length (k := 4) h
    change littleEndian 4 (UInt32.ofNat (ofLittleEndian bytes)).toNat = bytes
    rw [UInt32.toNat_ofNat_of_lt' hlt, hbytes]

instance : CanonicalEncoding UInt64 where
  encode_decode bytes h := by
    obtain ⟨hbytes, hlt⟩ := littleEndian_of_length (k := 8) h
    change littleEndian 8 (UInt64.ofNat (ofLittleEndian bytes)).toNat = bytes
    rw [UInt64.toNat_ofNat_of_lt' hlt, hbytes]

/-- A number keeps all its bits, also where they stand for no number. -/
instance : CanonicalEncoding Binary32 where
  encode_decode bytes h := CanonicalEncoding.encode_decode (E := UInt32) bytes h

instance : CanonicalEncoding Binary64 where
  encode_decode bytes h := CanonicalEncoding.encode_decode (E := UInt64) bytes h

/-! ## Records and messages -/

namespace Encoding

variable {E S : Type} [Encoding UInt8 E] [CanonicalEncoding E] [Encoding UInt8 S]
  [CanonicalEncoding S]

theorem encodeAll_fields {bytes : List UInt8} {n : Nat} (h : n * width UInt8 E ≤ bytes.length) :
    encodeAll ((List.range n).map fun place => (field bytes place : E)) =
      bytes.take (n * width UInt8 E) := by
  induction n with
  | zero => rw [Nat.zero_mul]; rfl
  | succ n ih =>
      rw [Nat.succ_mul] at h
      have hlast : encode (field bytes n : E) =
          (bytes.drop (n * width UInt8 E)).take (width UInt8 E) := by
        apply CanonicalEncoding.encode_decode
        rw [List.length_take, List.length_drop]
        omega
      have hfirst := ih (by omega)
      rw [encodeAll] at hfirst ⊢
      rw [List.range_succ, List.map_append, List.flatMap_append, hfirst, Nat.succ_mul,
        List.take_add]
      simp [hlast]

theorem encodeAll_fields_of_length {bytes : List UInt8} {n : Nat}
    (h : bytes.length = n * width UInt8 E) :
    encodeAll ((List.range n).map fun place => (field bytes place : E)) = bytes := by
  rw [encodeAll_fields (Nat.le_of_eq h.symm), ← h, List.take_length]

instance : CanonicalEncoding (Motion S) where
  encode_decode bytes h := by
    have hfields := encodeAll_fields_of_length (E := S) (n := 4) h
    simpa [encodeAll, List.range_succ, encode, encodeVec3, decode, decodeVec3] using hfields

instance : CanonicalEncoding (HeatRecord S) where
  encode_decode bytes h := by
    have hfields := encodeAll_fields_of_length (E := S) (n := 3) h
    simpa [encodeAll, List.range_succ, encode, decode] using hfields

instance : CanonicalEncoding (Totals S) where
  encode_decode bytes h := by
    have hlength : bytes.length = 5 * width UInt8 S + 8 := h
    have hfirst : 5 * width UInt8 S ≤ bytes.length := by omega
    have hfields := encodeAll_fields (E := S) hfirst
    have hvalid : encode (decode (bytes.drop (5 * width UInt8 S)) : UInt64) =
        bytes.drop (5 * width UInt8 S) := by
      apply CanonicalEncoding.encode_decode
      rw [List.length_drop, hlength, Nat.add_sub_cancel_left]
      rfl
    have hsplit := List.take_append_drop (5 * width UInt8 S) bytes
    rw [← hfields, ← hvalid] at hsplit
    simpa [encodeAll, List.range_succ, encode, encodeVec3, decode, decodeVec3] using hsplit

theorem decodeAll_eq_fields (b : Build) (neighbour : Nat) {bytes : List UInt8} {n : Nat}
    (hword : n * width UInt8 E < wordSize) (hlength : bytes.length = n * width UInt8 E) :
    decodeAll b neighbour bytes n =
      .ok ((List.range n).map fun place => (field bytes place : E)) := by
  have hwidth := LawfulEncoding.width_pos (W := UInt8) (E := E)
  rw [decodeAll, requireValues, Build.word_eq hword]
  change (requireExactLength _ _ _ >>= _) = _
  rw [requireExactLength, if_pos hlength]
  change (if width UInt8 E = 0 then _ else _) = _
  rw [if_neg (by omega)]
  change Except.ok ((Groups.whole _ bytes).map decode) = _
  rw [Groups.whole_eq hwidth hlength, List.map_map]
  rfl

/-- Values of a type are sent as `size` bytes each, and a message of them and the values say the
same: each of both is found again from the other one, bit by bit. -/
structure Exact (E : Type) [Encoding UInt8 E] (size : Nat) : Prop where
  width_eq : width UInt8 E = size
  decoded_iff : ∀ (b : Build) (neighbour : Nat) (bytes : List UInt8) (n : Nat),
    n * size < wordSize →
    ((∃ xs : List E, decodeAll b neighbour bytes n = .ok xs) ↔ bytes.length = n * size)
  written_back : ∀ (b : Build) (neighbour : Nat) (bytes : List UInt8) (n : Nat) (xs : List E),
    n * size < wordSize → decodeAll b neighbour bytes n = .ok xs →
    xs.length = n ∧ encodeAll xs = bytes
  read_back : ∀ (b : Build) (neighbour : Nat) (xs : List E), xs.length * size < wordSize →
    decodeAll b neighbour (encodeAll xs : List UInt8) xs.length = .ok xs
  refused : ∀ (b : Build) (neighbour : Nat) (bytes : List UInt8) (n : Nat), n * size < wordSize →
    bytes.length ≠ n * size →
    (decodeAll b neighbour bytes n : Fallible (List E)) =
      .error (.error (.link neighbour (.wrongLength (n * size) bytes.length)))

theorem exact_of_canonical (E : Type) [Encoding UInt8 E] [CanonicalEncoding E] :
    Exact E (width UInt8 E) where
  width_eq := rfl
  decoded_iff b neighbour bytes n hword := by
    constructor
    · rintro ⟨xs, hxs⟩
      by_contra hlength
      rw [decodeAll_eq_reject b neighbour hword hlength] at hxs
      cases hxs
    · intro hlength
      exact ⟨_, decodeAll_eq_fields b neighbour hword hlength⟩
  written_back b neighbour bytes n xs hword hxs := by
    by_cases hlength : bytes.length = n * width UInt8 E
    · rw [decodeAll_eq_fields b neighbour hword hlength] at hxs
      obtain rfl := Except.ok.inj hxs
      exact ⟨by simp, encodeAll_fields_of_length hlength⟩
    · rw [decodeAll_eq_reject b neighbour hword hlength] at hxs
      cases hxs
  read_back b neighbour xs hword := decodeAll_encodeAll b neighbour xs hword
  refused b neighbour bytes n hword hlength := decodeAll_eq_reject b neighbour hword hlength

/-- Messages of all types of values that are sent are exact: numbers of both formats, words of both
sizes, packed energies and velocities of both formats, and totals. -/
theorem messages_are_exact :
    Exact Binary32 4 ∧ Exact Binary64 8 ∧ Exact UInt32 4 ∧ Exact UInt64 8 ∧
      Exact (HeatRecord Binary32) 12 ∧ Exact (HeatRecord Binary64) 24 ∧
      Exact (Motion Binary32) 16 ∧ Exact (Motion Binary64) 32 ∧ Exact (Totals Binary64) 48 :=
  ⟨exact_of_canonical _, exact_of_canonical _, exact_of_canonical _, exact_of_canonical _,
    exact_of_canonical _, exact_of_canonical _, exact_of_canonical _, exact_of_canonical _,
    exact_of_canonical _⟩

/-- A NaN with a payload that is not quiet is read and written as it is, and three of its bytes are
refused. -/
theorem messages_are_exact_nan :
    let nan : Binary32 := ⟨0x7fa00001⟩
    decodeAll .debug 7 ([0x01, 0x00, 0xa0, 0x7f] : List UInt8) 1 = .ok [nan] ∧
      (encodeAll [nan] : List UInt8) = [0x01, 0x00, 0xa0, 0x7f] ∧
      (decodeAll .debug 7 ([0x01, 0x00, 0xa0] : List UInt8) 1 : Fallible (List Binary32)) =
        .error (.error (.link 7 (.wrongLength 4 3))) := by
  intro nan
  have hnumber := messages_are_exact.1
  have hbytes : (encodeAll [nan] : List UInt8) = [0x01, 0x00, 0xa0, 0x7f] := by decide +kernel
  have hread := hnumber.read_back .debug 7 [nan] (by decide)
  rw [hbytes] at hread
  exact ⟨hread, hbytes, hnumber.refused .debug 7 [0x01, 0x00, 0xa0] 1 (by decide) (by decide)⟩

end Encoding

end KineticGrid
