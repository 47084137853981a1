import KineticGrid.Ghost.Transfer
import KineticGrid.Message.Encoding
import Mathlib.Algebra.Ring.Nat
/-!
# Wire format

Values that are read back from their letters as they were. Main statements: this holds of words, of
numbers, and of the records that are sent, a message of several values is decoded into exactly
these values, and a message of any other length is refused.
-/

namespace KineticGrid

/-- Bytes are found again among the letters. -/
class LawfulLetter (W : Type) [Letter W] : Prop where
  toByte_ofByte (x : UInt8) : Letter.toByte (Letter.ofByte x : W) = x

/-- Values have letters of one number, from which they are read back. -/
class LawfulEncoding (W E : Type) [Encoding W E] : Prop where
  width_pos : 0 < Encoding.width W E
  length_encode (x : E) : (Encoding.encode x : List W).length = Encoding.width W E
  decode_encode (x : E) : Encoding.decode (Encoding.encode x : List W) = x

/-- A storage format whose numbers, and the counts in them, travel unchanged and take no more
letters than they have bytes. -/
class Carrier (W S : Type) {A : Type} [Storage S A] [Encoding W S] : Prop extends
    LawfulEncoding W S where
  width_le : Encoding.width W S ≤ Storage.bytes S
  unpackCount_packCount (n : UInt32) : Storage.unpackCount (Storage.packCount n : S) = n

instance : LawfulLetter UInt8 where
  toByte_ofByte _ := rfl

variable {W E S A : Type}

/-! ## Words -/

section

variable [Letter W]

theorem length_littleEndian (k n : Nat) : (littleEndian k n : List W).length = k := by
  induction k generalizing n with
  | zero => rfl
  | succ k ih => rw [littleEndian, List.length_cons, ih]

theorem ofLittleEndian_littleEndian [LawfulLetter W] {k n : Nat} (h : n < 256 ^ k) :
    ofLittleEndian (littleEndian k n : List W) = n := by
  induction k generalizing n with
  | zero =>
      rw [Nat.pow_zero] at h
      unfold littleEndian ofLittleEndian
      omega
  | succ k ih =>
      have hrest : n / 256 < 256 ^ k := by
        rw [Nat.pow_succ, Nat.mul_comm] at h
        exact Nat.div_lt_of_lt_mul h
      have hbyte : (UInt8.ofNat n).toNat = n % 256 := UInt8.toNat_ofNat'
      rw [littleEndian, ofLittleEndian, ih hrest, LawfulLetter.toByte_ofByte, hbyte,
        Nat.mod_add_div]

variable [LawfulLetter W]

instance : LawfulEncoding W UInt32 where
  width_pos := Nat.succ_pos 3
  length_encode n := length_littleEndian 4 n.toNat
  decode_encode n := by
    change UInt32.ofNat (ofLittleEndian (littleEndian 4 n.toNat : List W)) = n
    rw [ofLittleEndian_littleEndian n.toNat_lt, UInt32.ofNat_toNat]

instance : LawfulEncoding W UInt64 where
  width_pos := Nat.succ_pos 7
  length_encode n := length_littleEndian 8 n.toNat
  decode_encode n := by
    change UInt64.ofNat (ofLittleEndian (littleEndian 8 n.toNat : List W)) = n
    rw [ofLittleEndian_littleEndian n.toNat_lt, UInt64.ofNat_toNat]

instance : Carrier W Binary32 where
  width_pos := Nat.succ_pos 3
  length_encode x := length_littleEndian 4 x.bits.toNat
  decode_encode x := by
    change (⟨.ofNat (ofLittleEndian (littleEndian 4 x.bits.toNat : List W))⟩ : Binary32) = x
    rw [ofLittleEndian_littleEndian x.bits.toNat_lt, UInt32.ofNat_toNat]
  width_le := Nat.le_refl 4
  unpackCount_packCount _ := rfl

instance : Carrier W Binary64 where
  width_pos := Nat.succ_pos 7
  length_encode x := length_littleEndian 8 x.bits.toNat
  decode_encode x := by
    change (⟨.ofNat (ofLittleEndian (littleEndian 8 x.bits.toNat : List W))⟩ : Binary64) = x
    rw [ofLittleEndian_littleEndian x.bits.toNat_lt, UInt64.ofNat_toNat]
  width_le := Nat.le_refl 8
  unpackCount_packCount n := by
    change n.toUInt64.toUInt32 = n
    exact UInt32.toUInt32_toUInt64 n

end

/-! ## Records and messages -/

namespace Encoding

section

variable [Encoding W E] (b : Build) (neighbour : Nat) {n : Nat} {letters : List W}

theorem exists_decodeAll (hword : n * width W E < wordSize)
    (hlength : letters.length = n * width W E) :
    ∃ xs : List E, decodeAll b neighbour letters n = .ok xs ∧ xs.length = n := by
  rw [decodeAll, requireValues, Build.word_eq hword, hlength]
  change ∃ xs, (requireExactLength _ _ _ >>= _) = _ ∧ _
  rw [requireExactLength, if_pos rfl]
  change ∃ xs, (if width W E = 0 then _ else _) = _ ∧ _
  by_cases hwidth : width W E = 0
  · rw [if_pos hwidth]
    exact ⟨_, rfl, List.length_replicate⟩
  · rw [if_neg hwidth, Groups.whole_eq (Nat.pos_of_ne_zero hwidth) hlength]
    refine ⟨_, rfl, ?_⟩
    rw [List.length_map, List.length_map, List.length_range]

theorem decodeAll_eq_reject (hword : n * width W E < wordSize)
    (hlength : letters.length ≠ n * width W E) :
    (decodeAll b neighbour letters n : Fallible (List E)) = Fallible.reject
      (.link neighbour (.wrongLength (n * width W E) letters.length)) := by
  rw [decodeAll, requireValues, Build.word_eq hword]
  change (requireExactLength _ _ _ >>= _) = _
  rw [requireExactLength, if_neg hlength]
  rfl

end

section

variable [Encoding W E] [LawfulEncoding W E]

theorem length_encodeAll (xs : List E) :
    (encodeAll xs : List W).length = xs.length * width W E := by
  induction xs with
  | nil => rw [List.length_nil, Nat.zero_mul]; rfl
  | cons x xs ih =>
      rw [encodeAll, List.flatMap_cons, List.length_append, LawfulEncoding.length_encode]
      change _ + (encodeAll xs : List W).length = _
      rw [ih, List.length_cons, Nat.succ_mul, Nat.add_comm]

theorem field_encodeAll {xs : List E} {place : Nat} {x : E} (h : xs[place]? = some x)
    (rest : List W) : field (encodeAll xs ++ rest) place = x := by
  induction xs generalizing place with
  | nil => cases h
  | cons y xs ih =>
      have hlength := LawfulEncoding.length_encode (W := W) y
      rw [field, encodeAll, List.flatMap_cons, List.append_assoc]
      cases place with
      | zero =>
          obtain rfl := Option.some.inj h
          rw [Nat.zero_mul, List.drop_zero, ← hlength, List.take_left,
            LawfulEncoding.decode_encode]
      | succ place =>
          rw [Nat.succ_mul, Nat.add_comm, ← List.drop_drop, ← hlength, List.drop_left, hlength]
          exact ih h

theorem decodeAll_encodeAll (b : Build) (neighbour : Nat) (xs : List E)
    (h : xs.length * width W E < wordSize) :
    decodeAll b neighbour (encodeAll xs : List W) xs.length = .ok xs := by
  have hwidth := LawfulEncoding.width_pos (W := W) (E := E)
  rw [decodeAll, requireValues, Build.word_eq h, length_encodeAll]
  change (requireExactLength _ _ _ >>= _) = _
  rw [requireExactLength, if_pos rfl]
  change (if width W E = 0 then _ else _) = _
  rw [if_neg (by omega)]
  change Except.ok ((Groups.whole _ (xs.flatMap encode)).map decode) = _
  rw [Groups.whole_flatMap hwidth LawfulEncoding.length_encode, List.map_map]
  congr 1
  exact List.map_id'' LawfulEncoding.decode_encode xs

end

section

variable [Encoding W S] [LawfulEncoding W S]

instance : LawfulEncoding W (Motion S) where
  width_pos := Nat.mul_pos (by decide) (LawfulEncoding.width_pos (W := W) (E := S))
  length_encode v := by
    have h := length_encodeAll (W := W) [v.velocity.x, v.velocity.y, v.velocity.z, v.mass]
    simpa [encodeAll, encode, encodeVec3, width] using h
  decode_encode v := by
    have h (place : Nat) {x : S}
        (hx : [v.velocity.x, v.velocity.y, v.velocity.z, v.mass][place]? = some x) :
        field (encode v : List W) place = x := by
      have hfield := field_encodeAll hx ([] : List W)
      simpa [encodeAll, encode, encodeVec3] using hfield
    change (⟨⟨field _ 0, field _ 1, field _ 2⟩, field _ 3⟩ : Motion S) = v
    rw [h 0 rfl, h 1 rfl, h 2 rfl, h 3 rfl]

instance : LawfulEncoding W (HeatRecord S) where
  width_pos := Nat.mul_pos (by decide) (LawfulEncoding.width_pos (W := W) (E := S))
  length_encode e := by
    have h := length_encodeAll (W := W) [e.energy, e.temperature, e.count]
    simpa [encodeAll, encode, width] using h
  decode_encode e := by
    have h (place : Nat) {x : S} (hx : [e.energy, e.temperature, e.count][place]? = some x) :
        field (encode e : List W) place = x := by
      have hfield := field_encodeAll hx ([] : List W)
      simpa [encodeAll, encode] using hfield
    change (⟨field _ 0, field _ 1, field _ 2⟩ : HeatRecord S) = e
    rw [h 0 rfl, h 1 rfl, h 2 rfl]

instance [Letter W] [LawfulLetter W] : LawfulEncoding W (Totals S) where
  width_pos := Nat.lt_of_lt_of_le (by decide) (Nat.le_add_left 8 _)
  length_encode t := by
    have h := length_encodeAll (W := W)
      [t.momentum.x, t.momentum.y, t.momentum.z, t.energy, t.temperature]
    have hvalid := LawfulEncoding.length_encode (W := W) t.valid
    simp only [encodeAll, List.flatMap_cons, List.flatMap_nil, List.length_append,
      List.length_nil, List.length_cons] at h
    simp only [encode, encodeVec3, width, List.length_append] at h hvalid ⊢
    omega
  decode_encode t := by
    have hsplit : (encode t : List W) = encodeAll
        [t.momentum.x, t.momentum.y, t.momentum.z, t.energy, t.temperature] ++
          encode t.valid := by
      simp [encodeAll, encode, encodeVec3]
    have h (place : Nat) {x : S}
        (hx : [t.momentum.x, t.momentum.y, t.momentum.z, t.energy, t.temperature][place]? =
          some x) : field (encode t : List W) place = x := by
      rw [hsplit]
      exact field_encodeAll hx _
    have hvalid : (encode t : List W).drop (5 * width W S) = encode t.valid := by
      have hlength := length_encodeAll (W := W)
        [t.momentum.x, t.momentum.y, t.momentum.z, t.energy, t.temperature]
      rw [hsplit]
      exact List.drop_left' hlength
    change (⟨⟨field _ 0, field _ 1, field _ 2⟩, field _ 3, field _ 4,
      decode (List.drop (5 * width W S) _)⟩ : Totals S) = t
    rw [h 0 rfl, h 1 rfl, h 2 rfl, h 3 rfl,
      h 4 rfl, hvalid, LawfulEncoding.decode_encode]

end

end Encoding

end KineticGrid
