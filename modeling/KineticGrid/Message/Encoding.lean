import KineticGrid.Arith.Binary
import KineticGrid.Matter.Cell
import KineticGrid.Matter.Totals
import KineticGrid.Sweep.Groups
/-!
# Encodings

Values as fixed numbers of letters. Messages and scratch buffers are lists of letters; the letters
of a running program are bytes, and words are written least byte first.
-/

namespace KineticGrid

/-- An alphabet that bytes are part of. -/
class Letter (W : Type) where
  ofByte : UInt8 → W
  toByte : W → UInt8

/-- A value as `width` letters. -/
class Encoding (W E : Type) where
  width : Nat
  encode : E → List W
  /-- The value of a list of `width` letters. -/
  decode : List W → E

instance : Letter UInt8 where
  ofByte := id
  toByte := id

variable {W : Type}

/-- The `k` least bytes of a number, least byte first. -/
def littleEndian [Letter W] : Nat → Nat → List W
  | 0, _ => []
  | k + 1, n => Letter.ofByte (.ofNat n) :: littleEndian k (n / 256)

def ofLittleEndian [Letter W] : List W → Nat
  | [] => 0
  | w :: rest => (Letter.toByte w).toNat + 256 * ofLittleEndian rest

instance [Letter W] : Encoding W UInt32 where
  width := 4
  encode n := littleEndian 4 n.toNat
  decode letters := .ofNat (ofLittleEndian letters)

instance [Letter W] : Encoding W UInt64 where
  width := 8
  encode n := littleEndian 8 n.toNat
  decode letters := .ofNat (ofLittleEndian letters)

instance [Letter W] : Encoding W Binary32 where
  width := 4
  encode x := littleEndian 4 x.bits.toNat
  decode letters := ⟨.ofNat (ofLittleEndian letters)⟩

instance [Letter W] : Encoding W Binary64 where
  width := 8
  encode x := littleEndian 8 x.bits.toNat
  decode letters := ⟨.ofNat (ofLittleEndian letters)⟩

namespace Encoding

variable {E S A : Type}

def encodeVec3 [Encoding W S] (v : Vec3 S) : List W :=
  encode v.x ++ encode v.y ++ encode v.z

/-- The value at a place of a record of equally wide values. -/
def field [Encoding W S] (letters : List W) (place : Nat) : S :=
  decode ((letters.drop (place * width W S)).take (width W S))

def decodeVec3 [Encoding W S] (letters : List W) : Vec3 S :=
  ⟨field letters 0, field letters 1, field letters 2⟩

instance [Encoding W S] : Encoding W (Motion S) where
  width := 4 * width W S
  encode v := encodeVec3 v.velocity ++ encode v.mass
  decode letters := ⟨decodeVec3 letters, field letters 3⟩

instance [Letter W] [Encoding W A] : Encoding W (Totals A) where
  width := 5 * width W A + 8
  encode t := encodeVec3 t.momentum ++ encode t.energy ++ encode t.temperature ++ encode t.valid
  decode letters := {
    momentum := decodeVec3 letters
    energy := field letters 3
    temperature := field letters 4
    valid := decode (letters.drop (5 * width W A)) }

def encodeAll [Encoding W E] (values : List E) : List W := values.flatMap encode

def zeroed (W : Type) {E : Type} [Letter W] [Encoding W E] : E :=
  decode (List.replicate (width W E) (Letter.ofByte 0 : W))

/-- Goes on only if a neighbour's message has exactly the expected length. -/
def requireExactLength (neighbour found expected : Nat) : Fallible Unit :=
  if found = expected then .ok ()
  else Fallible.reject (.link neighbour (.wrongLength expected found))

/-- Goes on only if a neighbour's message has the length of `n` values of `width` letters. -/
def requireValues (b : Build) (neighbour found n width : Nat) : Fallible Unit := do
  requireExactLength neighbour found (← b.word (n * width))

/-- The `n` values of a neighbour's message, which has to consist of exactly their letters. Where
the number of letters wraps around, a message may be shorter than its values; values without letters
are all the same. -/
def decodeAll [Encoding W E] (b : Build) (neighbour : Nat) (letters : List W) (n : Nat) :
    Fallible (List E) := do
  requireValues b neighbour letters.length n (width W E)
  if width W E = 0 then
    return List.replicate n (decode ([] : List W))
  return (Groups.whole (width W E) letters).map decode

end Encoding

end KineticGrid
