import KineticGrid.Space.Vec3
/-!
# Working arithmetic and storage

Sums are carried in a working arithmetic and kept in a storage format, which may be narrower. Both
are interfaces, so that every computation reads the same over rounded and over exact numbers.
-/

namespace KineticGrid

class Arith (A : Type) extends Zero A, Add A, Sub A, Mul A, Div A where
  half : A
  two : A
  three : A
  /-- The number nearest to a count. -/
  ofCount : Nat → A
  /-- Whether a number is greater than zero. -/
  isPositive : A → Bool

/-- A format in which numbers of a working arithmetic are kept. -/
class Storage (S : Type) (A : outParam Type) extends Zero S, Add S where
  widen : S → A
  narrow : A → S
  isPositive : S → Bool
  /-- A number that carries a count as its bit pattern. -/
  packCount : UInt32 → S
  /-- The count that a number carries. -/
  unpackCount : S → UInt32
  /-- The size of a number in bytes. -/
  bytes : Nat

def Vec3.normSq {A : Type} [Arith A] (v : Vec3 A) : A :=
  v.x * v.x + v.y * v.y + v.z * v.z

def Vec3.widen {S A : Type} [Storage S A] (v : Vec3 S) : Vec3 A := v.map Storage.widen

def Vec3.narrow {S A : Type} [Storage S A] (v : Vec3 A) : Vec3 S := v.map Storage.narrow

end KineticGrid
