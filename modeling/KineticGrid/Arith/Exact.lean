import KineticGrid.Arith.Field
import Mathlib.Algebra.Order.Field.Rat
/-!
# Exact numbers

Rational numbers as a working arithmetic and as a storage format. Every computation reads the same
over them as over the numbers of a machine, but nothing is rounded.
-/

namespace KineticGrid

instance : Arith Rat where
  toZero := inferInstance
  toAdd := inferInstance
  toSub := inferInstance
  toMul := inferInstance
  toDiv := inferInstance
  half := 1 / 2
  two := 2
  three := 3
  ofCount n := n
  isPositive x := 0 < x

/-- Exact numbers are stored as they are, in as much space as a double. A count is carried as the
number that it is. -/
instance : Storage Rat Rat where
  toZero := Arith.toZero
  toAdd := Arith.toAdd
  widen x := x
  narrow x := x
  isPositive x := 0 < x
  packCount n := n.toNat
  unpackCount x := .ofNat x.num.toNat
  bytes := 8

end KineticGrid
