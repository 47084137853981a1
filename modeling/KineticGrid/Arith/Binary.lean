import KineticGrid.Arith.Field
import KineticGrid.Arith.Rounding
/-!
# Binary numbers

Numbers of 32 and of 64 bits, kept as bit patterns. Copying a pattern, or carrying a count in it,
loses nothing. An operation on a NaN gives the first NaN among its operands, made quiet; an
operation that has no value gives the negative quiet NaN without payload.
-/

namespace KineticGrid

structure Binary64 where
  bits : UInt64
deriving DecidableEq, Repr

structure Binary32 where
  bits : UInt32
deriving DecidableEq, Repr

namespace Binary64

def infinity : UInt64 := 0x7ff0000000000000

def isNaN (x : Binary64) : Bool := infinity < x.bits &&& 0x7fffffffffffffff

def quiet (x : Binary64) : Binary64 := ⟨x.bits ||| 0x0008000000000000⟩

def invalid : Binary64 := ⟨0xfff8000000000000⟩

def isPositive (x : Binary64) : Bool := 0 < x.bits && x.bits ≤ infinity

/-- A hardware operation with the rule for NaNs. -/
def lift (op : Float → Float → Float) (x y : Binary64) : Binary64 :=
  if x.isNaN then x.quiet
  else if y.isNaN then y.quiet
  else
    let r : Binary64 := ⟨(op (.ofBits x.bits) (.ofBits y.bits)).toBits⟩
    if r.isNaN then invalid else r

def ofInt (n : Int) : Binary64 := ⟨.ofNat (BinaryFormat.double.ofInt n)⟩

instance : Arith Binary64 where
  zero := ⟨0⟩
  add := lift (· + ·)
  sub := lift (· - ·)
  mul := lift (· * ·)
  div := lift (· / ·)
  half := ⟨0x3fe0000000000000⟩
  two := ⟨0x4000000000000000⟩
  three := ⟨0x4008000000000000⟩
  ofCount n := ofInt n
  isPositive := isPositive

end Binary64

namespace Binary32

def infinity : UInt32 := 0x7f800000

def isNaN (x : Binary32) : Bool := infinity < x.bits &&& 0x7fffffff

def quiet (x : Binary32) : Binary32 := ⟨x.bits ||| 0x00400000⟩

def invalid : Binary32 := ⟨0xffc00000⟩

def isPositive (x : Binary32) : Bool := 0 < x.bits && x.bits ≤ infinity

def add (x y : Binary32) : Binary32 :=
  if x.isNaN then x.quiet
  else if y.isNaN then y.quiet
  else
    let r : Binary32 := ⟨(Float32.ofBits x.bits + Float32.ofBits y.bits).toBits⟩
    if r.isNaN then invalid else r

def ofInt (n : Int) : Binary32 := ⟨.ofNat (BinaryFormat.single.ofInt n)⟩

def toBinary64 (x : Binary32) : Binary64 :=
  ⟨.ofNat (BinaryFormat.single.convert .double x.bits.toNat)⟩

def ofBinary64 (x : Binary64) : Binary32 :=
  ⟨.ofNat (BinaryFormat.double.convert .single x.bits.toNat)⟩

end Binary32

instance : Storage Binary64 Binary64 where
  zero := ⟨0⟩
  add := (· + ·)
  widen x := x
  narrow x := x
  isPositive := Binary64.isPositive
  packCount n := ⟨n.toUInt64⟩
  unpackCount x := x.bits.toUInt32
  bytes := 8

instance : Storage Binary32 Binary64 where
  zero := ⟨0⟩
  add := Binary32.add
  widen := Binary32.toBinary64
  narrow := Binary32.ofBinary64
  isPositive := Binary32.isPositive
  packCount n := ⟨n⟩
  unpackCount x := x.bits
  bytes := 4

end KineticGrid
