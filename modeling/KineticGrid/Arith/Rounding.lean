/-!
# Binary formats

The bit patterns of a binary floating-point format, and rounding to the nearest one with ties to
even. A number is kept as its pattern, so that a NaN keeps its payload.
-/

namespace KineticGrid

def twoTo (k : Nat) : Nat := Nat.pow 2 k

/-- A binary format: how many bits its fraction and its exponent take. -/
structure BinaryFormat where
  fractionBits : Nat
  exponentBits : Nat

namespace BinaryFormat

def single : BinaryFormat := ⟨23, 8⟩

def double : BinaryFormat := ⟨52, 11⟩

/-- The exponent field of infinities and NaNs. -/
def topExponent (f : BinaryFormat) : Nat := twoTo f.exponentBits - 1

/-- A pattern with exponent field `e` and significand `m` stands for
`m * 2 ^ max e 1 / 2 ^ bias`. -/
def bias (f : BinaryFormat) : Nat := twoTo (f.exponentBits - 1) - 1 + f.fractionBits

def signBit (f : BinaryFormat) (negative : Bool) : Nat :=
  if negative then twoTo (f.exponentBits + f.fractionBits) else 0

def isNegative (f : BinaryFormat) (bits : Nat) : Bool :=
  bits / twoTo (f.exponentBits + f.fractionBits) % 2 = 1

def exponent (f : BinaryFormat) (bits : Nat) : Nat :=
  bits / twoTo f.fractionBits % twoTo f.exponentBits

def fraction (f : BinaryFormat) (bits : Nat) : Nat := bits % twoTo f.fractionBits

def isNaN (f : BinaryFormat) (bits : Nat) : Bool :=
  f.exponent bits = f.topExponent && f.fraction bits ≠ 0

def infinity (f : BinaryFormat) (negative : Bool) : Nat :=
  f.signBit negative + f.topExponent * twoTo f.fractionBits

def quietNaN (f : BinaryFormat) (negative : Bool) (payload : Nat) : Nat :=
  f.infinity negative + twoTo (f.fractionBits - 1) + payload % twoTo (f.fractionBits - 1)

/-- A finite pattern as a whole number of units: its significand, and the power of two by which
the unit exceeds the least one. -/
def significand (f : BinaryFormat) (bits : Nat) : Nat × Nat :=
  let e := f.exponent bits
  if e = 0 then (f.fraction bits, 0) else (f.fraction bits + twoTo f.fractionBits, e - 1)

/-- `m / 2 ^ k` rounded to a whole number, ties to even. -/
def roundShift (m k : Nat) : Nat :=
  let quotient := m / twoTo k
  let remainder := m % twoTo k
  if 2 * remainder < twoTo k then quotient
  else if twoTo k < 2 * remainder then quotient + 1
  else quotient + quotient % 2

/-- The pattern nearest to `m * 2 ^ up / 2 ^ down` of the format's least units. -/
def round (f : BinaryFormat) (negative : Bool) (m up down : Nat) : Nat :=
  let scaled := m * twoTo up
  let width := scaled.log2 + 1 - down
  let shift := width - (f.fractionBits + 1)
  let magnitude := roundShift scaled (down + shift) + shift * twoTo f.fractionBits
  f.signBit negative + min magnitude (f.topExponent * twoTo f.fractionBits)

/-- A pattern of one format in another one, rounded where it does not fit. -/
def convert (source target : BinaryFormat) (bits : Nat) : Nat :=
  let negative := source.isNegative bits
  if source.isNaN bits then
    target.quietNaN negative
      (source.fraction bits * twoTo target.fractionBits / twoTo source.fractionBits)
  else if source.exponent bits = source.topExponent then
    target.infinity negative
  else
    let (m, e) := source.significand bits
    target.round negative m (e + (target.bias - source.bias)) (source.bias - target.bias)

def ofInt (f : BinaryFormat) (n : Int) : Nat :=
  f.round (n < 0) n.natAbs (f.bias - 1) 0

end BinaryFormat

end KineticGrid
