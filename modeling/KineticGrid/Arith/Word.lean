import KineticGrid.Report.Fault
/-!
# Machine words

Sizes and slots are natural numbers below `2 ^ 64`, coordinates are 32-bit words. A result that
leaves its word is a fault in the checked build and wraps around in the other one. Main statements:
a result inside its word is exact in both builds.
-/

namespace KineticGrid

/-- How arithmetic treats a result that leaves its word. -/
inductive Build where
  /-- Stops. -/
  | debug
  /-- Wraps around. -/
  | release
deriving DecidableEq, Repr

/-- One more than the largest size or slot. -/
abbrev wordSize : Nat := 18446744073709551616

/-- One more than the largest coordinate. -/
abbrev word32Size : Nat := 4294967296

/-- The largest number of bytes that one array may take. -/
abbrev maxArrayBytes : Nat := 9223372036854775807

namespace Build

variable {α : Type}

def overflow (b : Build) (wrapped : α) : Checked α :=
  match b with
  | .debug => .error .overflow
  | .release => .ok wrapped

def word (b : Build) (n : Nat) : Checked Nat :=
  if n < wordSize then .ok n else b.overflow (n % wordSize)

def add32 (b : Build) (x y : UInt32) : Checked UInt32 :=
  if x.toNat + y.toNat < word32Size then .ok (x + y) else b.overflow (x + y)

def sub32 (b : Build) (x y : UInt32) : Checked UInt32 :=
  if y ≤ x then .ok (x - y) else b.overflow (x - y)

def mul32 (b : Build) (x y : UInt32) : Checked UInt32 :=
  if x.toNat * y.toNat < word32Size then .ok (x * y) else b.overflow (x * y)

def add64 (b : Build) (x y : UInt64) : Checked UInt64 :=
  if x.toNat + y.toNat < wordSize then .ok (x + y) else b.overflow (x + y)

theorem word_eq {b : Build} {n : Nat} (h : n < wordSize) : b.word n = .ok n := by
  simp only [word, if_pos h]

theorem add32_eq {b : Build} {x y : UInt32} (h : x.toNat + y.toNat < word32Size) :
    b.add32 x y = .ok (x + y) := by
  simp only [add32, if_pos h]

theorem sub32_eq {b : Build} {x y : UInt32} (h : y ≤ x) : b.sub32 x y = .ok (x - y) := by
  simp only [sub32, if_pos h]

theorem mul32_eq {b : Build} {x y : UInt32} (h : x.toNat * y.toNat < word32Size) :
    b.mul32 x y = .ok (x * y) := by
  simp only [mul32, if_pos h]

theorem add64_eq {b : Build} {x y : UInt64} (h : x.toNat + y.toNat < wordSize) :
    b.add64 x y = .ok (x + y) := by
  simp only [add64, if_pos h]

end Build

def reserve (bytes : Nat) : Checked Unit :=
  if bytes ≤ maxArrayBytes then .ok () else .error .capacity

end KineticGrid
