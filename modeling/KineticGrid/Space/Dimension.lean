import KineticGrid.Arith.Field
import KineticGrid.Report.Fault
/-!
# Dimensions

Temperature is defined for motion in two or three dimensions.
-/

namespace KineticGrid

inductive Dimension where
  | two
  | three
deriving DecidableEq, Repr

namespace Dimension

def ofNumber (n : UInt32) : Fallible Dimension :=
  if n = 2 then .ok .two
  else if n = 3 then .ok .three
  else Fallible.reject (.invalidDimension n)

def number : Dimension → UInt32
  | .two => 2
  | .three => 3

/-- The degrees of freedom of one particle. -/
def freedom {A : Type} [Arith A] : Dimension → A
  | .two => Arith.two
  | .three => Arith.three

def text (d : Dimension) : String := s!"{d.number}D"

theorem ofNumber_number (d : Dimension) : ofNumber d.number = .ok d := by
  cases d <;> rfl

end Dimension

end KineticGrid
