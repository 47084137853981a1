/-!
# Triples along the three axes

One value per axis of space. A triple is read and replaced by axis, and written `[x, y, z]`.
-/

namespace KineticGrid

inductive Axis where
  | x
  | y
  | z
deriving DecidableEq, Repr

namespace Axis

def all : List Axis := [.x, .y, .z]

def index : Axis → Nat
  | .x => 0
  | .y => 1
  | .z => 2

end Axis

/-- One value per axis. -/
structure Vec3 (α : Type) where
  x : α
  y : α
  z : α
deriving DecidableEq, Repr

namespace Vec3

variable {α β γ : Type}

def get (v : Vec3 α) : Axis → α
  | .x => v.x
  | .y => v.y
  | .z => v.z

def set (v : Vec3 α) (a : Axis) (value : α) : Vec3 α :=
  match a with
  | .x => { v with x := value }
  | .y => { v with y := value }
  | .z => { v with z := value }

def fill (value : α) : Vec3 α := ⟨value, value, value⟩

def ofAxis (f : Axis → α) : Vec3 α := ⟨f .x, f .y, f .z⟩

def map (f : α → β) (v : Vec3 α) : Vec3 β := ⟨f v.x, f v.y, f v.z⟩

def zipWith (f : α → β → γ) (v : Vec3 α) (w : Vec3 β) : Vec3 γ :=
  ⟨f v.x w.x, f v.y w.y, f v.z w.z⟩

def ofAxisM {m : Type → Type} [Monad m] (f : Axis → m α) : m (Vec3 α) := do
  return ⟨← f .x, ← f .y, ← f .z⟩

def toList (v : Vec3 α) : List α := [v.x, v.y, v.z]

def all (p : Axis → Bool) : Bool := p .x && p .y && p .z

def text [ToString α] (v : Vec3 α) : String := s!"[{v.x}, {v.y}, {v.z}]"

@[ext]
theorem ext_get {v w : Vec3 α} (h : ∀ a, v.get a = w.get a) : v = w := by
  cases v
  cases w
  have hx := h .x
  have hy := h .y
  have hz := h .z
  simp_all only [get]

@[simp]
theorem get_set_self (v : Vec3 α) (a : Axis) (value : α) : (v.set a value).get a = value := by
  cases a <;> rfl

theorem get_set_of_ne (v : Vec3 α) {a b : Axis} (value : α) (h : b ≠ a) :
    (v.set a value).get b = v.get b := by
  cases a <;> cases b <;> simp_all [get, set]

@[simp]
theorem get_ofAxis (f : Axis → α) (a : Axis) : (ofAxis f).get a = f a := by
  cases a <;> rfl

@[simp]
theorem get_map (f : α → β) (v : Vec3 α) (a : Axis) : (v.map f).get a = f (v.get a) := by
  cases a <;> rfl

theorem all_eq_true_iff {p : Axis → Bool} : all p = true ↔ ∀ a, p a = true := by
  constructor
  · intro h a
    simp only [all, Bool.and_eq_true] at h
    cases a
    · exact h.1.1
    · exact h.1.2
    · exact h.2
  · intro h
    simp only [all, h, Bool.and_self]

end Vec3

end KineticGrid
