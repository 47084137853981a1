import KineticGrid.Arith.Field
import KineticGrid.Arith.Word
/-!
# Particles

Two populations in one index space. Native particles share one mass; embedded particles have masses
of their own and are reached through a lookup table. A raw index below the number of native
particles names a native one, and any other one an entry of the lookup table.
-/

namespace KineticGrid

structure Embedded (S : Type) where
  velocities : Array (Vec3 S)
  masses : Array S
  lookup : Array UInt32
  size_masses : masses.size = velocities.size

structure Particles (S : Type) where
  velocities : Array (Vec3 S)
  mass : S
  embedded : Option (Embedded S)

inductive Particle where
  | native (index : UInt32)
  | embedded (index : UInt32)
deriving DecidableEq, Repr

namespace Particles

variable {S : Type}

def native (velocities : Array (Vec3 S)) (mass : S) : Particles S := ⟨velocities, mass, none⟩

def withEmbedded (p : Particles S) (velocities : Array (Vec3 S)) (masses : Array S)
    (lookup : Array UInt32) : Fallible (Particles S) :=
  if h : masses.size = velocities.size then
    .ok { p with embedded := some ⟨velocities, masses, lookup, h⟩ }
  else
    Fallible.reject (.lengthMismatch .embeddedMasses velocities.size masses.size)

def nativeSize (p : Particles S) : Nat := p.velocities.size

def embeddedSize (p : Particles S) : Nat :=
  match p.embedded with
  | none => 0
  | some e => e.lookup.size

/-- The particle that a raw index stands for. -/
def resolve? (p : Particles S) (raw : UInt32) : Option Particle :=
  if raw.toNat < p.nativeSize then
    some (.native raw)
  else do
    let e ← p.embedded
    let slot ← e.lookup[raw.toNat - p.nativeSize]?
    if slot.toNat < e.velocities.size then some (.embedded slot) else none

/-- The particle that a raw index stands for; an index without one is refused. -/
def classify (p : Particles S) (raw : UInt32) : Fallible Particle :=
  match p.resolve? raw with
  | some q => .ok q
  | none => Fallible.reject (.invalidParticle raw p.nativeSize p.embeddedSize)

/-- An entry of an array; an index past its end is a fault. -/
def entry {α : Type} (items : Array α) (i : Nat) : Checked α :=
  match items[i]? with
  | some a => .ok a
  | none => .error .outOfBounds

def kinematics (p : Particles S) : Particle → Checked (Vec3 S × S)
  | .native i => do
    return (← entry p.velocities i.toNat, p.mass)
  | .embedded i =>
    match p.embedded with
    | none => .error (.noEmbeddedParticles i)
    | some e => do
      return (← entry e.velocities i.toNat, ← entry e.masses i.toNat)

end Particles

end KineticGrid
