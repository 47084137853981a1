import KineticGrid.Arith.Exact
import KineticGrid.Proofs.Sweep.Passes
import KineticGrid.Proofs.Sweep.Summing
import Mathlib.Algebra.BigOperators.Group.List.Basic
import Mathlib.Algebra.Ring.Rat
/-!
# Exact sums

Without rounding, cells and totals add up in any order. Main statements: the raw sums of a cell are
the sum of what its particles contribute one by one, merging under addition is addition, and a
reduction is the sum of its items, however they are grouped.
-/

namespace KineticGrid

/-! ## Sums of records -/

section

variable {M : Type} [AddCommMonoid M]

instance : Zero (Vec3 M) := ⟨.fill 0⟩

instance : Add (Vec3 M) := ⟨fun v w => v.zipWith (· + ·) w⟩

instance : AddCommMonoid (Vec3 M) where
  add_assoc u v w := by
    apply Vec3.ext_get
    intro a
    cases a <;> exact add_assoc _ _ _
  zero_add v := by
    apply Vec3.ext_get
    intro a
    cases a <;> exact zero_add _
  add_zero v := by
    apply Vec3.ext_get
    intro a
    cases a <;> exact add_zero _
  add_comm v w := by
    apply Vec3.ext_get
    intro a
    cases a <;> exact add_comm _ _
  nsmul := nsmulRec

instance : Zero (Motion M) := ⟨⟨0, 0⟩⟩

instance : Add (Motion M) := ⟨fun v w => ⟨v.velocity + w.velocity, v.mass + w.mass⟩⟩

instance : AddCommMonoid (Motion M) where
  add_assoc _ _ _ := congrArg₂ Motion.mk (add_assoc _ _ _) (add_assoc _ _ _)
  zero_add _ := congrArg₂ Motion.mk (zero_add _) (zero_add _)
  add_zero _ := congrArg₂ Motion.mk (add_zero _) (add_zero _)
  add_comm _ _ := congrArg₂ Motion.mk (add_comm _ _) (add_comm _ _)
  nsmul := nsmulRec

theorem Heat.mk_congr {S : Type} {energy energy' temperature temperature' : S}
    {count count' : UInt32} (henergy : energy = energy') (htemperature : temperature = temperature')
    (hcount : count = count') :
    (⟨energy, temperature, count⟩ : Heat S) = ⟨energy', temperature', count'⟩ := by
  rw [henergy, htemperature, hcount]

instance : Zero (Heat M) := ⟨⟨0, 0, 0⟩⟩

/-- Counts are added as 32-bit words. -/
instance : Add (Heat M) :=
  ⟨fun e f => ⟨e.energy + f.energy, e.temperature + f.temperature, e.count + f.count⟩⟩

instance : AddCommMonoid (Heat M) where
  add_assoc _ _ _ := Heat.mk_congr (add_assoc _ _ _) (add_assoc _ _ _) (UInt32.add_assoc _ _ _)
  zero_add _ := Heat.mk_congr (zero_add _) (zero_add _) (UInt32.zero_add _)
  add_zero _ := Heat.mk_congr (add_zero _) (add_zero _) (UInt32.add_zero _)
  add_comm _ _ := Heat.mk_congr (add_comm _ _) (add_comm _ _) (UInt32.add_comm _ _)
  nsmul := nsmulRec

theorem Totals.mk_congr {A : Type} {momentum momentum' : Vec3 A}
    {energy energy' temperature temperature' : A} {valid valid' : UInt64}
    (hmomentum : momentum = momentum') (henergy : energy = energy')
    (htemperature : temperature = temperature') (hvalid : valid = valid') :
    (⟨momentum, energy, temperature, valid⟩ : Totals A) =
      ⟨momentum', energy', temperature', valid'⟩ := by
  rw [hmomentum, henergy, htemperature, hvalid]

instance : Zero (Totals M) := ⟨⟨0, 0, 0, 0⟩⟩

instance : Add (Totals M) :=
  ⟨fun t u => ⟨t.momentum + u.momentum, t.energy + u.energy, t.temperature + u.temperature,
    t.valid + u.valid⟩⟩

instance : AddCommMonoid (Totals M) where
  add_assoc _ _ _ := Totals.mk_congr (add_assoc _ _ _) (add_assoc _ _ _) (add_assoc _ _ _)
    (UInt64.add_assoc _ _ _)
  zero_add _ := Totals.mk_congr (zero_add _) (zero_add _) (zero_add _) (UInt64.zero_add _)
  add_zero _ := Totals.mk_congr (add_zero _) (add_zero _) (add_zero _) (UInt64.add_zero _)
  add_comm _ _ := Totals.mk_congr (add_comm _ _) (add_comm _ _) (add_comm _ _)
    (UInt64.add_comm _ _)
  nsmul := nsmulRec

end

/-! ## Cells -/

/-- What a particle with a velocity and a mass contributes to the momentum and the mass of its
cell. -/
def Motion.ofParticle (k : Vec3 Rat × Rat) : Motion Rat := ⟨k.1.map (k.2 * ·), k.2⟩

/-- What it contributes to the kinetic energy and the count. -/
def Heat.ofParticle (k : Vec3 Rat × Rat) : Heat Rat := ⟨1 / 2 * k.2 * k.1.normSq, 0, 1⟩

theorem CellSums.cell_insert (sums : CellSums Rat) (count : UInt32) (k : Vec3 Rat × Rat) :
    ((sums.insert k.1.widen (Storage.widen k.2)).cell (count + 1) : Motion Rat × Heat Rat) =
      ((sums.cell count).1 + Motion.ofParticle k, (sums.cell count).2 + Heat.ofParticle k) := by
  apply Prod.ext
  · rfl
  · exact Heat.mk_congr rfl (add_zero 0).symm rfl

theorem CellSums.cell_ofKinematics (items : List (Vec3 Rat × Rat)) :
    ((ofKinematics items : CellSums Rat).cell (.ofNat items.length) : Motion Rat × Heat Rat) =
      ((items.map Motion.ofParticle).sum, (items.map Heat.ofParticle).sum) := by
  have hfrom (sums : CellSums Rat) (count : UInt32) :
      ((items.foldl (fun sums k => sums.insert k.1.widen (Storage.widen k.2)) sums).cell
          (count + .ofNat items.length) : Motion Rat × Heat Rat) =
        ((sums.cell count).1 + (items.map Motion.ofParticle).sum,
          (sums.cell count).2 + (items.map Heat.ofParticle).sum) := by
    induction items generalizing sums count with
    | nil => simp
    | cons k items ih =>
        have hcount : count + .ofNat (items.length + 1) = count + 1 + .ofNat items.length := by
          rw [UInt32.ofNat_add, UInt32.add_assoc, UInt32.add_comm (.ofNat items.length)]
          rfl
        rw [List.foldl_cons, List.length_cons, hcount, ih, cell_insert]
        simp only [List.map_cons, List.sum_cons, add_assoc]
  have hzero : ((zero : CellSums Rat).cell 0 : Motion Rat × Heat Rat) = (0, 0) := rfl
  have hall := hfrom zero 0
  rw [hzero, UInt32.zero_add, zero_add, zero_add] at hall
  exact hall

theorem Bins.rawSums_eq {p : Particles Rat} {bins : Bins} {c : Nat}
    (h : (bins.kinematics p c).length = bins.load c) :
    bins.rawSums p c = (((bins.kinematics p c).map Motion.ofParticle).sum,
      ((bins.kinematics p c).map Heat.ofParticle).sum) := by
  rw [rawSums, ← h, CellSums.cell_ofKinematics]

/-! ## Totals -/

theorem Totals.total_eq_sum (items : List (Totals Rat)) : total items = items.sum :=
  (List.sum_eq_foldl).symm

theorem Reduction.grouped_eq_sum (block : Nat) (input : List (Totals Rat)) :
    grouped block input = input.sum := by
  have hgroups : (Groups.split block input).map Totals.total =
      (Groups.split block input).map List.sum :=
    List.map_congr_left fun group _ => Totals.total_eq_sum group
  rw [grouped, Totals.total_eq_sum, hgroups, ← List.sum_flatten, Groups.flatten_split]

/-! ## Messages with exact numbers -/

/-- A letter of a message: a byte, or an exact number. -/
inductive Symbol where
  | byte (x : UInt8)
  | number (x : Rat)

namespace Symbol

instance : Letter Symbol where
  ofByte := byte
  toByte
    | byte x => x
    | number _ => 0

instance : Encoding Symbol Rat where
  width := 1
  encode x := [number x]
  decode
    | number x :: _ => x
    | _ => 0

instance : LawfulLetter Symbol where
  toByte_ofByte _ := rfl

instance : Carrier Symbol Rat where
  width_pos := Nat.one_pos
  length_encode _ := rfl
  decode_encode _ := rfl
  width_le := by decide
  unpackCount_packCount n := UInt32.ofNat_toNat

end Symbol

end KineticGrid
