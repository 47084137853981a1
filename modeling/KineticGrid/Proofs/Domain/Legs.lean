import KineticGrid.Proofs.Domain.Made
import KineticGrid.Proofs.Ghost.Exchange
/-!
# Legs of an exchange

An exchange of all cells goes through six legs: for each axis the velocities and then the energies.
Main statements: the ranks of a world go through the legs in lockstep, the values of all cells
after each leg are known, and no two legs of a time step share a tag.
-/

namespace KineticGrid

variable {W S A : Type}

/-! ## Merging values -/

section

variable [Storage S A]

def Rule.mergeMotion (rule : Rule) (here incoming : Motion S) : Motion S :=
  ⟨here.velocity.zipWith rule.merge incoming.velocity, rule.merge here.mass incoming.mass⟩

/-- Energy, temperature and count, merged under a rule. A count that leaves its word wraps
around. -/
def Rule.mergeHeat (rule : Rule) (here incoming : Heat S) : Heat S :=
  ⟨rule.merge here.energy incoming.energy, rule.merge here.temperature incoming.temperature,
    rule.merge here.count incoming.count⟩

end

/-! ## Values -/

structure Values (S : Type) where
  motion : Fields (Motion S)
  heat : Fields (Heat S)

def Values.on (v : Values S) (d : Nat → Domain S) : Nat → Domain S := fun i =>
  (d i).holding (v.motion i) (v.heat i)

theorem exists_values [Storage S A] {m : Mode} {n : Nat} {t : Topology} {d : Nat → Domain S}
    (ht : t.Sized) (hd : ∀ i < n, (d i).Built m t) :
    ∃ v : Values S, ∀ i < n, v.on d i = d i := by
  have hmotion : Nonempty (Motion S) := ⟨.zero⟩
  have hheat : Nonempty (Heat S) := ⟨.zero⟩
  choose! motion heat hholding using fun i hi => (hd i hi).exists_holding ht
  exact ⟨⟨motion, heat⟩, fun i hi => (hholding i hi).symm⟩

/-! ## Legs -/

inductive Cargo where
  | motion
  | heat
deriving DecidableEq, Repr

/-- One leg of an exchange: which way cells flow, along which axis, and what of them travels. -/
structure Leg where
  flow : Flow
  axis : Axis
  cargo : Cargo
deriving DecidableEq, Repr

def Flow.legs (flow : Flow) : List Leg :=
  Axis.all.flatMap fun a => [⟨flow, a, .motion⟩, ⟨flow, a, .heat⟩]

namespace Leg

/-- How far the tags of a leg lie behind the first tag of a time step. -/
def distance (l : Leg) : Nat :=
  (match l.flow with | .fold => 0 | .refresh => 12) + 4 * l.axis.index +
    (match l.cargo with | .motion => 0 | .heat => 2)

/-- The first of the two tags of a leg, of which the second one follows it. -/
def tag (base : Tag) (l : Leg) : Tag := base.offset (.ofNat l.distance)

def ring (p : Nat → Vec3 Neighbours) (l : Leg) : Nat → Neighbours := fun i => (p i).get l.axis

section

variable [Storage S A] [Encoding W S]

def step (m : Mode) (p : Vec3 Neighbours) (base : Tag) (l : Leg) : Step W (Domain S) :=
  match l.cargo with
  | .motion => Domain.exchangeMotion m l.flow l.axis (p.get l.axis) (l.tag base)
  | .heat => Domain.exchangeHeat m l.flow l.axis (p.get l.axis) (l.tag base)

theorem exchangeAll_fold (m : Mode) (p : Vec3 Neighbours) (tag : Tag) :
    (Domain.exchangeAll m .fold p tag : Step W (Domain S)) =
      .sequence (Flow.fold.legs.map (Leg.step m p tag)) := by
  simp only [Domain.exchangeAll, Flow.legs, Axis.all, List.flatMap_cons, List.flatMap_nil,
    List.map_cons, List.map_nil, List.cons_append, List.nil_append, step, Leg.tag, Tag.offset,
    UInt16.add_assoc]
  rfl

theorem exchangeAll_refresh (m : Mode) (p : Vec3 Neighbours) (tag : Tag) :
    (Domain.exchangeAll m .refresh p (tag.offset Domain.exchangeTags) : Step W (Domain S)) =
      .sequence (Flow.refresh.legs.map (Leg.step m p tag)) := by
  simp only [Domain.exchangeAll, Flow.legs, Axis.all, List.flatMap_cons, List.flatMap_nil,
    List.map_cons, List.map_nil, List.cons_append, List.nil_append, step, Leg.tag, Tag.offset,
    UInt16.add_assoc]
  rfl

end

def apply [Storage S A] (t : Topology) (p : Nat → Vec3 Neighbours) (l : Leg) (v : Values S) :
    Values S :=
  match l.cargo with
  | .motion =>
    { v with motion := v.motion.exchanged l.flow.rule.mergeMotion l.flow t l.axis (l.ring p) }
  | .heat =>
    { v with heat := v.heat.exchanged l.flow.rule.mergeHeat l.flow t l.axis (l.ring p) }

/-- No count leaves its word in a leg, unless that is allowed to happen. -/
def Safe [Storage S A] (b : Build) (n : Nat) (t : Topology) (p : Nat → Vec3 Neighbours) (l : Leg)
    (v : Values S) : Prop :=
  l.cargo = .heat → ∀ i < n, ∀ c side c', t.extent.Has c →
    l.flow.source? t l.axis c = some (side, c') →
    l.flow.rule.mergeCount b (v.heat i c).count (v.heat ((l.ring p i).on side) c').count =
      .ok (l.flow.rule.merge (v.heat i c).count (v.heat ((l.ring p i).on side) c').count)

variable [Storage S A] [Encoding W S]

/-- The message that a rank with given values sends to one side in a leg. -/
def message (b : Build) (t : Topology) (l : Leg) (v : Values S) (i : Nat) (side : Side) : List W :=
  match l.cargo with
  | .motion => l.flow.message (.motion l.flow.rule) t l.axis (v.motion i) side
  | .heat => l.flow.message (.heat b l.flow.rule) t l.axis (v.heat i) side

def width (W S : Type) [Encoding W S] (l : Leg) : Nat :=
  match l.cargo with
  | .motion => Encoding.width W (Motion S)
  | .heat => Encoding.width W (HeatRecord S)

def phase (S : Type) [Encoding W S] (n : Nat) (t : Topology) (p : Nat → Vec3 Neighbours)
    (base : Tag) (l : Leg) (message : Nat → Side → List W) : Phase W :=
  swapPhase n (l.ring p) (l.tag base) ((t.slabShape l.axis).volume * l.width W S) message

def phases (b : Build) (n : Nat) (t : Topology) (p : Nat → Vec3 Neighbours) (base : Tag) (l : Leg)
    (v : Values S) : List (Phase W) :=
  if t.isDecomposed l.axis then [l.phase S n t p base fun i => l.message b t v i] else []

end Leg

/-! ## Ranks in lockstep -/

def FullyLinked (n : Nat) (p : Nat → Vec3 Neighbours) : Prop := ∀ a, Linked n fun i => (p i).get a

section

variable [Storage S A] [Encoding W S] [Carrier W S] {m : Mode} {n : Nat} {t : Topology}
  {p : Nat → Vec3 Neighbours} {d : Nat → Domain S}

private theorem width_motion_le (W : Type) [Encoding W S] [Carrier W S] :
    Encoding.width W (Motion S) ≤ 4 * Storage.bytes S :=
  Nat.mul_le_mul_left 4 (Carrier.width_le (W := W))

private theorem width_heat_le (W : Type) [Encoding W S] [Carrier W S] :
    Encoding.width W (HeatRecord S) ≤ 4 * Storage.bytes S :=
  Nat.mul_le_mul (by decide) (Carrier.width_le (W := W))

private theorem bytes_le (ht : t.Fits) {d : Domain S} (hd : d.Built m t) {width : Nat}
    (hwidth : width ≤ 4 * Storage.bytes S) : t.extent.volume * width ≤ maxArrayBytes :=
  Nat.le_trans (Nat.mul_le_mul_left _ hwidth) (hd.space_le ht.toSized)

theorem Leg.lockstep (ht : t.Fits) (hd : ∀ i < n, (d i).Built m t) (base : Tag) (l : Leg)
    (v : Values S) (hsafe : l.Safe m.build n t p v) :
    Lockstep n (fun i => (l.step m (p i) base : Step W (Domain S)))
      (l.phases m.build n t p base v) (v.on d) ((l.apply t p v).on d) := by
  intro i hi
  have hblock := (hd i hi).block_ne_zero ht.toSized .pack
  have hmotion := bytes_le ht (hd i hi) (width_motion_le (S := S) W)
  have hheat := bytes_le ht (hd i hi) (width_heat_le (S := S) W)
  obtain rfl := (hd i hi).topology
  obtain ⟨flow, axis, cargo⟩ := l
  rw [← List.append_nil (phaseScripts _ i)]
  cases cargo with
  | motion =>
      have hgives := exchangeAxis_gives (W := W) (p := ring p ⟨flow, axis, .motion⟩) ht m
        (d i).executor (.motion flow.rule) flow axis (tag base ⟨flow, axis, .motion⟩)
        (F := v.motion) flow.rule.mergeMotion hmotion hblock hi
        fun c side c' _ _ => rfl
      exact Step.does_ofTask (.bind hgives (Task.gives_pure i _))
  | heat =>
      have hgives := exchangeAxis_gives (W := W) (p := ring p ⟨flow, axis, .heat⟩) ht m
        (d i).executor (.heat m.build flow.rule) flow axis (tag base ⟨flow, axis, .heat⟩)
        (F := v.heat) flow.rule.mergeHeat hheat hblock hi
        fun c side c' hc hsource => by
          have hcount := hsafe rfl i hi c side c' hc hsource
          dsimp only [Transfer.heat]
          rw [Carrier.unpackCount_packCount (W := W), hcount]
          rfl
      exact Step.does_ofTask (.bind hgives (Task.gives_pure i _))

/-! ## Several legs -/

def Values.after (t : Topology) (p : Nat → Vec3 Neighbours) (legs : List Leg) (v : Values S) :
    Values S :=
  legs.foldl (fun v l => l.apply t p v) v

def legPhases (b : Build) (n : Nat) (t : Topology) (p : Nat → Vec3 Neighbours) (base : Tag) :
    List Leg → Values S → List (Phase W)
  | [], _ => []
  | l :: legs, v => l.phases b n t p base v ++ legPhases b n t p base legs (l.apply t p v)

def LegsSafe (b : Build) (n : Nat) (t : Topology) (p : Nat → Vec3 Neighbours) :
    List Leg → Values S → Prop
  | [], _ => True
  | l :: legs, v => l.Safe b n t p v ∧ LegsSafe b n t p legs (l.apply t p v)

theorem lockstep_legs (ht : t.Fits) (hd : ∀ i < n, (d i).Built m t) (base : Tag)
    {legs : List Leg} {v : Values S} (hsafe : LegsSafe m.build n t p legs v) :
    Lockstep n (fun i => (.sequence (legs.map (Leg.step m (p i) base)) : Step W (Domain S)))
      (legPhases m.build n t p base legs v) (v.on d) ((v.after t p legs).on d) := by
  induction legs generalizing v with
  | nil => exact .skip n _
  | cons l legs ih =>
      obtain ⟨hleg, hlegs⟩ := hsafe
      exact (l.lockstep ht hd base v hleg).sequence_cons (ih hlegs)

end

end KineticGrid
