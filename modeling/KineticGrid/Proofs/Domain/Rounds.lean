import KineticGrid.Proofs.Domain.TimeStep
/-!
# Time steps one after the other

Ranks that go through any number of time steps, all with the same tag. Nothing keeps a rank from
being several exchanges ahead of another, and every slot is used again in every time step. Main
statement: no message is lost and no order in which the ranks act changes the result.
-/

namespace KineticGrid

variable {W S A : Type}

def Domain.timeSteps [Arith A] [Storage S A] [Encoding W S] (m : Mode)
    (particles : Nat → Particles S) (bins : Nat → Bins) (neighbours : Vec3 Neighbours) (tag : Tag)
    (k : Nat) : Step W (Domain S) :=
  .sequence ((List.range k).map fun s =>
    computeDistributed m (particles s) (bins s) neighbours tag)

def roundPhases (S : Type) [Encoding W S] (n : Nat) (t : Topology) (p : Nat → Vec3 Neighbours)
    (tag : Tag) (k : Nat) (message : Nat → Leg → Nat → Side → List W) : List (Phase W) :=
  (List.range k).flatMap fun s => (t.served Leg.all).map fun l => l.phase S n t p tag (message s l)

/-! ## Phases -/

section

variable [Encoding W S] {n : Nat} {t : Topology} {p : Nat → Vec3 Neighbours} {tag : Tag} {k : Nat}
  {message : Nat → Leg → Nat → Side → List W}

theorem forall₂_serves_roundPhases :
    List.Forall₂ (Serves S n t p tag) (List.replicate k (t.served Leg.all)).flatten
      (roundPhases S n t p tag k message) := by
  have hsteps (steps : List Nat) : List.Forall₂ (Serves S n t p tag)
      (steps.flatMap fun _ => t.served Leg.all)
      (steps.flatMap fun s =>
        (t.served Leg.all).map fun l => l.phase S n t p tag (message s l)) := by
    induction steps with
    | nil => exact .nil
    | cons s steps ih => exact List.rel_append (forall₂_serves_map n t p tag _ (message s)) ih
  have hall := hsteps (List.range k)
  rwa [List.flatMap_def, List.map_const', List.length_range] at hall

private theorem alternating_served (t : Topology) (k : Nat) :
    Alternating (List.replicate k (t.served Leg.all)).flatten := by
  apply alternating_replicate (Leg.nodup_all.filter _)
  intro l hl
  obtain ⟨hl, hdecomposed⟩ := List.mem_filter.1 hl
  have hother : ∀ l ∈ Leg.all, ∃ l' ∈ Leg.all, l' ≠ l ∧ l'.axis = l.axis := by decide
  obtain ⟨l', hl', hne, haxis⟩ := hother l hl
  refine ⟨l', List.mem_filter.2 ⟨hl', ?_⟩, hne, haxis⟩
  rw [haxis]
  exact hdecomposed

theorem valid_roundPhases (hp : FullyLinked n p) :
    ∀ q ∈ roundPhases S n t p tag k message, q.Valid n :=
  valid_of_serves hp forall₂_serves_roundPhases

theorem spaced_roundPhases (hp : FullyLinked n p) :
    Spaced (roundPhases S n t p tag k message) :=
  spaced_of_serves hp forall₂_serves_roundPhases (alternating_served t k)

end

/-! ## Runs -/

section

variable [Arith A] [Storage S A] [Encoding W S] [Carrier W S] {m : Mode} {n : Nat}
  {t : Topology} {p : Nat → Vec3 Neighbours} {d : Nat → Domain S}

/-- The ranks go through time steps in lockstep. The induction is on the number of steps, of which
the first one is taken off. -/
theorem exists_timeSteps (W : Type) [Encoding W S] [Carrier W S] (ht : t.Fits)
    (hd : ∀ i < n, (d i).Built m t) (tag : Tag) (k : Nat)
    {particles : Nat → Nat → Particles S} {bins : Nat → Nat → Bins}
    (hbins : ∀ s < k, ∀ i < n, (bins s i).BuiltOn t (particles s i))
    (hfits : m.build = .debug → ∀ s < k, ∀ i < n, ∀ c, t.extent.Has c →
      (loads t (bins s)).folded t p Axis.all i c < word32Size) :
    ∃ (d' : Nat → Domain S) (message : Nat → Leg → Nat → Side → List W),
      Lockstep n (fun i => Domain.timeSteps m (fun s => particles s i) (fun s => bins s i) (p i)
        tag k) (roundPhases S n t p tag k message) d d' := by
  induction k generalizing d particles bins with
  | zero => exact ⟨d, fun _ _ _ _ => [], .skip n d⟩
  | succ k ih =>
      obtain ⟨d₁, v, first, hbuilt, _, hfirst⟩ := exists_timeStep W ht hd
        (hbins 0 (Nat.succ_pos k)) (fun hdebug => hfits hdebug 0 (Nat.succ_pos k)) tag
      obtain ⟨d', message, hrest⟩ := ih (d := v.on d₁)
        (fun i hi => (hbuilt i hi).holding ht.toSized _ _)
        (fun s hs => hbins (s + 1) (Nat.succ_lt_succ hs))
        (fun hdebug s hs => hfits hdebug (s + 1) (Nat.succ_lt_succ hs))
      refine ⟨d', fun s => s.casesOn first message, ?_⟩
      rw [roundPhases, List.range_succ_eq_map, List.flatMap_cons, List.flatMap_map]
      simp only [Domain.timeSteps, List.range_succ_eq_map, List.map_cons, List.map_map]
      exact hfirst.sequence_cons hrest

/-- No message is lost and no schedule changes the result. However the ranks of a linked world
interleave the actions of any number of time steps with one tag: what a rank sends finds its slot
empty; each rank does what its script lists, where it takes from each neighbour the message that
this neighbour sends to it in the same leg of the same step; a rank that is done has succeeded with
one and the same domain; no message is left when all ranks are done; and where no rank can act, all
of them are done. -/
theorem timeSteps_independent_of_schedule (hp : FullyLinked n p) (ht : t.Fits)
    (hd : ∀ i < n, (d i).Built m t) (tag : Tag) (k : Nat)
    {particles : Nat → Nat → Particles S} {bins : Nat → Nat → Bins}
    (hbins : ∀ s < k, ∀ i < n, (bins s i).BuiltOn t (particles s i))
    (hfits : m.build = .debug → ∀ s < k, ∀ i < n, ∀ c, t.extent.Has c →
      (loads t (bins s)).folded t p Axis.all i c < word32Size) :
    ∃ (d' : Nat → Domain S) (message : Nat → Leg → Nat → Side → List W), ∀ history w,
      (World.launch n fun i => (Domain.timeSteps m (fun s => particles s i) (fun s => bins s i)
        (p i) tag k : Step W (Domain S)) (d i)).Run history w →
      (∀ i peer tag' letters, w.event? i = some (.sent peer tag' letters) →
        w.mailbox.get? ⟨i, peer, tag'⟩ = none) ∧
      (∀ i, past history i <+: phaseScripts (roundPhases S n t p tag k message) i) ∧
      (∀ i < n, ∀ a, w.Done i a → a.1 = d' i ∧ a.2.result = .ok ()) ∧
      ((∀ i < n, ∃ a, w.Done i a) → w.mailbox = .empty) ∧
      (w.Stuck → ∀ i < n, ∃ a, w.Done i a) := by
  obtain ⟨d', message, hlockstep⟩ := exists_timeSteps W ht hd tag k hbins hfits
  obtain ⟨logs, hfollows⟩ := hlockstep.exists_follows
  have hsound : Scripts.Sound n (phaseScripts (roundPhases S n t p tag k message)) :=
    sound_phaseScripts (valid_roundPhases hp) (spaced_roundPhases hp)
  refine ⟨d', message, fun history w run => ?_⟩
  have halong := run.along hsound hfollows
  refine ⟨fun i peer tag' letters => run.get?_of_event hsound hfollows,
    halong.possible.isPrefix, fun i hi a hdone => ?_, fun hdone => ?_, fun hstuck i hi => ?_⟩
  · rw [halong.eq_of_done hi hdone]
    exact ⟨rfl, rfl⟩
  · apply halong.mailbox_eq_empty hsound
    intro i hi
    obtain ⟨a, ha⟩ := hdone i hi
    exact halong.eq_scripts_of_done hi ha
  · exact ⟨_, halong.done hi (halong.eq_scripts hsound hstuck hi)⟩

theorem timeSteps_independent_of_schedule_two :
    let p : Particles Binary32 := .native #[.fill 0] 0
    let bins : Bins := .ofCells p [[.native 0], [], [.native 0, .native 0], []]
    ∃ (d' : Nat → Domain Binary32) (message : Nat → Leg → Nat → Side → List UInt8),
      ∀ history w, (World.launch 2 fun i => (Domain.timeSteps ⟨.debug, .off⟩ (fun _ => p)
        (fun _ => bins) ((Torus.ofShape ⟨2, 1, 1⟩).neighbours i) ⟨65530⟩ 3 :
          Step UInt8 (Domain Binary32)) (.numbered .four i)).Run history w →
      (∀ i, past history i <+: phaseScripts (roundPhases Binary32 2 .four
        (Torus.ofShape ⟨2, 1, 1⟩).neighbours ⟨65530⟩ 3 message) i) ∧
      (∀ i < 2, ∀ a, w.Done i a → a.1 = d' i ∧ a.2.result = .ok ()) := by
  intro p bins
  have hbins : bins.BuiltOn .four p := ⟨.inl ⟨.debug, [[0], [], [0, 0], []], rfl⟩, rfl⟩
  have hfits (i : Nat) (hi : i < 2) (c : Vec3 Nat) (hc : Topology.four.extent.Has c) :
      (loads .four fun _ => bins).folded .four (Torus.ofShape ⟨2, 1, 1⟩).neighbours Axis.all i c <
        word32Size := by
    refine Nat.lt_of_le_of_lt (Fields.folded_le _ Topology.fits_four.holds hi hc) ?_
    refine Nat.lt_of_le_of_lt (Finset.sum_le_sum_of_subset (Finset.filter_subset _ _)) ?_
    decide +kernel
  obtain ⟨d', message, hruns⟩ := timeSteps_independent_of_schedule (W := UInt8) (S := Binary32)
    (m := ⟨.debug, .off⟩) (d := fun i => .numbered .four i) (Torus.ofShape ⟨2, 1, 1⟩).rings
    Topology.fits_four (fun i _ => Domain.built_numbered i ⟨_, rfl, rfl, rfl⟩) ⟨65530⟩ 3
    (fun _ _ _ _ => hbins) (fun _ _ _ => hfits)
  refine ⟨d', message, fun history w run => ?_⟩
  obtain ⟨_, hscript, hdone, _⟩ := hruns history w run
  exact ⟨hscript, hdone⟩

end

end KineticGrid
