import KineticGrid.Proofs.Domain.Rounds
import KineticGrid.Proofs.Message.Progress
/-!
# Time steps come to an end

A rank takes what its right neighbour sends before what its left neighbour sends, so that waits
close to a circle around every ring of ranks. Main statement: no world of ranks that go through time
steps comes to a halt before all of them are done, and each rank needs 24 actions per time step and
decomposed axis.
-/

namespace KineticGrid

variable {W S A : Type}

theorem Topology.length_served (t : Topology) :
    (t.served Leg.all).length = 4 * (Axis.all.filter t.isDecomposed).length := by
  simp only [served, Leg.all, Flow.legs, Axis.all, List.flatMap_cons, List.flatMap_nil,
    List.cons_append, List.nil_append, List.filter_cons, List.filter_nil]
  cases t.isDecomposed .x <;> cases t.isDecomposed .y <;> cases t.isDecomposed .z <;> rfl

section

variable [Encoding W S] {n : Nat} {t : Topology} {p : Nat → Vec3 Neighbours} {base : Tag}
  {legs : List Leg} {phases : List (Phase W)}

theorem length_script_of_serves (h : List.Forall₂ (Serves S n t p base) legs phases) {i : Nat}
    (hi : i < n) : (phaseScripts phases i).length = legs.length * 6 := by
  induction h with
  | nil => rfl
  | @cons l q legs phases hserves _ ih =>
      obtain ⟨message, rfl⟩ := hserves
      have hscript : ((l.phase S n t p base message).script i).length = 6 := by
        rw [Leg.phase, script_swapPhase hi]
        rfl
      rw [phaseScripts, List.flatMap_cons, List.length_append, hscript, List.length_cons,
        Nat.succ_mul, Nat.add_comm]
      exact congrArg (· + 6) ih

/-- What a rank does last in a script is never the announcement of a receive. -/
theorem getLast?_script_of_serves (h : List.Forall₂ (Serves S n t p base) legs phases)
    (i peer : Nat) (tag : Tag) (length : Nat) :
    (phaseScripts phases i).getLast? ≠ some (.posted peer tag length) := by
  induction h with
  | nil => simp [phaseScripts]
  | @cons l q legs phases hserves _ ih =>
      obtain ⟨message, rfl⟩ := hserves
      rw [phaseScripts, List.flatMap_cons, List.getLast?_append]
      change (phaseScripts phases i).getLast?.or _ ≠ _
      cases hrest : (phaseScripts phases i).getLast? with
      | some e => rwa [hrest] at ih
      | none =>
          by_cases hi : i < n
          · rw [Leg.phase, script_swapPhase hi]
            simp [exchangeScript]
          · rw [Leg.phase]
            simp [Phase.script, swapPhase, hi]

end

section

variable [Arith A] [Storage S A] [Encoding W S] [Carrier W S] {m : Mode} {n : Nat}
  {t : Topology} {p : Nat → Vec3 Neighbours} {d : Nat → Domain S}

/-- Time steps never end in a deadlock. In every state that ranks of a linked world can come to,
whatever the order in which they act, all of them are done and have succeeded, or one of them can
send a message or take one that is there; each action leaves one action less, of 24 per rank, time
step and decomposed axis; a state in which no rank can act is one in which all of them are done; and
no sequence of actions goes on forever. -/
theorem timeSteps_never_deadlock (hp : FullyLinked n p) (ht : t.Fits)
    (hd : ∀ i < n, (d i).Built m t) (tag : Tag) (k : Nat)
    {particles : Nat → Nat → Particles S} {bins : Nat → Nat → Bins}
    (hbins : ∀ s < k, ∀ i < n, (bins s i).BuiltOn t (particles s i))
    (hfits : m.build = .debug → ∀ s < k, ∀ i < n, ∀ c, t.extent.Has c →
      (loads t (bins s)).folded t p Axis.all i c < word32Size) :
    let start := World.launch n fun i => (Domain.timeSteps m (fun s => particles s i)
      (fun s => bins s i) (p i) tag k : Step W (Domain S)) (d i)
    let succeeded : Nat → Domain S × Outcome Unit → Prop := fun _ a => a.2.result = .ok ()
    start.remaining = n * (k * (24 * (Axis.all.filter t.isDecomposed).length)) ∧
    (∀ history w, start.Run history w →
      (w.AllDone n succeeded ∨
        ∃ i < n, ∃ r, w.ranks[i]? = some r ∧ r.program.Enabled i w.mailbox) ∧
      (∀ i w', w.act? i = some w' → w'.remaining + 1 = w.remaining) ∧
      (w.Stuck → w.AllDone n succeeded)) ∧
    ∀ f : Nat → World W (Domain S × Outcome Unit), f 0 = start →
      ∃ j, ∀ i, (f j).act? i ≠ some (f (j + 1)) := by
  intro start succeeded
  obtain ⟨d', message, hlockstep⟩ := exists_timeSteps W ht hd tag k hbins hfits
  obtain ⟨logs, hfollows⟩ := hlockstep.exists_follows
  have hserves : List.Forall₂ (Serves S n t p tag) (List.replicate k (t.served Leg.all)).flatten
      (roundPhases S n t p tag k message) := forall₂_serves_roundPhases
  have hsound : Scripts.Sound n (phaseScripts (roundPhases S n t p tag k message)) :=
    sound_phaseScripts (valid_roundPhases hp) (spaced_roundPhases hp)
  have hcompletes : start.Completes n succeeded := World.completes_of_follows hsound
    (getLast?_script_of_serves hserves) hfollows fun _ _ => rfl
  have hlength (i : Nat) (hi : i < n) :
      (phaseScripts (roundPhases S n t p tag k message) i).length =
        k * (24 * (Axis.all.filter t.isDecomposed).length) := by
    rw [length_script_of_serves hserves hi, List.length_flatten, List.map_replicate,
      List.sum_replicate_nat, t.length_served]
    ring
  refine ⟨?_, fun history w run => ⟨hcompletes.allDone_or_enabled run,
    hcompletes.remaining_act? run, hcompletes.allDone_of_stuck run⟩, hcompletes.exists_halt⟩
  calc start.remaining
      = Scripts.left n (phaseScripts (roundPhases S n t p tag k message)) fun _ => [] :=
        (World.Along.launch hfollows).remaining_eq hsound
    _ = (Finset.range n).card * (k * (24 * (Axis.all.filter t.isDecomposed).length)) :=
        Finset.sum_const_nat fun i hi => hlength i (Finset.mem_range.1 hi)
    _ = n * (k * (24 * (Axis.all.filter t.isDecomposed).length)) := by rw [Finset.card_range]

theorem timeSteps_never_deadlock_three :
    let p : Particles Binary64 := .native #[.fill 0] 0
    let bins : Bins := .ofCells p [[.native 0], [], [.native 0, .native 0], []]
    let start := World.launch 3 fun i => (Domain.timeSteps ⟨.debug, .off⟩ (fun _ => p)
      (fun _ => bins) ((Torus.ofShape ⟨3, 1, 1⟩).neighbours i) ⟨65535⟩ 2 :
        Step UInt8 (Domain Binary64)) (.numbered .four i)
    start.remaining = 144 ∧ ∀ history w, start.Run history w →
      w.AllDone 3 (fun _ a => a.2.result = .ok ()) ∨
        ∃ i < 3, ∃ r, w.ranks[i]? = some r ∧ r.program.Enabled i w.mailbox := by
  intro p bins start
  have hbins : bins.BuiltOn .four p := ⟨.inl ⟨.debug, [[0], [], [0, 0], []], rfl⟩, rfl⟩
  have hfits (i : Nat) (hi : i < 3) (c : Vec3 Nat) (hc : Topology.four.extent.Has c) :
      (loads .four fun _ => bins).folded .four (Torus.ofShape ⟨3, 1, 1⟩).neighbours Axis.all i c <
        word32Size := by
    refine Nat.lt_of_le_of_lt (Fields.folded_le _ Topology.fits_four.holds hi hc) ?_
    refine Nat.lt_of_le_of_lt (Finset.sum_le_sum_of_subset (Finset.filter_subset _ _)) ?_
    decide +kernel
  obtain ⟨hremaining, hruns, -⟩ := timeSteps_never_deadlock (W := UInt8) (S := Binary64)
    (m := ⟨.debug, .off⟩) (d := fun i => .numbered .four i) (Torus.ofShape ⟨3, 1, 1⟩).rings
    Topology.fits_four (fun i _ => Domain.built_numbered i ⟨_, rfl, rfl, rfl⟩) ⟨65535⟩ 2
    (fun _ _ _ _ => hbins) (fun _ _ _ => hfits)
  exact ⟨hremaining, fun history w run => (hruns history w run).1⟩

end

end KineticGrid
