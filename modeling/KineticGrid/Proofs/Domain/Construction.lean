import KineticGrid.Document.Schema
import KineticGrid.Proofs.Domain.Made
import KineticGrid.Proofs.Space.Globe
import KineticGrid.Proofs.Sweep.Summing
/-!
# Construction of domains

A domain may be asked for on any topology: an accepted one, or one that was read from a document and
has no room for its ghost cells. Main statement: for which topologies construction keeps its
promise, that of a domain with one entry per cell that can be staged, and for which it does not.
-/

namespace KineticGrid

variable {S A : Type}

/-! ## Sizes -/

theorem Build.word_of_le {n : Nat} (h : wordSize ≤ n) (b : Build) :
    b.word n = b.overflow (n % wordSize) :=
  if_neg (Nat.not_lt.2 h)

/-! ## Owned cells -/

namespace Topology

variable {b : Build} {t : Topology}

/-- Both ghost layers of every axis fit, though they may leave no owned cell between them. -/
def GhostsFit (t : Topology) : Prop := ∀ a, 2 * t.halo a ≤ t.extent.get a

instance (t : Topology) : Decidable t.GhostsFit :=
  decidable_of_iff (Vec3.all (fun a => 2 * t.halo a ≤ t.extent.get a) = true) (by
    simp only [Vec3.all_eq_true_iff, decide_eq_true_eq, GhostsFit])

theorem Holds.ghostsFit (h : t.Holds) : t.GhostsFit := by
  intro a
  have hcore := h.core_eq a
  omega

/-- Where the ghost layers do not fit, the wrapped extent of the owned cells reaches past the end of
the grid. -/
theorem toNat_mark_two_add_le_iff (t : Topology) (a : Axis) :
    (t.mark a 2).toNat + t.halo a ≤ t.extent.get a ↔ 2 * t.halo a ≤ t.extent.get a := by
  have hd := UInt32.toNat_lt (t.dims.get a)
  have hg := UInt32.toNat_lt (t.ghost.get a)
  have htwo : (2 : UInt32).toNat = 2 := rfl
  rw [mark, UInt32.toNat_sub, UInt32.toNat_mul, htwo, get_extent, halo]
  omega

theorem ownedBox_within_iff : t.ownedBox.Within t.extent ↔ t.GhostsFit := by
  apply forall_congr'
  intro a
  rw [get_first_ownedBox, Box.shape, Vec3.get_map, ownedBox, Vec3.get_ofAxis, Nat.add_comm]
  exact t.toNat_mark_two_add_le_iff a

/-- What is computed for the owned cells, if anything is, is one and the same box. -/
theorem eq_ownedBox_of_owned {r : Box} (h : t.owned b = .ok r) : r = t.ownedBox := by
  have hmark {a : Axis} {x : UInt32} (hx : t.fromEnd b a 2 = .ok x) : x = t.mark a 2 := by
    obtain ⟨y, hy, hx⟩ := exists_of_bind_eq_ok hx
    have hmul : y = 2 * t.ghost.get a := by
      unfold Build.mul32 Build.overflow at hy
      split at hy <;> try split at hy
      all_goals cases hy <;> rfl
    unfold Build.sub32 Build.overflow at hx
    rw [mark, ← hmul]
    split at hx <;> try split at hx
    all_goals cases hx <;> rfl
  obtain ⟨extent, hextent, hr⟩ := exists_of_bind_eq_ok h
  obtain ⟨x, hx, hextent⟩ := exists_of_bind_eq_ok hextent
  obtain ⟨y, hy, hextent⟩ := exists_of_bind_eq_ok hextent
  obtain ⟨z, hz, hextent⟩ := exists_of_bind_eq_ok hextent
  cases hr
  cases hextent
  rw [hmark hx, hmark hy, hmark hz]
  rfl

theorem GhostsFit.owned_eq (h : t.GhostsFit) : t.owned b = .ok t.ownedBox := by
  have hend (a : Axis) : t.fromEnd b a 2 = .ok (t.mark a 2) := by
    have hfit := h a
    have hd := UInt32.toNat_lt (t.dims.get a)
    have htwo : (2 : UInt32).toNat = 2 := rfl
    rw [get_extent, halo] at hfit
    have hmul : (2 * t.ghost.get a).toNat = 2 * (t.ghost.get a).toNat := by
      rw [UInt32.toNat_mul, htwo]
      exact Nat.mod_eq_of_lt (by omega)
    have hword : (2 : UInt32).toNat * (t.ghost.get a).toNat < 4294967296 := by
      rw [htwo]
      omega
    rw [fromEnd, Build.mul32_eq hword]
    change b.sub32 _ _ = _
    rw [Build.sub32_eq (by rw [UInt32.le_iff_toNat_le, hmul]; exact hfit), mark]
  have hextent : Vec3.ofAxisM (fun a => t.fromEnd b a 2) = .ok t.ownedBox.extent := by
    apply Vec3.ofAxisM_eq
    intro a
    rw [ownedBox, Vec3.get_ofAxis]
    exact hend a
  rw [owned, hextent]
  rfl

/-- The owned cells are known and lie inside the grid exactly if both ghost layers fit. -/
theorem owned_inside_iff :
    (∃ owned, t.owned b = .ok owned ∧ owned.fitsIn t.grid = true) ↔ t.GhostsFit := by
  constructor
  · rintro ⟨owned, howned, hinside⟩
    rw [eq_ownedBox_of_owned howned, Box.fitsIn_iff] at hinside
    exact ownedBox_within_iff.1 hinside
  · intro h
    exact ⟨_, h.owned_eq, Box.fitsIn_iff.2 (ownedBox_within_iff.2 h)⟩

end Topology

/-! ## Construction -/

section

variable [Storage S A]

variable [Arith A]

/-- What construction promises: an error, or a domain whose arrays have an entry for each cell of
the grid and whose owned cells lie inside the grid, so that all of them are staged, as long as
memory holds their totals. -/
inductive Domain.Promise (m : Mode) (t : Topology) : Fallible (Domain S) → Prop
  | refused (e : Error) : Promise m t (.error (.error e))
  | built {d : Domain S} (hmotion : d.cells.motion.size = t.extent.volume)
    (hheat : d.cells.heat.size = t.extent.volume) {owned : Box}
    (howned : t.owned m.build = .ok owned) (hinside : owned.fitsIn t.grid = true)
    (hstage : owned.shape.volume * Cells.stagedBytes ≤ maxArrayBytes →
      ∃ items : List (Totals A), (d.stage m).result = .ok items ∧
        items.length = owned.shape.volume) : Promise m t (.ok d)

theorem Domain.exists_stage_fresh (m : Mode) {t : Topology} {s : Settings}
    (hs : s.validate = .ok ()) (hvolume : t.extent.volume < wordSize) (hghosts : t.GhostsFit)
    (hspace : t.ownedBox.shape.volume * Cells.stagedBytes ≤ maxArrayBytes) :
    ∃ items : List (Totals A),
      ((fresh t s t.extent.volume : Domain S).stage m).result = .ok items ∧
        items.length = t.ownedBox.shape.volume := by
  have hstage := Cells.result_stage (S := S) (A := A) m s.executor
    (Settings.block_ne_zero hs .stage) (g := t.grid) hvolume
    (Topology.ownedBox_within_iff.2 hghosts) hspace (fun _ => .zero) fun _ => .zero
  refine ⟨_, Eq.trans ?_ hstage, by rw [List.length_map, List.length_range]⟩
  rw [stage, fresh, Outcome.result_bind, hghosts.owned_eq, Outcome.result_lift_ok, ok_bind,
    Cells.empty_eq_table]
  rfl

theorem Domain.promise_fresh_iff (m : Mode) (t : Topology) {s : Settings}
    (hs : s.validate = .ok ()) {n : Nat} (hn : n < wordSize) :
    Promise m t (.ok (fresh t s n : Domain S)) ↔ n = t.extent.volume ∧ t.GhostsFit := by
  constructor
  · rintro (_ | ⟨hmotion, _, howned, hinside⟩)
    rw [← hmotion]
    exact ⟨Array.size_replicate.symm, Topology.owned_inside_iff.1 ⟨_, howned, hinside⟩⟩
  · rintro ⟨rfl, hghosts⟩
    have hinside := Box.fitsIn_iff.2 (Topology.ownedBox_within_iff.2 hghosts)
    exact .built Array.size_replicate Array.size_replicate hghosts.owned_eq hinside
      (exists_stage_fresh m hs hn hghosts)

theorem Domain.promise_make_of_lt (m : Mode) {t : Topology} {s : Settings}
    (hs : s.validate = .ok ()) (hvolume : t.extent.volume < wordSize) :
    Promise m t (make m t s : Outcome (Domain S)).result ↔
      (Cells.Fit S t.extent.volume → t.GhostsFit) := by
  rw [result_make m t hs, Build.word_eq hvolume]
  change Promise m t (if Cells.Fit S t.extent.volume then _ else _) ↔ _
  by_cases hfit : Cells.Fit S t.extent.volume
  · rw [if_pos hfit, promise_fresh_iff m t hs hvolume]
    constructor
    · rintro ⟨_, hghosts⟩ _
      exact hghosts
    · intro hghosts
      exact ⟨rfl, hghosts hfit⟩
  · rw [if_neg hfit]
    constructor
    · intro _ h
      exact absurd h hfit
    · intro _
      exact .refused _

/-- The wrapped number of cells is never the number of cells. -/
theorem Domain.promise_make_of_le (m : Mode) {t : Topology} {s : Settings}
    (hs : s.validate = .ok ()) (hvolume : wordSize ≤ t.extent.volume) :
    Promise m t (make m t s : Outcome (Domain S)).result ↔
      m.build = .release ∧ ¬ Cells.Fit S (t.extent.volume % wordSize) := by
  have hmod : t.extent.volume % wordSize < wordSize := Nat.mod_lt _ (by decide)
  rw [result_make m t hs, Build.word_of_le hvolume]
  cases m.build with
  | debug =>
      constructor
      · rintro ⟨⟩
      · rintro ⟨⟨⟩, _⟩
  | release =>
      change Promise m t (if Cells.Fit S (t.extent.volume % wordSize) then _ else _) ↔ _
      by_cases hfit : Cells.Fit S (t.extent.volume % wordSize)
      · rw [if_pos hfit, promise_fresh_iff m t hs hmod]
        constructor
        · rintro ⟨heq, _⟩
          omega
        · rintro ⟨_, hnot⟩
          exact absurd hfit hnot
      · rw [if_neg hfit]
        constructor
        · intro _
          exact ⟨rfl, hfit⟩
        · intro _
          exact .refused _

/-- Construction keeps its promise exactly if the cells of the topology can be counted in a word and
its ghost layers fit, or if memory cannot hold the arrays that it asks for. The checked build breaks
the promise on every grid with more cells than a word can count, and the other one on those of them
whose wrapped number of cells can be allocated. -/
theorem make_keeps_promise_iff (m : Mode) (t : Topology) {s : Settings}
    (hs : s.validate = .ok ()) :
    Domain.Promise m t (Domain.make m t s : Outcome (Domain S)).result ↔
      (t.extent.volume < wordSize ∧ (Cells.Fit S t.extent.volume → t.GhostsFit)) ∨
      (wordSize ≤ t.extent.volume ∧ m.build = .release ∧
        ¬ Cells.Fit S (t.extent.volume % wordSize)) := by
  rcases Nat.lt_or_ge t.extent.volume wordSize with hvolume | hvolume
  · rw [Domain.promise_make_of_lt m hs hvolume]
    constructor
    · intro h
      exact .inl ⟨hvolume, h⟩
    · rintro (⟨_, h⟩ | ⟨hle, _⟩)
      · exact h
      · omega
  · rw [Domain.promise_make_of_le m hs hvolume]
    constructor
    · intro h
      exact .inr ⟨hvolume, h⟩
    · rintro (⟨hlt, _⟩ | ⟨_, h⟩)
      · omega
      · exact h

theorem make_keeps_promise_iff_four :
    Settings.standard.validate = .ok () ∧
      Domain.Promise ⟨.debug, .off⟩ .four
        (Domain.make ⟨.debug, .off⟩ .four .standard : Outcome (Domain Binary64)).result :=
  ⟨rfl, (make_keeps_promise_iff _ _ rfl).2
    (.inl ⟨by decide, fun _ => Topology.fits_four.holds.ghostsFit⟩)⟩

theorem construction_breaks_promise :
    (∃ t, Topology.undivided (.fill 4294967295) = .ok t ∧
      ¬ Domain.Promise ⟨.debug, .off⟩ t
        (Domain.make ⟨.debug, .off⟩ t .standard : Outcome (Domain Binary64)).result) ∧
    (∃ t, Topology.undivided ⟨4194304, 2097152, 2097152⟩ = .ok t ∧
      ¬ Domain.Promise ⟨.release, .off⟩ t
        (Domain.make ⟨.release, .off⟩ t .standard : Outcome (Domain Binary64)).result) ∧
    ∃ t, (Document.Schema.topology.parse
        "\x7b\"dims\":[1,1,1],\"ghost\":[1,0,0]\x7d").toOption = some t ∧
      ∀ b, ¬ Domain.Promise ⟨b, .off⟩ t
        (Domain.make ⟨b, .off⟩ t .standard : Outcome (Domain Binary64)).result := by
  refine ⟨⟨⟨.fill 4294967295, .fill 0⟩, rfl, fun h => ?_⟩,
    ⟨⟨⟨4194304, 2097152, 2097152⟩, .fill 0⟩, rfl, fun h => ?_⟩,
    ⟨⟨⟨1, 1, 1⟩, ⟨1, 0, 0⟩⟩, by decide +kernel, fun b h => ?_⟩⟩
  · cases ((Domain.promise_make_of_le _ rfl (by decide)).1 h).1
  · exact ((Domain.promise_make_of_le _ rfl (by decide)).1 h).2 (by decide)
  · exact absurd ((Domain.promise_make_of_lt _ rfl (by decide)).1 h (by decide)) (by decide)

end

end KineticGrid
