import KineticGrid.Proofs.Domain.Agreement
import KineticGrid.Proofs.Domain.Construction
import KineticGrid.Proofs.Ghost.Sizes
/-!
# Histories of a domain

What a domain may have been through before it computes: calls that succeeded or failed, exchanges
that were answered anything, other executors, and cells that were overwritten from outside. Main
statements: no history changes the sizes of the arrays, so computing over bins for all cells always
succeeds, and what it leaves in the cells does not depend on the history.
-/

namespace KineticGrid

variable {W S A : Type}

/-! ## Owned cells -/

theorem Topology.Holds.validCells_stagedCells [Arith A] [Storage S A] {t : Topology} (ht : t.Holds)
    (motion : Vec3 Nat → Motion S) (heat : Vec3 Nat → Heat S) :
    validCells (stagedCells A t motion heat) =
      (t.ownedSlots.filter fun s => 2 ≤ (heat (t.extent.cell s)).count.toNat).card := by
  rw [KineticGrid.validCells_stagedCells, Finset.card_filter,
    ht.sum_ownedBox fun c => measured (heat c).count.toNat]
  rfl

namespace Domain

section

variable [Arith A] [Storage S A] [Encoding W S]

/-! ## Calls -/

/-- The calls that change the cells of a domain. -/
inductive Call (S : Type) where
  | accumulate (p : Particles S) (bins : Bins)
  | average
  | compute (p : Particles S) (bins : Bins)
  | exchangeAll (flow : Flow) (neighbours : Vec3 Neighbours) (tag : Tag)
  | computeDistributed (p : Particles S) (bins : Bins) (neighbours : Vec3 Neighbours) (tag : Tag)

def Call.step (m : Mode) : Call S → Step W (Domain S)
  | accumulate p bins => .ofOutcome (Domain.accumulate m p bins)
  | average => .ofOutcome (Domain.average m)
  | compute p bins => Domain.compute m p bins
  | exchangeAll flow neighbours tag => Domain.exchangeAll m flow neighbours tag
  | computeDistributed p bins neighbours tag => Domain.computeDistributed m p bins neighbours tag

/-- A domain that was made on a topology, and what may have become of it since. The channel may have
answered anything, and a call may have failed half-way. -/
inductive History (W : Type) [Encoding W S] (t : Topology) : Domain S → Prop
  | made {m : Mode} {s : Settings} {d : Domain S} (h : (make m t s).result = .ok d) : History W t d
  | withExecutor {d : Domain S} (h : History W t d) (e : Executor) : History W t (d.withExecutor e)
  | overwritten {d : Domain S} (h : History W t d) (cells : Cells S)
    (hmotion : cells.motion.size = d.cells.motion.size)
    (hheat : cells.heat.size = d.cells.heat.size) : History W t { d with cells := cells }
  | called {d d' : Domain S} (h : History W t d) (m : Mode) (call : Call S)
    {turns : List (Turn W)} {x : Outcome Unit}
    (htalks : (call.step m d).Talks turns (d', x)) : History W t d'

end

/-! ## One call -/

section

variable [Storage S A] {m : Mode} {t : Topology}

theorem keeps_exchangeAll [Encoding W S] (m' : Mode) (flow : Flow) (neighbours : Vec3 Neighbours)
    (tag : Tag) : (exchangeAll m' flow neighbours tag : Step W (Domain S)).Keeps (Built m t) := by
  apply Step.Keeps.sequence
  intro p hp
  obtain ⟨a, _, hp⟩ := List.mem_flatMap.1 hp
  simp only [List.mem_cons, List.not_mem_nil, or_false] at hp
  rcases hp with rfl | rfl
  · apply Step.keeps_ofTask
    intro d hd
    refine Task.Yields.bind (Q := fun motion => motion.size = d.cells.motion.size)
      (exchangeAxis_yields_size flow d.topology a) fun motion hmotion => ?_
    exact Task.yields_pure (hd.overwritten hmotion rfl)
  · apply Step.keeps_ofTask
    intro d hd
    refine Task.Yields.bind (Q := fun heat => heat.size = d.cells.heat.size)
      (exchangeAxis_yields_size flow d.topology a) fun heat hheat => ?_
    exact Task.yields_pure (hd.overwritten rfl hheat)

variable [Arith A]

theorem keeps_accumulate (m' : Mode) (p : Particles S) (bins : Bins) :
    (.ofOutcome (accumulate m' p bins) : Step W (Domain S)).Keeps (Built m t) := by
  apply Step.keeps_ofOutcome
  intro d hd d' h
  rw [accumulate, Outcome.result_bind] at h
  obtain ⟨cells, hcells, h⟩ := exists_of_bind_eq_ok h
  cases h
  obtain ⟨hmotion, hheat⟩ := Cells.size_accumulate hcells
  exact hd.overwritten hmotion hheat

theorem keeps_average (m' : Mode) :
    (.ofOutcome (average m') : Step W (Domain S)).Keeps (Built m t) := by
  apply Step.keeps_ofOutcome
  intro d hd d' h
  rw [average, Outcome.result_bind] at h
  obtain ⟨cells, hcells, h⟩ := exists_of_bind_eq_ok h
  cases h
  obtain ⟨hmotion, hheat⟩ := Cells.size_average hcells
  exact hd.overwritten hmotion hheat

variable [Encoding W S]

/-- Whatever a call is answered and however it ends, the domain is one for its topology before and
after. -/
theorem Call.keeps_built (m' : Mode) (call : Call S) :
    (call.step m' : Step W (Domain S)).Keeps (Built m t) := by
  cases call with
  | accumulate p bins => exact keeps_accumulate m' p bins
  | average => exact keeps_average m'
  | compute p bins =>
      exact (keeps_accumulate m' p bins).andThen ((keeps_average m').andThen Step.keeps_skip)
  | exchangeAll flow neighbours tag => exact keeps_exchangeAll m' flow neighbours tag
  | computeDistributed p bins neighbours tag =>
      exact (keeps_accumulate m' p bins).andThen <|
        (keeps_exchangeAll m' .fold neighbours tag).andThen <| (keeps_average m').andThen <|
          (keeps_exchangeAll m' .refresh neighbours _).andThen Step.keeps_skip

/-! ## All calls -/

/-- No history changes the topology or the sizes of the arrays. -/
theorem History.built (ht : t.Sized) {d : Domain S} (h : History W t d) : d.Built m t := by
  induction h with
  | made h => exact Built.of_make ht h
  | withExecutor _ e ih => exact ⟨ih.topology, ih.made⟩
  | overwritten _ cells hmotion hheat ih => exact ih.overwritten hmotion hheat
  | called _ m' call htalks ih => exact call.keeps_built m' _ ih _ _ _ htalks

end

end Domain

/-! ## Computing after any history -/

section

variable [Storage S Binary64] [Letter W] [LawfulLetter W] [Encoding W S] {t : Topology}

/-- Computing without exchange never fails and has no memory. Whatever a domain has been through,
its cells afterwards are the same in every build and under every executor and group size: they
depend only on the particles, their lists and the dimension. Staging then lists the totals of the
owned cells, and the totals and the summary count those of them whose number of particles, as a
32-bit word, is at least two, as long as memory can hold the list. -/
theorem compute_forgets_history (ht : t.Sized) {b : Build} {p : Particles S}
    {lists : List (List UInt32)} {bins : Bins} (hbins : Bins.ofLists b p lists = .ok bins)
    (hlists : lists.length = t.extent.volume) (dimension : Dimension) :
    ∃ (motion : Vec3 Nat → Motion S) (heat : Vec3 Nat → Heat S), ∀ d : Domain S,
      d.History W t → d.settings.dimension = dimension → ∀ m : Mode,
      (Domain.compute m p bins : Step W (Domain S)).Does 0 d [] (d.holding motion heat) ∧
      (t.ownedSlots.card * Cells.stagedBytes ≤ maxArrayBytes →
        ∃ (items : List (Totals Binary64)) (total : Totals Binary64) (s : Summary Binary64),
          ((d.holding motion heat).stage m).result = .ok items ∧
          items.length = t.ownedSlots.card ∧
          ((d.holding motion heat).totals W m).result = .ok total ∧
          ((d.holding motion heat).summary W m).result = .ok s ∧
          s.validCells.toNat = (t.ownedSlots.filter fun c =>
            2 ≤ (lists.getD c []).length % word32Size).card) := by
  have hbuilt : bins.BuiltOn t p := by
    refine ⟨.inl ⟨b, lists, hbins⟩, ?_⟩
    rw [Bins.size_ofLists hbins, hlists]
  let cell (c : Vec3 Nat) := averages dimension p bins (t.extent.slot c)
  refine ⟨fun c => (cell c).1, fun c => (cell c).2, fun d hd hdimension m => ?_⟩
  have hd : d.Built m t := hd.built ht
  subst hdimension
  refine ⟨hd.does_compute W ht hbuilt, fun hspace => ?_⟩
  rw [ht.holds.card_ownedSlots] at hspace ⊢
  obtain ⟨total, htotal, hvalid⟩ := hd.exists_totals (W := W) ht hspace (Nat.le_refl 48)
    (fun c => (cell c).1) fun c => (cell c).2
  refine ⟨_, total, total.summary, hd.result_stage ht hspace _ _, ?_, htotal, ?_, ?_⟩
  · rw [stagedCells, List.length_map, List.length_range]
  · rw [Domain.summary, Outcome.result_bind, htotal]
    rfl
  · change total.valid.toNat = _
    rw [hvalid, ht.holds.validCells_stagedCells]
    congr 1
    apply Finset.filter_congr
    intro c _
    change 2 ≤ (UInt32.ofNat (bins.load (t.extent.slot (t.extent.cell c)))).toNat ↔ _
    rw [Extent.slot_cell, Bins.load_ofLists hbins, UInt32.toNat_ofNat']

theorem compute_forgets_history_four :
    let p : Particles Binary64 := .native #[.fill 0, .fill 0] 0
    let bins : Bins := .ofCells p [[], [.native 0, .native 1], [.native 1], [.native 0, .native 1]]
    ∃ (d d' : Domain Binary64) (motion : Vec3 Nat → Motion Binary64)
      (heat : Vec3 Nat → Heat Binary64) (s : Summary Binary64),
      d.History UInt8 .four ∧ d'.History UInt8 .four ∧ d.cells ≠ d'.cells ∧
      (Domain.compute ⟨.debug, .off⟩ p bins : Step UInt8 (Domain Binary64)).Does 0 d []
        (d.holding motion heat) ∧
      (Domain.compute ⟨.release, .trace⟩ p bins : Step UInt8 (Domain Binary64)).Does 0 d' []
        (d'.holding motion heat) ∧
      ((d'.holding motion heat).summary UInt8 ⟨.release, .trace⟩).result = .ok s ∧
      s.validCells.toNat = 1 := by
  intro p bins
  have hbins : Bins.ofLists .debug p [[], [0, 1], [1], [0, 1]] = .ok bins := rfl
  have hd : (Domain.fresh .four .standard 4 : Domain Binary64).History UInt8 .four :=
    .made (m := ⟨.debug, .off⟩) (s := .standard) rfl
  have hwritten := (hd.overwritten (Domain.numbered .four 7 : Domain Binary64).cells rfl
    rfl).withExecutor (.ofThreads 3)
  have hd' := hwritten.called ⟨.release, .off⟩ .average (.done _)
  obtain ⟨motion, heat, h⟩ :=
    compute_forgets_history (W := UInt8) Topology.fits_four.toSized hbins rfl .three
  obtain ⟨hcompute, _⟩ := h _ hd rfl ⟨.debug, .off⟩
  obtain ⟨hcompute', hstage⟩ := h _ hd' rfl ⟨.release, .trace⟩
  obtain ⟨items, total, s, _, _, _, hs, hvalid⟩ := hstage (by decide)
  exact ⟨_, _, motion, heat, s, hd, hd', by decide +kernel, hcompute, hcompute', hs,
    hvalid.trans (by decide)⟩

end

end KineticGrid
