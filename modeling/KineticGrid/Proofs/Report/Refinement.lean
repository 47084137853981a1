import KineticGrid.Proofs.Report.Success
import KineticGrid.Sweep.Executor
/-!
# Computations of the two builds

The checked build stops where the other one goes on with a wrapped result, or with an invariant that
it did not look at. A computation refines another one if, unless it stops, the other one does the
same. Main statements: refinement is kept by composition, and arithmetic on words refines wrapping
arithmetic.
-/

namespace KineticGrid

variable {ε α β : Type}

/-- A failure that ends a run on the spot: a fault, or a fault of a worker. -/
def Failure.Stops : Failure → Prop
  | .fault _ => True
  | .error (.launch _ _) => True
  | .error _ => False

/-- A computation has a value, or an error that does not stop it. -/
def CompletesUnless (stops : ε → Prop) (x : Except ε α) : Prop := ∀ e, x = .error e → ¬ stops e

/-- Unless the first computation stops, the second one has the same value or the same error. -/
def RefinesUnless (stops : ε → Prop) (x y : Except ε α) : Prop := CompletesUnless stops x → y = x

abbrev Checked.Refines (x y : Checked α) : Prop := RefinesUnless (fun _ => True) x y

abbrev Fallible.Completes (x : Fallible α) : Prop := CompletesUnless Failure.Stops x

abbrev Fallible.Refines (x y : Fallible α) : Prop := RefinesUnless Failure.Stops x y

/-- Unless the first outcome stops, the second one has the same result and the same log. -/
def Outcome.Refines (x y : Outcome α) : Prop := Fallible.Completes x.result → y = x

/-! ## Computations -/

section

variable {stops : ε → Prop}

theorem completesUnless_ok (a : α) : CompletesUnless stops (.ok a : Except ε α) := by
  intro e h
  cases h

theorem completesUnless_error_iff {e : ε} :
    CompletesUnless stops (.error e : Except ε α) ↔ ¬ stops e := by
  constructor
  · intro h
    exact h e rfl
  · rintro h _ ⟨⟩
    exact h

namespace RefinesUnless

variable {x y x' y' : Except ε α}

theorem refl (x : Except ε α) : RefinesUnless stops x x := fun _ => rfl

theorem error {e : ε} (h : stops e) (y : Except ε α) : RefinesUnless stops (.error e) y :=
  fun hx => absurd h (completesUnless_error_iff.1 hx)

theorem bind {f g : α → Except ε β} (h : RefinesUnless stops x y)
    (hf : ∀ a, RefinesUnless stops (f a) (g a)) : RefinesUnless stops (x >>= f) (y >>= g) := by
  intro hx
  cases x with
  | ok a =>
      rw [h (completesUnless_ok a)]
      exact hf a hx
  | error e =>
      rw [h (completesUnless_error_iff.2 (completesUnless_error_iff.1 hx))]
      rfl

theorem map (f : α → β) (h : RefinesUnless stops x y) :
    RefinesUnless stops (f <$> x) (f <$> y) := by
  simp only [map_eq_pure_bind]
  exact h.bind fun a => refl _

theorem ite {c : Prop} [Decidable c] (h : c → RefinesUnless stops x y)
    (h' : ¬ c → RefinesUnless stops x' y') :
    RefinesUnless stops (if c then x else x') (if c then y else y') := by
  split
  case isTrue hc => exact h hc
  case isFalse hc => exact h' hc

theorem mapM {f g : α → Except ε β} (h : ∀ a, RefinesUnless stops (f a) (g a))
    (items : List α) : RefinesUnless stops (items.mapM f) (items.mapM g) := by
  induction items with
  | nil => exact refl _
  | cons a items ih =>
      simp only [List.mapM_cons]
      exact (h a).bind fun b => ih.bind fun rest => refl _

theorem foldlM {f g : β → α → Except ε β} (h : ∀ b a, RefinesUnless stops (f b a) (g b a)) (b : β)
    (items : List α) : RefinesUnless stops (items.foldlM f b) (items.foldlM g b) := by
  induction items generalizing b with
  | nil => exact refl _
  | cons a items ih =>
      simp only [List.foldlM_cons]
      exact (h b a).bind fun b => ih b

theorem forM {f g : α → Except ε Unit} (h : ∀ a, RefinesUnless stops (f a) (g a))
    (items : List α) : RefinesUnless stops (items.forM f) (items.forM g) := by
  induction items with
  | nil => exact refl _
  | cons a items ih => exact (h a).bind fun _ => ih

theorem ofAxisM {f g : Axis → Except ε α} (h : ∀ a, RefinesUnless stops (f a) (g a)) :
    RefinesUnless stops (Vec3.ofAxisM f) (Vec3.ofAxisM g) := by
  unfold Vec3.ofAxisM
  exact (h .x).bind fun x => (h .y).bind fun y => (h .z).bind fun z => refl _

end RefinesUnless

end

/-- A fault stops the computation that it becomes a failure of. -/
theorem Fallible.Refines.lift {x y : Checked α} (h : Checked.Refines x y) :
    Fallible.Refines (liftM x) (liftM y) := by
  intro hx
  cases x with
  | ok a => rw [h (completesUnless_ok a)]
  | error e => exact absurd trivial (hx _ rfl)

/-! ## Words -/

namespace Build

/-- A result inside its word is the same in both builds; one outside of it is a fault of the checked
build. -/
private theorem refines_ite {c : Prop} [Decidable c] (a wrapped : α) :
    Checked.Refines (if c then .ok a else debug.overflow wrapped)
      (if c then .ok a else release.overflow wrapped) :=
  .ite (fun _ => .refl _) fun _ => .error trivial _

theorem word_refines (n : Nat) : Checked.Refines (debug.word n) (release.word n) :=
  refines_ite _ _

theorem add32_refines (x y : UInt32) : Checked.Refines (debug.add32 x y) (release.add32 x y) :=
  refines_ite _ _

theorem sub32_refines (x y : UInt32) : Checked.Refines (debug.sub32 x y) (release.sub32 x y) :=
  refines_ite _ _

theorem mul32_refines (x y : UInt32) : Checked.Refines (debug.mul32 x y) (release.mul32 x y) :=
  refines_ite _ _

theorem add64_refines (x y : UInt64) : Checked.Refines (debug.add64 x y) (release.add64 x y) :=
  refines_ite _ _

end Build

/-! ## Outcomes -/

namespace Outcome.Refines

variable {x y x' y' : Outcome α}

theorem refl (x : Outcome α) : Refines x x := fun _ => rfl

theorem lift {x y : Fallible α} (h : Fallible.Refines x y) :
    Refines (liftM x : Outcome α) (liftM y) := by
  intro hx
  have hy : y = x := h hx
  rw [hy]

theorem liftChecked {x y : Checked α} (h : Checked.Refines x y) :
    Refines (liftM x : Outcome α) (liftM y) :=
  lift (.lift h)

theorem bind {f g : α → Outcome β} (h : Refines x y) (hf : ∀ a, Refines (f a) (g a)) :
    Refines (x >>= f) (y >>= g) := by
  intro hx
  obtain ⟨log, result⟩ := x
  cases result with
  | ok a =>
      rw [Outcome.result_bind] at hx
      have hg : g a = f a := hf a hx
      rw [h (completesUnless_ok a)]
      change (⟨log ++ (g a).log, (g a).result⟩ : Outcome β) = ⟨log ++ (f a).log, (f a).result⟩
      rw [hg]
  | error e =>
      rw [h (completesUnless_error_iff.2 (completesUnless_error_iff.1 hx))]
      rfl

theorem ite {c : Prop} [Decidable c] (h : c → Refines x y) (h' : ¬ c → Refines x' y') :
    Refines (if c then x else x') (if c then y else y') := by
  split
  case isTrue hc => exact h hc
  case isFalse hc => exact h' hc

/-- A fault of a worker is an error of its pass, and so it stops the run as well. -/
theorem run {x y : Checked α} (level : Level) (pass : Pass) (h : Checked.Refines x y) :
    Refines (Executor.run ⟨.debug, level⟩ pass x) (Executor.run ⟨.release, level⟩ pass y) := by
  intro hx
  cases x with
  | ok a =>
      rw [h (completesUnless_ok a)]
      rfl
  | error e => exact absurd trivial (hx _ (Executor.result_run _ pass (.error e)))

end Outcome.Refines

end KineticGrid
