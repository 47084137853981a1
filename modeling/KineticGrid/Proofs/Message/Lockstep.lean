import KineticGrid.Proofs.Message.Phase
/-!
# Lockstep

Tasks and steps that follow a script and succeed, and ranks that go through the same phases at
their own pace. Main statements: what ranks do in lockstep can be put together from what their
steps do, and every run of such ranks ends with the states that the steps lead to.
-/

namespace KineticGrid

variable {W α β σ : Type}

/-! ## Tasks -/

/-- A task does what a script lists and succeeds with a value. -/
def Task.Gives (t : Task W α) (i : Nat) (script : List (Event W)) (a : α) : Prop :=
  ∃ log, Program.Follows i t script (⟨log, .ok a⟩ : Outcome α)

namespace Task

variable {i : Nat} {script script' : List (Event W)} {a : α} {b : β} {f : α → Task W β}

theorem gives_pure (i : Nat) (a : α) : (Pure.pure a : Task W α).Gives i [] a := ⟨[], .done _⟩

theorem gives_outcome {x : Outcome α} (i : Nat) (h : x.result = .ok a) :
    (liftM x : Task W α).Gives i [] a := by
  obtain ⟨log, result⟩ := x
  obtain rfl : result = .ok a := h
  exact ⟨log, .done _⟩

theorem gives_post (i peer : Nat) (tag : Tag) (length : Nat) :
    (Task.post peer tag length : Task W (Receive W)).Gives i [.posted peer tag length]
      (.pending ⟨peer, i, tag⟩) :=
  ⟨[], .post (.done _)⟩

theorem gives_send (i peer : Nat) (tag : Tag) (message : List W) :
    (Task.send peer tag message).Gives i [.sent peer tag message] () :=
  ⟨[], .send (.done _)⟩

theorem gives_take (i peer : Nat) (tag : Tag) (message : List W) (missing : Error) :
    (Task.take (.pending ⟨peer, i, tag⟩) missing).Gives i [.took peer tag message] message :=
  ⟨[], .take (.done _)⟩

namespace Gives

theorem bind {t : Task W α} (ht : t.Gives i script a) (hf : (f a).Gives i script' b) :
    (t >>= f).Gives i (script ++ script') b := by
  obtain ⟨log, ht⟩ := ht
  obtain ⟨log', hf⟩ := hf
  exact ⟨log ++ log', Program.Follows.bind ht (Program.Follows.map _ hf)⟩

theorem outcome_bind {x : Outcome α} (h : x.result = .ok a) (hf : (f a).Gives i script b) :
    ((liftM x : Task W α) >>= f).Gives i script b :=
  bind (gives_outcome i h) hf

theorem fallible_bind {x : Fallible α} (h : x = .ok a) (hf : (f a).Gives i script b) :
    ((liftM x : Task W α) >>= f).Gives i script b :=
  outcome_bind (x := liftM x) h hf

theorem checked_bind {x : Checked α} (h : x = .ok a) (hf : (f a).Gives i script b) :
    ((liftM x : Task W α) >>= f).Gives i script b :=
  fallible_bind (x := liftM x) (by rw [h]; rfl) hf

end Gives

end Task

/-! ## Steps -/

/-- A step does what a script lists and succeeds in changing a state to another. -/
def Step.Does (p : Step W σ) (i : Nat) (s : σ) (script : List (Event W)) (s' : σ) : Prop :=
  ∃ log, (p s).Follows i script (s', (⟨log, .ok ()⟩ : Outcome Unit))

namespace Step

variable {i : Nat} {script script' : List (Event W)} {s s' s'' : σ}

theorem does_skip (i : Nat) (s : σ) : (skip : Step W σ).Does i s [] s := ⟨[], .done _⟩

theorem Does.andThen {p q : Step W σ} (hp : p.Does i s script s') (hq : q.Does i s' script' s'') :
    (p.andThen q).Does i s (script ++ script') s'' := by
  obtain ⟨log, hp⟩ := hp
  obtain ⟨log', hq⟩ := hq
  exact ⟨log ++ log', hp.bind (hq.map _)⟩

theorem does_ofTask {f : σ → Task W σ} (h : (f s).Gives i script s') :
    (ofTask f).Does i s script s' := by
  obtain ⟨log, h⟩ := h
  exact ⟨log, h.map _⟩

theorem does_ofOutcome {f : σ → Outcome σ} (i : Nat) (h : (f s).result = .ok s') :
    (ofOutcome f : Step W σ).Does i s [] s' :=
  does_ofTask (Task.gives_outcome i h)

def follow (p : Step W σ) (f : σ → Task W β) : σ → Program W (σ × Outcome β) := fun s =>
  (p s).bind fun (s, x) =>
    match x.result with
    | .ok () => Program.map (fun (y : Outcome β) => (s, ⟨x.log ++ y.log, y.result⟩)) (f s)
    | .error e => .done (s, ⟨x.log, .error e⟩)

theorem Does.follow {p : Step W σ} {f : σ → Task W β} {b : β} (hp : p.Does i s script s')
    (hf : (f s').Gives i script' b) :
    ∃ log, (p.follow f s).Follows i (script ++ script') (s', (⟨log, .ok b⟩ : Outcome β)) := by
  obtain ⟨log, hp⟩ := hp
  obtain ⟨log', hf⟩ := hf
  exact ⟨log ++ log', hp.bind (hf.map _)⟩

end Step

/-! ## Ranks -/

/-- Ranks that go through the same phases, each of them from one state to another. -/
def Lockstep (n : Nat) (steps : Nat → Step W σ) (phases : List (Phase W)) (s s' : Nat → σ) : Prop :=
  ∀ i < n, (steps i).Does i (s i) (phaseScripts phases i) (s' i)

namespace Lockstep

variable {n : Nat} {steps : Nat → Step W σ} {phases phases' : List (Phase W)}
  {s s' s'' : Nat → σ}

theorem skip (n : Nat) (s : Nat → σ) : Lockstep n (fun _ => (.skip : Step W σ)) [] s s :=
  fun i _ => Step.does_skip i (s i)

theorem andThen {p q : Nat → Step W σ} (hp : Lockstep n p phases s s')
    (hq : Lockstep n q phases' s' s'') :
    Lockstep n (fun i => (p i).andThen (q i)) (phases ++ phases') s s'' := by
  intro i hi
  rw [phaseScripts, List.flatMap_append]
  exact (hp i hi).andThen (hq i hi)

theorem sequence_cons {p : Nat → Step W σ} {rest : Nat → List (Step W σ)}
    (hp : Lockstep n p phases s s')
    (hrest : Lockstep n (fun i => .sequence (rest i)) phases' s' s'') :
    Lockstep n (fun i => .sequence (p i :: rest i)) (phases ++ phases') s s'' :=
  hp.andThen hrest

theorem ofOutcome {f : Nat → σ → Outcome σ} (h : ∀ i < n, (f i (s i)).result = .ok (s' i)) :
    Lockstep n (fun i => (.ofOutcome (f i) : Step W σ)) [] s s' :=
  fun i hi => Step.does_ofOutcome i (h i hi)

theorem exists_follows (h : Lockstep n steps phases s s') :
    ∃ logs : Nat → List Record, ∀ i < n, (steps i (s i)).Follows i (phaseScripts phases i)
      (s' i, (⟨logs i, .ok ()⟩ : Outcome Unit)) := by
  unfold Lockstep Step.Does at h
  choose! logs hlogs using h
  exact ⟨logs, hlogs⟩

theorem ends (h : Lockstep n steps phases s s') (hvalid : ∀ p ∈ phases, p.Valid n)
    (hspaced : Spaced phases) :
    (World.launch n fun i => steps i (s i)).Ends n fun i a =>
      a.1 = s' i ∧ a.2.result = .ok () := by
  obtain ⟨logs, hlogs⟩ := h.exists_follows
  refine (World.ends_of_follows (sound_phaseScripts hvalid hspaced) hlogs).mono ?_
  rintro i _ _ rfl
  exact ⟨rfl, rfl⟩

theorem ends_follow (h : Lockstep n steps phases s s') {tasks : Nat → σ → Task W β}
    (last : Phase W) {b : Nat → β}
    (hlast : ∀ i < n, (tasks i (s' i)).Gives i (last.script i) (b i))
    (hvalid : ∀ p ∈ phases ++ [last], p.Valid n) (hspaced : Spaced (phases ++ [last])) :
    (World.launch n fun i => (steps i).follow (tasks i) (s i)).Ends n fun i a =>
      a.1 = s' i ∧ a.2.result = .ok (b i) := by
  have hlog (i : Nat) (hi : i < n) : ∃ log, ((steps i).follow (tasks i) (s i)).Follows i
      (phaseScripts (phases ++ [last]) i) (s' i, (⟨log, .ok (b i)⟩ : Outcome β)) := by
    rw [phaseScripts, List.flatMap_append, List.flatMap_singleton]
    exact (h i hi).follow (hlast i hi)
  choose! logs hlogs using hlog
  refine (World.ends_of_follows (sound_phaseScripts hvalid hspaced) hlogs).mono ?_
  rintro i _ _ rfl
  exact ⟨rfl, rfl⟩

end Lockstep

end KineticGrid
