/-!
# Runs of a deterministic transition function

A system is a step function `σ → α → σ`; everything nondeterministic (a scheduler, a
reply of the environment) is part of the action. A run folds the step over a list of
actions. The rules below derive facts about whole runs, and about what a run shows to an
observer, from facts about one step.
-/

namespace Memlink.Transition

universe u v w x

variable {σ : Type u} {α : Type v}

/-- The state after a list of actions. -/
def run (step : σ → α → σ) (s : σ) (acts : List α) : σ := acts.foldl step s

/-- States that some run reaches. -/
def Reachable (step : σ → α → σ) (init s : σ) : Prop := ∃ acts, run step init acts = s

/-- Every step of a run meets a condition on the state before it and its action. -/
def StepsMeet (step : σ → α → σ) (ok : σ → α → Prop) : σ → List α → Prop
  | _, [] => True
  | s, a :: acts => ok s a ∧ StepsMeet step ok (step s a) acts

instance StepsMeet.decidable (step : σ → α → σ) (ok : σ → α → Prop)
    [∀ s a, Decidable (ok s a)] : ∀ s acts, Decidable (StepsMeet step ok s acts)
  | _, [] => .isTrue trivial
  | s, a :: acts =>
    @instDecidableAnd (ok s a) _ inferInstance (StepsMeet.decidable step ok (step s a) acts)

/-- A run of no actions stays where it is. -/
@[simp] theorem run_nil (step : σ → α → σ) (s : σ) : run step s [] = s := rfl

/-- A run takes its first action first. -/
@[simp] theorem run_cons (step : σ → α → σ) (s : σ) (a : α) (acts : List α) :
    run step s (a :: acts) = run step (step s a) acts := rfl

/-- Runs compose. -/
theorem run_append (step : σ → α → σ) (s : σ) (xs ys : List α) :
    run step s (xs ++ ys) = run step (run step s xs) ys :=
  List.foldl_append

/-- A run extended by one action ends with that action's step. -/
theorem run_concat (step : σ → α → σ) (s : σ) (acts : List α) (a : α) :
    run step s (acts ++ [a]) = step (run step s acts) a := by
  rw [run_append, run_cons, run_nil]

/-- The initial state is reached by the empty run. -/
theorem Reachable.init (step : σ → α → σ) (s : σ) : Reachable step s s := ⟨[], rfl⟩

/-- One more step stays reachable. -/
theorem Reachable.step {step : σ → α → σ} {init s : σ} (h : Reachable step init s) (a : α) :
    Reachable step init (step s a) := by
  obtain ⟨acts, rfl⟩ := h
  exact ⟨acts ++ [a], run_concat step init acts a⟩

/-- Invariant rule: what holds initially and is kept by every step holds in every
reachable state. -/
theorem Reachable.invariant {step : σ → α → σ} {init s : σ} {I : σ → Prop}
    (h : Reachable step init s) (hinit : I init)
    (hstep : ∀ s a, I s → I (step s a)) : I s := by
  obtain ⟨acts, rfl⟩ := h
  induction acts generalizing init with
  | nil => exact hinit
  | cons a acts ih => exact ih (hstep init a hinit)

/-- The conditions of a composed run are those of its two parts. -/
theorem stepsMeet_append (step : σ → α → σ) (ok : σ → α → Prop) (s : σ) (xs ys : List α) :
    StepsMeet step ok s (xs ++ ys) ↔
      StepsMeet step ok s xs ∧ StepsMeet step ok (run step s xs) ys := by
  induction xs generalizing s with
  | nil => simp [StepsMeet]
  | cons a xs ih => simp [StepsMeet, ih, and_assoc]

/-- The steps of a run meet a condition when it holds wherever the run can be cut. -/
theorem stepsMeet_iff_split (step : σ → α → σ) (ok : σ → α → Prop) (s : σ) (acts : List α) :
    StepsMeet step ok s acts ↔
      ∀ pre a post, acts = pre ++ a :: post → ok (run step s pre) a := by
  constructor
  · rintro h pre a post rfl
    exact ((stepsMeet_append step ok s pre (a :: post)).mp h).2.1
  · intro h
    induction acts generalizing s with
    | nil => trivial
    | cons a acts ih =>
      refine ⟨h [] a acts rfl, ih _ fun pre b post he ↦ ?_⟩
      exact h (a :: pre) b post (congrArg (a :: ·) he)

/-- A weaker condition is met where a stronger one is. -/
theorem StepsMeet.mono {step : σ → α → σ} {ok ok' : σ → α → Prop} {s : σ} {acts : List α}
    (h : StepsMeet step ok s acts) (himp : ∀ s a, ok s a → ok' s a) :
    StepsMeet step ok' s acts := by
  rw [stepsMeet_iff_split] at h ⊢
  intro pre a post he
  exact himp _ a (h pre a post he)

/-- A condition that every step meets is met along every run. -/
theorem stepsMeet_of_forall {step : σ → α → σ} {ok : σ → α → Prop} (h : ∀ s a, ok s a) (s : σ)
    (acts : List α) : StepsMeet step ok s acts := by
  induction acts generalizing s with
  | nil => trivial
  | cons a acts ih => exact ⟨h s a, ih (step s a)⟩

/-- Conditional invariant rule: what holds initially and is kept by every step that meets
the condition holds at the end of every run whose steps all meet it. -/
theorem StepsMeet.invariant {step : σ → α → σ} {ok : σ → α → Prop} {s : σ} {acts : List α}
    {I : σ → Prop} (h : StepsMeet step ok s acts) (hinit : I s)
    (hstep : ∀ s a, ok s a → I s → I (step s a)) : I (run step s acts) := by
  induction acts generalizing s with
  | nil => exact hinit
  | cons a acts ih => exact ih h.2 (hstep s a h.1 hinit)

/-- A property that each step keeps exactly when it meets the condition holds at the end of
exactly the runs whose steps all meet it; `I` is an invariant the steps may rely on. -/
theorem stepsMeet_iff {step : σ → α → σ} {ok : σ → α → Prop} {I P : σ → Prop}
    (hkeep : ∀ s a, I s → I (step s a)) (hstep : ∀ s a, I s → (P (step s a) ↔ P s ∧ ok s a))
    {s : σ} (hs : I s) (acts : List α) :
    P (run step s acts) ↔ P s ∧ StepsMeet step ok s acts := by
  induction acts generalizing s with
  | nil => simp [StepsMeet]
  | cons a acts ih => rw [run_cons, ih (hkeep s a hs), hstep s a hs, StepsMeet, and_assoc]

/-- A property that a step from a state with it keeps exactly when the step meets the condition
holds after every step of exactly the runs whose steps all meet it. -/
theorem stepsMeet_kept_iff {step : σ → α → σ} {ok : σ → α → Prop} {I P : σ → Prop}
    (hkeep : ∀ s a, I s → I (step s a))
    (hstep : ∀ s a, I s → P s → (P (step s a) ↔ ok s a)) {s : σ} (hs : I s) (hp : P s)
    (acts : List α) :
    StepsMeet step (fun s a ↦ P (step s a)) s acts ↔ StepsMeet step ok s acts := by
  induction acts generalizing s with
  | nil => exact Iff.rfl
  | cons a acts ih =>
    rw [StepsMeet, StepsMeet, hstep s a hs hp]
    refine and_congr_right fun hok ↦ ?_
    exact ih (hkeep s a hs) ((hstep s a hs hp).mpr hok)

/-- Simulation rule: if each step is, seen through `abs`, a run of another system, then so is every
run, and conditions on the steps carry over. `I` is an invariant the steps may rely on. -/
theorem run_simulates {τ : Type w} {β : Type x} {step : σ → α → σ} {ok : σ → α → Prop}
    {step' : τ → β → τ} {ok' : τ → β → Prop} {abs : σ → τ} {emits : σ → α → List β}
    {I : σ → Prop} {s : σ} (hs : I s) (acts : List α)
    (hkeep : ∀ s a, I s → I (step s a))
    (hsim : ∀ s a, I s → abs (step s a) = run step' (abs s) (emits s a))
    (hok : ∀ s a, I s → ok s a → StepsMeet step' ok' (abs s) (emits s a)) :
    ∃ moves, run step' (abs s) moves = abs (run step s acts) ∧
      (StepsMeet step ok s acts → StepsMeet step' ok' (abs s) moves) := by
  induction acts generalizing s with
  | nil => exact ⟨[], rfl, fun _ ↦ trivial⟩
  | cons a acts ih =>
    obtain ⟨moves, hrun, hmoves⟩ := ih (hkeep s a hs)
    rw [hsim s a hs] at hrun hmoves
    refine ⟨emits s a ++ moves, ?_, fun h ↦ ?_⟩
    · rw [run_append, hrun, run_cons]
    · exact (stepsMeet_append step' ok' _ _ _).mpr ⟨hok s a hs h.1, hmoves h.2⟩

/-! ### Histories -/

/-- What a run shows to an observer, newest first: each action adds what `obs` sees of it in
the state before it. -/
def history {ε : Type w} (obs : σ → α → List ε) (step : σ → α → σ) : σ → List α → List ε
  | _, [] => []
  | s, a :: acts => history obs step (step s a) acts ++ obs s a

section History

variable {ε : Type w} {obs : σ → α → List ε} {step : σ → α → σ}

/-- The history of a composed run. -/
theorem history_append (s : σ) (xs ys : List α) :
    history obs step s (xs ++ ys) =
      history obs step (run step s xs) ys ++ history obs step s xs := by
  induction xs generalizing s with
  | nil => exact (List.append_nil _).symm
  | cons a xs ih =>
    rw [List.cons_append, history, history, ih, run_cons, List.append_assoc]

/-- A run extended by one action shows that action last. -/
theorem history_concat (s : σ) (acts : List α) (a : α) :
    history obs step s (acts ++ [a]) = obs (run step s acts) a ++ history obs step s acts := by
  rw [history_append]
  rfl

/-- What holds between every event of a history and the events before it goes on to hold if it
holds of a new event. -/
theorem forall_event_cons {P : ε → List ε → Prop} {e : ε} {h : List ε}
    (hh : ∀ newer d older, h = newer ++ d :: older → P d older) (he : P e h) :
    ∀ newer d older, e :: h = newer ++ d :: older → P d older := by
  intro newer d older hsplit
  cases newer with
  | nil =>
    obtain ⟨rfl, rfl⟩ := List.cons.inj hsplit
    exact he
  | cons _ newer =>
    obtain ⟨_, hrest⟩ := List.cons.inj hsplit
    exact hh newer d older hrest

/-- Invariant rule with a history: the relation between the state and what was seen so far is
kept by every step that meets the condition. -/
theorem StepsMeet.history_invariant {ok : σ → α → Prop} {s : σ} {acts : List α}
    (h : StepsMeet step ok s acts) (obs : σ → α → List ε) {I : σ → List ε → Prop}
    (hinit : I s [])
    (hstep : ∀ s seen a, ok s a → I s seen → I (step s a) (obs s a ++ seen)) :
    I (run step s acts) (history obs step s acts) := by
  -- Generalised over what was seen before the run.
  have hgen : ∀ seen, I s seen → I (run step s acts) (history obs step s acts ++ seen) := by
    clear hinit
    induction acts generalizing s with
    | nil => exact fun _ hs ↦ hs
    | cons a acts ih =>
      intro seen hs
      rw [history, run_cons, List.append_assoc]
      exact ih h.2 _ (hstep s seen a h.1 hs)
  have hrun := hgen [] hinit
  rwa [List.append_nil] at hrun

end History

end Memlink.Transition
