/-!
# Runs

Whatever goes on step by step is a state, the steps that there are, and what comes of a step where it
is possible.  A run is a row of steps of which each was possible.

* `runSteps`, `runSteps_append`: what comes of a run, and of one run after the other;
* `runSteps_induction`, `runSteps_induction_of_mem`: what every step keeps, every run keeps;
* `countP_le_of_runSteps`: steps of a kind add to what they add to, one by one;
* `length_le_of_runSteps`: a run comes to its end if every step lessens something.
-/

namespace LogRelay

section

variable {σ μ : Type} {step : σ → μ → Option σ} {s s' : σ} {ms : List μ}

/-- What comes of several steps, if each is possible. -/
def runSteps (step : σ → μ → Option σ) (s : σ) : List μ → Option σ
  | [] => some s
  | m :: ms => (step s m).bind fun s => runSteps step s ms

theorem runSteps_cons {m : μ} (h : step s m = some s') : runSteps step s (m :: ms) = runSteps step s' ms := by
  rw [runSteps, h, Option.bind_some]

theorem runSteps_append (s : σ) (ms ms' : List μ) :
    runSteps step s (ms ++ ms') = (runSteps step s ms).bind fun s => runSteps step s ms' := by
  induction ms generalizing s with
  | nil => rfl
  | cons m ms ih =>
    rw [List.cons_append, runSteps, runSteps, Option.bind_assoc]
    exact congrArg _ (funext ih)

/-- What is kept by every step of a run is kept by the run. -/
theorem runSteps_induction_of_mem {P : σ → Prop} (hstep : ∀ m ∈ ms, ∀ s s', P s → step s m = some s' → P s')
    (h : runSteps step s ms = some s') (hs : P s) : P s' := by
  induction ms generalizing s with
  | nil =>
    obtain rfl := Option.some.inj h
    exact hs
  | cons m ms ih =>
    obtain ⟨s₁, hm, hrest⟩ := Option.bind_eq_some_iff.1 h
    exact ih (fun m' hm' => hstep m' (List.mem_cons_of_mem m hm')) hrest
      (hstep m List.mem_cons_self s s₁ hs hm)

/-- What is kept by every step is kept by a run. -/
theorem runSteps_induction {P : σ → Prop} (hstep : ∀ m s s', P s → step s m = some s' → P s')
    (h : runSteps step s ms = some s') (hs : P s) : P s' :=
  runSteps_induction_of_mem (fun m _ => hstep m) h hs

/-- A run has added as much as it has steps of a kind of which each adds one or more, if none takes away. -/
theorem countP_le_of_runSteps {p : μ → Bool} {sum : σ → Nat}
    (hstep : ∀ m s s', step s m = some s' → sum s + (if p m then 1 else 0) ≤ sum s')
    (h : runSteps step s ms = some s') : sum s + ms.countP p ≤ sum s' := by
  induction ms generalizing s with
  | nil =>
    obtain rfl := Option.some.inj h
    exact Nat.le_refl _
  | cons m ms ih =>
    obtain ⟨s₁, hm, hrest⟩ := Option.bind_eq_some_iff.1 h
    have hnow := hstep m s s₁ hm
    have hlater := ih hrest
    rw [List.countP_cons]
    omega

/-- A run has no more steps than there is of what every step lessens. -/
theorem length_le_of_runSteps {P : σ → Prop} {left : σ → Nat}
    (hkeep : ∀ m s s', P s → step s m = some s' → P s')
    (hless : ∀ m s s', P s → step s m = some s' → left s' < left s)
    (h : runSteps step s ms = some s') (hs : P s) : ms.length + left s' ≤ left s := by
  induction ms generalizing s with
  | nil =>
    obtain rfl := Option.some.inj h
    exact Nat.le_of_eq (Nat.zero_add _)
  | cons m ms ih =>
    obtain ⟨s₁, hm, hrest⟩ := Option.bind_eq_some_iff.1 h
    have hlater := ih hrest (hkeep m s s₁ hs hm)
    have hnow := hless m s s₁ hs hm
    rw [List.length_cons]
    omega

end

end LogRelay
