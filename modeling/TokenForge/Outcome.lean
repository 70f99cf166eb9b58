/-!
# Runs and their outcomes

A run computes an answer on a state, or ends with a fault, as an `EStateM`.  What
it did to the state before a fault stays.  The `Outcome` of a run is its answer
together with the state after it.

`runOn_bind` says how two runs follow each other: the second starts where the
first ended, and is left out if the first ended with a fault.
-/

namespace TokenForge

variable {ε δ σ α : Type}

/-- What a run answers and the state after it. -/
structure Outcome (ε σ α : Type) where
  /-- The answer, or the fault that ended the run. -/
  answer : Except ε α
  /-- The state after the run. -/
  state : σ

/-- Runs on a state. -/
def runOn (run : EStateM ε σ α) (state : σ) : Outcome ε σ α :=
  match run state with
  | .ok a state => ⟨.ok a, state⟩
  | .error fault state => ⟨.error fault, state⟩

/-- The run that answers what is given, or ends with its fault. -/
def orFail (fault : δ → ε) (given : Except δ α) : EStateM ε σ α :=
  match given with
  | .ok a => pure a
  | .error e => throw (fault e)

/-! ## Outcomes of composed runs -/

variable {β : Type}

@[simp]
theorem runOn_pure (a : α) (state : σ) :
    runOn (pure a : EStateM ε σ α) state = ⟨.ok a, state⟩ := rfl

@[simp]
theorem runOn_throw (fault : ε) (state : σ) :
    runOn (throw fault : EStateM ε σ α) state = ⟨.error fault, state⟩ := rfl

@[simp]
theorem runOn_get (state : σ) : runOn (get : EStateM ε σ σ) state = ⟨.ok state, state⟩ := rfl

@[simp]
theorem runOn_modify (change : σ → σ) (state : σ) :
    runOn (modify change : EStateM ε σ PUnit) state = ⟨.ok ⟨⟩, change state⟩ := rfl

theorem runOn_bind (first : EStateM ε σ α) (next : α → EStateM ε σ β) (state : σ) :
    runOn (first >>= next) state =
      match runOn first state with
      | ⟨.ok a, after⟩ => runOn (next a) after
      | ⟨.error fault, after⟩ => ⟨.error fault, after⟩ := by
  simp only [runOn, bind, EStateM.bind]
  cases first state <;> rfl

/-- Two runs that follow each other end well if and only if both do. -/
theorem runOn_bind_ok {first : EStateM ε σ α} {next : α → EStateM ε σ β} {before after : σ}
    {b : β} :
    runOn (first >>= next) before = ⟨.ok b, after⟩ ↔
      ∃ a between, runOn first before = ⟨.ok a, between⟩ ∧
        runOn (next a) between = ⟨.ok b, after⟩ := by
  rw [runOn_bind]
  rcases runOn first before with ⟨fault | a, between⟩
  · simp
  · constructor
    · intro h
      exact ⟨a, between, rfl, h⟩
    · rintro ⟨_, _, h, h'⟩
      cases h
      exact h'

end TokenForge
