import TokenForge.Outcome

/-!
# Checks that end well

A sequence of checks ends well if and only if each of them does, and then each continues with what
those before it answered.  It fails as soon as one of them does.  The same holds of runs on a state,
of which a check is one that leaves the state as it is.
-/

namespace TokenForge

universe u

variable {ε : Type} {α β : Type u}

theorem bind_eq_ok {x : Except ε α} {f : α → Except ε β} {b : β} :
    (x >>= f) = .ok b ↔ ∃ a, x = .ok a ∧ f a = .ok b := by
  cases x with
  | error e => simp [bind, Except.bind]
  | ok a => simp [bind, Except.bind]

theorem bind_eq_error {x : Except ε α} {f : α → Except ε β} {e : ε} :
    (x >>= f) = .error e ↔ x = .error e ∨ ∃ a, x = .ok a ∧ f a = .error e := by
  cases x with
  | error e => simp [bind, Except.bind]
  | ok a => simp [bind, Except.bind]

theorem map_eq_ok {x : Except ε α} {f : α → β} {b : β} :
    x.map f = .ok b ↔ ∃ a, x = .ok a ∧ f a = b := by
  cases x <;> simp [Except.map]

theorem mapError_eq_ok {δ : Type} {x : Except ε α} {f : ε → δ} {a : α} :
    x.mapError f = .ok a ↔ x = .ok a := by
  cases x with
  | error e => exact ⟨nofun, nofun⟩
  | ok b =>
    constructor
    · rintro ⟨⟩
      rfl
    · rintro ⟨⟩
      rfl

theorem mapError_eq_error {δ : Type} {x : Except ε α} {f : ε → δ} {d : δ} :
    x.mapError f = .error d ↔ ∃ e, x = .error e ∧ f e = d := by
  cases x with
  | error e =>
    constructor
    · intro h
      exact ⟨e, rfl, Except.error.inj h⟩
    · rintro ⟨_, same, rfl⟩
      cases same
      rfl
  | ok a =>
    constructor
    · intro h
      cases h
    · rintro ⟨_, same, _⟩
      cases same

theorem toOption_eq_some_iff {x : Except ε α} {a : α} : x.toOption = some a ↔ x = .ok a := by
  cases x <;> simp [Except.toOption]

/-- If every member of a list is answered, so is the list. -/
theorem mapM_map_eq_ok {γ : Type} {f : α → Except ε β} {g : γ → α} {answer : γ → β} {cs : List γ}
    (h : ∀ c ∈ cs, f (g c) = .ok (answer c)) : (cs.map g).mapM f = .ok (cs.map answer) := by
  induction cs with
  | nil => rfl
  | cons c cs ih =>
    rw [List.map_cons, List.mapM_cons, h c (.head _), ih fun d member => h d (.tail _ member)]
    rfl

theorem ok_of_mapM {f : α → Except ε β} {as : List α} {bs : List β}
    (h : as.mapM f = .ok bs) : ∀ a ∈ as, ∃ b, f a = .ok b := by
  induction as generalizing bs with
  | nil => nofun
  | cons a as ih =>
    rw [List.mapM_cons] at h
    obtain ⟨b, first, h⟩ := bind_eq_ok.mp h
    obtain ⟨rest, answers, _⟩ := bind_eq_ok.mp h
    exact List.forall_mem_cons.mpr ⟨⟨b, first⟩, ih answers⟩

/-- Where members of a list fail in one way only, the list fails in this way if one of them
does. -/
theorem mapM_eq_error {f : α → Except ε β} {fault : ε}
    (only : ∀ a e, f a = .error e → e = fault) {as : List α} {a : α} (member : a ∈ as)
    (h : f a = .error fault) : as.mapM f = .error fault := by
  induction as with
  | nil => cases member
  | cons first as ih =>
    rw [List.mapM_cons, bind_eq_error]
    cases answer : f first with
    | error e => exact .inl (congrArg _ (only first e answer))
    | ok b =>
      have rest := ih <| by
        rcases List.mem_cons.mp member with rfl | later
        · rw [h] at answer
          cases answer
        · exact later
      exact .inr ⟨b, rfl, bind_eq_error.mpr (.inl rest)⟩

/-- A list fails only where one of its members does. -/
theorem exists_of_mapM_eq_error {f : α → Except ε β} {as : List α} {e : ε}
    (h : as.mapM f = .error e) : ∃ a ∈ as, f a = .error e := by
  induction as with
  | nil => cases h
  | cons a as ih =>
    rw [List.mapM_cons] at h
    rcases bind_eq_error.mp h with here | ⟨b, _, h⟩
    · exact ⟨a, .head _, here⟩
    · rcases bind_eq_error.mp h with later | ⟨_, _, h⟩
      · obtain ⟨a, member, refused⟩ := ih later
        exact ⟨a, .tail _ member, refused⟩
      · cases h

/-- If every member of a list is answered, the answers are those of its members. -/
theorem mem_of_mapM {f : α → Except ε β} {as : List α} {bs : List β} (h : as.mapM f = .ok bs)
    (b : β) : b ∈ bs ↔ ∃ a ∈ as, f a = .ok b := by
  induction as generalizing bs with
  | nil =>
    cases h
    simp
  | cons a as ih =>
    rw [List.mapM_cons] at h
    obtain ⟨first, answer, h⟩ := bind_eq_ok.mp h
    obtain ⟨rest, answers, h⟩ := bind_eq_ok.mp h
    cases h
    rw [List.mem_cons, ih answers, @eq_comm _ b]
    simp [answer]

/-! ## Runs -/

section Runs

variable {ε δ σ α β : Type} {first : EStateM ε σ α} {next : α → EStateM ε σ β} {fault : δ → ε}
  {given : Except δ α} {before after : σ}

theorem pure_ok {a b : α} :
    runOn (pure a : EStateM ε σ α) before = ⟨.ok b, after⟩ ↔ a = b ∧ after = before := by
  rw [runOn_pure, Outcome.mk.injEq, Except.ok.injEq, @eq_comm _ after]

/-- Two runs that follow each other fail where the first fails, or else where the second does. -/
theorem runOn_bind_error {e : ε} :
    runOn (first >>= next) before = ⟨.error e, after⟩ ↔
      runOn first before = ⟨.error e, after⟩ ∨
        ∃ a between, runOn first before = ⟨.ok a, between⟩ ∧
          runOn (next a) between = ⟨.error e, after⟩ := by
  rw [runOn_bind]
  rcases runOn first before with ⟨e' | a, between⟩
  · simp
  · constructor
    · intro h
      exact .inr ⟨a, between, rfl, h⟩
    · rintro (h | ⟨_, _, h, h'⟩)
      · cases h
      · cases h
        exact h'

/-- A check in a run leaves the state as it is. -/
@[simp]
theorem runOn_orFail (fault : δ → ε) (given : Except δ α) (state : σ) :
    runOn (orFail fault given) state = ⟨given.mapError fault, state⟩ := by
  cases given <;> rfl

theorem orFail_ok {a : α} :
    runOn (orFail fault given) before = ⟨.ok a, after⟩ ↔ given = .ok a ∧ after = before := by
  rw [runOn_orFail, Outcome.mk.injEq, mapError_eq_ok, @eq_comm _ after]

theorem orFail_error {e : ε} :
    runOn (orFail fault given) before = ⟨.error e, after⟩ ↔
      ∃ reason, given = .error reason ∧ fault reason = e ∧ after = before := by
  rw [runOn_orFail, Outcome.mk.injEq, @eq_comm _ after, mapError_eq_error]
  constructor
  · rintro ⟨⟨reason, refused, same⟩, kept⟩
    exact ⟨reason, refused, same, kept⟩
  · rintro ⟨reason, refused, same, kept⟩
    exact ⟨⟨reason, refused, same⟩, kept⟩

end Runs

end TokenForge
