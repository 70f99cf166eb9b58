import TokenForge.Text.Basic

/-!
# Maps in order of insertion

A map is the list of its entries, oldest first; most maps have texts for keys.
`put` gives a key a value: a key that is already there keeps its place, a new one
goes to the end.  `get?_put` says what a look-up finds afterwards, and `keys_put`
where the key stands.
-/

namespace TokenForge

/-- Entries keyed by text, in order of insertion. -/
abbrev Assoc (α : Type) := List (Text × α)

namespace Assoc

variable {κ α β : Type} [DecidableEq κ]

/-- The value of a key. -/
def get? : Assoc α → Text → Option α
  | [], _ => none
  | (k, v) :: m, key => if k = key then some v else get? m key

/-- Whether a key has a value. -/
def has (m : Assoc α) (key : Text) : Bool := (get? m key).isSome

/-- Gives a key a value. -/
def put : List (κ × α) → κ → α → List (κ × α)
  | [], key, a => [(key, a)]
  | (k, v) :: m, key, a => if k = key then (k, a) :: m else (k, v) :: put m key a

/-- The map of a list of entries.  Of two with the same key the later value counts. -/
def ofPairs (entries : List (κ × α)) : List (κ × α) :=
  entries.foldl (fun m e => put m e.1 e.2) []

/-- The keys, oldest first. -/
def keys (m : Assoc α) : List Text := m.map Prod.fst

/-- Gives every key of the second map its value there. -/
def merge (m : Assoc α) (entries : Assoc α) : Assoc α :=
  entries.foldl (fun m e => put m e.1 e.2) m

@[simp]
theorem get?_nil (key : Text) : get? ([] : Assoc α) key = none := rfl

theorem get?_cons (e : Text × α) (m : Assoc α) (key : Text) :
    get? (e :: m) key = if e.1 = key then some e.2 else get? m key := rfl

@[simp]
theorem put_nil (key : κ) (a : α) : put [] key a = [(key, a)] := rfl

theorem put_cons (e : κ × α) (m : List (κ × α)) (key : κ) (a : α) :
    put (e :: m) key a = if e.1 = key then (e.1, a) :: m else e :: put m key a := rfl

theorem get?_put (m : Assoc α) (key other : Text) (a : α) :
    get? (put m key a) other = if key = other then some a else get? m other := by
  induction m with
  | nil => simp [get?_cons]
  | cons e m ih =>
    obtain ⟨k, v⟩ := e
    by_cases hk : k = key <;> by_cases ho : k = other <;> simp_all [put_cons, get?_cons]
    intro h
    exact absurd h.symm hk

theorem get?_map (f : α → β) (m : Assoc α) (key : Text) :
    get? (m.map fun e => (e.1, f e.2)) key = (get? m key).map f := by
  induction m with
  | nil => rfl
  | cons e m ih =>
    obtain ⟨k, v⟩ := e
    by_cases hk : k = key
    · simp [get?_cons, hk]
    · simpa [get?_cons, hk] using ih

theorem mem_keys_of_get? {m : Assoc α} {key : Text} (h : (get? m key).isSome) : key ∈ keys m := by
  induction m with
  | nil => simp at h
  | cons e m ih =>
    obtain ⟨k, v⟩ := e
    by_cases hk : k = key
    · simp [keys, hk]
    · simp only [get?_cons, if_neg hk] at h
      exact .tail _ (ih h)

theorem mem_of_get? {m : Assoc α} {key : Text} {a : α} (h : get? m key = some a) :
    (key, a) ∈ m := by
  induction m with
  | nil => cases h
  | cons e m ih =>
    obtain ⟨k, v⟩ := e
    by_cases hk : k = key
    · rw [get?_cons, if_pos hk] at h
      cases h
      exact hk ▸ .head _
    · rw [get?_cons, if_neg hk] at h
      exact .tail _ (ih h)

theorem isSome_get?_iff {m : Assoc α} {key : Text} : (get? m key).isSome ↔ key ∈ keys m := by
  refine ⟨mem_keys_of_get?, ?_⟩
  intro member
  induction m with
  | nil => cases member
  | cons e m ih =>
    obtain ⟨k, v⟩ := e
    by_cases hk : k = key
    · simp [get?_cons, hk]
    · rw [get?_cons, if_neg hk]
      rcases List.mem_cons.mp member with same | member
      · exact absurd same.symm hk
      · exact ih member

theorem keys_put (m : Assoc α) (key : Text) (a : α) :
    keys (put m key a) = if key ∈ keys m then keys m else keys m ++ [key] := by
  induction m with
  | nil => simp [keys]
  | cons e m ih =>
    obtain ⟨k, v⟩ := e
    by_cases hk : k = key
    · simp [put_cons, keys, hk]
    · have hk' : key ≠ k := fun h => hk h.symm
      simp only [keys, List.map_cons, List.mem_cons] at ih ⊢
      simp only [put_cons, hk, if_false, List.map_cons, ih, hk', false_or]
      split <;> simp_all

end Assoc

end TokenForge
