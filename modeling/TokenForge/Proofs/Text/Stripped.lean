import TokenForge.Proofs.Text.Reading

/-!
# White space at the ends

Stripping takes the white space off both ends of a text and leaves what has none there as it is
(`strip_append`).  Texts with no white space at their ends may be put together with anything
between them.
-/

namespace TokenForge

namespace Text

/-- A text with no white space at either end. -/
structure Stripped (s : Text) : Prop where
  first : Stops isBlank s
  last : Stops isBlank s.reverse

theorem stops_of_isPrefix {p : Char → Bool} {s t : Text} (start : s <+: t) (h : Stops p t) :
    Stops p s := by
  obtain ⟨rest, rfl⟩ := start
  cases s with
  | nil => exact stops_nil p
  | cons c s => simpa using h

theorem stripped_strip (s : Text) : Stripped (strip s) := by
  constructor
  · have start : strip s <+: s.dropWhile isBlank := by
      rw [← List.reverse_suffix, strip, stripWith, List.reverse_reverse]
      exact List.dropWhile_suffix isBlank
    exact stops_of_isPrefix start (stops_dropWhile isBlank s)
  · rw [strip, stripWith, List.reverse_reverse]
    exact stops_dropWhile isBlank _

theorem stripped_nil : Stripped [] := ⟨stops_nil _, stops_nil _⟩

theorem stops_append_of_ne_nil {p : Char → Bool} {s : Text} (h : Stops p s) (some_text : s ≠ [])
    (t : Text) : Stops p (s ++ t) := by
  cases s with
  | nil => exact absurd rfl some_text
  | cons c s => simpa using h

variable {s t : Text}

/-- The white space around a text is stripped. -/
theorem strip_append (h : Stripped s) (some_text : s ≠ []) {front back : Text}
    (before : ∀ c ∈ front, isBlank c = true) (behind : ∀ c ∈ back, isBlank c = true) :
    strip (front ++ (s ++ back)) = s := by
  have start : Stops isBlank (s ++ back) := stops_append_of_ne_nil h.first some_text back
  have stop : ∀ c ∈ back.reverse, isBlank c = true :=
    fun c member => behind c (List.mem_reverse.mp member)
  rw [strip, stripWith, dropWhile_append_of_stops before start, List.reverse_append,
    dropWhile_append_of_stops stop h.last, List.reverse_reverse]

/-- Behind a text that ends in no white space only the end is stripped. -/
theorem exists_strip_append (h : Stripped s) (some_text : s ≠ []) {front : Text}
    (before : ∀ c ∈ front, isBlank c = true) (rest : Text) :
    ∃ kept, strip (front ++ (s ++ rest)) = s ++ kept := by
  have start : Stops isBlank (s ++ rest) := stops_append_of_ne_nil h.first some_text rest
  refine ⟨(rest.reverse.dropWhile isBlank).reverse, ?_⟩
  rw [strip, stripWith, dropWhile_append_of_stops before start, List.reverse_append,
    dropWhile_append_stops h.last, List.reverse_append, List.reverse_reverse]

theorem stripped_of_solid (h : ∀ c ∈ s, isBlank c = false) : Stripped s where
  first := fun c first => h c (List.mem_of_mem_head? first)
  last := fun c last => h c (List.mem_reverse.mp (List.mem_of_mem_head? last))

theorem Stripped.strip_eq (h : Stripped s) : strip s = s := by
  rw [strip, stripWith, dropWhile_of_stops h.first, dropWhile_of_stops h.last,
    List.reverse_reverse]

theorem Stripped.append (hs : Stripped s) (ht : Stripped t) (some_first : s ≠ [])
    (some_last : t ≠ []) (between : Text) : Stripped (s ++ (between ++ t)) where
  first := stops_append_of_ne_nil hs.first some_first _
  last := by
    rw [List.reverse_append, List.reverse_append, List.append_assoc]
    exact stops_append_of_ne_nil ht.last (by simpa using some_last) _

theorem intercalate_ne_nil (between : Text) {parts : List Text} (some_part : parts ≠ [])
    (h : ∀ part ∈ parts, part ≠ []) : List.intercalate between parts ≠ [] := by
  obtain ⟨part, parts, rfl⟩ := List.exists_cons_of_ne_nil some_part
  obtain ⟨c, part, rfl⟩ := List.exists_cons_of_ne_nil (h part (.head _))
  cases parts <;> simp [List.intercalate]

theorem stripped_intercalate {parts : List Text} (between : Text)
    (h : ∀ part ∈ parts, Stripped part ∧ part ≠ []) :
    Stripped (List.intercalate between parts) := by
  induction parts with
  | nil => exact stripped_nil
  | cons part parts ih =>
    obtain ⟨first, some_first⟩ := h part (.head _)
    cases parts with
    | nil => simpa using first
    | cons next parts =>
      have rest := ih fun part member => h part (.tail _ member)
      have some_rest := intercalate_ne_nil between (List.cons_ne_nil next parts)
        fun part member => (h part (.tail _ member)).2
      rw [List.intercalate_cons_cons, List.append_assoc]
      exact first.append rest some_first some_rest between

end Text

end TokenForge
