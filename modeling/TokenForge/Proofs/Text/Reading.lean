import TokenForge.Text.Blank
import TokenForge.Text.Word

/-!
# Reading the parts of a text

What the functions that read a beginning of a text do when the text is put together from
parts.  A class of characters is read up to the part that it does not go on in (`Stops`),
and a word without line feeds is not read across a line end (`AtBreak`).
-/

namespace TokenForge

/-! ## Classes of characters -/

/-- The white space beyond ASCII. -/
def wideBlanks : List Nat :=
  [0x85, 0xA0, 0x1680, 0x2028, 0x2029, 0x202F, 0x205F, 0x3000] ++ List.range' 0x2000 11

theorem isSpaceOrTab_iff {c : Char} : isSpaceOrTab c = true ↔ c = ' ' ∨ c = '\t' := by
  rw [isSpaceOrTab, Bool.or_eq_true, beq_iff_eq, beq_iff_eq]

theorem isBlank_of_isSpaceOrTab {c : Char} (h : isSpaceOrTab c = true) : isBlank c = true := by
  rcases isSpaceOrTab_iff.mp h with rfl | rfl <;> decide

/-- White space does not stand in an identifier. -/
theorem isWordChar_of_isBlank {c : Char} (h : isBlank c = true) : isWordChar c = false := by
  simp only [isBlank, Bool.or_eq_true, Bool.and_eq_true, decide_eq_true_eq, beq_iff_eq] at h
  have noWordBlank : ∀ n ∈ wideBlanks, inRanges wordRanges n = false := by decide +kernel
  rw [isWordChar]
  split
  · simp only [isAsciiAlphanumeric, Bool.or_eq_false_iff, Bool.and_eq_false_iff,
      decide_eq_false_iff_not, beq_eq_false_iff_ne, ne_eq]
    refine ⟨by omega, ?_⟩
    rintro rfl
    revert h
    decide
  · have wide : c.toNat ∈ wideBlanks := by
      simp only [wideBlanks, List.mem_append, List.mem_cons, List.not_mem_nil, List.mem_range'_1]
      omega
    exact noWordBlank c.toNat wide

namespace Text

/-! ## Beginnings -/

/-- A class of characters does not go on in a text. -/
def Stops (p : Char → Bool) (s : Text) : Prop := ∀ c ∈ s.head?, p c = false

@[simp]
theorem stops_nil (p : Char → Bool) : Stops p [] := by simp [Stops]

@[simp]
theorem stops_cons {p : Char → Bool} {c : Char} {s : Text} :
    Stops p (c :: s) ↔ p c = false := by simp [Stops]

theorem stops_append {p : Char → Bool} {part s : Text} {c : Char} (first : part.head? = some c)
    (stop : p c = false) : Stops p (part ++ s) := by
  cases part with
  | nil => simp at first
  | cons d part =>
    cases first
    simpa using stop

theorem dropWhile_append_of_stops {p : Char → Bool} {part rest : Text}
    (h : ∀ c ∈ part, p c = true) (stop : Stops p rest) : (part ++ rest).dropWhile p = rest := by
  rw [List.dropWhile_append_of_pos h]
  cases rest with
  | nil => rfl
  | cons c rest => simp [stops_cons.mp stop]

theorem dropWhile_of_stops {p : Char → Bool} {s : Text} (stop : Stops p s) : s.dropWhile p = s :=
  @dropWhile_append_of_stops p [] s (by simp) stop

/-- A class of characters that was dropped does not go on. -/
theorem stops_dropWhile (p : Char → Bool) (s : Text) : Stops p (s.dropWhile p) := by
  intro c first
  have := List.head?_dropWhile_not p s
  rw [first] at this
  simpa using this

theorem takeWhile_append_of_stops {p : Char → Bool} {part rest : Text}
    (h : ∀ c ∈ part, p c = true) (stop : Stops p rest) : (part ++ rest).takeWhile p = part := by
  rw [List.takeWhile_append_of_pos h]
  cases rest with
  | nil => simp
  | cons c rest => simp [stops_cons.mp stop]

/-- A text is cut in one way where a class stops. -/
theorem append_inj_of_stops {p : Char → Bool} {part other s t : Text} (h : ∀ c ∈ part, p c = true)
    (h' : ∀ c ∈ other, p c = true) (stop : Stops p s) (stop' : Stops p t)
    (same : part ++ s = other ++ t) : part = other ∧ s = t := by
  have parts := congrArg (List.takeWhile p) same
  have rests := congrArg (List.dropWhile p) same
  rw [takeWhile_append_of_stops h stop, takeWhile_append_of_stops h' stop'] at parts
  rw [dropWhile_append_of_stops h stop, dropWhile_append_of_stops h' stop'] at rests
  exact ⟨parts, rests⟩

@[simp]
theorem after?_append (start s : Text) : after? start (start ++ s) = some s :=
  after?_eq_some_iff.mpr rfl

/-- A text that begins with another character does not begin with the word. -/
theorem after?_eq_none {start s : Text} {c d : Char} (first : start.head? = some c)
    (other : s.head? = some d) (differ : c ≠ d) : after? start s = none := by
  cases start with
  | nil => simp at first
  | cons c' start =>
    cases s with
    | nil => simp at other
    | cons d' s =>
      simp only [List.head?_cons, Option.some.injEq] at first other
      subst first other
      simp [after?, differ]

/-- A word is first found where its first character first stands. -/
theorem afterFirst?_append {c : Char} {word front : Text} (absent : c ∉ front) (s : Text) :
    afterFirst? (c :: word) (front ++ (c :: word ++ s)) = some s := by
  induction front with
  | nil =>
    have here : after? (c :: word) (c :: (word ++ s)) = some s := after?_append (c :: word) s
    rw [List.nil_append, List.cons_append, afterFirst?, here]
  | cons d front ih =>
    have later := ih fun member => absent (.tail _ member)
    have here : after? (c :: word) (d :: (front ++ (c :: word ++ s))) = none :=
      after?_eq_none rfl rfl fun same => absent (same ▸ .head _)
    rw [List.cons_append, afterFirst?, here]
    exact later

/-- A class is dropped within the part before a text that it does not go on in. -/
theorem dropWhile_append_stops {p : Char → Bool} {part tail : Text} (stop : Stops p tail) :
    (part ++ tail).dropWhile p = part.dropWhile p ++ tail := by
  induction part with
  | nil => exact dropWhile_of_stops stop
  | cons c part ih =>
    cases hc : p c with
    | true => simp [hc, ih]
    | false => simp [hc]

/-- A word that is read before a text that begins with none of its characters stands before that
text. -/
theorem isPrefix_of_after?_of_stops {start part tail rest : Text}
    (h : after? start (part ++ tail) = some rest) (stop : Stops (start.contains ·) tail) :
    start <+: part := by
  have split := after?_eq_some_iff.mp h
  rcases List.prefix_or_prefix_of_prefix (⟨tail, rfl⟩ : part <+: part ++ tail)
    (⟨rest, split.symm⟩ : start <+: part ++ tail) with longer | shorter
  · obtain ⟨more, rfl⟩ := longer
    rw [List.append_assoc, List.append_cancel_left_eq] at split
    cases more with
    | nil => simp
    | cons c more =>
      have absent := stop c (by rw [split]; rfl)
      simp at absent
  · exact shorter

/-! ## White space and words -/

theorem dropSpaces_append {part rest : Text} (h : ∀ c ∈ part, isSpaceOrTab c = true)
    (stop : Stops isSpaceOrTab rest) : dropSpaces (part ++ rest) = rest :=
  dropWhile_append_of_stops h stop

theorem dropBlanks_append {part rest : Text} (h : ∀ c ∈ part, isBlank c = true)
    (stop : Stops isBlank rest) : dropBlanks (part ++ rest) = rest :=
  dropWhile_append_of_stops h stop

theorem dropBlanks1?_append {part rest : Text} (some_text : part ≠ [])
    (h : ∀ c ∈ part, isBlank c = true) (stop : Stops isBlank rest) :
    dropBlanks1? (part ++ rest) = some rest := by
  cases part with
  | nil => exact absurd rfl some_text
  | cons c part =>
    have first : isBlank c = true := h c (by simp)
    have others : ∀ d ∈ part, isBlank d = true := fun d member => h d (by simp [member])
    simp only [List.cons_append, dropBlanks1?, first, if_true]
    rw [dropBlanks_append others stop]

theorem dropBlanks1?_eq_some {s rest : Text} (h : dropBlanks1? s = some rest) :
    ∃ blanks, blanks ≠ [] ∧ (∀ c ∈ blanks, isBlank c = true) ∧ s = blanks ++ rest := by
  cases s with
  | nil => cases h
  | cons c s =>
    rw [dropBlanks1?, Option.ite_none_right_eq_some] at h
    obtain ⟨blank, ⟨⟩⟩ := h
    refine ⟨c :: s.takeWhile isBlank, by simp, ?_, ?_⟩
    · exact List.forall_mem_cons.mpr ⟨blank, List.all_eq_true.mp List.all_takeWhile⟩
    · rw [List.cons_append, dropBlanks, List.takeWhile_append_dropWhile]

theorem afterWord?_append {part rest : Text} (some_text : part ≠ [])
    (h : ∀ c ∈ part, isWordChar c = true) (stop : Stops isWordChar rest) :
    afterWord? (part ++ rest) = some rest := by
  cases part with
  | nil => exact absurd rfl some_text
  | cons c part =>
    have first : isWordChar c = true := h c (by simp)
    have others : ∀ d ∈ part, isWordChar d = true := fun d member => h d (by simp [member])
    simp only [List.cons_append, afterWord?, first, if_true]
    rw [dropWhile_append_of_stops others stop]

theorem atWordEnd_of_stops {s : Text} (stop : Stops isWordChar s) : atWordEnd s = true := by
  cases s with
  | nil => rfl
  | cons c s => simp [atWordEnd, stops_cons.mp stop]

/-! ## What is left to read -/

instance suffixTrans : @Trans Text Text Text List.IsSuffix List.IsSuffix List.IsSuffix :=
  ⟨List.IsSuffix.trans⟩

theorem suffix_of_after? {word s rest : Text} (h : after? word s = some rest) : rest <:+ s :=
  ⟨word, (after?_eq_some_iff.mp h).symm⟩

theorem dropSpaces_suffix (s : Text) : dropSpaces s <:+ s := List.dropWhile_suffix _

theorem dropBlanks_suffix (s : Text) : dropBlanks s <:+ s := List.dropWhile_suffix _

/-- The spaces and tabs that are dropped. -/
theorem exists_spaces (s : Text) :
    ∃ spaces, (∀ c ∈ spaces, isSpaceOrTab c = true) ∧ s = spaces ++ dropSpaces s :=
  ⟨s.takeWhile isSpaceOrTab, List.all_eq_true.mp List.all_takeWhile,
    List.takeWhile_append_dropWhile.symm⟩

theorem suffix_of_dropBlanks1? {s rest : Text} (h : dropBlanks1? s = some rest) : rest <:+ s := by
  cases s with
  | nil => cases h
  | cons c s =>
    rw [dropBlanks1?, Option.ite_none_right_eq_some] at h
    obtain ⟨_, ⟨⟩⟩ := h
    exact (dropBlanks_suffix s).trans (List.suffix_cons c s)

theorem suffix_of_afterWord? {s rest : Text} (h : afterWord? s = some rest) : rest <:+ s := by
  cases s with
  | nil => cases h
  | cons c s =>
    rw [afterWord?, Option.ite_none_right_eq_some] at h
    obtain ⟨_, ⟨⟩⟩ := h
    exact (List.dropWhile_suffix _).trans (List.suffix_cons c s)

/-- What one of two readings leaves, the second of which always succeeds. -/
theorem getD_suffix {read : Text → Option Text} (suffix : ∀ {s rest}, read s = some rest → rest <:+ s)
    (s : Text) : (read s).getD s <:+ s := by
  cases h : read s with
  | none => exact List.suffix_refl s
  | some rest => exact suffix h

/-- A word behind spaces and tabs is covered by what is read up to a point behind it. -/
theorem covered_of_word {word s behind rest : Text} (some_word : word ≠ [])
    (h : after? word (dropSpaces s) = some behind) (suffix : rest <:+ behind) :
    ∃ covered, covered ≠ [] ∧ s = covered ++ rest := by
  obtain ⟨spaces, whole⟩ := dropSpaces_suffix s
  obtain ⟨more, rfl⟩ := suffix
  refine ⟨spaces ++ (word ++ more), by simp [some_word], ?_⟩
  rw [← whole, after?_eq_some_iff.mp h]
  simp

/-! ## Line ends -/

/-- A text begins with a line end: it is empty or begins with a line feed. -/
def AtBreak (s : Text) : Prop := ∀ c ∈ s.head?, c = '\n'

@[simp]
theorem atBreak_nil : AtBreak [] := by simp [AtBreak]

@[simp]
theorem atBreak_cons (s : Text) : AtBreak ('\n' :: s) := by simp [AtBreak]

theorem AtBreak.stops {s : Text} (h : AtBreak s) {p : Char → Bool} (stop : p '\n' = false) :
    Stops p s := fun c member => h c member ▸ stop

/-- A class without the line feed is dropped within a line. -/
theorem dropWhile_append_of_atBreak {p : Char → Bool} (stop : p '\n' = false) {part tail : Text}
    (h : AtBreak tail) : (part ++ tail).dropWhile p = part.dropWhile p ++ tail :=
  dropWhile_append_stops (h.stops stop)

/-- A word without line feeds that is read before a line end stands before the line end. -/
theorem isPrefix_of_after? {start part tail rest : Text} (single : '\n' ∉ start)
    (h : after? start (part ++ tail) = some rest) (break_ : AtBreak tail) : start <+: part :=
  isPrefix_of_after?_of_stops h (break_.stops (by simpa using single))

end Text

end TokenForge
