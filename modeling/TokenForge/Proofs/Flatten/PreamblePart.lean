import TokenForge.Proofs.Flatten.Edges

/-!
# Preamble lines as parts

Whether a license line or a version pragma starts at a part of a text can be seen from the part
alone, as long as the parts are `Whole`: a part opens with one (`opens`), or no text behind it
makes one of it.  `license_part` and `versionPragma_part` say what the recognisers do at a part.
-/

namespace TokenForge

open Text
open Import (Closed closed_append closed_concat closed_nil mayStart)

namespace Preamble

variable {part rest s : Text}

/-! ## Parts that open with something -/

/-- A recogniser hits in a part alone, behind white space. -/
def opens {α : Type} (find : Recogniser α) (part : Text) : Bool :=
  (find none (dropBlanks part)).isSome

/-- A part opens with a license line or a version pragma. -/
def Opening (part : Text) : Prop := opens license part = true ∨ opens versionPragma part = true

instance (part : Text) : Decidable (Opening part) := inferInstanceAs (Decidable (_ ∨ _))

/-- A part is no beginning and no end of a license line or a version pragma of several parts: it
does not begin with the name of the license comment, and if it begins with `pragma` and nothing or
`solidity` behind it, it is the whole statement. -/
structure Whole (part : Text) : Prop where
  named : after? "SPDX-License-Identifier:" (dropBlanks part) = none
  ended : ∀ s ∈ after? "pragma" (dropBlanks part), part.getLast? = some ';' ∨
    dropBlanks s ≠ [] ∧ after? "solidity" (dropBlanks s) = none

instance (part : Text) : Decidable (Whole part) :=
  decidable_of_iff (_ ∧ _) ⟨fun h => ⟨h.1, h.2⟩, fun h => ⟨h.named, h.ended⟩⟩

/-- White space before a part does not matter. -/
theorem opens_inner_append {α : Type} {find : Recogniser α} {inner : Text} (blank : InnerBlanks inner) :
    opens find (inner ++ part) = opens find part := by
  rw [opens, opens, blank.dropBlanks_append]

theorem opening_inner_append {inner : Text} (blank : InnerBlanks inner) :
    Opening (inner ++ part) ↔ Opening part := by
  rw [Opening, Opening, opens_inner_append blank, opens_inner_append blank]

theorem Whole.of_inner_append {inner : Text} (h : Whole (inner ++ part)) (blank : InnerBlanks inner)
    (some_text : part ≠ []) : Whole part := by
  obtain ⟨named, ended⟩ := h
  rw [blank.dropBlanks_append] at named ended
  rw [List.getLast?_append_of_ne_nil _ some_text] at ended
  exact ⟨named, ended⟩

/-! ## Indented parts -/

theorem dropBlanks_dropSpaces (s : Text) : dropBlanks (dropSpaces s) = dropBlanks s := by
  conv => rhs; rw [← List.takeWhile_append_dropWhile (p := isSpaceOrTab) (l := s)]
  refine (List.dropWhile_append_of_pos fun c member => ?_).symm
  exact isBlank_of_isSpaceOrTab (List.mem_takeWhile_imp member)

/-- Behind all white space no space and no tab is left. -/
theorem dropSpaces_dropBlanks (s : Text) : dropSpaces (dropBlanks s) = dropBlanks s := by
  refine dropWhile_of_stops fun c first => ?_
  by_contra space
  rw [Bool.not_eq_false] at space
  have := stops_dropWhile isBlank s c first
  rw [isBlank_of_isSpaceOrTab space] at this
  cases this

/-- A word that stands behind spaces and tabs stands behind all white space. -/
theorem dropBlanks_eq_of_word {word left : Text} {c : Char} (first : word.head? = some c)
    (solid : isBlank c = false) (read : after? word (dropSpaces s) = some left) :
    dropBlanks s = dropSpaces s := by
  rw [← dropBlanks_dropSpaces]
  refine dropWhile_of_stops ?_
  rw [after?_eq_some_iff.mp read]
  exact stops_append first solid

/-! ## License lines -/

/-- What follows the line that a text begins with. -/
def behindLine (s : Text) : Text :=
  match s.dropWhile (· != '\n') with
  | [] => []
  | _ :: rest => rest

theorem behindLine_append {line : Text} (single : '\n' ∉ line) (s : Text) :
    behindLine (line ++ s) = behindLine s := by
  rw [behindLine, behindLine, List.dropWhile_append_of_pos]
  intro c member
  simpa using ne_of_mem_of_not_mem member single

theorem behindLine_part (isPart : IsPart part rest) :
    behindLine (part ++ rest) = if part.getLast? = some '\n' then rest else behindLine rest := by
  by_cases ends : part.getLast? = some '\n'
  · obtain ⟨front, rfl⟩ := List.getLast?_eq_some_iff.mp ends
    have single : '\n' ∉ front := fun member => by
      have := isPart.inside_of_append (by simp) _ member
      cases this
    rw [if_pos ends, List.append_assoc, behindLine_append single]
    rfl
  · rw [if_neg ends, behindLine_append]
    intro member
    rcases List.eq_nil_or_concat part with rfl | ⟨front, last, rfl⟩
    · cases member
    · rw [List.concat_eq_append] at ends member isPart
      rw [List.getLast?_concat] at ends
      rcases List.mem_append.mp member with before | same
      · have := isPart.inside_of_append (by simp) _ before
        cases this
      · exact ends (by rw [List.mem_singleton.mp same])

theorem license_eq {before : Option Char} (start : atLineStart before = true) (s : Text) :
    license before s = (after? "//" (dropSpaces s)).bind fun comment =>
      (after? "SPDX-License-Identifier:" (dropBlanks comment)).map fun left =>
        ((), behindLine left) := by
  rw [license, if_pos start]
  cases after? "//" (dropSpaces s) with
  | none => rfl
  | some comment =>
    simp only [Option.bind_eq_bind, Option.bind_some]
    cases after? "SPDX-License-Identifier:" (dropBlanks comment) with
    | none => rfl
    | some left =>
      simp only [Option.bind_some, Option.map_some, behindLine]
      cases left.dropWhile (· != '\n') <;> rfl

theorem opens_license (part : Text) :
    opens license part = ((after? "//" (dropBlanks part)).bind fun comment =>
      after? "SPDX-License-Identifier:" (dropBlanks comment)).isSome := by
  rw [opens, license_eq rfl, dropSpaces_dropBlanks]
  cases after? "//" (dropBlanks part) with
  | none => rfl
  | some comment => simp only [Option.bind_some, Option.isSome_map]

/-- At a part the license recogniser sees whether the part alone opens with a license line. -/
theorem license_part (isPart : IsPart part rest) (whole : ∀ p ∈ parts rest, Whole p)
    (before : Option Char) :
    license before (part ++ rest) =
      if atLineStart before = true ∧ dropBlanks part = dropSpaces part ∧ opens license part = true
      then some ((), behindLine (part ++ rest)) else none := by
  by_cases start : atLineStart before = true
  case neg => rw [license, if_neg start, if_neg fun h => start h.1]
  rw [license_eq start, isPart.ended.dropSpaces_append,
    isPart.ended.dropSpaces.after?_append (by decide)]
  have alone := opens_license part
  cases slashes : after? "//" (dropSpaces part) with
  | none =>
    rw [if_neg]
    · rfl
    · rintro ⟨_, indented, opening⟩
      rw [alone, indented, slashes] at opening
      cases opening
  | some comment =>
    have indented := dropBlanks_eq_of_word (c := '/') rfl (by decide) slashes
    have ended := isPart.ended.dropSpaces.after? (by decide) slashes
    rw [indented, slashes] at alone
    simp only [Option.map_some, Option.bind_some] at alone ⊢
    by_cases all : dropBlanks comment = []
    · -- A name in a later part would stand at its beginning.
      rw [if_neg]
      · rw [dropBlanks, dropWhile_append_of_eq_nil all, Option.map_eq_none_iff]
        by_contra read
        obtain ⟨p, member, named⟩ := exists_part_of_dropBlanks (by decide) (by simp)
          (Option.isSome_iff_ne_none.mpr read)
        rw [(whole p member).named] at named
        cases named
      · rintro ⟨_, _, opening⟩
        rw [alone, all] at opening
        cases opening
    · rw [dropBlanks, dropWhile_append_of_ne_nil all]
      have behind : Ended (dropBlanks comment) rest :=
        ended.of_suffix (dropBlanks_suffix comment) all
      rw [← dropBlanks, behind.after?_append (by decide)]
      cases name : after? "SPDX-License-Identifier:" (dropBlanks comment) with
      | none =>
        rw [if_neg]
        · rfl
        · rintro ⟨_, _, opening⟩
          rw [alone, name] at opening
          cases opening
      | some left =>
        rw [if_pos ⟨start, indented, by rw [alone, name]; rfl⟩]
        have suffix : "SPDX-License-Identifier:".toList ++ left <:+ part := by
          calc "SPDX-License-Identifier:".toList ++ left
            _ = dropBlanks comment := (after?_eq_some_iff.mp name).symm
            _ <:+ comment := dropBlanks_suffix comment
            _ <:+ dropSpaces part := suffix_of_after? slashes
            _ <:+ part := dropSpaces_suffix part
        obtain ⟨front, rfl⟩ := suffix
        have single : '\n' ∉ front ++ "SPDX-License-Identifier:".toList := by
          intro member
          rcases List.mem_append.mp member with before | inside
          · have := isPart.inside_of_append (by simp) _ before
            cases this
          · revert inside
            decide
        rw [Option.map_some, Option.map_some, ← List.append_assoc front,
          List.append_assoc _ left, behindLine_append single]

/-! ## Version pragmas -/

/-- What follows a version pragma of which `s` stands behind `solidity`. -/
def behindSolidity? (s : Text) : Option Text :=
  match s.takeWhile (· != ';'), s.dropWhile (· != ';') with
  | blank :: _ :: _, _ :: rest => if isBlank blank then some (afterStatement rest) else none
  | _, _ => none

/-- What follows a version pragma of which `s` stands behind `pragma`. -/
def behindPragma? (s : Text) : Option Text :=
  (dropBlanks1? s).bind fun left => (after? "solidity" left).bind behindSolidity?

theorem versionPragma_eq {before : Option Char} (start : atLineStart before = true) (s : Text) :
    versionPragma before s =
      (after? "pragma" (dropSpaces s)).bind fun behind => (behindPragma? behind).map ((), ·) := by
  rw [versionPragma, if_pos start]
  cases after? "pragma" (dropSpaces s) with
  | none => rfl
  | some behind =>
    simp only [Option.bind_eq_bind, Option.bind_some, behindPragma?]
    cases dropBlanks1? behind with
    | none => rfl
    | some left =>
      simp only [Option.bind_some]
      cases after? "solidity" left with
      | none => rfl
      | some body =>
        simp only [Option.bind_some, behindSolidity?]
        generalize body.takeWhile (· != ';') = front
        generalize body.dropWhile (· != ';') = statement
        rcases front with _ | ⟨blank, _ | ⟨c, front⟩⟩
        · rfl
        · rfl
        · rcases statement with _ | ⟨semicolon, statement⟩
          · rfl
          · cases blanks : isBlank blank <;> simp [blanks]

/-- What stands between `solidity` and the semicolon of a version pragma: a blank and more. -/
def isVersion (body : Text) : Bool := body.head?.any isBlank && 2 ≤ body.length

theorem behindSolidity?_semicolon {body : Text} (inside : ';' ∉ body) (rest : Text) :
    behindSolidity? (body ++ ';' :: rest) =
      if isVersion body then some (afterStatement rest) else none := by
  have solid : ∀ c ∈ body, (c != ';') = true := by
    intro c member
    simpa using ne_of_mem_of_not_mem member inside
  rw [behindSolidity?, takeWhile_append_of_stops solid (by simp),
    dropWhile_append_of_stops solid (by simp)]
  match body with
  | [] => rfl
  | [_] => simp [isVersion]
  | blank :: _ :: _ => simp [isVersion]

/-- Behind `pragma` what is left of a whole part decides whether there is a version pragma. -/
theorem behindPragma?_append (ended : Ended s rest) (inside : ∀ c ∈ s.dropLast, c ≠ ';')
    (statement : s.getLast? = some ';' ∨
      dropBlanks s ≠ [] ∧ after? "solidity" (dropBlanks s) = none) :
    behindPragma? (s ++ rest) =
      if (behindPragma? s).isSome then some (afterStatement rest) else none := by
  cases s with
  | nil =>
    rcases statement with ends | ⟨some_text, _⟩
    · cases ends
    · exact absurd rfl some_text
  | cons c s =>
    rw [List.cons_append, behindPragma?, behindPragma?, dropBlanks1?, dropBlanks1?]
    by_cases blank : isBlank c = true
    case neg =>
      rw [if_neg blank, if_neg blank]
      rfl
    have same : dropBlanks (c :: s) = dropBlanks s := List.dropWhile_cons_of_pos blank
    rw [same] at statement
    have some_left : dropBlanks s ≠ [] := by
      intro all
      rcases statement with ends | ⟨some_text, _⟩
      · rw [← same] at all
        have := List.dropWhile_eq_nil_iff.mp all ';' (List.mem_of_getLast? ends)
        revert this
        decide
      · exact some_text all
    have suffix : dropBlanks s <:+ c :: s := (dropBlanks_suffix s).trans (List.suffix_cons c s)
    have left := ended.of_suffix suffix some_left
    have dropped : dropBlanks (s ++ rest) = dropBlanks s ++ rest :=
      dropWhile_append_of_ne_nil some_left rest
    rw [if_pos blank, if_pos blank, dropped, Option.bind_some, Option.bind_some,
      left.after?_append (by decide)]
    cases word : after? "solidity" (dropBlanks s) with
    | none => rfl
    | some body =>
      have ends := statement.resolve_right fun h => by
        rw [word] at h
        cases h.2
      rw [Option.map_some, Option.bind_some, Option.bind_some]
      obtain ⟨front, split⟩ := suffix
      rw [after?_eq_some_iff.mp word, ← List.append_assoc] at split
      rw [← split] at ends inside
      rcases List.eq_nil_or_concat body with rfl | ⟨init, last, rfl⟩
      · simp at ends
      · rw [List.concat_eq_append, ← List.append_assoc] at ends inside
        rw [List.dropLast_concat] at inside
        rw [List.getLast?_concat] at ends
        obtain rfl := Option.some.inj ends
        have absent : ';' ∉ init := fun member => inside ';' (List.mem_append_right _ member) rfl
        rw [List.concat_eq_append, List.append_assoc, List.singleton_append,
          behindSolidity?_semicolon absent, behindSolidity?_semicolon absent]
        cases isVersion init <;> rfl

theorem opens_versionPragma (part : Text) :
    opens versionPragma part =
      ((after? "pragma" (dropBlanks part)).bind behindPragma?).isSome := by
  rw [opens, versionPragma_eq rfl, dropSpaces_dropBlanks]
  cases after? "pragma" (dropBlanks part) <;> simp

/-- At a part the recogniser for version pragmas sees whether the part alone opens with one. -/
theorem versionPragma_part (isPart : IsPart part rest) (whole : Whole part)
    (before : Option Char) :
    versionPragma before (part ++ rest) =
      if atLineStart before = true ∧ dropBlanks part = dropSpaces part ∧
        opens versionPragma part = true
      then some ((), afterStatement rest) else none := by
  by_cases start : atLineStart before = true
  case neg => rw [versionPragma, if_neg start, if_neg fun h => start h.1]
  rw [versionPragma_eq start, isPart.ended.dropSpaces_append,
    isPart.ended.dropSpaces.after?_append (by decide)]
  have alone := opens_versionPragma part
  cases word : after? "pragma" (dropSpaces part) with
  | none =>
    rw [if_neg]
    · rfl
    · rintro ⟨_, indented, opening⟩
      rw [alone, indented, word] at opening
      cases opening
  | some behind =>
    have indented := dropBlanks_eq_of_word (c := 'p') rfl (by decide) word
    have ended := isPart.ended.dropSpaces.after? (by decide) word
    have statement := whole.ended behind (by rw [indented]; exact word)
    rw [indented, word, Option.bind_some] at alone
    rw [Option.map_some, Option.bind_some]
    obtain ⟨front, split⟩ := dropSpaces_suffix part
    rw [after?_eq_some_iff.mp word, ← List.append_assoc] at split
    rw [behindPragma?_append ended, alone]
    · cases behindPragma? behind <;> simp [start, indented]
    · rintro c member rfl
      have some_behind : behind ≠ [] := by
        rintro rfl
        cases member
      have inside := isPart.inside ';' (by
        rw [← split, List.dropLast_append_of_ne_nil some_behind]
        exact List.mem_append_right _ member)
      cases inside
    · refine statement.imp_left fun ends => ?_
      rw [← split] at ends
      rcases List.eq_nil_or_concat behind with rfl | ⟨init, last, rfl⟩
      · rw [List.append_nil, List.getLast?_append_of_ne_nil _ (by simp)] at ends
        revert ends
        decide
      · rwa [List.getLast?_append_of_ne_nil _ (by simp)] at ends

end Preamble

end TokenForge
