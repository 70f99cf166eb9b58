import TokenForge.Proofs.Flatten.LineEnds

/-!
# What a flattening keeps

A property of texts that can be decided from part to part is `Lasting`: if it holds of a source
without its directives and of all files, it holds of what the source becomes (`Expands.lasting`).
That every carriage return stands before a line feed is such a property, and so is, of such texts,
that no part breaks off behind `solidity`.
-/

namespace TokenForge

open Text
open Import (Closed closed_append closed_concat closed_nil mayStart)

namespace Flatten

open Preamble

/-- A property of texts that a flattening keeps. -/
structure Lasting (P : Text → Prop) : Prop where
  /-- A text may be cut behind a line feed or a semicolon. -/
  cut : ∀ {a b}, Closed a → (P (a ++ b) ↔ P a ∧ P b)
  /-- What stands before a hit and in it may be left out. -/
  behind : ∀ {covered rest}, Settles covered rest → P (covered ++ rest) → P rest
  lineFeed : ∀ {s}, P s → P (s ++ ['\n'])
  absent : ∀ {s}, '\r' ∉ s → P s

namespace Lasting

variable {P : Text → Prop} {s t : Text}

theorem removeLicense (lasting : Lasting P) (h : P s) : P (remove license s) :=
  holds_of_trimmed lasting.cut license_anchored Import.mayStart_of_atLineStart
    (fun found => lasting.behind (license_settles found)) h (trimmed_remove _)

theorem dropPreamble (lasting : Lasting P) (h : P s) : P (dropPreamble s) :=
  holds_of_trimmed lasting.cut versionPragma_anchored Import.mayStart_of_atLineStart
    (fun found => lasting.behind (versionPragma_settles found)) (lasting.removeLicense h)
    (trimmed_remove _)

theorem removeDirectives (lasting : Lasting P) (h : P s) : P (remove Import.directive s) :=
  holds_of_trimmed lasting.cut Import.directive_anchored id
    (fun found => lasting.behind ((Import.directive_ends found).elim .inl settles_of_closed)) h
    (trimmed_remove _)

end Lasting

variable {lookup : Lookup} {importer : Option Text} {seen met : List Text}
  {pieces : List (Piece Import.Directive)} {e : Expansion}

theorem closed_missingComment (path : Text) : Closed (missingComment path) :=
  @closed_concat ("// Import not found: ".toList ++ path) '\n' rfl

theorem not_mem_missingComment {path : Text} (absent : '\r' ∉ path) :
    '\r' ∉ missingComment path := by
  unfold missingComment
  rw [List.mem_append, List.mem_append, not_or, not_or]
  refine ⟨⟨?_, absent⟩, ?_⟩
  · decide
  · decide

/-- What lasts and holds of a source without its directives and of all files holds of every file
that is inlined and of the expansion of the source. -/
theorem Expands.lasting {P : Text → Prop} (lasting : Lasting P)
    (h : Expands lookup importer seen pieces e met)
    (files : ∀ path content, lookup path = some content → P content)
    (named : ∀ path ∈ e.asked, '\r' ∉ path) :
    (∀ inner ∈ e.inlined, P inner) ∧
      ∀ read, Seamed read pieces → P (read ++ e.own) → P (read ++ e.render) := by
  induction h with
  | done => exact ⟨by simp [Expansion.inlined], fun _ _ h => h⟩
  | @char _ _ c _ rest _ _ ih =>
    obtain ⟨inlined, kept⟩ := ih named
    refine ⟨inlined, fun read seamed h => ?_⟩
    have := kept (read ++ [c]) seamed (by simpa [Expansion.own] using h)
    simpa [Expansion.render] using this
  | duplicate _ _ ih =>
    obtain ⟨inlined, kept⟩ := ih named
    refine ⟨inlined, ?_⟩
    rintro read ⟨closed, seamed⟩ h
    obtain ⟨first, later⟩ := (lasting.cut closed).mp h
    exact (lasting.cut closed).mpr ⟨first, kept [] seamed later⟩
  | missing _ _ _ ih =>
    rw [Expansion.asked, List.forall_mem_cons] at named
    obtain ⟨here, named⟩ := named
    obtain ⟨inlined, kept⟩ := ih named
    refine ⟨inlined, ?_⟩
    rintro read ⟨closed, seamed⟩ h
    obtain ⟨first, later⟩ := (lasting.cut closed).mp h
    exact (lasting.cut closed).mpr ⟨first, (lasting.cut (closed_missingComment _)).mpr
      ⟨lasting.absent (not_mem_missingComment here), kept [] seamed later⟩⟩
  | @file _ _ d _ _ content inner _ rest _ _ found expands _ innerIh restIh =>
    rw [Expansion.asked, List.forall_mem_cons, List.forall_mem_append] at named
    obtain ⟨_, deeper, named⟩ := named
    obtain ⟨inlined, own⟩ := innerIh deeper
    obtain ⟨later_inlined, kept⟩ := restIh named
    have here : P inner.render := by
      refine own [] (seamed_pieces content) ?_
      rw [List.nil_append, expands.own_eq_remove]
      exact lasting.removeDirectives (files _ content found)
    refine ⟨?_, ?_⟩
    · rw [Expansion.inlined, List.forall_mem_cons, List.forall_mem_append]
      exact ⟨here, inlined, later_inlined⟩
    · rintro read ⟨closed, seamed⟩ h
      obtain ⟨first, later⟩ := (lasting.cut closed).mp h
      have ended : Closed (dropPreamble inner.render ++ ['\n']) := closed_concat rfl
      exact (lasting.cut closed).mpr ⟨first, (lasting.cut ended).mpr
        ⟨lasting.lineFeed (lasting.dropPreamble here), kept [] seamed later⟩⟩

/-! ## Line ends -/

section Proper

variable {a b s : Text}

theorem proper_cut (closed : Closed a) : Proper (a ++ b) ↔ Proper a ∧ Proper b := by
  refine ⟨fun h => ⟨?_, h.of_suffix (List.suffix_append a b)⟩, fun h => proper_append h.1 h.2⟩
  induction a with
  | nil => trivial
  | cons c a ih =>
    cases a with
    | nil =>
      refine ⟨?_, trivial⟩
      rintro rfl
      cases closed
    | cons d a => exact ⟨h.1, ih ((closed_cons (by simp)).mp closed) h.2⟩

theorem lasting_proper : Lasting Proper where
  cut := proper_cut
  behind _ h := h.of_suffix (List.suffix_append _ _)
  lineFeed h := proper_append h (by decide)
  absent := proper_of_not_mem

end Proper

end Flatten

/-! ## Lines that break off -/

namespace Preamble

variable {s : Text}

/-- A part breaks off behind `solidity`, and perhaps `pragma` before it, at a line break of two
characters. -/
def BreaksOff (part : Text) : Prop :=
  ((after? "pragma" (dropBlanks part)).bind dropBlanks1?).getD (dropBlanks part) =
    "solidity\r\n".toList

instance (part : Text) : Decidable (BreaksOff part) := inferInstanceAs (Decidable (_ = _))

theorem BreaksOff.suffix {part : Text} (h : BreaksOff part) : "\r\n".toList <:+ part := by
  have read : Indifferent fun s => (after? "pragma" s).bind dropBlanks1? :=
    (indifferent_after? (by decide)).bind indifferent_dropBlanks1?
  have suffix : "\r\n".toList <:+ "solidity\r\n".toList := ⟨"solidity".toList, by decide⟩
  calc "\r\n".toList
    _ <:+ "solidity\r\n".toList := suffix
    _ = _ := h.symm
    _ <:+ dropBlanks part := getD_suffix read.suffix _
    _ <:+ part := dropBlanks_suffix part

theorem BreaksOff.inner_append {inner part : Text} (blank : InnerBlanks inner) (h : BreaksOff part) :
    BreaksOff (inner ++ part) := by
  rwa [BreaksOff, blank.dropBlanks_append]

/-- No part of a text breaks off behind `solidity`. -/
def Unbroken (s : Text) : Prop := ∀ part ∈ parts s, ¬ BreaksOff part

instance (s : Text) : Decidable (Unbroken s) :=
  inferInstanceAs (Decidable (∀ part ∈ parts s, ¬ BreaksOff part))

/-- White space is a text of whole parts and the beginning of another one. -/
theorem exists_inner {blanks : Text} (blank : ∀ c ∈ blanks, isBlank c = true) :
    ∃ front inner, blanks = front ++ inner ∧ Closed front ∧ InnerBlanks inner := by
  induction blanks with
  | nil => exact ⟨[], [], rfl, closed_nil, by simp [InnerBlanks]⟩
  | cons c blanks ih =>
    obtain ⟨here, later⟩ := List.forall_mem_cons.mp blank
    obtain ⟨front, inner, rfl, closed, inner_blank⟩ := ih later
    by_cases nothing : front = []
    · subst nothing
      cases ends : mayStart (some c) with
      | true => exact ⟨[c], inner, rfl, ends, inner_blank⟩
      | false => exact ⟨[], c :: inner, rfl, closed_nil, List.forall_mem_cons.mpr
          ⟨⟨here, ends⟩, inner_blank⟩⟩
    · exact ⟨c :: front, inner, rfl, (closed_cons nothing).mpr closed, inner_blank⟩

theorem parts_line {line : Text} (single : ∀ c ∈ line, mayStart (some c) = false) (rest : Text) :
    parts (line ++ '\n' :: rest) = (line ++ ['\n']) :: parts rest := by
  have isPart : IsPart (line ++ ['\n']) rest :=
    ⟨by simp, .inl (closed_concat rfl), by rw [List.dropLast_concat]; exact single⟩
  rw [← isPart.parts, List.append_assoc]
  rfl

/-- Where `pragma` and `solidity` stand before a line break of two characters, a part breaks
off. -/
theorem exists_part_breaksOff {spaces blanks : Text} (space : ∀ c ∈ spaces, isSpaceOrTab c = true)
    (some_blank : blanks ≠ []) (blank : ∀ c ∈ blanks, isBlank c = true) (rest : Text) :
    ∃ part ∈ parts (spaces ++ ("pragma".toList ++
      (blanks ++ ("solidity\r".toList ++ '\n' :: rest)))), BreaksOff part := by
  obtain ⟨front, inner, rfl, closed, inner_blank⟩ := exists_inner blank
  have indented : ∀ c ∈ inner, isBlank c = true := fun c member => (inner_blank c member).1
  have solid : Stops isBlank ("solidity\r".toList ++ ['\n']) := by
    rintro c ⟨⟩
    decide
  have single : ∀ c ∈ inner ++ "solidity\r".toList, mayStart (some c) = false := by
    refine List.forall_mem_append.mpr ⟨fun c member => (inner_blank c member).2, ?_⟩
    decide
  by_cases nothing : front = []
  · -- The part begins with `pragma`.
    subst nothing
    have line := @parts_line (spaces ++ ("pragma".toList ++ (inner ++ "solidity\r".toList)))
      (List.forall_mem_append.mpr ⟨fun c member => mayStart_of_isSpaceOrTab (space c member),
        List.forall_mem_append.mpr ⟨by decide, single⟩⟩) rest
    simp only [List.append_assoc] at line
    rw [List.nil_append] at some_blank ⊢
    rw [line]
    refine ⟨_, .head _, ?_⟩
    rw [BreaksOff, dropBlanks_append (fun c member => isBlank_of_isSpaceOrTab (space c member)) ?_,
      after?_append, Option.bind_some, dropBlanks1?_append some_blank indented solid]
    · rfl
    · rintro c ⟨⟩
      decide
  · -- It begins behind the last line break before `solidity`.
    have before : Closed (spaces ++ ("pragma".toList ++ front)) :=
      (closed_append (by simp)).mpr ((closed_append nothing).mpr closed)
    have line := parts_line single rest
    have split := parts_append before (inner ++ "solidity\r".toList ++ '\n' :: rest)
    simp only [List.append_assoc] at split line
    rw [line] at split
    rw [List.append_assoc, split]
    refine ⟨_, List.mem_append_right _ (.head _), ?_⟩
    rw [BreaksOff, dropBlanks_append indented solid]
    rfl

/-- A bare version pragma has a part that breaks off. -/
theorem BareVersion.exists_breaksOff (h : BareVersion s) : ∃ part ∈ parts s, BreaksOff part := by
  obtain ⟨rest, name⟩ := Option.isSome_iff_exists.mp h
  simp only [Option.bind_eq_some_iff] at name
  obtain ⟨left, ⟨behind, word, blanks⟩, name⟩ := name
  obtain ⟨between, some_blank, blank, rfl⟩ := dropBlanks1?_eq_some blanks
  have split : s = s.takeWhile isSpaceOrTab ++ dropSpaces s :=
    List.takeWhile_append_dropWhile.symm
  obtain ⟨part, member, breaks⟩ := @exists_part_breaksOff (s.takeWhile isSpaceOrTab) between
    (fun c member => List.mem_takeWhile_imp member) some_blank blank (';' :: rest)
  refine ⟨part, ?_, breaks⟩
  rw [split, after?_eq_some_iff.mp word, after?_eq_some_iff.mp name]
  exact member

end Preamble

namespace Flatten

open Preamble

section Unbroken

variable {s : Text}

theorem unbroken_lineFeed (proper : Proper s) (unbroken : Unbroken s) :
    Unbroken (s ++ ['\n']) := by
  induction s using parts_induction with
  | done => decide
  | step part rest isPart ih =>
    rw [Unbroken, isPart.parts, List.forall_mem_cons] at unbroken
    by_cases closed : Closed part
    · have longer : IsPart part (rest ++ ['\n']) :=
        ⟨isPart.some_text, .inl closed, isPart.inside⟩
      rw [Unbroken, List.append_assoc, longer.parts, List.forall_mem_cons]
      exact ⟨unbroken.1, ih (proper.of_suffix (List.suffix_append part rest)) unbroken.2⟩
    · obtain rfl := isPart.ends.resolve_left closed
      rw [List.append_nil] at proper ⊢
      have line := parts_line (isPart.inside_of_not_closed closed) []
      intro p member breaks
      rw [line] at member
      obtain rfl : p = part ++ ['\n'] := List.mem_singleton.mp member
      obtain ⟨front, split⟩ := breaks.suffix
      have whole : (front ++ ['\r']) ++ ['\n'] = part ++ ['\n'] := by simpa using split
      obtain rfl := List.append_cancel_right whole
      have last := proper.of_suffix (List.suffix_append front ['\r'])
      cases last.1 rfl

theorem lasting_unbroken : Lasting fun s => Proper s ∧ Unbroken s where
  cut := by
    intro a b closed
    rw [proper_cut closed, Unbroken, parts_append closed, List.forall_mem_append]
    exact and_and_and_comm
  behind settles h := by
    refine ⟨h.1.of_suffix (List.suffix_append _ _), fun part member breaks => ?_⟩
    obtain ⟨inner, blank, longer⟩ := settles.parts part member
    exact h.2 _ longer (breaks.inner_append blank)
  lineFeed h := ⟨proper_append h.1 (by decide), unbroken_lineFeed h.1 h.2⟩
  absent := by
    intro s absent
    refine ⟨proper_of_not_mem absent, fun part member breaks => absent ?_⟩
    rw [← flatten_parts s, List.mem_flatten]
    exact ⟨part, member, breaks.suffix.subset (by decide)⟩

end Unbroken

end Flatten

end TokenForge
