import TokenForge.Proofs.Flatten.RegularText
import TokenForge.Proofs.Text.Returns

/-!
# Recognisers and carriage returns

Directives, license lines and feature pragmas are found in a proper text where they are found
without its carriage returns, and so are runs of blank lines.  The exception is a version pragma
that is bare (`BareVersion`): between `solidity` and the semicolon there have to be two characters,
of which the first is blank, and a line break is two characters only with its carriage return.
-/

namespace TokenForge

open Text
open Import (Closed closed_append closed_concat closed_nil mayStart)

/-! ## Directives -/

namespace Import

variable {s : Text}

theorem indifferent_afterNames? : Indifferent afterNames? where
  suffix := suffix_of_afterNames?
  same := by
    intro s proper
    cases s with
    | nil => rfl
    | cons c s =>
      by_cases return_ : c = '\r'
      · subst return_
        obtain ⟨t, rfl⟩ := proper.return
        rfl
      rw [withoutReturns_cons return_]
      by_cases brace : c = '{'
      · subst brace
        rw [afterNames?, afterNames?, dropWhile_withoutReturns (by decide) proper.2]
        have ending := stops_dropWhile (· != '}') s
        generalize s.dropWhile (· != '}') = t at ending ⊢
        cases t with
        | nil => rfl
        | cons d rest =>
          have other : d ≠ '\r' := by
            rintro rfl
            cases stops_cons.mp ending
          rw [withoutReturns_cons other]
          rfl
      by_cases star : c = '*'
      · subst star
        have rest : Indifferent fun s => (dropBlanks1? s).bind fun s =>
            (after? "as" s).bind fun s => (dropBlanks1? s).bind afterWord? :=
          indifferent_dropBlanks1?.bind ((indifferent_after? (by decide)).bind
            (indifferent_dropBlanks1?.bind indifferent_afterWord?))
        exact rest.same proper.2
      have word : ∀ s, afterNames? (c :: s) = afterWord? (c :: s) := by
        intro s
        rw [afterNames?]
        · intro _ same
          exact brace (List.cons.inj same).1
        · intro _ same
          exact star (List.cons.inj same).1
      rw [word, word, ← withoutReturns_cons return_]
      exact indifferent_afterWord?.same proper

theorem indifferent_afterClause? : Indifferent afterClause? :=
  indifferent_afterNames?.bind (indifferent_dropBlanks1?.bind
    ((indifferent_after? (by decide)).bind indifferent_dropBlanks1?))

theorem indifferent_afterAlias? : Indifferent afterAlias? :=
  indifferent_dropBlanks1?.bind ((indifferent_after? (by decide)).bind
    (indifferent_dropBlanks1?.bind indifferent_afterWord?))

/-- A quoted path is read in a proper text as it is read without carriage returns. -/
theorem takePath?_withoutReturns (proper : Proper s) :
    takePath? (withoutReturns s) =
      (takePath? s).map fun taken => (withoutReturns taken.1, withoutReturns taken.2) := by
  cases s with
  | nil => rfl
  | cons quote s =>
    by_cases return_ : quote = '\r'
    · subst return_
      obtain ⟨t, rfl⟩ := proper.return
      rfl
    rw [withoutReturns_cons return_, takePath?, takePath?]
    by_cases quoted : isQuote quote = true
    case neg => rw [if_neg quoted, if_neg quoted]; rfl
    rw [if_pos quoted, if_pos quoted, takeWhile_withoutReturns (by decide),
      dropWhile_withoutReturns (by decide) proper.2]
    have split : s = s.takeWhile (!isQuote ·) ++ s.dropWhile (!isQuote ·) :=
      List.takeWhile_append_dropWhile.symm
    have whole := proper.2
    rw [split] at whole
    have ending := stops_dropWhile (!isQuote ·) s
    generalize s.takeWhile (!isQuote ·) = path at whole ⊢
    generalize s.dropWhile (!isQuote ·) = rest at whole ending ⊢
    cases rest with
    | nil =>
      rw [withoutReturns_nil]
      cases path <;> cases withoutReturns _ <;> rfl
    | cons c rest =>
      have closing := stops_cons.mp ending
      have other : c ≠ '\r' := by
        rintro rfl
        cases closing
      rw [withoutReturns_cons other]
      have path_proper : Proper path := whole.left (by
        rintro same
        cases same
        cases closing)
      cases path with
      | nil => rfl
      | cons d path =>
        obtain ⟨e, more, read⟩ :=
          List.exists_cons_of_ne_nil (path_proper.withoutReturns_ne_nil (by simp))
        rw [read]
        exact congrArg (fun path => some (path, withoutReturns rest)) read.symm

/-- The path of a directive stands in it, and a quote behind it. -/
theorem exists_takePath?_of_directive {before : Option Char} {rest : Text} {d : Directive}
    (h : directive before s = some (d, rest)) :
    ∃ quoted a, quoted <:+ s ∧ takePath? quoted = some (d.path, a) := by
  rw [directive, Option.ite_none_right_eq_some] at h
  simp only [Option.bind_eq_bind, Option.bind_eq_some_iff, Option.pure_def, Option.some.injEq,
    Prod.mk.injEq] at h
  obtain ⟨_, behind, word, left, blanks, ⟨path, a⟩, taken, b, _, rfl, _⟩ := h
  refine ⟨_, a, ?_, taken⟩
  calc (afterClause? left).getD left
    _ <:+ left := getD_suffix suffix_of_afterClause? left
    _ <:+ behind := suffix_of_dropBlanks1? blanks
    _ <:+ dropSpaces s := suffix_of_after? word
    _ <:+ s := dropSpaces_suffix s

/-- A path is quoted on both sides. -/
theorem exists_quotes_of_takePath? {path rest : Text} (taken : takePath? s = some (path, rest)) :
    ∃ quote closing, isQuote closing = true ∧ s = quote :: (path ++ closing :: rest) := by
  cases s with
  | nil => cases taken
  | cons quote s =>
    rw [takePath?, Option.ite_none_right_eq_some] at taken
    obtain ⟨_, taken⟩ := taken
    have split : s = s.takeWhile (!isQuote ·) ++ s.dropWhile (!isQuote ·) :=
      List.takeWhile_append_dropWhile.symm
    have ending := stops_dropWhile (!isQuote ·) s
    generalize s.takeWhile (!isQuote ·) = front at taken split
    generalize s.dropWhile (!isQuote ·) = back at taken split ending
    rcases front with _ | ⟨c, front⟩ <;> rcases back with _ | ⟨closing, back⟩ <;> cases taken
    exact ⟨quote, closing, by simpa using stops_cons.mp ending, by rw [split]⟩

/-- A quoted path on one line of a proper text has no carriage return. -/
theorem return_not_mem_of_takePath? {path rest : Text} (proper : Proper s)
    (taken : takePath? s = some (path, rest)) (single : '\n' ∉ path) : '\r' ∉ path := by
  obtain ⟨quote, closing, closes, rfl⟩ := exists_quotes_of_takePath? taken
  intro member
  obtain ⟨front, back, rfl⟩ := List.append_of_mem member
  have return_ : Proper ('\r' :: (back ++ closing :: rest)) :=
    proper.of_suffix ⟨quote :: front, by simp⟩
  obtain ⟨t, feed⟩ := return_.return
  cases back with
  | nil =>
    obtain rfl : closing = '\n' := (List.cons.inj feed).1
    cases closes
  | cons c back =>
    obtain rfl : c = '\n' := (List.cons.inj feed).1
    exact single (by simp)

theorem afterLineEnd_withoutReturns (proper : Proper s) :
    afterLineEnd (withoutReturns s) = withoutReturns (afterLineEnd s) := by
  have spaces := proper.of_suffix (dropSpaces_suffix s)
  rw [afterLineEnd, afterLineEnd, dropSpaces_withoutReturns proper]
  generalize dropSpaces s = t at spaces ⊢
  cases t with
  | nil => rfl
  | cons c t =>
    by_cases return_ : c = '\r'
    · subst return_
      obtain ⟨rest, rfl⟩ := spaces.return
      rfl
    · rw [withoutReturns_cons return_]
      by_cases feed : c = '\n'
      · subst feed
        rfl
      · simp [return_, feed]

/-- A directive is found in a proper text where it is found without carriage returns. -/
theorem directive_withoutReturns (proper : Proper s) (before : Option Char) :
    directive before (withoutReturns s) = (directive before s).map fun hit =>
      (⟨withoutReturns hit.1.path⟩, withoutReturns hit.2) := by
  by_cases start : mayStart before = true
  case neg => rw [directive, directive, if_neg start, if_neg start]; rfl
  have spaces := proper.of_suffix (dropSpaces_suffix s)
  rw [directive, directive, if_pos start, if_pos start, dropSpaces_withoutReturns proper,
    (indifferent_after? (by decide)).same spaces]
  cases word : after? "import" (dropSpaces s) with
  | none => rfl
  | some behind =>
  have behind_proper := spaces.of_suffix (suffix_of_after? word)
  simp only [Option.bind_eq_bind, Option.map_some, Option.bind_some]
  rw [indifferent_dropBlanks1?.same behind_proper]
  cases blanks : dropBlanks1? behind with
  | none => rfl
  | some left =>
  have left_proper := behind_proper.of_suffix (suffix_of_dropBlanks1? blanks)
  have clause_proper := left_proper.of_suffix (getD_suffix suffix_of_afterClause? left)
  simp only [Option.map_some, Option.bind_some]
  rw [indifferent_afterClause?.getD left_proper, takePath?_withoutReturns clause_proper]
  cases taken : takePath? ((afterClause? left).getD left) with
  | none => rfl
  | some taken' =>
  obtain ⟨path, a⟩ := taken'
  have a_proper := clause_proper.of_suffix (suffix_of_takePath? taken)
  have alias_proper := a_proper.of_suffix (getD_suffix suffix_of_afterAlias? a)
  simp only [Option.map_some, Option.bind_some]
  rw [indifferent_afterAlias?.getD a_proper, dropBlanks_withoutReturns alias_proper,
    (indifferent_after? (by decide)).same (alias_proper.of_suffix (dropBlanks_suffix _))]
  cases semicolon : after? ";" (dropBlanks ((afterAlias? a).getD a)) with
  | none => rfl
  | some b =>
  have b_proper := (alias_proper.of_suffix (dropBlanks_suffix _)).of_suffix
    (suffix_of_after? semicolon)
  simp only [Option.map_some, Option.bind_some, Option.pure_def]
  rw [afterLineEnd_withoutReturns b_proper]

end Import

/-! ## Preamble lines -/

namespace Preamble

variable {s : Text}

theorem afterStatement_withoutReturns (proper : Proper s) :
    afterStatement (withoutReturns s) = withoutReturns (afterStatement s) := by
  have spaces := proper.of_suffix (dropSpaces_suffix s)
  rw [afterStatement, afterStatement, dropSpaces_withoutReturns proper]
  generalize dropSpaces s = t at spaces ⊢
  cases t with
  | nil => rfl
  | cons c t =>
    by_cases return_ : c = '\r'
    · subst return_
      obtain ⟨rest, rfl⟩ := spaces.return
      rfl
    · rw [withoutReturns_cons return_]
      by_cases feed : c = '\n'
      · subst feed
        rfl
      · simp [return_, feed, withoutReturns_cons return_]

/-! ### License lines -/

theorem behindLine_withoutReturns (proper : Proper s) :
    behindLine (withoutReturns s) = withoutReturns (behindLine s) := by
  rw [behindLine, behindLine, dropWhile_withoutReturns (fun _ => rfl) proper]
  have ending := stops_dropWhile (· != '\n') s
  generalize s.dropWhile (· != '\n') = t at ending ⊢
  cases t with
  | nil => rfl
  | cons c rest =>
    obtain rfl : c = '\n' := by simpa using stops_cons.mp ending
    rw [withoutReturns_cons (by decide)]

/-- A license line is found in a proper text where it is found without carriage returns. -/
theorem license_withoutReturns (proper : Proper s) (before : Option Char) :
    license before (withoutReturns s) =
      (license before s).map fun hit => (hit.1, withoutReturns hit.2) := by
  by_cases start : atLineStart before = true
  case neg => rw [license, license, if_neg start, if_neg start]; rfl
  have spaces := proper.of_suffix (dropSpaces_suffix s)
  rw [license_eq start, license_eq start, dropSpaces_withoutReturns proper,
    (indifferent_after? (by decide)).same spaces]
  cases slashes : after? "//" (dropSpaces s) with
  | none => rfl
  | some comment =>
  have comment_proper := spaces.of_suffix (suffix_of_after? slashes)
  have blanks := comment_proper.of_suffix (dropBlanks_suffix comment)
  simp only [Option.map_some, Option.bind_some]
  rw [dropBlanks_withoutReturns comment_proper, (indifferent_after? (by decide)).same blanks]
  cases name : after? "SPDX-License-Identifier:" (dropBlanks comment) with
  | none => rfl
  | some left =>
  simp only [Option.map_some]
  rw [behindLine_withoutReturns (blanks.of_suffix (suffix_of_after? name))]

/-! ### Version pragmas -/

/-- Without carriage returns a proper text is a version if it was one, unless it is only a line
break. -/
theorem isVersion_withoutReturns {body : Text} (proper : Proper body)
    (more : body ≠ "\r\n".toList) : isVersion (withoutReturns body) = isVersion body := by
  cases body with
  | nil => rfl
  | cons c s =>
    by_cases return_ : c = '\r'
    · subst return_
      obtain ⟨t, rfl⟩ := proper.return
      have some_text : t ≠ [] := by
        rintro rfl
        exact more rfl
      have left : 1 ≤ (withoutReturns t).length :=
        List.length_pos_iff.mpr (proper.2.2.withoutReturns_ne_nil some_text)
      have blanks : isBlank '\r' = true ∧ isBlank '\n' = true := by decide
      rw [withoutReturns_return, withoutReturns_cons (by decide)]
      simp [isVersion, blanks, left]
    · rw [withoutReturns_cons return_]
      by_cases nothing : s = []
      · rw [nothing]
        rfl
      · have left : 1 ≤ (withoutReturns s).length :=
          List.length_pos_iff.mpr (proper.2.withoutReturns_ne_nil nothing)
        have before : 1 ≤ s.length := List.length_pos_iff.mpr nothing
        simp [isVersion, left, before]

/-- Behind `solidity` the same is read without carriage returns, if more stands there than one line
break. -/
theorem behindSolidity?_withoutReturns (proper : Proper s)
    (more : ∀ rest, s ≠ "\r\n;".toList ++ rest) :
    behindSolidity? (withoutReturns s) = (behindSolidity? s).map withoutReturns := by
  by_cases member : ';' ∈ s
  case neg =>
    have none : ∀ {s : Text}, ';' ∉ s → behindSolidity? s = none := fun absent =>
      Option.eq_none_iff_forall_ne_some.mpr fun _ read => absent (mem_of_behindSolidity? read)
    rw [none member, none fun inside => member ((withoutReturns_sublist s).subset inside)]
    rfl
  obtain ⟨body, rest, rfl, inside⟩ := List.eq_append_cons_of_mem member
  have inside' : ';' ∉ withoutReturns body := fun member =>
    inside ((withoutReturns_sublist body).subset member)
  rw [withoutReturns_append, withoutReturns_cons (by decide), behindSolidity?_semicolon inside,
    behindSolidity?_semicolon inside', isVersion_withoutReturns (proper.left (by simp)),
    afterStatement_withoutReturns]
  · split <;> rfl
  · exact (proper.of_suffix (List.suffix_append body _)).2
  · rintro rfl
    exact more rest rfl

/-- A version pragma with nothing but a line break of two characters before its semicolon. -/
def BareVersion (s : Text) : Prop :=
  (((after? "pragma" (dropSpaces s)).bind dropBlanks1?).bind
    (after? "solidity\r\n;")).isSome = true

/-- A version pragma is found in a proper text where it is found without carriage returns, unless
it is bare: without them there is only one character before the semicolon. -/
theorem versionPragma_withoutReturns (proper : Proper s)
    (more : ¬ BareVersion s) (before : Option Char) :
    versionPragma before (withoutReturns s) =
      (versionPragma before s).map fun hit => (hit.1, withoutReturns hit.2) := by
  by_cases start : atLineStart before = true
  case neg => rw [versionPragma, versionPragma, if_neg start, if_neg start]; rfl
  have spaces := proper.of_suffix (dropSpaces_suffix s)
  rw [versionPragma_eq start, versionPragma_eq start, dropSpaces_withoutReturns proper,
    (indifferent_after? (by decide)).same spaces]
  cases word : after? "pragma" (dropSpaces s) with
  | none => rfl
  | some behind =>
  have behind_proper := spaces.of_suffix (suffix_of_after? word)
  simp only [Option.map_some, Option.bind_some, behindPragma?]
  rw [indifferent_dropBlanks1?.same behind_proper]
  cases blanks : dropBlanks1? behind with
  | none => rfl
  | some left =>
  have left_proper := behind_proper.of_suffix (suffix_of_dropBlanks1? blanks)
  simp only [Option.map_some, Option.bind_some]
  rw [(indifferent_after? (by decide)).same left_proper]
  cases name : after? "solidity" left with
  | none => rfl
  | some body =>
  simp only [Option.map_some, Option.bind_some]
  rw [behindSolidity?_withoutReturns (left_proper.of_suffix (suffix_of_after? name))]
  · cases behindSolidity? body <;> rfl
  · rintro rest rfl
    refine more ?_
    have bare : after? "solidity\r\n;" left = some rest := by
      rw [after?_eq_some_iff.mp name]
      exact after?_append "solidity\r\n;".toList rest
    rw [BareVersion, word, Option.bind_some, blanks, Option.bind_some, bare]
    rfl

example : versionPragma none "pragma solidity\r\n;\r\n".toList = some ((), []) ∧
    versionPragma none "pragma solidity\n;\n".toList = none := by
  decide +kernel

/-! ### Feature pragmas -/

theorem indifferent_afterExperimental? : Indifferent afterExperimental? :=
  (indifferent_after? (by decide)).bind indifferent_dropBlanks1?

theorem dropQuote_withoutReturns (proper : Proper s) :
    dropQuote (withoutReturns s) = withoutReturns (dropQuote s) := by
  cases s with
  | nil => rfl
  | cons c s =>
    by_cases return_ : c = '\r'
    · subst return_
      obtain ⟨t, rfl⟩ := proper.return
      rfl
    · rw [withoutReturns_cons return_]
      unfold dropQuote
      split
      · next same =>
        cases same
        rfl
      · next same =>
        cases same
        rfl
      · next double single =>
        split
        · next same =>
          exact absurd (congrArg (· :: withoutReturns s) (List.cons.inj same).1) (double _)
        · next same =>
          exact absurd (congrArg (· :: withoutReturns s) (List.cons.inj same).1) (single _)
        · exact (withoutReturns_cons return_ s).symm

theorem takeFeature?_withoutReturns (proper : Proper s) :
    takeFeature? (withoutReturns s) =
      (takeFeature? s).map fun taken => (taken.1, withoutReturns taken.2) := by
  rw [takeFeature?, takeFeature?, List.map_findSome?]
  congr 1
  funext feature
  have single : ∀ c ∈ feature.name, c ≠ '\r' ∧ c ≠ '\n' := by
    cases feature <;> decide
  rw [(indifferent_after? single).same proper]
  simp only [Function.comp]
  cases name : after? feature.name s with
  | none => rfl
  | some rest =>
    simp only [Option.map_some]
    rw [atWordEnd_withoutReturns (proper.of_suffix (suffix_of_after? name))]
    split <;> rfl

/-- A feature pragma is found in a proper text where it is found without carriage returns. -/
theorem featurePragma_withoutReturns (proper : Proper s) (before : Option Char) :
    featurePragma before (withoutReturns s) =
      (featurePragma before s).map fun hit => (hit.1, withoutReturns hit.2) := by
  by_cases start : atLineStart before = true
  case neg => rw [featurePragma, featurePragma, if_neg start, if_neg start]; rfl
  have spaces := proper.of_suffix (dropSpaces_suffix s)
  rw [featurePragma, featurePragma, if_pos start, if_pos start, dropSpaces_withoutReturns proper,
    (indifferent_after? (by decide)).same spaces]
  cases word : after? "pragma" (dropSpaces s) with
  | none => rfl
  | some behind =>
  have behind_proper := spaces.of_suffix (suffix_of_after? word)
  simp only [Option.bind_eq_bind, Option.map_some, Option.bind_some]
  rw [indifferent_dropBlanks1?.same behind_proper]
  cases blanks : dropBlanks1? behind with
  | none => rfl
  | some left =>
  have left_proper := behind_proper.of_suffix (suffix_of_dropBlanks1? blanks)
  have named_proper := left_proper.of_suffix (getD_suffix suffix_of_afterExperimental? left)
  have quoted_proper := named_proper.of_suffix (dropQuote_suffix _)
  simp only [Option.map_some, Option.bind_some]
  rw [indifferent_afterExperimental?.getD left_proper, dropQuote_withoutReturns named_proper,
    takeFeature?_withoutReturns quoted_proper]
  cases taken : takeFeature? (dropQuote ((afterExperimental? left).getD left)) with
  | none => rfl
  | some taken' =>
  obtain ⟨feature, body⟩ := taken'
  have body_proper := quoted_proper.of_suffix (suffix_of_takeFeature? taken)
  simp only [Option.map_some, Option.bind_some]
  rw [dropWhile_withoutReturns (fun impossible => by revert impossible; decide) body_proper]
  have statement_proper := body_proper.of_suffix
    (List.dropWhile_suffix (l := body) fun c => c != ';' && c != '\n')
  have ending := stops_dropWhile (fun c => c != ';' && c != '\n') body
  generalize body.dropWhile _ = statement at statement_proper ending ⊢
  cases statement with
  | nil => rfl
  | cons c rest =>
    by_cases semicolon : c = ';'
    · subst semicolon
      rw [withoutReturns_cons (by decide)]
      simp only [Option.pure_def, Option.map_some, afterStatement_withoutReturns statement_proper.2]
    · obtain rfl : c = '\n' := by simpa [semicolon] using stops_cons.mp ending
      rw [withoutReturns_cons (by decide)]
      rfl

end Preamble

/-! ## Runs of blank lines -/

namespace BlankLines

variable {s : Text}

theorem dropBlankLines_withoutReturns (count : Nat) (line : Text) (proper : Proper s) :
    dropBlankLines count (withoutReturns line) (withoutReturns s) =
      ((dropBlankLines count line s).1, withoutReturns (dropBlankLines count line s).2) := by
  induction s using lineBreak_induction generalizing count line with
  | nil => rfl
  | lineBreak lineBreak s ih =>
    cases lineBreak with
    | lf => exact ih (count + 1) s proper.2
    | crlf => exact ih (count + 1) s proper.2.2
  | cons c s none ih =>
    obtain ⟨noFeed, alone⟩ := takeBreak?_cons_eq_none_iff.mp none
    have solid : c ≠ '\r' := by
      rintro rfl
      exact alone rfl (proper.1 rfl)
    have still : takeBreak? (c :: withoutReturns s) = .none :=
      takeBreak?_cons_eq_none_iff.mpr ⟨noFeed, fun same => absurd same solid⟩
    rw [withoutReturns_cons solid, dropBlankLines_cons still, dropBlankLines_cons none]
    split
    · exact ih count line proper.2
    · rfl

/-- A run of blank lines is found in a proper text where it is found without carriage returns. -/
theorem run_withoutReturns (proper : Proper s) (before early : Option Char) :
    run early (withoutReturns s) =
      (run before s).map fun hit => (.lf, withoutReturns hit.2) := by
  have count : ∀ {t : Text}, Proper t → blankLines (withoutReturns t) = blankLines t := by
    intro t proper
    have same := dropBlankLines_count 0 (withoutReturns t) (withoutReturns t)
    rw [dropBlankLines_withoutReturns 0 t proper, dropBlankLines_count] at same
    simpa using same.symm
  rw [run_eq, run_eq]
  cases s with
  | nil => rfl
  | cons c s =>
    by_cases return_ : c = '\r'
    · subst return_
      obtain ⟨t, rfl⟩ := proper.return
      rw [withoutReturns_return, withoutReturns_cons (by decide)]
      simp only [takeBreak?, Option.bind_some, count proper.2.2,
        dropBlankLines_withoutReturns 0 t proper.2.2]
      split <;> rfl
    · rw [withoutReturns_cons return_]
      by_cases feed : c = '\n'
      · subst feed
        simp only [takeBreak?, Option.bind_some, count proper.2,
          dropBlankLines_withoutReturns 0 s proper.2]
        split <;> rfl
      · simp [takeBreak?, feed, return_]

end BlankLines

end TokenForge
