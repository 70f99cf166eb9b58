import TokenForge.Flatten.Preamble
import TokenForge.Import.Directive
import TokenForge.Proofs.Text.Reading
import TokenForge.Proofs.Text.Scan

/-!
# Where directives and preamble lines start

A directive starts at the beginning of a line or behind a semicolon, and a license line
or a pragma at the beginning of a line.  Whatever its form, a hit covers some text and
goes on with what is left of it: no part of a recogniser reads anywhere else.
-/

namespace TokenForge

open Text

/-! ## Directives -/

namespace Import

theorem suffix_of_afterNames? {s rest : Text} (h : afterNames? s = some rest) : rest <:+ s := by
  unfold afterNames? at h
  split at h
  · next s =>
    have braces := List.dropWhile_suffix (l := s) (· != '}')
    split at h
    · cases h
    · next after closing =>
      cases h
      rw [closing] at braces
      calc rest
        _ <:+ _ := List.suffix_cons _ rest
        _ <:+ s := braces
        _ <:+ '{' :: s := List.suffix_cons _ s
  · next s =>
    simp only [Option.bind_eq_bind, Option.bind_eq_some_iff] at h
    obtain ⟨a, blanks, b, as_, c, more, word⟩ := h
    calc rest
      _ <:+ c := suffix_of_afterWord? word
      _ <:+ b := suffix_of_dropBlanks1? more
      _ <:+ a := suffix_of_after? as_
      _ <:+ s := suffix_of_dropBlanks1? blanks
      _ <:+ '*' :: s := List.suffix_cons _ s
  · exact suffix_of_afterWord? h

theorem suffix_of_afterClause? {s rest : Text} (h : afterClause? s = some rest) : rest <:+ s := by
  simp only [afterClause?, Option.bind_eq_bind, Option.bind_eq_some_iff] at h
  obtain ⟨a, names, b, blanks, c, from_, more⟩ := h
  calc rest
    _ <:+ c := suffix_of_dropBlanks1? more
    _ <:+ b := suffix_of_after? from_
    _ <:+ a := suffix_of_dropBlanks1? blanks
    _ <:+ s := suffix_of_afterNames? names

theorem suffix_of_afterAlias? {s rest : Text} (h : afterAlias? s = some rest) : rest <:+ s := by
  simp only [afterAlias?, Option.bind_eq_bind, Option.bind_eq_some_iff] at h
  obtain ⟨a, blanks, b, as_, c, more, word⟩ := h
  calc rest
    _ <:+ c := suffix_of_afterWord? word
    _ <:+ b := suffix_of_dropBlanks1? more
    _ <:+ a := suffix_of_after? as_
    _ <:+ s := suffix_of_dropBlanks1? blanks

theorem suffix_of_takePath? {s path rest : Text} (h : takePath? s = some (path, rest)) :
    rest <:+ s := by
  cases s with
  | nil => cases h
  | cons quote s =>
    have closing := List.dropWhile_suffix (l := s) (!isQuote ·)
    rw [takePath?, Option.ite_none_right_eq_some] at h
    obtain ⟨_, h⟩ := h
    split at h
    · cases h
    · cases h
    · next left _ =>
      cases h
      rw [left] at closing
      calc rest
        _ <:+ _ := List.suffix_cons _ rest
        _ <:+ s := closing
        _ <:+ quote :: s := List.suffix_cons quote s

theorem afterLineEnd_suffix (s : Text) : afterLineEnd s <:+ s := by
  have spaces := dropSpaces_suffix s
  unfold afterLineEnd
  split
  · exact List.nil_suffix
  · next rest left =>
    rw [left] at spaces
    exact (List.suffix_cons '\n' rest).trans spaces
  · next rest left =>
    rw [left] at spaces
    calc rest
      _ <:+ '\n' :: rest := List.suffix_cons _ rest
      _ <:+ '\r' :: '\n' :: rest := List.suffix_cons _ _
      _ <:+ s := spaces
  · exact List.suffix_refl s

/-- A directive is `import` and white space, behind spaces and tabs, where one may start. -/
theorem directive_eq_some {before : Option Char} {s rest : Text} {d : Directive}
    (h : directive before s = some (d, rest)) :
    mayStart before = true ∧ ∃ behind left, after? "import" (dropSpaces s) = some behind ∧
      dropBlanks1? behind = some left ∧ rest <:+ left := by
  rw [directive, Option.ite_none_right_eq_some] at h
  obtain ⟨start, h⟩ := h
  simp only [Option.bind_eq_bind, Option.bind_eq_some_iff, Option.pure_def, Option.some.injEq,
    Prod.mk.injEq] at h
  obtain ⟨behind, word, left, blanks, ⟨path, a⟩, taken, b, semicolon, _, rfl⟩ := h
  refine ⟨start, behind, left, word, blanks, ?_⟩
  calc afterLineEnd b
    _ <:+ b := afterLineEnd_suffix b
    _ <:+ dropBlanks ((afterAlias? a).getD a) := suffix_of_after? semicolon
    _ <:+ (afterAlias? a).getD a := dropBlanks_suffix _
    _ <:+ a := getD_suffix suffix_of_afterAlias? a
    _ <:+ (afterClause? left).getD left := suffix_of_takePath? taken
    _ <:+ left := getD_suffix suffix_of_afterClause? left

theorem directive_anchored : Anchored mayStart directive := by
  intro before s d rest h
  obtain ⟨start, behind, left, word, blanks, suffix⟩ := directive_eq_some h
  exact ⟨start, covered_of_word (by simp) word (suffix.trans (suffix_of_dropBlanks1? blanks))⟩

end Import

/-! ## Preamble lines -/

namespace Preamble

theorem afterStatement_suffix (s : Text) : afterStatement s <:+ s := by
  have spaces := dropSpaces_suffix s
  unfold afterStatement
  generalize dropSpaces s = t at spaces ⊢
  split
  · next after =>
    have behind : after <:+ s := (List.suffix_cons '\r' after).trans spaces
    dsimp only
    split
    · next rest feed =>
      rw [feed] at behind
      exact (List.suffix_cons '\n' rest).trans behind
    · exact behind
  · dsimp only
    split
    · next rest feed =>
      rw [feed] at spaces
      exact (List.suffix_cons '\n' rest).trans spaces
    · exact spaces

theorem license_anchored : Anchored atLineStart license := by
  intro before s _ rest h
  rw [license, Option.ite_none_right_eq_some] at h
  obtain ⟨start, h⟩ := h
  simp only [Option.bind_eq_bind, Option.bind_eq_some_iff, Option.pure_def] at h
  obtain ⟨behind, word, left, name, h⟩ := h
  have line := List.dropWhile_suffix (l := left) (· != '\n')
  have suffix : rest <:+ left := by
    split at h
    · cases h
      exact List.nil_suffix
    · next ending =>
      cases h
      rw [ending] at line
      exact (List.suffix_cons _ rest).trans line
  refine ⟨start, covered_of_word (by simp) word ?_⟩
  calc rest
    _ <:+ left := suffix
    _ <:+ dropBlanks behind := suffix_of_after? name
    _ <:+ behind := dropBlanks_suffix behind

theorem versionPragma_anchored : Anchored atLineStart versionPragma := by
  intro before s _ rest h
  rw [versionPragma, Option.ite_none_right_eq_some] at h
  obtain ⟨start, h⟩ := h
  simp only [Option.bind_eq_bind, Option.bind_eq_some_iff, Option.pure_def] at h
  obtain ⟨behind, word, left, blanks, body, name, h⟩ := h
  have statement := List.dropWhile_suffix (l := body) (· != ';')
  have suffix : rest <:+ body := by
    split at h
    · next after _ ending =>
      rw [Option.ite_none_right_eq_some] at h
      obtain ⟨_, ⟨⟩⟩ := h
      rw [ending] at statement
      exact ((afterStatement_suffix after).trans (List.suffix_cons _ after)).trans statement
    · cases h
  refine ⟨start, covered_of_word (by simp) word ?_⟩
  calc rest
    _ <:+ body := suffix
    _ <:+ left := suffix_of_after? name
    _ <:+ behind := suffix_of_dropBlanks1? blanks

theorem suffix_of_afterExperimental? {s rest : Text} (h : afterExperimental? s = some rest) :
    rest <:+ s := by
  simp only [afterExperimental?, Option.bind_eq_bind, Option.bind_eq_some_iff] at h
  obtain ⟨a, word, blanks⟩ := h
  exact (suffix_of_dropBlanks1? blanks).trans (suffix_of_after? word)

theorem dropQuote_suffix (s : Text) : dropQuote s <:+ s := by
  unfold dropQuote
  split
  · exact List.suffix_cons _ _
  · exact List.suffix_cons _ _
  · exact List.suffix_refl _

theorem suffix_of_takeFeature? {s rest : Text} {feature : Feature}
    (h : takeFeature? s = some (feature, rest)) : rest <:+ s := by
  obtain ⟨named, _, h⟩ := List.exists_of_findSome?_eq_some h
  split at h
  · next name =>
    rw [Option.ite_none_right_eq_some] at h
    obtain ⟨_, ⟨⟩⟩ := h
    exact suffix_of_after? name
  · cases h

theorem featurePragma_anchored : Anchored atLineStart featurePragma := by
  intro before s feature rest h
  rw [featurePragma, Option.ite_none_right_eq_some] at h
  obtain ⟨start, h⟩ := h
  simp only [Option.bind_eq_bind, Option.bind_eq_some_iff, Option.pure_def] at h
  obtain ⟨behind, word, left, blanks, ⟨named, body⟩, taken, h⟩ := h
  have statement := List.dropWhile_suffix (l := body) fun c => c != ';' && c != '\n'
  have suffix : rest <:+ body := by
    split at h
    · next after ending =>
      cases h
      rw [ending] at statement
      exact ((afterStatement_suffix after).trans (List.suffix_cons _ after)).trans statement
    · cases h
  refine ⟨start, covered_of_word (by simp) word ?_⟩
  calc rest
    _ <:+ body := suffix
    _ <:+ dropQuote ((afterExperimental? left).getD left) := suffix_of_takeFeature? taken
    _ <:+ (afterExperimental? left).getD left := dropQuote_suffix _
    _ <:+ left := getD_suffix suffix_of_afterExperimental? left
    _ <:+ behind := suffix_of_dropBlanks1? blanks

end Preamble

end TokenForge
