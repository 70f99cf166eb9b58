import TokenForge.Proofs.Compile.Closure
import TokenForge.Proofs.Flatten.DepthLimit
import TokenForge.Proofs.Import.Manuscript
import TokenForge.Proofs.Solidity.Lexical

/-!
# Directives in comments

A scan for directives looks at the character before a position and not at comments.  The
`keywords` of a source are the places where its directives have their `import`, and those
outside of comments are the `live` ones.

A keyword in a comment stands behind a semicolon of the comment, or behind a line feed of a
comment between `/*` and `*/` (`marked_of_inComment`).  So what begins a line is not found
behind two slashes.  A source is `Uncommented` if its comments hold no such place.  Then every
directive is live, and only what live directives bring in is flattened or compiled.  A
directive in a comment, where one may start, is found like any other.
-/

namespace TokenForge

namespace Import

open Text
open Flatten (Expands Expansion Imports Lookup Reaches Session flattenSource importedBy)
open Solidity (InComment Mode inComment_append modeAfter modeAfter_append)

/-! ## Keywords -/

/-- The directives among pieces, each with the text before its `import`.  The text `read` stands
before the pieces. -/
def keywordsFrom (read : Text) : List (Piece Directive) → List (Text × Directive)
  | [] => []
  | .char c :: pieces => keywordsFrom (read ++ [c]) pieces
  | .hit d covered :: pieces =>
    (read ++ covered.takeWhile isSpaceOrTab, d) :: keywordsFrom (read ++ covered) pieces

/-- The directives of a source, each with the text before its `import`. -/
def keywords (source : Text) : List (Text × Directive) := keywordsFrom [] (pieces directive source)

/-- The paths that the directives import whose `import` stands in no comment. -/
def livePaths (source : Text) (importer : Option Text) : List Text :=
  ((keywords source).filter fun keyword => !decide (InComment keyword.1)).map
    fun keyword => resolve keyword.2.path importer

/-- A text ends with spaces and tabs behind a semicolon in a comment, or behind a line feed in a
comment that ends with an asterisk and a slash. -/
def Marked (s : Text) : Prop :=
  ∃ read mark spaces, s = read ++ mark :: spaces ∧ (∀ c ∈ spaces, isSpaceOrTab c = true) ∧
    (mark = ';' ∧ InComment read ∨ mark = '\n' ∧ modeAfter (read ++ [mark]) = .blockComment)

/-- Whether a text begins with `import` and white space, behind spaces and tabs. -/
def startsImport (s : Text) : Bool := ((after? "import" (dropSpaces s)).bind dropBlanks1?).isSome

/-- No comment of a source holds `import` and white space where a directive may start. -/
def Uncommented (source : Text) : Prop :=
  ∀ read left, source = read ++ left → InComment read → Closed read → startsImport left = false

/-- Whether this holds of the comment at a position. -/
def isUncommentedAt (source : Text) (n : Nat) : Bool :=
  !(decide (InComment (source.take n)) && mayStart (source.take n).getLast? &&
    startsImport (source.drop n))

theorem uncommented_iff {source : Text} :
    (List.range (source.length + 1)).all (isUncommentedAt source) = true ↔
      Uncommented source := by
  rw [List.all_eq_true]
  constructor
  · rintro h read left rfl comment closed
    have inside : read.length ∈ List.range ((read ++ left).length + 1) := by
      rw [List.mem_range, List.length_append]
      omega
    have here := h read.length inside
    rw [isUncommentedAt, List.take_left, List.drop_left,
      show mayStart read.getLast? = true from closed] at here
    simpa [comment] using here
  · intro h n _
    rw [isUncommentedAt, Bool.not_eq_true', Bool.and_eq_false_imp, Bool.and_eq_true,
      decide_eq_true_eq]
    rintro ⟨comment, closed⟩
    exact h _ _ (List.take_append_drop n source).symm comment closed

instance (source : Text) : Decidable (Uncommented source) := decidable_of_iff _ uncommented_iff

section Keywords

variable {read source s : Text} {pieces : List (Piece Directive)} {keyword : Text × Directive}

theorem map_keywordsFrom (read : Text) (pieces : List (Piece Directive)) :
    (keywordsFrom read pieces).map Prod.snd = found pieces := by
  induction pieces generalizing read with
  | nil => rfl
  | cons piece pieces ih =>
    cases piece with
    | char c => exact ih (read ++ [c])
    | hit d covered => exact congrArg (d :: ·) (ih (read ++ covered))

theorem keywordsFrom_chars (read s : Text) (pieces : List (Piece Directive)) :
    keywordsFrom read (s.map .char ++ pieces) = keywordsFrom (read ++ s) pieces := by
  induction s generalizing read with
  | nil => rw [List.append_nil]; rfl
  | cons c s ih =>
    rw [List.map_cons, List.cons_append, keywordsFrom, ih, List.append_assoc]
    rfl

/-- Where all directives are live, the live paths are all paths. -/
theorem livePaths_eq (h : ∀ keyword ∈ keywords source, ¬ InComment keyword.1)
    (importer : Option Text) : livePaths source importer = paths source importer := by
  have all : (keywords source).filter (fun keyword => !decide (InComment keyword.1)) =
      keywords source := by
    rw [List.filter_eq_self]
    intro keyword member
    simpa using h keyword member
  rw [livePaths, all, paths, hits, ← found, ← map_keywordsFrom [], List.map_map]
  rfl

/-- What a hit covers begins with spaces and tabs, `import` and white space. -/
theorem startsImport_of_directive {before : Option Char} {s rest : Text} {d : Directive}
    (h : directive before s = some (d, rest)) : startsImport s = true := by
  obtain ⟨_, behind, left, word, blanks, _⟩ := directive_eq_some h
  rw [startsImport, word, Option.bind_some, blanks]
  rfl

/-- A hit covers `import` and the spaces and tabs before it. -/
theorem covered_of_directive {before : Option Char} {covered rest : Text} {d : Directive}
    (h : directive before (covered ++ rest) = some (d, rest)) :
    ∃ more, covered = covered.takeWhile isSpaceOrTab ++ ("import" ++ more) := by
  have word (s : Text) : Stops isSpaceOrTab ("import".toList ++ s) := stops_append rfl rfl
  obtain ⟨_, behind, left, read, blanks, suffix⟩ := directive_eq_some h
  obtain ⟨spaces, blank, whole⟩ := exists_spaces (covered ++ rest)
  obtain ⟨more, rfl⟩ := suffix.trans (suffix_of_dropBlanks1? blanks)
  have covers : covered = spaces ++ ("import" ++ more) := by
    rw [after?_eq_some_iff.mp read] at whole
    exact @List.append_cancel_right _ covered rest _ (by simpa using whole)
  refine ⟨more, ?_⟩
  rw [covers, takeWhile_append_of_stops blank (word more)]

/-- A keyword is an `import` that stands, behind spaces and tabs, where a directive may start. -/
theorem mem_keywordsFrom {before : Option Char} (last : charBefore none read = before)
    (member : keyword ∈ keywordsFrom read (piecesFrom directive 0 before s)) :
    ∃ front spaces left, read ++ s = front ++ (spaces ++ ("import" ++ left)) ∧ Closed front ∧
      (∀ c ∈ spaces, isSpaceOrTab c = true) ∧ keyword.1 = front ++ spaces ∧
      startsImport (spaces ++ ("import" ++ left)) = true := by
  induction before, s using scan_induction directive_anchored generalizing read with
  | done before => cases member
  | miss before c s missed ih =>
    rw [piecesFrom_miss missed] at member
    obtain ⟨front, spaces, left, split, keyword⟩ := ih (by rw [charBefore_append]; rfl) member
    exact ⟨front, spaces, left, by rw [← split, List.append_assoc]; rfl, keyword⟩
  | hit before covered rest d start some_text hit ih =>
    rw [piecesFrom_hit hit some_text] at member
    rcases List.mem_cons.mp member with rfl | later
    · obtain ⟨more, covers⟩ := covered_of_directive hit
      have starts := startsImport_of_directive hit
      have whole : covered ++ rest =
          covered.takeWhile isSpaceOrTab ++ ("import" ++ (more ++ rest)) := by
        conv => lhs; rw [covers]
        simp only [List.append_assoc]
      rw [whole] at starts ⊢
      refine ⟨read, _, more ++ rest, rfl, ?_, fun c inside => List.mem_takeWhile_imp inside, rfl,
        starts⟩
      by_cases nothing : read = []
      · rw [nothing]
        exact closed_nil
      · rw [Closed, ← charBefore_eq_getLast? none nothing, last]
        exact start
    · obtain ⟨front, spaces, left, split, keyword⟩ := ih (by rw [charBefore_append, last]) later
      exact ⟨front, spaces, left, by rw [← split, List.append_assoc], keyword⟩

theorem inComment_append_spaces (s : Text) {spaces : Text}
    (blank : ∀ c ∈ spaces, isSpaceOrTab c = true) : InComment (s ++ spaces) ↔ InComment s := by
  refine inComment_append s fun c member => ?_
  have space := blank c member
  simp only [isSpaceOrTab, Bool.or_eq_true, beq_iff_eq] at space
  rcases space with rfl | rfl <;> decide

/-- A keyword in a comment stands behind a mark of the comment. -/
theorem marked_of_inComment (member : keyword ∈ keywords source)
    (comment : InComment keyword.1) : Marked keyword.1 := by
  obtain ⟨front, spaces, left, _, closed, blank, same, _⟩ := mem_keywordsFrom rfl member
  rw [same, inComment_append_spaces front blank] at comment
  rcases List.eq_nil_or_concat front with rfl | ⟨read, mark, rfl⟩
  · cases comment
  rw [List.concat_eq_append] at *
  refine ⟨read, mark, spaces, by rw [same, List.append_assoc]; rfl, blank, ?_⟩
  rw [Closed, List.getLast?_concat] at closed
  simp only [mayStart, Bool.or_eq_true, beq_iff_eq] at closed
  rcases closed with rfl | rfl
  · rw [InComment, modeAfter_append] at comment
    rw [modeAfter_append]
    exact .inr ⟨rfl, (modeAfter read).next_lineFeed comment⟩
  · exact .inl ⟨rfl, (inComment_append read (by decide)).mp comment⟩

/-- In a source without such comments every directive is live. -/
theorem Uncommented.live (h : Uncommented source) :
    ∀ keyword ∈ keywords source, ¬ InComment keyword.1 := by
  intro keyword member comment
  obtain ⟨front, spaces, left, split, closed, blank, same, starts⟩ := mem_keywordsFrom rfl member
  rw [same, inComment_append_spaces front blank] at comment
  rw [h front _ split comment closed] at starts
  cases starts

end Keywords

/-! ## What live directives import -/

/-- The file of a path holds a directive for another outside of its comments. -/
def LiveImports (lookup : Lookup) (path target : Text) : Prop :=
  ∃ content, lookup path = some content ∧ target ∈ livePaths content (some path)

/-- A path leads to another through imports outside of comments. -/
abbrev LiveReaches (lookup : Lookup) : Text → Text → Prop :=
  Relation.ReflTransGen (LiveImports lookup)

/-- Every file of a look-up is uncommented. -/
def UncommentedFiles (lookup : Lookup) : Prop :=
  ∀ path content, lookup path = some content → Uncommented content

/-- In uncommented files all imports are live. -/
theorem UncommentedFiles.imports_eq {lookup : Lookup} (h : UncommentedFiles lookup) :
    Imports lookup = LiveImports lookup := by
  funext path target
  refine propext (exists_congr fun content => and_congr_right fun found => ?_)
  rw [livePaths_eq (h path content found).live]

theorem UncommentedFiles.reaches_eq {lookup : Lookup} (h : UncommentedFiles lookup) :
    Reaches lookup = LiveReaches lookup := by
  unfold Reaches LiveReaches
  rw [h.imports_eq]

/-- With an uncommented source the contents of the units are those of uncommented files. -/
theorem UncommentedFiles.contentOf {lookup : Lookup} (h : UncommentedFiles lookup) {source : Text}
    (bare : Uncommented source) (entry : Text) :
    UncommentedFiles (Compile.contentOf lookup entry source) := by
  intro path content found
  rw [Compile.contentOf] at found
  split at found
  · obtain rfl := Option.some.inj found
    exact bare
  · exact h path content found

/-- The path of the first directive is asked for first. -/
theorem head?_asked {lookup : Lookup} {importer : Option Text} {met : List Text}
    {pieces : List (Piece Directive)} {e : Expansion}
    (h : Expands lookup importer [] pieces e met) :
    e.asked.head? = (importedBy importer pieces).head? := by
  induction pieces generalizing e with
  | nil =>
    cases h
    rfl
  | cons piece pieces ih =>
    cases h with
    | char rest => exact (ih rest :)
    | duplicate known rest => cases known
    | missing new absent rest => rfl
    | file new found inner rest => rfl

/-! ## A written directive in a comment -/

/-- The first hit in a text is the first written directive, if one may start there. -/
theorem pieces_written (s : Wordless) (closed : Closed s.1) (d : Written) (rest : Text) :
    ∃ taken more, pieces directive (s.1 ++ (d.text ++ rest)) =
      s.1.map .char ++ .hit d.directive (d.text ++ taken) :: more := by
  have quiet : ∀ read left, s.1 = read ++ left → left ≠ [] →
      directive (charBefore none read) (left ++ (d.text ++ rest)) = none :=
    fun read left split some_left => directive_eq_none_of_wordless s.2 split
      (closed.ended ⟨read, split.symm⟩ some_left _)
  have hit := directive_written d (@Closed.mayStart_charBefore none s.1 closed rfl) rest
  obtain ⟨taken, split⟩ := afterLineEnd_suffix rest
  conv at hit => lhs; rw [← split, ← List.append_assoc]
  have scanned := piecesFrom_hit hit (by simp [d.text_ne_nil])
  rw [List.append_assoc, split] at scanned
  rw [pieces, piecesFrom_quiet quiet, scanned]
  exact ⟨taken, _, rfl⟩

theorem keywords_written (s : Wordless) (closed : Closed s.1) (d : Written) (rest : Text) :
    ∃ more, keywords (s.1 ++ (d.text ++ rest)) = (s.1 ++ d.indent.1, d.directive) :: more := by
  have word (s : Text) : Stops isSpaceOrTab ("import".toList ++ s) := stops_append rfl rfl
  obtain ⟨taken, more, scanned⟩ := pieces_written s closed d rest
  have indent : (d.text ++ taken).takeWhile isSpaceOrTab = d.indent.1 := by
    simp only [Written.text, List.append_assoc, takeWhile_append_of_stops d.indent.2 (word _)]
  refine ⟨keywordsFrom (s.1 ++ (d.text ++ taken)) more, ?_⟩
  rw [keywords, scanned, keywordsFrom_chars, List.nil_append, keywordsFrom, indent]

theorem importedBy_written (s : Wordless) (closed : Closed s.1) (d : Written) (rest : Text)
    (importer : Option Text) :
    ∃ more, importedBy importer (pieces directive (s.1 ++ (d.text ++ rest))) =
      resolve d.path.1 importer :: more := by
  obtain ⟨taken, more, scanned⟩ := pieces_written s closed d rest
  refine ⟨importedBy importer more, ?_⟩
  rw [scanned, importedBy, ← found, found_append, found_chars, List.nil_append]
  rfl

/-! ## Imports in comments -/

section Searches

open Compile (collectSources collectSources_cases contentOf contentOf_entry)

/-- What a search for sources ends with is reached from the entry unit, and all units that are
reached are among the sources. -/
theorem collectSources_reached (files : Assoc Text) (entry source : Text) :
    let search := collectSources (Assoc.get? files) files.length entry source
    (∀ path, search.answer = .error (.missing path) →
      Reaches (contentOf (Assoc.get? files) entry source) entry path) ∧
    ∀ units, search.answer = .ok units → ∀ unit,
      unit ∈ Assoc.keys units ↔ Reaches (contentOf (Assoc.get? files) entry source) entry unit := by
  intro search
  rcases collectSources_cases files (Nat.le_refl _) entry source with
    ⟨missed, answer, reached, _⟩ | ⟨t, valid, empty, same⟩
  · refine ⟨fun path named => ?_, fun units impossible => ?_⟩
    · rw [answer] at named
      cases named
      exact reached
    · rw [answer] at impossible
      cases impossible
  · change search = _ at same
    refine ⟨fun path impossible => ?_, fun units named => ?_⟩
    · rw [same] at impossible
      cases impossible
    · rw [same] at named
      cases named
      exact valid.mem_keys_iff empty

/-- The `import` of a directive stands in a comment only behind a mark of the comment.  In a
source and files without such comments every directive is live, and what is flattened, the files
for which a flattening is too deep, what is compiled and what is missed are reached through live
directives.  A written directive in a comment, where one may start, is found like any other: its
path is asked for first by a flattening and is among the compiled units. -/
theorem imports_in_comments (files : Assoc Text) (source entry : Text) :
    let lookup := Assoc.get? files
    let search := collectSources lookup files.length entry source
    (∀ keyword ∈ keywords source, (∃ rest, source = keyword.1 ++ ("import" ++ rest)) ∧
      (InComment keyword.1 → Marked keyword.1)) ∧
    (Uncommented source → UncommentedFiles lookup →
      (∀ keyword ∈ keywords source, ¬ InComment keyword.1) ∧
      (∀ limit text t, runOn (flattenSource lookup limit source) .empty = ⟨.ok text, t⟩ →
        ∀ path ∈ t.calls, ∃ start ∈ livePaths source none, LiveReaches lookup start path) ∧
      (∀ limit fault t, runOn (flattenSource lookup limit source) .empty = ⟨.error fault, t⟩ →
        ∃ chain : List Text, chain.length = Flatten.levelsFrom limit 0 ∧
          (∀ path ∈ chain.head?, path ∈ livePaths source none) ∧
          chain.IsChain (LiveImports lookup)) ∧
      (∀ path, search.answer = .error (.missing path) →
        LiveReaches (contentOf lookup entry source) entry path) ∧
      ∀ units, search.answer = .ok units → ∀ unit ∈ Assoc.keys units,
        LiveReaches (contentOf lookup entry source) entry unit) ∧
    ∀ (s : Wordless) (d : Written) (rest : Text), Closed s.1 → InComment s.1 →
      source = s.1 ++ (d.text ++ rest) →
        (∃ more, keywords source = (s.1 ++ d.indent.1, d.directive) :: more) ∧
        InComment (s.1 ++ d.indent.1) ∧
        (∀ limit : Int, files.length ≤ limit → ∃ text t,
          runOn (flattenSource lookup limit source) .empty = ⟨.ok text, t⟩ ∧
            t.calls.head? = some d.path.1) ∧
        ∀ units, search.answer = .ok units → resolve d.path.1 (some entry) ∈ Assoc.keys units := by
  intro lookup search
  obtain ⟨missed, compiled⟩ := collectSources_reached files entry source
  refine ⟨fun keyword member => ⟨?_, marked_of_inComment member⟩, fun bare bareFiles => ?_,
    fun s d rest closed comment split => ?_⟩
  · obtain ⟨front, spaces, left, whole, _, _, same, _⟩ := mem_keywordsFrom rfl member
    rw [List.nil_append] at whole
    exact ⟨left, by rw [whole, same, List.append_assoc]⟩
  · have live := livePaths_eq bare.live
    have reaches := (bareFiles.contentOf bare entry).reaches_eq
    refine ⟨bare.live, ?_, ?_, fun path missing => ?_, fun units found unit member => ?_⟩
    · intro limit text t run path member
      obtain ⟨e, expands, _, calls, _⟩ := Flatten.asked_of_flattenSource run
      rw [live, ← bareFiles.reaches_eq]
      exact expands.asked_reached path (calls ▸ member)
    · intro limit fault t run
      obtain ⟨_, chain, length, nests⟩ := Flatten.chain_of_flattenSource run
      rw [live, ← bareFiles.imports_eq]
      exact ⟨chain, length, nests.first, nests.linked⟩
    · rw [← reaches]
      exact missed path missing
    · rw [← reaches]
      exact (compiled units found unit).mp member
  · subst split
    have imported := importedBy_written s closed d rest
    refine ⟨keywords_written s closed d rest, ?_, fun limit enough => ?_, fun units found => ?_⟩
    · exact (inComment_append_spaces s.1 d.indent.2).mpr comment
    · obtain ⟨text, t, run⟩ := Flatten.flattenSource_of_length_le files enough
        (s.1 ++ (d.text ++ rest)) .empty
      obtain ⟨e, expands, _, calls, _⟩ := Flatten.asked_of_flattenSource run
      obtain ⟨more, first⟩ := imported none
      refine ⟨text, t, run, ?_⟩
      rw [calls, head?_asked expands, first]
      rfl
    · obtain ⟨more, first⟩ := imported (some entry)
      have direct : resolve d.path.1 (some entry) ∈
          paths (s.1 ++ (d.text ++ rest)) (some entry) := by
        change _ ∈ importedBy (some entry) (pieces directive _)
        rw [first]
        exact .head _
      exact (compiled units found _).mpr (.single ⟨_, contentOf_entry, direct⟩)

/-! ## Two sources with comments -/

/-- A source with a directive behind two slashes, and another one on the next line. -/
def notedSource : Text := "// import \"A.sol\";\nimport \"B.sol\";\n"

/-- The beginning of a comment over several lines. -/
def openedComment : Wordless := ⟨"/*\n", by
  rintro ⟨read, rest, split, _⟩
  have lengths := congrArg List.length split
  simp only [List.length_append, String.length_toList] at lengths
  change 3 = read.length + (6 + rest.length) at lengths
  omega⟩

/-- A directive with one space. -/
def oldDirective : Written where
  indent := Flatten.noSpaces
  gap := ⟨⟨[' '], by decide⟩, by decide⟩
  selection := none
  opening := ⟨'"', rfl⟩
  path := ⟨"old.sol", by decide⟩
  closing := ⟨'"', rfl⟩
  alias? := none
  beforeEnd := ⟨[], by simp⟩

/-- Of the first source only the directive on the second line is found.  In the comment of the
second source a directive is found, and its file is asked for. -/
theorem imports_in_comments_twoSources :
    (∀ keyword ∈ keywords notedSource, ¬ InComment keyword.1) ∧
      ∃ text t, runOn (flattenSource (Assoc.get? []) 20 "/*\nimport \"old.sol\";\n*/\n") .empty =
        ⟨.ok text, t⟩ ∧ t.calls.head? = some "old.sol".toList := by
  obtain ⟨_, noted, _⟩ := imports_in_comments [] notedSource "Token.sol"
  obtain ⟨_, _, old⟩ := imports_in_comments [] "/*\nimport \"old.sol\";\n*/\n" "Token.sol"
  obtain ⟨_, _, asked, _⟩ := old openedComment oldDirective "\n*/\n" rfl (by decide) rfl
  refine ⟨(noted (by decide) ?_).1, asked 20 (by decide)⟩
  intro path content found
  cases found

end Searches

end Import

end TokenForge
