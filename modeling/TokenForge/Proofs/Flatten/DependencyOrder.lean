import TokenForge.Proofs.Flatten.LineByLine
import TokenForge.Proofs.Flatten.Reachable

/-!
# Dependencies come first

`place` is the reference with the file that each line is from.  When every document has its
directives before its body, the lines of a file stand behind those of the files that it
imports, unless these import it back: at the directive the imported file is either inlined,
or was inlined before, or is one of the files around the directive, and those lead to the
file that holds it.

The body of a document are its lines other than directives and preamble lines, as far as
they are not blank.  `Precedes` says that no line of one body stands before a line of
another, and `flattenSource_dependencyOrder` says so of the flattened source.
-/

namespace TokenForge

namespace Flatten

open Text (isBlankLine solidLines)
open Relation (TransGen ReflTransGen)

/-! ## Bodies -/

/-- Whether a line belongs to the body of its document. -/
def Line.isBody : Line → Bool
  | .other o => !isBlankLine o.text
  | _ => false

/-- Whether an entry belongs to the body of a document. -/
def Entry.isBody : Entry → Bool
  | .own l => l.isBody
  | .missing _ => false

/-- The body of a document. -/
def bodyOf (lines : List Line) : List Text := (lines.filter Line.isBody).map Line.text

/-- No directive stands behind a line of the body. -/
def ImportsFirst (lines : List Line) : Prop :=
  lines.Pairwise fun l later => l.isBody = true → later.directive? = none

/-! ## Lines with their files -/

/-- A line of a flattened document and the path of the file that it is from.  The outermost
source has no path. -/
structure Placed where
  origin : Option Text
  entry : Entry

/-- The body lines of a file among the lines of a flattened document. -/
def bodyFrom (origin : Option Text) (placed : List Placed) : List Text :=
  (placed.filter fun p => p.entry.isBody && p.origin == origin).map fun p => p.entry.text

/-- No body line of the second file stands before one of the first. -/
def Precedes (first second : Option Text) (placed : List Placed) : Prop :=
  placed.Pairwise fun p later => p.entry.isBody = true → p.origin = second →
    later.entry.isBody = true → later.origin ≠ first

/-- The lines in the place of lines of a file, as in `walk`, with their files. -/
def place (files : Assoc Document) (importer : Option LinePath) (met : List Text) :
    List Line → List Placed
  | [] => []
  | .directive d :: lines =>
    let path := d.target importer
    if _known : path.1 ∈ met then place files importer met lines
    else
      match _found : Assoc.get? files path.1 with
      | none =>
        ⟨importer.map Subtype.val, .missing path⟩ ::
          place files importer (met ++ [path.1]) lines
      | some document =>
        (place files (some path) (met ++ [path.1]) document.lines).filter (!·.entry.isPreamble) ++
          place files importer
            (walk files (some path) (met ++ [path.1]) document.lines).after lines
  | l :: lines => ⟨importer.map Subtype.val, .own l⟩ :: place files importer met lines
termination_by lines => (unmet (Assoc.keys files) met, lines.length)
decreasing_by
  · exact Prod.Lex.right _ (by simp)
  · exact Prod.Lex.right' _ (unmet_anti (List.subset_append_left _ _)) (by simp)
  · exact Prod.Lex.left _ _ (unmet_lt (Assoc.mem_keys_of_get? (by simp [path, _found])) _known)
  · exact Prod.Lex.right' _
      (unmet_anti (List.Subset.trans (List.subset_append_left _ _) (walk ..).grown)) (by simp)
  · exact Prod.Lex.right _ (by simp)

section Bodies

variable {origin first second : Option Text} {placed more : List Placed}

theorem bodyFrom_append : bodyFrom origin (placed ++ more) =
    bodyFrom origin placed ++ bodyFrom origin more := by
  simp [bodyFrom]

theorem isPreamble_of_isBody {e : Entry} (h : e.isBody = true) : e.isPreamble = false := by
  cases e with
  | missing path => rfl
  | own l => cases l <;> first | rfl | cases h

theorem bodyFrom_filter {p : Placed → Bool} (keeps : ∀ line ∈ placed, line.entry.isBody = true →
    p line = true) : bodyFrom origin (placed.filter p) = bodyFrom origin placed := by
  rw [bodyFrom, List.filter_filter, bodyFrom]
  congr 1
  refine List.filter_congr ?_
  intro line member
  cases body : line.entry.isBody with
  | false => simp
  | true => simp [keeps line member body]

theorem bodyFrom_eq_nil (h : ∀ p ∈ placed, p.origin ≠ origin) : bodyFrom origin placed = [] := by
  rw [bodyFrom, List.map_eq_nil_iff, List.filter_eq_nil_iff]
  intro p member
  simp [h p member]

theorem precedes_of_forall (h : ∀ p ∈ placed, p.origin ≠ second) : Precedes first second placed :=
  List.Pairwise.imp_of_mem (fun member _ _ _ same => absurd same (h _ member))
    (List.pairwise_of_forall fun _ _ => True.intro)

theorem Precedes.sublist (h : Precedes first second placed) (part : more.Sublist placed) :
    Precedes first second more := List.Pairwise.sublist part h

theorem Precedes.append (h : Precedes first second placed) (h' : Precedes first second more)
    (apart : ∀ p ∈ placed, p.origin = second → ∀ q ∈ more, q.origin ≠ first) :
    Precedes first second (placed ++ more) :=
  List.pairwise_append.mpr ⟨h, h', fun p member q later _ same _ => apart p member same q later⟩

end Bodies

/-! ## Where lines are from -/

section Place

variable {files : Assoc Document} {importer : Option LinePath} {met : List Text}
  {lines : List Line}

theorem place_entries :
    (place files importer met lines).map Placed.entry =
      (walk files importer met lines).entries := by
  fun_induction place files importer met lines with
  | case1 importer met => rw [walk_nil]; rfl
  | case2 importer met d lines path known ih => rw [walk_known known, ih]
  | case3 importer met d lines path new absent ih =>
    rw [(walk_missing new absent).1, List.map_cons, ih]
  | case4 importer met d lines path new document found innerIh restIh =>
    rw [(walk_file new found).1, List.map_append, restIh, ← innerIh, List.filter_map]
    rfl
  | case5 importer met l lines other ih =>
    rw [walk_own (directive?_eq_none other), List.map_cons, ih]

/-- A line in the place of lines of a file is from the file, or from one that was met only
then. -/
theorem place_origin : ∀ p ∈ place files importer met lines,
    p.origin = importer.map Subtype.val ∨
      ∃ path, p.origin = some path ∧ path ∉ met ∧ path ∈ (walk files importer met lines).after := by
  fun_induction place files importer met lines with
  | case1 importer met => simp
  | case2 importer met d lines path known ih => rwa [walk_known known]
  | case3 importer met d lines path new absent ih =>
    rw [(walk_missing new absent).2]
    intro p member
    rcases List.mem_cons.mp member with rfl | member
    · exact .inl rfl
    · rcases ih p member with own | ⟨file, same, unmet, later⟩
      · exact .inl own
      · exact .inr ⟨file, same, fun old => unmet (List.mem_append_left _ old), later⟩
  | case4 importer met d lines path new document found innerIh restIh =>
    have inner := (walk files (some path) (met ++ [path.1]) document.lines).grown
    have rest := (walk files importer
      (walk files (some path) (met ++ [path.1]) document.lines).after lines).grown
    rw [(walk_file new found).2]
    intro p member
    rcases List.mem_append.mp member with member | member
    · rcases innerIh p (List.mem_filter.mp member).1 with own | ⟨file, same, unmet, later⟩
      · exact .inr ⟨path.1, own, new, rest (inner (by simp))⟩
      · exact .inr ⟨file, same, fun old => unmet (List.mem_append_left _ old), rest later⟩
    · rcases restIh p member with own | ⟨file, same, unmet, later⟩
      · exact .inl own
      · exact .inr ⟨file, same, fun old => unmet (inner (List.mem_append_left _ old)), later⟩
  | case5 importer met l lines other ih =>
    rw [walk_own (directive?_eq_none other)]
    intro p member
    rcases List.mem_cons.mp member with rfl | member
    · exact .inl rfl
    · exact ih p member

/-- No line is from a file that was met before or is not met by then, the file itself apart. -/
theorem place_origin_ne {origin : Option Text} (foreign : origin ≠ importer.map Subtype.val)
    (notNew : ∀ path, origin = some path →
      path ∈ met ∨ path ∉ (walk files importer met lines).after) :
    ∀ p ∈ place files importer met lines, p.origin ≠ origin := by
  intro p member same
  rcases place_origin p member with own | ⟨path, other, new, later⟩
  · exact foreign (same.symm.trans own)
  · rcases notNew path (same.symm.trans other) with old | never
    · exact new old
    · exact never later

theorem entered_append {path : Text} (entered : ∀ file ∈ importer, file.1 ∈ met) :
    ∀ file ∈ importer, file.1 ∈ met ++ [path] :=
  fun file member => List.mem_append_left _ (entered file member)

theorem entered_self (path : LinePath) : ∀ file ∈ some path, file.1 ∈ met ++ [path.1] := by
  simp

theorem entered_after {path : LinePath} {document : Document}
    (entered : ∀ file ∈ importer, file.1 ∈ met) : ∀ file ∈ importer,
      file.1 ∈ (walk files (some path) (met ++ [path.1]) document.lines).after :=
  fun file member => (walk ..).grown (entered_append entered file member)

theorem foreign_of_not_mem {path : Text} (entered : ∀ file ∈ importer, file.1 ∈ met)
    (new : path ∉ met) : some path ≠ importer.map Subtype.val := by
  intro same
  obtain ⟨file, member, rfl⟩ := Option.map_eq_some_iff.mp same.symm
  exact new (entered file member)

theorem inner_origin_ne {path : LinePath} {document : Document}
    (entered : ∀ file ∈ importer, file.1 ∈ met) (new : path.1 ∉ met) :
    ∀ p ∈ place files (some path) (met ++ [path.1]) document.lines,
      p.origin ≠ importer.map Subtype.val := by
  refine place_origin_ne (Ne.symm (foreign_of_not_mem entered new)) ?_
  intro file same
  obtain ⟨own, member, rfl⟩ := Option.map_eq_some_iff.mp same
  exact .inl (entered_append entered own member)

theorem place_of_own (own : ∀ l ∈ lines, l.directive? = none) :
    ∀ p ∈ place files importer met lines, p.origin = importer.map Subtype.val := by
  fun_induction place files importer met lines with
  | case1 importer met => simp
  | case2 importer met d lines path known ih =>
    exact absurd (own _ (.head _)) (by simp [Line.directive?])
  | case3 importer met d lines path new absent ih =>
    exact absurd (own _ (.head _)) (by simp [Line.directive?])
  | case4 importer met d lines path new document found innerIh restIh =>
    exact absurd (own _ (.head _)) (by simp [Line.directive?])
  | case5 importer met l lines other ih =>
    intro p member
    rcases List.mem_cons.mp member with rfl | member
    · rfl
    · exact ih (fun line later => own line (.tail _ later)) p member

/-! ## Bodies are kept whole -/

theorem bodyFrom_keep {origin : Option Text} (placed : List Placed) :
    bodyFrom origin (placed.filter (!·.entry.isPreamble)) = bodyFrom origin placed :=
  bodyFrom_filter fun p _ body => by simp [isPreamble_of_isBody body]

theorem bodyFrom_own (entered : ∀ file ∈ importer, file.1 ∈ met) :
    bodyFrom (importer.map Subtype.val) (place files importer met lines) = bodyOf lines := by
  fun_induction place files importer met lines with
  | case1 importer met => rfl
  | case2 importer met d lines path known ih => exact ih entered
  | case3 importer met d lines path new absent ih => exact ih (entered_append entered)
  | case4 importer met d lines path new document found innerIh restIh =>
    rw [bodyFrom_append, bodyFrom_keep, bodyFrom_eq_nil (inner_origin_ne entered new),
      List.nil_append]
    exact restIh (entered_after entered)
  | case5 importer met l lines other ih =>
    have rest := ih entered
    cases body : l.isBody with
    | false => simpa [bodyFrom, bodyOf, Entry.isBody, body] using rest
    | true => simpa [bodyFrom, bodyOf, Entry.isBody, Entry.text, body] using rest

theorem bodyFrom_file {path : Text} {document : Document}
    (entered : ∀ file ∈ importer, file.1 ∈ met) (stored : Assoc.get? files path = some document)
    (new : path ∉ met) (later : path ∈ (walk files importer met lines).after) :
    bodyFrom (some path) (place files importer met lines) = bodyOf document.lines := by
  fun_induction place files importer met lines with
  | case1 importer met =>
    rw [walk_nil] at later
    exact absurd later new
  | case2 importer met d lines target known ih =>
    rw [walk_known known] at later
    exact ih entered new later
  | case3 importer met d lines target unmet absent ih =>
    rw [(walk_missing unmet absent).2] at later
    refine ih (entered_append entered) ?_ later
    intro member
    rcases List.mem_append.mp member with old | here
    · exact new old
    · rw [List.mem_singleton.mp here, absent] at stored
      cases stored
  | case4 importer met d lines target unmet content found innerIh restIh =>
    have inner := (walk files (some target) (met ++ [target.1]) content.lines).grown
    rw [(walk_file unmet found).2] at later
    rw [bodyFrom_append, bodyFrom_keep]
    -- The file is inlined once, in the place of the directive or behind it.
    by_cases within : path ∈ (walk files (some target) (met ++ [target.1]) content.lines).after
    · rw [bodyFrom_eq_nil (place_origin_ne (foreign_of_not_mem entered new) fun file same =>
        .inl (Option.some.inj same ▸ within)), List.append_nil]
      by_cases here : path = target.1
      · subst here
        rw [found] at stored
        cases stored
        exact bodyFrom_own (entered_self target)
      · exact innerIh (entered_self target) (by simp [new, here]) within
    · have other : path ≠ target.1 := by
        rintro rfl
        exact within (inner (by simp))
      have foreign : some path ≠ (some target).map Subtype.val := by simpa using other
      rw [bodyFrom_eq_nil (place_origin_ne foreign fun file same => ?_), List.nil_append]
      · exact restIh (entered_after entered) within later
      · exact .inr (Option.some.inj same ▸ within)
  | case5 importer met l lines other ih =>
    rw [walk_own (directive?_eq_none other)] at later
    have head : bodyFrom (some path) [⟨importer.map Subtype.val, .own l⟩] = [] :=
      bodyFrom_eq_nil (by simpa using Ne.symm (foreign_of_not_mem entered new))
    rw [← List.singleton_append, bodyFrom_append, head, List.nil_append]
    exact ih entered new later

/-! ## Directives of documents -/

theorem get?_texts_of_get? {path : Text} {document : Document}
    (stored : Assoc.get? files path = some document) :
    Assoc.get? (texts files) path = some (document.text Line.text) := by
  rw [get?_texts, stored]
  rfl

theorem imports_target {path : LinePath} {document : Document} {d : DirectiveLine}
    (stored : Assoc.get? files path.1 = some document) (member : .directive d ∈ document.lines) :
    Imports (Assoc.get? (texts files)) path.1 (d.target (some path)).1 := by
  refine ⟨document.text Line.text, get?_texts_of_get? stored, ?_⟩
  rw [Import.paths, directive_reads.hits_text]
  exact List.mem_map.mpr ⟨⟨d.path.1⟩, List.mem_filterMap.mpr ⟨_, member, rfl⟩, rfl⟩

/-- The walk through a document meets what an expansion of it meets. -/
theorem walk_expands (files : Assoc Document) (importer : Option LinePath) (met : List Text)
    (document : Document) :
    ∃ e, Expands (Assoc.get? (texts files)) (importer.map Subtype.val) met
      (Text.pieces Import.directive (document.text Line.text)) e
      (walk files importer met document.lines).after := by
  obtain ⟨e, after, he, _⟩ := exists_expands (Assoc.get? (texts files))
    (fun _ => Assoc.mem_keys_of_get?) (importer.map Subtype.val) met
    (Text.pieces Import.directive (document.text Line.text))
  obtain ⟨_, _, _, same⟩ :=
    rendered_of_expands files _ importer met after document e (Nat.lt_succ_self _) he
  exact ⟨e, same ▸ he⟩

section Inner

variable {path : LinePath} {document : Document} {user used : Text}
  (stored : Assoc.get? files path.1 = some document) (new : user ∉ met)
  (later : user ∈ (walk files (some path) (met ++ [path.1]) document.lines).after)

include new later

/-- A file that is met inside another is that file or asked for by its expansion. -/
theorem inner_asked :
    ∃ e, Expands (Assoc.get? (texts files)) (some path.1) (met ++ [path.1])
        (Text.pieces Import.directive (document.text Line.text)) e
        (walk files (some path) (met ++ [path.1]) document.lines).after ∧
      (user = path.1 ∨ user ∈ e.asked) := by
  obtain ⟨e, he⟩ := walk_expands files (some path) (met ++ [path.1]) document
  refine ⟨e, he, ?_⟩
  rw [he.met_eq] at later
  rcases List.mem_append.mp later with before | asked
  · rcases List.mem_append.mp before with old | here
    · exact absurd old new
    · exact .inl (List.mem_singleton.mp here)
  · exact .inr asked

include stored

theorem inner_reached : Reaches (Assoc.get? (texts files)) path.1 user := by
  have found := get?_texts_of_get? stored
  obtain ⟨e, he, rfl | asked⟩ := inner_asked new later
  · exact .refl
  · obtain ⟨start, member, reached⟩ := he.asked_reached user asked
    exact .head ((imports_of_found found start).mpr member) reached

theorem inner_closed (imported : Imports (Assoc.get? (texts files)) user used) :
    used ∈ (walk files (some path) (met ++ [path.1]) document.lines).after := by
  have found := get?_texts_of_get? stored
  obtain ⟨e, he, rfl | asked⟩ := inner_asked new later
  · exact he.closed.1 used ((imports_of_found found used).mp imported)
  · exact he.closed.2 user asked used imported

end Inner

/-! ## Order -/

/-- The body of a file stands behind all that is inlined into it. -/
theorem precedes_own {first : Option Text} (entered : ∀ file ∈ importer, file.1 ∈ met)
    (ordered : ImportsFirst lines) (foreign : first ≠ importer.map Subtype.val) :
    Precedes first (importer.map Subtype.val) (place files importer met lines) := by
  fun_induction place files importer met lines with
  | case1 importer met => exact .nil
  | case2 importer met d lines path known ih =>
    exact ih entered (List.pairwise_cons.mp ordered).2 foreign
  | case3 importer met d lines path new absent ih =>
    refine List.pairwise_cons.mpr ⟨fun _ _ body => (by cases body), ?_⟩
    exact ih (entered_append entered) (List.pairwise_cons.mp ordered).2 foreign
  | case4 importer met d lines path new document found innerIh restIh =>
    have none_own : ∀ p ∈ place files (some path) (met ++ [path.1]) document.lines,
        p.origin ≠ importer.map Subtype.val := inner_origin_ne entered new
    refine Precedes.append ?_ ?_ ?_
    · exact (precedes_of_forall none_own).sublist List.filter_sublist
    · exact restIh (entered_after entered) (List.pairwise_cons.mp ordered).2 foreign
    · intro p member same
      exact absurd same (none_own p (List.mem_filter.mp member).1)
  | case5 importer met l lines other ih =>
    obtain ⟨first_line, rest⟩ := List.pairwise_cons.mp ordered
    refine List.pairwise_cons.mpr ⟨?_, ih entered rest foreign⟩
    intro p member body _ _ same
    have own := place_of_own (fun line later => first_line line later body) p member
    exact foreign (same.symm.trans own)

/-- The body of a file stands behind those of the files that it imports and that do not lead to
it. -/
theorem precedes_of_imports
    (ordered : ∀ path document, Assoc.get? files path = some document →
      ImportsFirst document.lines)
    {user used : Text} (imported : Imports (Assoc.get? (texts files)) user used)
    (acyclic : ¬ TransGen (Imports (Assoc.get? (texts files))) used user)
    (entered : ∀ file ∈ importer, file.1 ∈ met)
    (own : ∀ file ∈ importer, ∀ d, .directive d ∈ lines →
      Imports (Assoc.get? (texts files)) file.1 (d.target importer).1)
    (new : user ∉ met) :
    Precedes (some used) (some user) (place files importer met lines) := by
  fun_induction place files importer met lines with
  | case1 importer met => exact .nil
  | case2 importer met d lines path known ih =>
    exact ih entered (fun file member d inside => own file member d (.tail _ inside)) new
  | case3 importer met d lines path unmet absent ih =>
    refine List.pairwise_cons.mpr ⟨fun _ _ body => (by cases body), ?_⟩
    refine ih (entered_append entered)
      (fun file member d inside => own file member d (.tail _ inside)) ?_
    intro member
    rcases List.mem_append.mp member with old | here
    · exact new old
    · obtain ⟨content, found, _⟩ := imported
      rw [List.mem_singleton.mp here, get?_texts, absent] at found
      cases found
  | case4 importer met d lines path unmet document found innerIh restIh =>
    have inner := (walk files (some path) (met ++ [path.1]) document.lines).grown
    refine Precedes.append ?_ ?_ ?_
    · -- Both bodies inside the file that is inlined.
      refine Precedes.sublist ?_ List.filter_sublist
      by_cases here : user = path.1
      · subst here
        refine precedes_own (entered_self path) (ordered _ _ found) ?_
        intro same
        obtain rfl := Option.some.inj same
        exact acyclic (.single imported)
      · exact innerIh (entered_self path) (fun file member d inside => by
          cases member
          exact imports_target found inside) (by simp [new, here])
    · -- Both bodies behind it.
      by_cases within : user ∈ (walk files (some path) (met ++ [path.1]) document.lines).after
      · refine precedes_of_forall (place_origin_ne (foreign_of_not_mem entered new) ?_)
        intro file same
        exact .inl (Option.some.inj same ▸ within)
      · exact restIh (entered_after entered)
          (fun file member d inside => own file member d (.tail _ inside)) within
    · -- The user inside, and the file that it imports behind: then that file is not new there.
      intro p member fromUser q later fromUsed
      have within : user ∈ (walk files (some path) (met ++ [path.1]) document.lines).after := by
        rcases place_origin p (List.mem_filter.mp member).1 with here | ⟨file, same, _, after⟩
        · obtain rfl := Option.some.inj (fromUser.symm.trans here)
          exact inner (by simp)
        · obtain rfl := Option.some.inj (fromUser.symm.trans same)
          exact after
      rcases place_origin q later with here | ⟨file, same, unseen, _⟩
      · -- The imported file is the one that holds the directive, and leads to its user.
        obtain ⟨holder, holds, rfl⟩ := Option.map_eq_some_iff.mp (here.symm.trans fromUsed)
        refine acyclic (.head' (own holder holds d (.head _)) ?_)
        exact inner_reached found new within
      · obtain rfl := Option.some.inj (fromUsed.symm.trans same)
        exact unseen (inner_closed found new within imported)
  | case5 importer met l lines other ih =>
    refine List.pairwise_cons.mpr ⟨?_, ?_⟩
    · intro p member _ same
      exact absurd same.symm (foreign_of_not_mem entered new)
    · exact ih entered (fun file member d inside => own file member d (.tail _ inside)) new

end Place

/-! ## Whole documents -/

theorem bodyFrom_cons (origin : Option Text) (p : Placed) (placed : List Placed) :
    bodyFrom origin (p :: placed) = bodyFrom origin [p] ++ bodyFrom origin placed := by
  rw [← bodyFrom_append]
  rfl

/-- Keeping the first pragmas keeps the bodies. -/
theorem exists_kept (on : List Preamble.Feature) (placed : List Placed) :
    ∃ kept, List.Sublist kept placed ∧
      kept.map Placed.entry = keepFirst on (placed.map Placed.entry) ∧
      ∀ origin, bodyFrom origin kept = bodyFrom origin placed := by
  induction placed generalizing on with
  | nil => exact ⟨[], .slnil, rfl, fun _ => rfl⟩
  | cons p placed ih =>
    cases h : p.entry.feature? with
    | none =>
      obtain ⟨kept, part, entries, bodies⟩ := ih on
      refine ⟨p :: kept, part.cons_cons p, by simp [keepFirst, h, entries], fun origin => ?_⟩
      rw [bodyFrom_cons, bodies, ← bodyFrom_cons]
    | some feature =>
      by_cases known : feature ∈ on
      · obtain ⟨kept, part, entries, bodies⟩ := ih on
        refine ⟨kept, part.cons p, by simp [keepFirst, h, known, entries], fun origin => ?_⟩
        have dropped : p.entry.isBody = false := by
          cases entry : p.entry with
          | missing path => rfl
          | own l => cases l <;> first | rfl | simp [entry, Entry.feature?] at h
        rw [bodies]
        simp [bodyFrom, dropped]
      · obtain ⟨kept, part, entries, bodies⟩ := ih (on ++ [feature])
        refine ⟨p :: kept, part.cons_cons p, by simp [keepFirst, h, known, entries],
          fun origin => ?_⟩
        rw [bodyFrom_cons, bodies, ← bodyFrom_cons]

theorem isBlankLine_of_isBody {e : Entry} (h : e.isBody = true) : isBlankLine e.text = false := by
  cases e with
  | missing path => cases h
  | own l =>
    cases l with
    | other o => simpa [Entry.isBody, Line.isBody, Entry.text, Line.text] using h
    | _ => cases h

/-- Documents that have their directives before their bodies are flattened.  Whenever this ends
well, the solid lines of the result are lines of the source and of the files, each from the file
that `place` says, with the body of the source and of every file that was met.  The body of a file
that is imported stands before that of its user, unless it leads to the user, and the bodies of
all files stand before that of the source. -/
theorem flattenSource_dependencyOrder (files : Assoc Document) (source : Document) (limit : Int)
    (filesOrdered : ∀ file ∈ files, ImportsFirst file.2.lines) (ordered : ImportsFirst source.lines)
    {flat : Text} {t : Session}
    (run : runOn (flattenSource (Assoc.get? (texts files)) limit (source.text Line.text)) .empty =
      ⟨.ok flat, t⟩) :
    ∃ lines : List Placed, lines.Sublist (place files none [] source.lines) ∧
      solidLines flat = lines.map (fun p => p.entry.text) ∧
      bodyFrom none lines = bodyOf source.lines ∧
      (∀ path ∈ t.seen, ∀ document, Assoc.get? files path = some document →
        bodyFrom (some path) lines = bodyOf document.lines) ∧
      (∀ user used, Imports (Assoc.get? (texts files)) user used →
        ¬ TransGen (Imports (Assoc.get? (texts files))) used user →
        Precedes (some used) (some user) lines) ∧
      ∀ path, Precedes (some path) none lines := by
  obtain ⟨e, he, _⟩ := expands_of_flattenSource run
  obtain ⟨_, _, _, met⟩ :=
    rendered_of_expands files _ none [] t.seen source e (Nat.lt_succ_self _) he
  have outermost : ∀ file ∈ (none : Option LinePath), file.1 ∈ ([] : List Text) := by simp
  obtain ⟨kept, part, entries, bodies⟩ := exists_kept [] (place files none [] source.lines)
  have solid : ∀ origin, bodyFrom origin (kept.filter fun p => !isBlankLine p.entry.text) =
      bodyFrom origin (place files none [] source.lines) := fun origin => by
    rw [bodyFrom_filter fun p _ body => by simp [isBlankLine_of_isBody body], bodies]
  have whole : (kept.filter fun p => !isBlankLine p.entry.text).Sublist
      (place files none [] source.lines) := List.filter_sublist.trans part
  refine ⟨kept.filter fun p => !isBlankLine p.entry.text, whole, ?_, ?_, ?_, ?_, ?_⟩
  · rw [solidLines_flattenSource files source limit run, referenceLines, ← place_entries, ← entries,
      List.map_map, List.filter_map]
    rfl
  · rw [solid]
    exact bodyFrom_own outermost
  · intro path member document stored
    rw [solid]
    exact bodyFrom_file outermost stored (by simp) (met ▸ member)
  · intro user used imported acyclic
    refine (precedes_of_imports ?_ imported acyclic outermost ?_ (by simp)).sublist whole
    · intro path document stored
      exact filesOrdered _ (Assoc.mem_of_get? stored)
    · intro file member
      cases member
  · intro path
    exact (precedes_own outermost ordered (by simp)).sublist whole

/-! ## A source and three files -/

/-- The first of two documents that import each other. -/
def cyclicFirst : Document where
  body := [.directive (plainDirective ⟨"./C.sol", by decide⟩)]
  last := sampleOther.last

/-- The second of them, which goes up and down again. -/
def cyclicSecond : Document where
  body := [.directive (plainDirective ⟨"../lib/B.sol", by decide⟩)]
  last := .other ⟨"library C;", by decide, by decide, by decide +kernel, by decide +kernel,
    by decide +kernel⟩

/-- A file that imports the first of them, and the two. -/
def cyclicFiles : Assoc Document :=
  [("lib/A.sol", sampleFile), ("lib/B.sol", cyclicFirst), ("lib/C.sol", cyclicSecond)]

/-- The two stand before their user, and all three before the source. -/
theorem flattenSource_dependencyOrder_cyclicFiles :
    ∃ flat t lines, runOn (flattenSource (Assoc.get? (texts cyclicFiles)) 20
        (sampleSource.text Line.text)) .empty = ⟨.ok flat, t⟩ ∧
      flat = "// SPDX-License-Identifier: MIT\nlibrary C;\nlibrary B;\nlibrary A;\ncontract C;"
        ∧ solidLines flat = lines.map (fun p => p.entry.text) ∧
      bodyFrom (some "lib/B.sol") lines = ["library B;".toList] ∧
      Precedes (some "lib/B.sol") (some "lib/A.sol") lines ∧
      Precedes (some "lib/A.sol") none lines := by
  have filesOrdered : ∀ file ∈ cyclicFiles, ImportsFirst file.2.lines := by
    intro file member
    simp only [cyclicFiles, List.mem_cons, List.not_mem_nil, or_false] at member
    rcases member with rfl | rfl | rfl
    · unfold ImportsFirst; decide +kernel
    · unfold ImportsFirst; decide +kernel
    · unfold ImportsFirst; decide +kernel
  have imported : Imports (Assoc.get? (texts cyclicFiles)) "lib/A.sol" "lib/B.sol" :=
    ⟨sampleFile.text Line.text, rfl, by decide +kernel⟩
  have acyclic : ¬ TransGen (Imports (Assoc.get? (texts cyclicFiles))) "lib/B.sol" "lib/A.sol" := by
    intro back
    have member : "lib/A.sol".toList ∈ ["lib/B.sol".toList, "lib/C.sol".toList] :=
      mem_of_reaches back.to_reflTransGen (.head _) (by decide +kernel)
    revert member
    decide
  have answer : (runOn (flattenSource (Assoc.get? (texts cyclicFiles)) 20
      (sampleSource.text Line.text)) .empty).answer =
        .ok "// SPDX-License-Identifier: MIT\nlibrary C;\nlibrary B;\nlibrary A;\ncontract C;" := by
    decide +kernel
  have met : "lib/B.sol".toList ∈ (runOn (flattenSource (Assoc.get? (texts cyclicFiles)) 20
      (sampleSource.text Line.text)) .empty).state.seen := by
    decide +kernel
  generalize run : runOn (flattenSource (Assoc.get? (texts cyclicFiles)) 20
    (sampleSource.text Line.text)) .empty = outcome at answer met
  obtain ⟨flat, t⟩ := outcome
  cases answer
  obtain ⟨lines, _, solid, _, bodies, order, last⟩ := flattenSource_dependencyOrder cyclicFiles
    sampleSource 20 filesOrdered (by unfold ImportsFirst; decide +kernel) run
  refine ⟨_, t, lines, rfl, rfl, solid, ?_, order _ _ imported acyclic, last _⟩
  rw [bodies _ met cyclicFirst rfl]
  rfl

end Flatten

end TokenForge
