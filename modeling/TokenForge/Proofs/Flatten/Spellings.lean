import TokenForge.Proofs.Flatten.Session
import TokenForge.Proofs.Path.Normal
import TokenForge.Proofs.Text.Scan

/-!
# Spellings of paths

A relative directive in an inlined file asks for a normal path, since the file has a path that
it is relative to.  So if the paths that are not relative are normal as they are written, all
paths that a file asks for are normal (`asks_file`), and no two of them have the same normal
form.

The outermost source has no path, and its relative directives ask for what they say.  These are
the only paths asked for that may not be normal (`flattenSource_spellings`).
-/

namespace TokenForge

namespace Flatten

open TokenForge.Path (Normal)

variable {α β : Type} {lookup : Lookup} {kind : Text → Prop} {importer : Option Text}
  {source content path : Text}

/-! ## Normal imports -/

/-- The paths of a text that are not relative are normal. -/
def PlainNormal (source : Text) : Prop :=
  ∀ d ∈ Text.hits Import.directive source, Import.isRelative d.path = false → Normal d.path

instance (source : Text) : Decidable (PlainNormal source) :=
  List.decidableBAll (fun d : Import.Directive =>
    Import.isRelative d.path = false → Normal d.path) _

/-- A text has a relative directive with this path. -/
def RelativeIn (source path : Text) : Prop :=
  Import.isRelative path = true ∧ ⟨path⟩ ∈ Text.hits Import.directive source

/-- In a file with a path of its own a directive means a normal path. -/
theorem PlainNormal.resolve (h : PlainNormal content) (some_path : path ≠ [])
    {d : Import.Directive} (member : d ∈ Text.hits Import.directive content) :
    Normal (Import.resolve d.path (some path)) := by
  obtain ⟨c, rest, rfl⟩ := List.exists_cons_of_ne_nil some_path
  rw [Import.resolve]
  · cases relative : Import.isRelative d.path with
    | true => exact Path.normal_normalize _
    | false => exact h d member relative
  · intro none
    cases none

/-- In a text without a path a directive means the path as it is written. -/
theorem PlainNormal.resolve_none (h : PlainNormal source) {d : Import.Directive}
    (member : d ∈ Text.hits Import.directive source) :
    Normal (Import.resolve d.path none) ∨ RelativeIn source (Import.resolve d.path none) := by
  cases relative : Import.isRelative d.path with
  | true => exact .inr ⟨relative, member⟩
  | false => exact .inl (h d member relative)

/-! ## Runs that ask for paths of a kind -/

/-- Successful or not, a run asks for paths of a kind only. -/
def Asks (kind : Text → Prop) (run : Run α) : Prop :=
  ∀ s, ∃ asked, (runOn run s).state.calls = s.calls ++ asked ∧ ∀ path ∈ asked, kind path

theorem Asks.mono {run : Run α} {wider : Text → Prop} (h : Asks kind run)
    (wide : ∀ path, kind path → wider path) : Asks wider run := by
  intro s
  obtain ⟨asked, calls, all⟩ := h s
  exact ⟨asked, calls, fun path member => wide path (all path member)⟩

/-- A run asks for nothing if it leaves the calls as they are. -/
theorem Asks.of_calls {run : Run α} (h : ∀ s, (runOn run s).state.calls = s.calls) :
    Asks kind run :=
  fun s => ⟨[], by rw [h, List.append_nil], fun _ member => absurd member List.not_mem_nil⟩

theorem Asks.pure (a : α) : Asks kind (pure a : Run α) := .of_calls fun _ => rfl

theorem Asks.throw (fault : Fault) : Asks kind (throw fault : Run α) := .of_calls fun _ => rfl

theorem Asks.bind {first : Run α} {next : α → Run β} (hfirst : Asks kind first)
    (hnext : ∀ a, Asks kind (next a)) : Asks kind (first >>= next) := by
  intro s
  obtain ⟨asked, calls, all⟩ := hfirst s
  rw [runOn_bind]
  rcases hrun : runOn first s with ⟨answer, t⟩
  rw [hrun] at calls
  cases answer with
  | error fault => exact ⟨asked, calls, all⟩
  | ok a =>
    obtain ⟨more, later, rest⟩ := hnext a t
    refine ⟨asked ++ more, ?_, List.forall_mem_append.mpr ⟨all, rest⟩⟩
    rw [later, calls, List.append_assoc]

theorem asks_inlineWith {flattenFile : Text → Run Text} (here : kind path)
    (inside : ∀ content, lookup path = some content → Asks kind (flattenFile content)) :
    Asks kind (inlineWith lookup flattenFile path) := by
  intro s
  rw [runOn_inlineWith]
  split
  next => exact ⟨[], (Grows.afterDuplicate lookup s path).calls, by simp⟩
  next new =>
    cases found : lookup path with
    | none => exact ⟨[path], (Grows.afterMissing new found).calls, by simpa using here⟩
    | some content =>
      obtain ⟨more, later, rest⟩ :=
        (inside content found).bind (fun _ => .pure _) (s.afterAsking path)
      refine ⟨path :: more, ?_, List.forall_mem_cons.mpr ⟨here, rest⟩⟩
      rw [later, (Grows.afterAsking new found).calls, List.append_assoc]
      rfl

theorem asks_inlinePieces {inlinePath : Text → Run Text} {pieces : List (Piece Import.Directive)}
    (h : ∀ d ∈ Text.found pieces, Asks kind (inlinePath (Import.resolve d.path importer))) :
    Asks kind (inlinePieces inlinePath importer pieces) := by
  induction pieces with
  | nil => exact .pure _
  | cons piece pieces ih =>
    cases piece with
    | char c => exact .bind (.pure _) fun first => .bind (ih h) fun rest => .pure _
    | hit directive covered =>
      refine .bind (h directive (.head _)) fun first => .bind (ih fun d member => ?_) fun rest =>
        .pure _
      exact h d (.tail _ member)

theorem asks_flattenAt {limit : Int} {levels : Nat}
    (here : ∀ d ∈ Text.hits Import.directive source, kind (Import.resolve d.path importer))
    (inside : ∀ path content, kind path → lookup path = some content →
      Asks kind (flattenAt lookup limit levels content (some path))) :
    Asks kind (flattenAt lookup limit (levels + 1) source importer) :=
  asks_inlinePieces fun d member =>
    asks_inlineWith (here d member) fun content => inside _ content (here d member)

theorem asks_keepFirstPragmas (pieces : List (Piece Preamble.Feature)) :
    Asks kind (keepFirstPragmas pieces) := by
  induction pieces with
  | nil => exact .pure _
  | cons piece pieces ih =>
    refine .bind ?_ fun first => .bind ih fun rest => .pure _
    cases piece with
    | char c => exact .pure _
    | hit feature covered =>
      refine .of_calls fun s => ?_
      rw [runOn_keepFirstPragma]
      split
      · simp [Session.afterRepeated, Event.asked?]
      · simp [Session.afterTurnedOn]

/-! ## Flattening -/

/-- A file asks for normal paths only, and so do all that are inlined in it. -/
theorem asks_file (files : ∀ path content, lookup path = some content → PlainNormal content)
    (limit : Int) (levels : Nat) (plain : PlainNormal content) (some_path : path ≠ []) :
    Asks Normal (flattenAt lookup limit levels content (some path)) := by
  induction levels generalizing content path with
  | zero => exact .throw _
  | succ levels ih =>
    refine asks_flattenAt (fun d => plain.resolve some_path) fun inner text normal found => ?_
    exact ih (files inner text found) normal.ne_nil

theorem RelativeIn.ne_nil (h : RelativeIn source path) : path ≠ [] := by
  rintro rfl
  exact absurd h.1 (by decide)

/-- A source without a path asks for normal paths and those of its relative directives. -/
theorem asks_source (files : ∀ path content, lookup path = some content → PlainNormal content)
    (limit : Int) (levels : Nat) (plain : PlainNormal source) :
    Asks (fun path => Normal path ∨ RelativeIn source path)
      (flattenAt lookup limit levels source none) := by
  cases levels with
  | zero => exact .throw _
  | succ levels =>
    refine asks_flattenAt (fun d => plain.resolve_none) fun path content asked found => ?_
    have some_path : path ≠ [] := asked.elim Normal.ne_nil RelativeIn.ne_nil
    exact (asks_file files limit levels (files path content found) some_path).mono fun _ => .inl

theorem asks_flattenSource
    (files : ∀ path content, lookup path = some content → PlainNormal content) (limit : Int)
    (plain : PlainNormal source) :
    Asks (fun path => Normal path ∨ RelativeIn source path) (flattenSource lookup limit source) :=
  .bind (asks_source files limit _ plain) fun _ =>
    .bind (asks_keepFirstPragmas _) fun _ => .pure _

/-- Where the paths that are not relative are normal, in the source and in all files, only the
relative directives of the source itself can ask for a path that is not.  So of two paths that are
asked for and have the same normal form, one is the path of such a directive as it is written. -/
theorem flattenSource_spellings (lookup : Lookup) (limit : Int) (source : Text)
    (plain : PlainNormal source)
    (files : ∀ path content, lookup path = some content → PlainNormal content)
    (session : Session) :
    ∃ asked, (runOn (flattenSource lookup limit source) session).state.calls =
        session.calls ++ asked ∧
      (∀ path ∈ asked, Normal path ∨ RelativeIn source path) ∧
      ∀ p ∈ asked, ∀ q ∈ asked, p ≠ q → Path.normalize p = Path.normalize q →
        ∃ path ∈ [p, q], ¬ Normal path ∧ RelativeIn source path := by
  obtain ⟨asked, calls, all⟩ := asks_flattenSource files limit plain session
  refine ⟨asked, calls, all, fun p inside q inside' apart same => ?_⟩
  by_cases first : Normal p
  · have second : ¬ Normal q := fun second => apart (first.symm.trans (same.trans second))
    exact ⟨q, by simp, second, (all q inside').resolve_left second⟩
  · exact ⟨p, by simp, first, (all p inside).resolve_left first⟩

/-! ## One file under two names -/

/-- A source that imports a file under two names. -/
def twiceNamed : Text := "import \"./A.sol\";\nimport \"A.sol\";\ncontract C \x7b\x7d\n"

/-- The file under both names. -/
def namedFiles : Assoc Text :=
  [("A.sol", "contract A \x7b\x7d\n"), ("./A.sol", "contract A \x7b\x7d\n")]

/-- A source asks for a file under both of its names and inlines it twice. -/
theorem flattenSource_twiceNamed :
    PlainNormal twiceNamed ∧
      (∀ path content, Assoc.get? namedFiles path = some content → PlainNormal content) ∧
      (runOn (flattenSource (Assoc.get? namedFiles) 20 twiceNamed) .empty).state.calls =
        (["./A.sol", "A.sol"] : List Text) ∧
      ("./A.sol" : Text) ≠ "A.sol" ∧ Path.normalize "./A.sol" = Path.normalize "A.sol" ∧
      (runOn (flattenSource (Assoc.get? namedFiles) 20 twiceNamed) .empty).answer =
        .ok "contract A \x7b\x7d\n\ncontract A \x7b\x7d\n\ncontract C \x7b\x7d\n" := by
  have checked : PlainNormal twiceNamed ∧ (∀ file ∈ namedFiles, PlainNormal file.2) ∧
      (runOn (flattenSource (Assoc.get? namedFiles) 20 twiceNamed) .empty).state.calls =
        (["./A.sol", "A.sol"] : List Text) ∧
      ("./A.sol" : Text) ≠ "A.sol" ∧ Path.normalize "./A.sol" = Path.normalize "A.sol" ∧
      (runOn (flattenSource (Assoc.get? namedFiles) 20 twiceNamed) .empty).answer =
        .ok "contract A \x7b\x7d\n\ncontract A \x7b\x7d\n\ncontract C \x7b\x7d\n" := by
    decide +kernel
  obtain ⟨plain, files, run⟩ := checked
  exact ⟨plain, fun path content found => files _ (Assoc.mem_of_get? found), run⟩

/-! ## Files in directories -/

/-- A source that imports two files of a directory. -/
def shelvedSource : Text :=
  "import \"lib/A.sol\";\nimport \"lib/B.sol\";\ncontract C \x7b\x7d\n"

/-- Two files of a directory that import each other under relative names. -/
def shelvedFiles : Assoc Text :=
  [("lib/A.sol", "import \"./B.sol\";\nimport \"../lib/./B.sol\";\nlibrary A \x7b\x7d\n"),
    ("lib/B.sol", "import \".././lib/A.sol\";\nlibrary B \x7b\x7d\n")]

/-- Each of the files is asked for once, by its normal path. -/
theorem flattenSource_spellings_shelvedFiles :
    (runOn (flattenSource (Assoc.get? shelvedFiles) 20 shelvedSource) .empty).state.calls =
        (["lib/A.sol", "lib/B.sol"] : List Text) ∧
      ∀ path ∈ (["lib/A.sol", "lib/B.sol"] : List Text),
        Normal path ∨ RelativeIn shelvedSource path := by
  have checked : PlainNormal shelvedSource ∧ (∀ file ∈ shelvedFiles, PlainNormal file.2) ∧
      (runOn (flattenSource (Assoc.get? shelvedFiles) 20 shelvedSource) .empty).state.calls =
        (["lib/A.sol", "lib/B.sol"] : List Text) := by
    decide +kernel
  obtain ⟨plain, files, run⟩ := checked
  obtain ⟨asked, calls, all, _⟩ := flattenSource_spellings (Assoc.get? shelvedFiles) 20
    shelvedSource plain (fun path content found => files _ (Assoc.mem_of_get? found)) .empty
  obtain rfl : asked = (["lib/A.sol", "lib/B.sol"] : List Text) := by
    rw [run] at calls
    exact calls.symm
  exact ⟨run, all⟩

end Flatten

end TokenForge
