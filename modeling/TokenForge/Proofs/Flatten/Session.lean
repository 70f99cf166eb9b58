import TokenForge.Assoc
import TokenForge.Flatten.Basic
import Mathlib.Data.List.Nodup

/-!
# Sessions only grow

Whatever a flattening runs on a session, it only adds to it.  `Grows` lists what is
added: paths that were never asked for before, each asked for once, of which those
without a file are unresolved, and features at the end of the list of features.
Growth composes (`Grows.trans`), so a run grows sessions if its parts do, and a fault
in the middle changes nothing about that: `grows_flatten`, `grows_inlinePath` and
`grows_flattenSource` hold of failed runs as well.

A `Record` follows one session through any number of tasks, between which files may
be added.  It also keeps what every path was answered at the time it was asked for.
The main statement is `Record.asked_once`.
-/

namespace TokenForge

namespace Flatten

variable {α β : Type} {lookup : Lookup}

/-! ## Calls -/

/-- The path that an event asks for, if it is a call. -/
def Event.asked? : Event → List Text
  | .asked path => [path]
  | _ => []

/-- The calls of a session depend on its history alone. -/
@[simp]
theorem Session.calls_mk (s : Session) (seen unresolved : List Text)
    (features : List Preamble.Feature) :
    Session.calls ⟨seen, unresolved, features, s.history⟩ = s.calls := rfl

@[simp]
theorem Session.calls_cons (seen unresolved : List Text) (features : List Preamble.Feature)
    (event : Event) (history : List Event) :
    Session.calls ⟨seen, unresolved, features, event :: history⟩ =
      Session.calls ⟨seen, unresolved, features, history⟩ ++ event.asked? := by
  cases event <;> simp [Session.calls, Session.events, Event.asked?]

/-! ## The sessions after a directive -/

namespace Session

variable (s : Session) (path : Text)

/-- The session after a directive whose path was met before. -/
def afterDuplicate : Session := { s with history := .duplicate path :: s.history }

/-- The session after a path was asked for. -/
def afterAsking : Session :=
  { s with seen := s.seen ++ [path], history := .asked path :: s.history }

/-- The session after a path was asked for and not found. -/
def afterMissing : Session :=
  { s with
    seen := s.seen ++ [path]
    unresolved := s.unresolved ++ [path]
    history := .notFound path :: .asked path :: s.history }

/-- The session after the first pragma of a feature. -/
def afterTurnedOn (feature : Preamble.Feature) : Session :=
  { s with features := s.features ++ [feature] }

/-- The session after a further pragma of a feature. -/
def afterRepeated (feature : Preamble.Feature) : Session :=
  { s with history := .repeated feature :: s.history }

end Session

/-- What stands in the place of a directive for a path: nothing, the comment, or the flattened
file. -/
theorem runOn_inlineWith (lookup : Lookup) (flattenFile : Text → Run Text) (path : Text)
    (s : Session) :
    runOn (inlineWith lookup flattenFile path) s =
      if path ∈ s.seen then ⟨.ok [], s.afterDuplicate path⟩
      else
        match lookup path with
        | none => ⟨.ok (missingComment path), s.afterMissing path⟩
        | some content =>
          runOn (flattenFile content >>= fun flat => pure (Preamble.dropPreamble flat ++ "\n"))
            (s.afterAsking path) := by
  simp only [inlineWith, runOn_bind, runOn_get]
  by_cases known : path ∈ s.seen
  · rw [if_pos known, if_pos known]
    rfl
  · rw [if_neg known, if_neg known]
    simp only [noteAsked, runOn_bind, runOn_modify]
    cases lookup path with
    | none => rfl
    | some content =>
      simp only [runOn_bind]
      rfl

/-- What stands in the place of a feature pragma: nothing, or its own text. -/
theorem runOn_keepFirstPragma (feature : Preamble.Feature) (covered : Text) (s : Session) :
    runOn (keepFirstPragma (.hit feature covered)) s =
      if feature ∈ s.features then ⟨.ok [], s.afterRepeated feature⟩
      else ⟨.ok covered, s.afterTurnedOn feature⟩ := by
  simp only [keepFirstPragma, runOn_bind, runOn_get]
  split <;> rfl

/-! ## Growth -/

/-- What a run may do to a session under a look-up, where `asked` are the paths that it asks
for. -/
structure Grows (lookup : Lookup) (asked : List Text) (before after : Session) : Prop where
  /-- The paths are met in the order in which they are asked for. -/
  seen : after.seen = before.seen ++ asked
  /-- The look-up is asked for these paths and no other. -/
  calls : after.calls = before.calls ++ asked
  /-- Those without a file are unresolved. -/
  unresolved : after.unresolved = before.unresolved ++ asked.filter fun p => (lookup p).isNone
  fresh : ∀ path ∈ asked, path ∉ before.seen
  nodup : asked.Nodup
  /-- Features stay turned on. -/
  features : before.features <+: after.features

namespace Grows

variable {asked more : List Text} {s t u : Session}

theorem refl (lookup : Lookup) (s : Session) : Grows lookup [] s s where
  seen := by simp
  calls := by simp
  unresolved := by simp
  fresh := by simp
  nodup := .nil
  features := List.prefix_rfl

theorem trans (first : Grows lookup asked s t) (last : Grows lookup more t u) :
    Grows lookup (asked ++ more) s u where
  seen := by rw [last.seen, first.seen, List.append_assoc]
  calls := by rw [last.calls, first.calls, List.append_assoc]
  unresolved := by rw [last.unresolved, first.unresolved, List.filter_append, List.append_assoc]
  fresh := by
    intro path member
    rcases List.mem_append.mp member with early | late
    · exact first.fresh path early
    · have unseen := last.fresh path late
      rw [first.seen] at unseen
      exact fun h => unseen (List.mem_append_left _ h)
  nodup := by
    refine List.Nodup.append first.nodup last.nodup ?_
    intro path early late
    apply last.fresh path late
    rw [first.seen]
    exact List.mem_append_right _ early
  features := first.features.trans last.features

theorem afterDuplicate (lookup : Lookup) (s : Session) (path : Text) :
    Grows lookup [] s (s.afterDuplicate path) where
  seen := by simp [Session.afterDuplicate]
  calls := by simp [Session.afterDuplicate, Event.asked?]
  unresolved := by simp [Session.afterDuplicate]
  fresh := by simp
  nodup := .nil
  features := List.prefix_rfl

theorem afterAsking {path content : Text} (new : path ∉ s.seen)
    (found : lookup path = some content) : Grows lookup [path] s (s.afterAsking path) where
  seen := rfl
  calls := by simp [Session.afterAsking, Event.asked?]
  unresolved := by simp [Session.afterAsking, found]
  fresh := by simpa using new
  nodup := by simp
  features := List.prefix_rfl

theorem afterMissing {path : Text} (new : path ∉ s.seen) (absent : lookup path = none) :
    Grows lookup [path] s (s.afterMissing path) where
  seen := rfl
  calls := by simp [Session.afterMissing, Event.asked?]
  unresolved := by simp [Session.afterMissing, absent]
  fresh := by simpa using new
  nodup := by simp
  features := List.prefix_rfl

theorem afterTurnedOn (lookup : Lookup) (s : Session) (feature : Preamble.Feature) :
    Grows lookup [] s (s.afterTurnedOn feature) where
  seen := by simp [Session.afterTurnedOn]
  calls := by simp [Session.afterTurnedOn]
  unresolved := by simp [Session.afterTurnedOn]
  fresh := by simp
  nodup := .nil
  features := List.prefix_append _ _

theorem afterRepeated (lookup : Lookup) (s : Session) (feature : Preamble.Feature) :
    Grows lookup [] s (s.afterRepeated feature) where
  seen := by simp [Session.afterRepeated]
  calls := by simp [Session.afterRepeated, Event.asked?]
  unresolved := by simp [Session.afterRepeated]
  fresh := by simp
  nodup := .nil
  features := List.prefix_rfl

end Grows

/-! ## Runs under which sessions grow -/

/-- A run after which, successful or not, every session has only grown. -/
def Growing (lookup : Lookup) (run : Run α) : Prop :=
  ∀ s, ∃ asked, Grows lookup asked s (runOn run s).state

theorem Growing.pure (a : α) : Growing lookup (pure a : Run α) := by
  intro s
  exact ⟨[], .refl lookup s⟩

theorem Growing.throw (fault : Fault) : Growing lookup (throw fault : Run α) := by
  intro s
  exact ⟨[], .refl lookup s⟩

theorem Growing.bind {first : Run α} {next : α → Run β} (hfirst : Growing lookup first)
    (hnext : ∀ a, Growing lookup (next a)) : Growing lookup (first >>= next) := by
  intro s
  obtain ⟨asked, grown⟩ := hfirst s
  rw [runOn_bind]
  rcases hrun : runOn first s with ⟨answer, t⟩
  rw [hrun] at grown
  cases answer with
  | error fault => exact ⟨asked, grown⟩
  | ok a =>
    obtain ⟨more, later⟩ := hnext a t
    exact ⟨asked ++ more, grown.trans later⟩

theorem grows_inlineWith {flattenFile : Text → Run Text}
    (hfile : ∀ content, Growing lookup (flattenFile content)) (path : Text) :
    Growing lookup (inlineWith lookup flattenFile path) := by
  intro s
  rw [runOn_inlineWith]
  split
  next known => exact ⟨[], .afterDuplicate lookup s path⟩
  next new =>
    cases found : lookup path with
    | none => exact ⟨[path], .afterMissing new found⟩
    | some content =>
      obtain ⟨more, grown⟩ := (hfile content).bind (fun _ => .pure _) (s.afterAsking path)
      exact ⟨[path] ++ more, (Grows.afterAsking new found).trans grown⟩

theorem grows_inlinePieces {inlinePath : Text → Run Text}
    (hpath : ∀ path, Growing lookup (inlinePath path)) (importer : Option Text)
    (pieces : List (Piece Import.Directive)) :
    Growing lookup (inlinePieces inlinePath importer pieces) := by
  induction pieces with
  | nil => exact .pure _
  | cons piece pieces ih =>
    refine .bind ?_ fun first => .bind ih fun rest => .pure _
    cases piece with
    | char c => exact .pure _
    | hit directive covered => exact hpath _

theorem grows_flattenAt (limit : Int) (levels : Nat) (source : Text) (importer : Option Text) :
    Growing lookup (flattenAt lookup limit levels source importer) := by
  induction levels generalizing source importer with
  | zero => exact .throw _
  | succ levels ih =>
    refine grows_inlinePieces (fun path => ?_) importer _
    exact grows_inlineWith (fun content => ih content (some path)) path

theorem grows_flatten (limit : Int) (source : Text) (depth : Int) (importer : Option Text) :
    Growing lookup (flatten lookup limit source depth importer) :=
  grows_flattenAt limit _ source importer

theorem grows_inlinePath (limit : Int) (path : Text) (depth : Int) :
    Growing lookup (inlinePath lookup limit path depth) :=
  grows_inlineWith (fun content => grows_flatten limit content (depth + 1) (some path)) path

theorem grows_keepFirstPragmas (pieces : List (Piece Preamble.Feature)) :
    Growing lookup (keepFirstPragmas pieces) := by
  induction pieces with
  | nil => exact .pure _
  | cons piece pieces ih =>
    refine .bind ?_ fun first => .bind ih fun rest => .pure _
    cases piece with
    | char c => exact .pure _
    | hit feature covered =>
      intro s
      rw [runOn_keepFirstPragma]
      split
      next on => exact ⟨[], .afterRepeated lookup s feature⟩
      next off => exact ⟨[], .afterTurnedOn lookup s feature⟩

theorem grows_flattenSource (limit : Int) (source : Text) :
    Growing lookup (flattenSource lookup limit source) :=
  .bind (grows_flatten limit source 0 none) fun _ =>
    .bind (grows_keepFirstPragmas _) fun _ => .pure _

/-! ## Tasks on one session -/

/-- What one session can be asked to do. -/
inductive Task where
  | source (text : Text)
  /-- To replace the directives of a source at a depth. -/
  | part (text : Text) (depth : Int) (importer : Option Text)
  /-- To inline a path at a depth. -/
  | inlining (path : Text) (depth : Int)

/-- The run of a task. -/
def Task.run (lookup : Lookup) (limit : Int) : Task → Run Text
  | .source text => flattenSource lookup limit text
  | .part text depth importer => flatten lookup limit text depth importer
  | .inlining path depth => inlinePath lookup limit path depth

theorem Task.grows (lookup : Lookup) (limit : Int) (task : Task) :
    Growing lookup (task.run lookup limit) := by
  cases task with
  | source text => exact grows_flattenSource limit text
  | part text depth importer => exact grows_flatten limit text depth importer
  | inlining path depth => exact grows_inlinePath limit path depth

/-- A task and the files that are added before it. -/
structure Turn where
  added : Assoc Text
  task : Task

/-- A session between two turns, with what happened to it so far. -/
structure Record where
  /-- The files that are there. -/
  files : Assoc Text
  session : Session
  /-- Every call with its answer at the time. -/
  answered : List (Text × Option Text)

namespace Record

/-- The record before any turn. -/
def start (files : Assoc Text) : Record := ⟨files, .empty, []⟩

/-- The record after one more turn, whether its task failed or not.  All calls of a turn are
answered from the files that are there when its task starts. -/
def next (limit : Int) (r : Record) (turn : Turn) : Record :=
  let files := Assoc.merge r.files turn.added
  let session := (runOn (turn.task.run (Assoc.get? files) limit) r.session).state
  let calls := session.calls.drop r.session.calls.length
  ⟨files, session, r.answered ++ calls.map fun path => (path, Assoc.get? files path)⟩

/-- The record after some turns. -/
def after (limit : Int) (files : Assoc Text) (turns : List Turn) : Record :=
  turns.foldl (next limit) (start files)

/-- What holds of a record at every point: no path is asked for twice, the paths that were met
are those that were asked for, and those that were answered with nothing are unresolved. -/
structure Faithful (r : Record) : Prop where
  nodup : r.session.calls.Nodup
  seen : r.session.seen = r.session.calls
  answered : r.answered.map Prod.fst = r.session.calls
  unresolved : r.session.unresolved = (r.answered.filter fun e => e.2.isNone).map Prod.fst

/-- What a turn may do to a record. -/
structure Extends (before after : Record) : Prop where
  calls : before.session.calls <+: after.session.calls
  unresolved : before.session.unresolved <+: after.session.unresolved
  features : before.session.features <+: after.session.features
  answered : before.answered <+: after.answered

theorem Extends.refl (r : Record) : Extends r r :=
  ⟨List.prefix_rfl, List.prefix_rfl, List.prefix_rfl, List.prefix_rfl⟩

theorem Extends.trans {first second third : Record} (h : Extends first second)
    (h' : Extends second third) : Extends first third :=
  ⟨h.calls.trans h'.calls, h.unresolved.trans h'.unresolved, h.features.trans h'.features,
    h.answered.trans h'.answered⟩

theorem faithful_start (files : Assoc Text) : Faithful (start files) :=
  ⟨.nil, rfl, rfl, rfl⟩

/-- The growth of the session in a turn, and the answers that the turn adds. -/
theorem grows_next (limit : Int) (r : Record) (turn : Turn) :
    ∃ asked, Grows (Assoc.get? (r.next limit turn).files) asked r.session
        (r.next limit turn).session ∧
      (r.next limit turn).answered =
        r.answered ++ asked.map fun p => (p, Assoc.get? (r.next limit turn).files p) := by
  obtain ⟨asked, grown⟩ :=
    turn.task.grows (Assoc.get? (Assoc.merge r.files turn.added)) limit r.session
  refine ⟨asked, grown, ?_⟩
  simp only [next, grown.calls, List.drop_left]

theorem Faithful.next {r : Record} (h : Faithful r) (limit : Int) (turn : Turn) :
    Faithful (r.next limit turn) := by
  obtain ⟨asked, grown, answers⟩ := grows_next limit r turn
  constructor
  · rw [grown.calls]
    refine List.Nodup.append h.nodup grown.nodup ?_
    intro path early late
    exact grown.fresh path late (h.seen ▸ early)
  · rw [grown.seen, grown.calls, h.seen]
  · rw [answers, grown.calls, List.map_append, h.answered, List.map_map]
    exact congrArg _ (List.map_id _)
  · rw [answers, grown.unresolved, h.unresolved, List.filter_append, List.map_append,
      List.filter_map, List.map_map]
    exact congrArg _ (List.map_id _).symm

theorem extends_next (limit : Int) (r : Record) (turn : Turn) :
    Extends r (r.next limit turn) := by
  obtain ⟨asked, grown, answers⟩ := grows_next limit r turn
  refine ⟨?_, ?_, grown.features, ?_⟩
  · exact grown.calls ▸ List.prefix_append _ _
  · exact grown.unresolved ▸ List.prefix_append _ _
  · exact answers ▸ List.prefix_append _ _

theorem faithful_foldl (limit : Int) (turns : List Turn) {r : Record} (h : Faithful r) :
    Faithful (turns.foldl (next limit) r) := by
  induction turns generalizing r with
  | nil => exact h
  | cons turn turns ih => exact ih (h.next limit turn)

theorem extends_foldl (limit : Int) (turns : List Turn) (r : Record) :
    Extends r (turns.foldl (next limit) r) := by
  induction turns generalizing r with
  | nil => exact .refl r
  | cons turn turns ih => exact (extends_next limit r turn).trans (ih _)

/-- At every point of every sequence of turns, failed ones included: the look-up was asked for no
path twice and for exactly the paths that count as met; the unresolved paths are those that were
answered with nothing when they were asked for; and what was met, unresolved, turned on or
answered stays so, whatever comes later.  A path that was asked for is not asked for again. -/
theorem asked_once (limit : Int) (files : Assoc Text) (earlier later : List Turn) :
    let r := after limit files earlier
    let r' := after limit files (earlier ++ later)
    r'.session.calls.Nodup ∧
      (∀ path, path ∈ r'.session.seen ↔ path ∈ r'.session.calls) ∧
      r'.answered.map Prod.fst = r'.session.calls ∧
      (∀ path, path ∈ r'.session.unresolved ↔ (path, none) ∈ r'.answered) ∧
      r.session.seen ⊆ r'.session.seen ∧
      r.session.unresolved ⊆ r'.session.unresolved ∧
      r.session.features ⊆ r'.session.features ∧
      r.answered <+: r'.answered ∧
      ∃ asked, r'.session.calls = r.session.calls ++ asked ∧
        ∀ path ∈ r.session.calls, path ∉ asked := by
  intro r r'
  have before : Faithful r := faithful_foldl limit earlier (faithful_start files)
  have behind : Faithful r' := faithful_foldl limit (earlier ++ later) (faithful_start files)
  have grown : Extends r r' := by
    have split : r' = later.foldl (next limit) r := List.foldl_append
    exact split ▸ extends_foldl limit later r
  refine ⟨behind.nodup, fun path => by rw [behind.seen], behind.answered, ?_, ?_,
    grown.unresolved.subset, grown.features.subset, grown.answered, ?_⟩
  · intro path
    rw [behind.unresolved]
    simp
  · rw [before.seen, behind.seen]
    exact grown.calls.subset
  · obtain ⟨asked, split⟩ := grown.calls
    refine ⟨asked, split.symm, ?_⟩
    intro path early late
    have nodup := behind.nodup
    rw [← split] at nodup
    exact (List.nodup_append'.mp nodup).2.2 early late

end Record

end Flatten

end TokenForge
