import TokenForge.Compile.Sources
import TokenForge.Proofs.Flatten.Reachable

/-!
# The sources of a compilation are a closure

The units of a compilation are the entry unit, whose text is the source, and the files.  A
search for sources ends with the units that the entry unit reaches, or at a path that it
reaches and that has no file.

`Search.Valid` is the invariant of the search.  Between two units every unit that was found
either waits on the stack or has all its imports among the units, so when the stack is
empty the units are closed under imports.  A step takes a unit off the stack and may put
units on it that were not found before.  The files that were not found and the stack
together become fewer, which is why as many steps as there are files, and two, are enough.
-/

namespace TokenForge

namespace Compile

open Flatten (Imports Reaches unmet)

/-- The text of a unit, where the entry unit has the source. -/
def contentOf (lookup : Text → Option Text) (entry source unit : Text) : Option Text :=
  if unit = entry then some source else lookup unit

variable {lookup : Text → Option Text} {entry source : Text} {known : List Text}

@[simp]
theorem contentOf_entry : contentOf lookup entry source entry = some source := if_pos rfl

theorem contentOf_of_ne {unit : Text} (other : unit ≠ entry) :
    contentOf lookup entry source unit = lookup unit := if_neg other

/-! ## The invariant -/

namespace Search

/-- What holds of a search at every point.  The units `under` are off the stack, but their
imports may not all be followed. -/
structure Valid (lookup : Text → Option Text) (entry source : Text) (under : List Text)
    (s : Search) : Prop where
  keys : Assoc.keys s.sources = entry :: s.asked
  nodup : (Assoc.keys s.sources).Nodup
  contents : ∀ unit ∈ Assoc.keys s.sources,
    Assoc.get? s.sources unit = contentOf lookup entry source unit
  reached : ∀ unit ∈ Assoc.keys s.sources, Reaches (contentOf lookup entry source) entry unit
  pending : ∀ e ∈ s.pending, Assoc.get? s.sources e.1 = some e.2
  followed : ∀ unit ∈ Assoc.keys s.sources, unit ∈ under ∨ unit ∈ s.pending.map Prod.fst ∨
    ∀ path, Imports (contentOf lookup entry source) unit path → path ∈ Assoc.keys s.sources

/-- The number of steps that a search may still take, one for each unit on the stack and one for
each file that was not found. -/
def stepsLeft (known : List Text) (s : Search) : Nat :=
  unmet known (Assoc.keys s.sources) + s.pending.length

variable {under : List Text} {s : Search}

theorem valid_start : Valid lookup entry source [] (start entry source) where
  keys := rfl
  nodup := by simp [start, Assoc.keys]
  contents := by simp [start, Assoc.keys, Assoc.get?]
  reached := by
    intro unit member
    rw [start, Assoc.keys, List.map_singleton, List.mem_singleton] at member
    subst member
    exact .refl
  pending := by simp [start, Assoc.get?]
  followed := by simp [start, Assoc.keys]

/-- The search after a unit was found. -/
def found (s : Search) (path content : Text) : Search where
  sources := Assoc.put s.sources path content
  pending := (path, content) :: s.pending
  asked := s.asked ++ [path]

theorem keys_found {path : Text} (new : path ∉ Assoc.keys s.sources) (content : Text) :
    Assoc.keys (s.found path content).sources = Assoc.keys s.sources ++ [path] := by
  rw [found, Assoc.keys_put, if_neg new]

theorem Valid.found (h : Valid lookup entry source under s) {path content : Text}
    (new : path ∉ Assoc.keys s.sources) (stored : lookup path = some content)
    (reached : Reaches (contentOf lookup entry source) entry path) :
    Valid lookup entry source under (s.found path content) := by
  have keys := keys_found new content
  have other : path ≠ entry := by
    rintro rfl
    exact new (by simp [h.keys])
  have old : ∀ {unit}, unit ∈ Assoc.keys s.sources → path ≠ unit := by
    rintro unit member rfl
    exact new member
  constructor
  case keys =>
    rw [keys, h.keys]
    rfl
  case nodup =>
    rw [keys]
    exact List.Nodup.append h.nodup (by simp) (by simpa using new)
  case contents =>
    intro unit member
    rw [keys] at member
    rw [Search.found, Assoc.get?_put]
    rcases List.mem_append.mp member with before | last
    · rw [if_neg (old before)]
      exact h.contents unit before
    · obtain rfl := List.mem_singleton.mp last
      rw [if_pos rfl, contentOf_of_ne other, stored]
  case reached =>
    intro unit member
    rw [keys] at member
    rcases List.mem_append.mp member with before | last
    · exact h.reached unit before
    · exact List.mem_singleton.mp last ▸ reached
  case pending =>
    intro e member
    rw [Search.found, Assoc.get?_put]
    rcases List.mem_cons.mp member with rfl | before
    · exact if_pos rfl
    · have stored := h.pending e before
      have present : e.1 ∈ Assoc.keys s.sources := Assoc.mem_keys_of_get? (by rw [stored]; rfl)
      rw [if_neg (old present)]
      exact stored
  case followed =>
    -- The new unit waits on the stack, and no other loses a key.
    intro unit member
    rw [keys] at member ⊢
    rcases List.mem_append.mp member with before | last
    · rcases h.followed unit before with within | waiting | done
      · exact .inl within
      · exact .inr (.inl (.tail _ waiting))
      · exact .inr (.inr fun path imported => List.mem_append_left _ (done path imported))
    · exact .inr (.inl (List.mem_singleton.mp last ▸ .head _))

theorem stepsLeft_found {path content : Text} (new : path ∉ Assoc.keys s.sources)
    (member : path ∈ known) : (s.found path content).stepsLeft known ≤ s.stepsLeft known := by
  have less := Flatten.unmet_lt member new
  rw [stepsLeft, keys_found new, Search.found, List.length_cons, stepsLeft]
  omega

theorem Valid.take (h : Valid lookup entry source [] s) {unit content : Text}
    {rest : List (Text × Text)} (next : s.pending = (unit, content) :: rest) :
    Valid lookup entry source [unit] { s with pending := rest } := by
  refine ⟨h.keys, h.nodup, h.contents, h.reached, ?_, ?_⟩
  · intro e member
    exact h.pending e (next ▸ .tail _ member)
  · intro other member
    have := h.followed other member
    simpa [next, or_assoc] using this

theorem Valid.drop {unit : Text} (h : Valid lookup entry source [unit] s)
    (done : ∀ path, Imports (contentOf lookup entry source) unit path →
      path ∈ Assoc.keys s.sources) : Valid lookup entry source [] s := by
  refine ⟨h.keys, h.nodup, h.contents, h.reached, h.pending, ?_⟩
  intro other member
  rcases h.followed other member with within | waiting | further
  · exact .inr (.inr (List.mem_singleton.mp within ▸ done))
  · exact .inr (.inl waiting)
  · exact .inr (.inr further)

/-- When the stack is empty the units are those that the entry unit reaches. -/
theorem Valid.mem_keys_iff (h : Valid lookup entry source [] s) (empty : s.pending = [])
    (unit : Text) :
    unit ∈ Assoc.keys s.sources ↔ Reaches (contentOf lookup entry source) entry unit := by
  refine ⟨h.reached unit, ?_⟩
  intro reached
  induction reached with
  | refl => simp [h.keys]
  | @tail unit path _ imported ih =>
    rcases h.followed unit ih with under | waiting | done
    · cases under
    · simp [empty] at waiting
    · exact done path imported

theorem Valid.isSome_of_reaches (h : Valid lookup entry source [] s) (empty : s.pending = [])
    {unit : Text} (reached : Reaches (contentOf lookup entry source) entry unit) :
    (contentOf lookup entry source unit).isSome := by
  have member := (h.mem_keys_iff empty unit).mpr reached
  rw [← h.contents unit member]
  exact Assoc.isSome_get?_iff.mpr member

theorem Valid.asked_nodup (h : Valid lookup entry source under s) : s.asked.Nodup := by
  have := h.nodup
  rw [h.keys, List.nodup_cons] at this
  exact this.2

theorem Valid.mem_asked_iff (h : Valid lookup entry source under s) (path : Text) :
    path ∈ s.asked ↔ path ∈ Assoc.keys s.sources ∧ path ≠ entry := by
  have split := h.nodup
  rw [h.keys, List.nodup_cons] at split
  rw [h.keys, List.mem_cons]
  constructor
  · intro asked
    exact ⟨.inr asked, fun same => split.1 (same ▸ asked)⟩
  · rintro ⟨same | asked, other⟩
    · exact absurd same other
    · exact asked

end Search

/-! ## Steps -/

/-- How a step of a search may end: well, with a search as it should be, or at a path that is
reached and has no file. -/
def Ends (lookup : Text → Option Text) (entry source : Text) (good : Search → Prop) :
    Outcome SearchFault Search PUnit → Prop
  | ⟨.ok _, s⟩ => good s
  | ⟨.error (.missing path), _⟩ =>
    Reaches (contentOf lookup entry source) entry path ∧
      contentOf lookup entry source path = none
  | ⟨.error .endless, _⟩ => False

theorem Ends.mono {good better : Search → Prop} {outcome : Outcome SearchFault Search PUnit}
    (h : Ends lookup entry source good outcome) (weaker : ∀ s, good s → better s) :
    Ends lookup entry source better outcome := by
  rcases outcome with ⟨(path | _) | _, s⟩
  · exact h
  · exact h
  · exact weaker s h

theorem Ends.bind {first next : SearchRun PUnit} {middle good : Search → Prop} {s : Search}
    (h : Ends lookup entry source middle (runOn first s))
    (further : ∀ t, middle t → Ends lookup entry source good (runOn next t)) :
    Ends lookup entry source good (runOn (first >>= fun _ => next) s) := by
  rw [runOn_bind]
  rcases hrun : runOn first s with ⟨(path | _) | _, t⟩
  · rw [hrun] at h
    exact h
  · rw [hrun] at h
    exact h
  · rw [hrun] at h
    exact further t h

/-- What following an import does: nothing, or it finds a unit, or it fails. -/
theorem runOn_followPath (lookup : Text → Option Text) (path : Text) (s : Search) :
    runOn (followPath lookup path) s =
      if path ∈ Assoc.keys s.sources then ⟨.ok ⟨⟩, s⟩
      else
        match lookup path with
        | none => ⟨.error (.missing path), { s with asked := s.asked ++ [path] }⟩
        | some content => ⟨.ok ⟨⟩, s.found path content⟩ := by
  have has : Assoc.has s.sources path = decide (path ∈ Assoc.keys s.sources) := by
    rw [Bool.eq_iff_iff, decide_eq_true_iff]
    exact Assoc.isSome_get?_iff
  simp only [followPath, runOn_bind, runOn_get, has, decide_eq_true_eq]
  by_cases old : path ∈ Assoc.keys s.sources
  · rw [if_pos old, if_pos old]
    rfl
  · rw [if_neg old, if_neg old]
    simp only [runOn_bind, runOn_modify]
    cases lookup path with
    | none => rfl
    | some content => rfl

section Steps

variable {under : List Text} {s : Search}

/-- What a search may do when it follows imports: it stays valid, takes no more steps than it may,
loses no unit and has the paths among the units. -/
structure Follows (lookup : Text → Option Text) (entry source : Text) (under known : List Text)
    (paths : List Text) (s t : Search) : Prop where
  valid : t.Valid lookup entry source under
  steps : t.stepsLeft known ≤ s.stepsLeft known
  keeps : Assoc.keys s.sources ⊆ Assoc.keys t.sources
  has : paths ⊆ Assoc.keys t.sources

theorem followPath_ends (hknown : ∀ path, (lookup path).isSome → path ∈ known)
    (h : s.Valid lookup entry source under) {path : Text}
    (reached : Reaches (contentOf lookup entry source) entry path) :
    Ends lookup entry source (Follows lookup entry source under known [path] s)
      (runOn (followPath lookup path) s) := by
  rw [runOn_followPath]
  split
  next old => exact ⟨h, Nat.le_refl _, List.Subset.refl _, by simpa using old⟩
  next new =>
    cases stored : lookup path with
    | none =>
      have other : path ≠ entry := by
        rintro rfl
        exact new (by simp [h.keys])
      exact ⟨reached, by rw [contentOf_of_ne other, stored]⟩
    | some content =>
      have keys := Search.keys_found new content
      refine ⟨h.found new stored reached, ?_, ?_, ?_⟩
      · exact Search.stepsLeft_found new (hknown path (by simp [stored]))
      · rw [keys]
        exact List.subset_append_left _ _
      · simp [keys]

theorem followPaths_ends (hknown : ∀ path, (lookup path).isSome → path ∈ known)
    {paths : List Text} (h : s.Valid lookup entry source under)
    (reached : ∀ path ∈ paths, Reaches (contentOf lookup entry source) entry path) :
    Ends lookup entry source (Follows lookup entry source under known paths s)
      (runOn (followPaths lookup paths) s) := by
  induction paths generalizing s with
  | nil => exact ⟨h, Nat.le_refl _, List.Subset.refl _, List.nil_subset _⟩
  | cons path paths ih =>
    rw [followPaths]
    refine (followPath_ends hknown h (reached path (.head _))).bind fun t first => ?_
    refine (ih first.valid fun next member => reached next (.tail _ member)).mono ?_
    intro u last
    refine ⟨last.valid, Nat.le_trans last.steps first.steps, ?_, ?_⟩
    · exact List.Subset.trans first.keeps last.keeps
    · exact List.cons_subset.mpr ⟨last.keeps (first.has (.head _)), last.has⟩

/-- A search whose limit is beyond the steps that it may take ends with an empty stack, or at a
path without a file. -/
theorem followUnits_ends (hknown : ∀ path, (lookup path).isSome → path ∈ known) {limit : Nat}
    (h : s.Valid lookup entry source []) (enough : s.stepsLeft known < limit) :
    Ends lookup entry source (fun t => t.Valid lookup entry source [] ∧ t.pending = [])
      (runOn (followUnits lookup limit) s) := by
  induction limit generalizing s with
  | zero => omega
  | succ limit ih =>
    simp only [followUnits, runOn_bind, runOn_get]
    cases stack : s.pending with
    | nil => exact ⟨h, stack⟩
    | cons e rest =>
      obtain ⟨unit, content⟩ := e
      have stored : contentOf lookup entry source unit = some content := by
        have stored := h.pending (unit, content) (by simp [stack])
        rw [← h.contents unit (Assoc.mem_keys_of_get? (by simp [stored])), stored]
      have reached : ∀ path ∈ Import.paths content (some unit),
          Reaches (contentOf lookup entry source) entry path := by
        intro path member
        refine .tail (h.reached unit ?_) ⟨content, stored, member⟩
        exact Assoc.mem_keys_of_get? (by simp [h.pending (unit, content) (by simp [stack])])
      have less : Search.stepsLeft known { s with pending := rest } < limit := by
        simp only [Search.stepsLeft, stack, List.length_cons] at enough ⊢
        omega
      dsimp only
      -- The unit is under way until its imports are followed, and done from then on.
      refine (followPaths_ends hknown (h.take stack) reached).bind fun t follows => ?_
      refine ih (follows.valid.drop ?_) (Nat.lt_of_le_of_lt follows.steps less)
      rintro path ⟨content', stored', member⟩
      rw [stored] at stored'
      cases stored'
      exact follows.has member

/-- A limit at which a search ends may be raised. -/
theorem followUnits_succ {limit : Nat}
    (ends : (runOn (followUnits lookup limit) s).answer ≠ .error .endless) :
    runOn (followUnits lookup (limit + 1)) s = runOn (followUnits lookup limit) s := by
  induction limit generalizing s with
  | zero => exact absurd rfl ends
  | succ limit ih =>
    rw [followUnits, followUnits] at *
    simp only [runOn_bind, runOn_get] at *
    cases stack : s.pending with
    | nil => rfl
    | cons e rest =>
      simp only [stack, runOn_bind, runOn_modify] at *
      rcases hrun : runOn (followPaths lookup (Import.paths e.2 (some e.1)))
        { s with pending := rest } with ⟨fault | _, t⟩
      · rfl
      · rw [hrun] at ends
        exact ih ends

end Steps

/-! ## Whole searches -/

section Searches

variable (files : Assoc Text) {limit : Nat} (enough : files.length ≤ limit) (entry source : Text)

include enough

theorem followUnits_start :
    Ends (Assoc.get? files) entry source
      (fun t => t.Valid (Assoc.get? files) entry source [] ∧ t.pending = [])
      (runOn (followUnits (Assoc.get? files) (limit + 2)) (Search.start entry source)) := by
  refine followUnits_ends (fun _ => Assoc.mem_keys_of_get?) Search.valid_start ?_
  have bound : unmet (Assoc.keys files) [entry] ≤ files.length := by
    have := List.length_filter_le (fun path => decide (path ∉ [entry])) (Assoc.keys files)
    rwa [Assoc.keys, List.length_map] at this
  change unmet (Assoc.keys files) [entry] + 1 < limit + 2
  omega

/-- A search over finitely many files ends in one of two ways. -/
theorem collectSources_cases :
    (∃ path, (collectSources (Assoc.get? files) limit entry source).answer =
        .error (.missing path) ∧
      Reaches (contentOf (Assoc.get? files) entry source) entry path ∧
      contentOf (Assoc.get? files) entry source path = none) ∨
    ∃ t : Search, t.Valid (Assoc.get? files) entry source [] ∧ t.pending = [] ∧
      collectSources (Assoc.get? files) limit entry source = ⟨.ok t.sources, t.asked⟩ := by
  have ends := followUnits_start files enough entry source
  rw [collectSources]
  generalize runOn (followUnits _ _) _ = outcome at ends ⊢
  rcases outcome with ⟨(path | _) | _, t⟩
  · exact .inl ⟨path, rfl, ends⟩
  · exact absurd ends id
  · exact .inr ⟨t, ends.1, ends.2, rfl⟩

theorem collectSources_eq_of_le : collectSources (Assoc.get? files) limit entry source =
    collectSources (Assoc.get? files) files.length entry source := by
  induction enough with
  | refl => rfl
  | @step limit enough ih =>
    have ends := followUnits_start files enough entry source
    rw [← ih, collectSources, followUnits_succ, collectSources]
    generalize runOn (followUnits _ _) _ = outcome at ends ⊢
    rcases outcome with ⟨(path | _) | _, t⟩
    · simp
    · exact absurd ends id
    · simp

end Searches

/-- For every map of files, as many units as there are files are limit enough.  The search ends
at a path without a file if and only if the entry unit reaches one, and then at one that it
reaches.  Otherwise it answers with the units that the entry unit reaches, which are closed under
imports, each with its text, and every one but the entry unit was looked up once. -/
theorem collectSources_closure (files : Assoc Text) (entry source : Text) :
    let content := contentOf (Assoc.get? files) entry source
    let result := collectSources (Assoc.get? files) files.length entry source
    (∀ limit, files.length ≤ limit →
      collectSources (Assoc.get? files) limit entry source = result) ∧
    result.answer ≠ .error .endless ∧
    ((∃ path, result.answer = .error (.missing path)) ↔
      ∃ path, Reaches content entry path ∧ content path = none) ∧
    (∀ path, result.answer = .error (.missing path) →
      Reaches content entry path ∧ content path = none) ∧
    ∀ units, result.answer = .ok units →
      Assoc.get? units entry = some source ∧
      (∀ unit, unit ∈ Assoc.keys units ↔ Reaches content entry unit) ∧
      (∀ unit text, Assoc.get? units unit = some text →
        ∀ path ∈ Import.paths text (some unit), path ∈ Assoc.keys units) ∧
      (∀ unit ∈ Assoc.keys units, unit ≠ entry →
        Assoc.get? units unit = Assoc.get? files unit) ∧
      result.asked.Nodup ∧
      ∀ path, path ∈ result.asked ↔ path ∈ Assoc.keys units ∧ path ≠ entry := by
  intro content result
  refine ⟨fun limit enough => collectSources_eq_of_le files enough entry source, ?_⟩
  rcases collectSources_cases files (Nat.le_refl _) entry source with
    ⟨path, answer, missing⟩ | ⟨t, valid, empty, same⟩
  · change result.answer = _ at answer
    rw [answer]
    refine ⟨by simp, ⟨fun _ => ⟨path, missing⟩, fun _ => ⟨path, rfl⟩⟩, ?_, ?_⟩
    · intro other named
      cases named
      exact missing
    · intro units impossible
      cases impossible
  · change result = _ at same
    rw [same]
    refine ⟨by simp, ?_, ?_, ?_⟩
    · constructor
      · rintro ⟨path, impossible⟩
        cases impossible
      · rintro ⟨path, reached, absent⟩
        have present : (content path).isSome := valid.isSome_of_reaches empty reached
        rw [absent] at present
        cases present
    · intro path impossible
      cases impossible
    · intro units named
      cases named
      have keys := valid.mem_keys_iff empty
      have first : entry ∈ Assoc.keys t.sources := (keys entry).mpr .refl
      refine ⟨?_, keys, ?_, ?_, valid.asked_nodup, valid.mem_asked_iff⟩
      · rw [valid.contents entry first, contentOf_entry]
      · intro unit text stored path member
        have present : unit ∈ Assoc.keys t.sources :=
          Assoc.mem_keys_of_get? (by rw [stored]; rfl)
        have found : content unit = some text := (valid.contents unit present).symm.trans stored
        exact (keys path).mpr (.tail ((keys unit).mp present) ⟨text, found, member⟩)
      · intro unit member other
        rw [valid.contents unit member, contentOf_of_ne other]

end Compile

end TokenForge
