import TokenForge.FileTree
import TokenForge.Proofs.Outcome
import TokenForge.Proofs.Text.Utf8
import Mathlib.Data.List.Infix

/-!
# What writing a file changes

Following a path only looks at the entries on its way, so a tree in which one file was
written leads every path where it led before, except to that file.

* A path can be written where all entries above it are directories (`Reached`), and
  putting an entry there changes no other entry (`entryAt_put_of_ne`).
* `follow_written`: in two trees that differ in one file only, names lead to the same
  places, and to the new file where they led to its place before.
* `read_written` and `placeToWrite_written` say the same of reading and writing.
-/

namespace TokenForge

namespace FileTree

variable {t t' : FileTree} {place other : Place} {entry : Entry} {bytes : Bytes} {path : Text}

/-! ## Entries -/

/-- An entry, or the new entry of its place. -/
def replaced (place : Place) (entry : Entry) (e : Place × Entry) : Place × Entry :=
  if e.1 == place then (place, entry) else e

@[simp]
theorem replaced_fst (place : Place) (entry : Entry) (e : Place × Entry) :
    (replaced place entry e).1 = e.1 := by
  simp only [replaced]
  split
  next same => exact (beq_iff_eq.mp same).symm
  next => rfl

/-- What a search by places finds after an entry was put at one of them. -/
theorem find?_put (t : FileTree) (place other : Place) (entry : Entry) :
    ((t.put place entry).entries.find? fun e => e.1 == other) =
      if other = place then some (place, entry) else t.entries.find? fun e => e.1 == other := by
  have keyed : ((fun e : Place × Entry => e.1 == other) ∘ replaced place entry) =
      fun e => e.1 == other := by
    funext e
    simp
  change (if _ then (⟨t.entries.map (replaced place entry)⟩ : FileTree) else _).entries.find? _ = _
  split
  next there =>
    rw [List.find?_map, keyed]
    by_cases same : other = place
    · subst same
      obtain ⟨e, member, key⟩ := List.any_eq_true.mp there
      cases found : t.entries.find? fun e => e.1 == other with
      | none => exact absurd key (List.find?_eq_none.mp found e member)
      | some e => simp [replaced, List.find?_some found]
    · rw [if_neg same]
      cases found : t.entries.find? fun e => e.1 == other with
      | none => rfl
      | some e =>
        have key : e.1 = other := by simpa using List.find?_some found
        simp [replaced, key, same]
  next new =>
    rw [List.find?_append]
    by_cases same : other = place
    · subst same
      have absent : (t.entries.find? fun e => e.1 == other) = none :=
        List.find?_eq_none.mpr fun e member key => new (List.any_eq_true.mpr ⟨e, member, key⟩)
      simp [absent]
    · simp [same, Ne.symm same]

/-- The places after an entry was put at one. -/
theorem any_put (t : FileTree) (place : Place) (entry : Entry) (p : Place → Bool) :
    ((t.put place entry).entries.any fun e => p e.1) =
      ((t.entries.any fun e => p e.1) || p place) := by
  have keyed : ((fun e : Place × Entry => p e.1) ∘ replaced place entry) = fun e => p e.1 := by
    funext e
    simp
  change (if _ then (⟨t.entries.map (replaced place entry)⟩ : FileTree) else _).entries.any _ = _
  split
  next there =>
    rw [List.any_map, keyed, eq_comm, Bool.or_eq_left_iff_imp]
    intro holds
    obtain ⟨e, member, key⟩ := List.any_eq_true.mp there
    exact List.any_eq_true.mpr ⟨e, member, (beq_iff_eq.mp key).symm ▸ holds⟩
  next => simp

/-- The entry that was put at a place is there. -/
theorem entryAt_put (some_name : place ≠ []) :
    (t.put place entry).entryAt place = some entry := by
  rw [entryAt, find?_put, if_pos rfl]
  exact some_name

/-- Every entry above a place is a directory. -/
def Reached (t : FileTree) (place : Place) : Prop :=
  ∀ above, above <+: place → above ≠ place → t.entryAt above = some .directory

/-- An entry that is put at a place that can be reached changes no other entry. -/
theorem entryAt_put_of_ne (reached : t.Reached place) (ne : other ≠ place) :
    (t.put place entry).entryAt other = t.entryAt other := by
  cases other with
  | nil => rfl
  | cons name names =>
    have above : (name :: names).isPrefixOf place = true →
        t.entryAt (name :: names) = some .directory := fun inside =>
      reached _ (List.isPrefixOf_iff_prefix.mp inside) ne
    simp only [entryAt, find?_put, if_neg ne, any_put] at above ⊢
    cases found : t.entries.find? fun e => e.1 == name :: names with
    | some e => rfl
    | none =>
      rw [found] at above
      dsimp only at above ⊢
      cases inside : (name :: names).isPrefixOf place with
      | false => rw [Bool.or_false]
      | true => rw [above inside, Bool.or_true, if_pos rfl]

/-! ## Where names lead -/

/-- What a location says of the tree: a file lies at its place, and nothing at the place of an
absent one, and both can be reached. -/
def Location.Stands (t : FileTree) : Location → Prop
  | .file place bytes => place ≠ [] ∧ t.Reached place ∧ t.entryAt place = some (.file bytes)
  | .directory => True
  | .absent place => place ≠ [] ∧ t.Reached place ∧ t.entryAt place = none

/-- The place of a file or of nothing. -/
def Location.place? : Location → Option Place
  | .file place _ | .absent place => some place
  | .directory => none

theorem Location.Stands.writable {location : Location} (h : location.Stands t)
    (named : location.place? = some place) :
    place ≠ [] ∧ t.Reached place ∧ t.entryAt place ≠ some .directory := by
  cases location with
  | file other content =>
    cases named
    exact ⟨h.1, h.2.1, by rw [h.2.2]; nofun⟩
  | directory => cases named
  | absent other =>
    cases named
    exact ⟨h.1, h.2.1, by rw [h.2.2]; nofun⟩

/-- Every place on the way to the one that names are followed from is a directory. -/
def Standing (t : FileTree) (current : Option Place) : Prop :=
  ∀ above ∈ current, ∀ place, place <+: above.reverse → t.entryAt place = some .directory

theorem Standing.reached {above : Place} (h : t.Standing (some above)) (name : Text) :
    t.Reached (name :: above).reverse := by
  intro place inside ne
  rw [List.reverse_cons] at inside ne
  rcases List.prefix_concat_iff.mp inside with same | inside
  · exact absurd same ne
  · exact h above rfl place inside

theorem Standing.push {above : Place} (h : t.Standing (some above)) {name : Text}
    (there : t.entryAt (name :: above).reverse = some .directory) :
    t.Standing (some (name :: above)) := by
  rintro _ ⟨⟩ place inside
  by_cases same : place = (name :: above).reverse
  · rw [same, there]
  · exact h.reached name place inside same

theorem Standing.up {above : Place} {name : Text} (h : t.Standing (some (name :: above))) :
    t.Standing (some above) := by
  rintro _ ⟨⟩ place inside
  refine h _ rfl place (inside.trans ?_)
  rw [List.reverse_cons]
  exact List.prefix_append _ _

theorem standing_none : t.Standing none := nofun

theorem standing_nil : t.Standing (some []) := by
  rintro _ ⟨⟩ place inside
  rw [List.reverse_nil, List.prefix_nil] at inside
  rw [inside]
  rfl

/-- Names lead to what stands in the tree. -/
theorem follow_stands {current : Option Place} {names : List Text} {location : Location}
    (standing : t.Standing current) (h : t.follow current names = .ok location) :
    location.Stands t := by
  fun_induction follow t current names with
  | case1 | case4 | case7 | case10 | case12 =>
    cases h
    try trivial
  | case2 _ _ ih | case3 _ _ ih => exact ih standing h
  | case5 _ _ ih => exact ih standing_none h
  | case6 _ _ _ _ ih => exact ih standing.up h
  | case8 name names _ above _ _ place there ih => exact ih (standing.push there) h
  | case9 name _ above _ _ place bytes there | case11 name _ above _ _ place there =>
    cases h
    exact ⟨by simp [place], standing.reached name, there⟩

/-! ## One file more or another one -/

/-- A tree in which the file at a place, where no directory was, has been written. -/
structure Written (t t' : FileTree) (place : Place) (bytes : Bytes) : Prop where
  file : t'.entryAt place = some (.file bytes)
  others : ∀ other, other ≠ place → t'.entryAt other = t.entryAt other
  before : t.entryAt place ≠ some .directory

theorem Written.entryAt (h : Written t t' place bytes) (other : Place) :
    t'.entryAt other = if other = place then some (.file bytes) else t.entryAt other := by
  split
  next same => rw [same, h.file]
  next ne => exact h.others other ne

/-- Where a path leads after the file at a place has been written. -/
def Location.afterWriting (place : Place) (bytes : Bytes) : Location → Location
  | .file other content => .file other (if other = place then bytes else content)
  | .directory => .directory
  | .absent other => if other = place then .file other bytes else .absent other

/-- A name of an entry is looked up below the place that is followed from. -/
theorem follow_name {name : Text} {above : Place} {names : List Text} (here : name ≠ ['.'])
    (up : name ≠ ['.', '.']) (short : ¬ exceeds nameLimit name) :
    t.follow (some above) (name :: names) =
      match t.entryAt (name :: above).reverse with
      | some .directory => t.follow (some (name :: above)) names
      | some (.file bytes) =>
        if names = [] then .ok (.file (name :: above).reverse bytes) else .error .notDirectory
      | none =>
        if names = [] then .ok (.absent (name :: above).reverse) else .error .noSuchFile := by
  rw [follow.eq_def]
  exact (if_neg here).trans ((if_neg up).trans (if_neg short))

/-- After a file was written, names lead where they led before. -/
theorem follow_written (h : Written t t' place bytes) (current : Option Place)
    (names : List Text) :
    (t'.follow current names).toOption =
      (t.follow current names).toOption.map (Location.afterWriting place bytes) := by
  fun_induction follow t current names with
  | case1 => rfl
  | case2 _ _ ih | case3 _ _ ih | case5 _ _ ih =>
    rw [follow.eq_def]
    exact ih
  | case4 name names here up =>
    rw [follow, if_neg here, if_neg up]
    rfl
  | case6 names name above _ ih =>
    rw [follow, if_neg (by decide), if_pos rfl]
    exact ih
  | case7 name names here above up long =>
    rw [follow.eq_def]
    dsimp only
    rw [if_neg here, if_neg up, if_pos long]
    rfl
  | case8 name names here above up short other there ih =>
    have ne : other ≠ place := fun same => h.before (same ▸ there)
    rw [follow_name here up short, h.others _ ne, there]
    exact ih
  | case9 name here above up short other content there =>
    rw [follow_name here up short, h.entryAt]
    change _ = some (Location.afterWriting place bytes (.file other content))
    rw [Location.afterWriting]
    by_cases same : other = place
    · rw [if_pos same, if_pos same]
      rfl
    · rw [if_neg same, if_neg same, there]
      rfl
  | case11 name here above up short other there =>
    rw [follow_name here up short, h.entryAt]
    change _ = some (Location.afterWriting place bytes (.absent other))
    rw [Location.afterWriting]
    by_cases same : other = place
    · rw [if_pos same, if_pos same]
      rfl
    · rw [if_neg same, if_neg same, there]
      rfl
  | case10 name names here above up short other content there further
  | case12 name names here above up short other there further =>
    rw [follow_name here up short, h.entryAt, there]
    by_cases same : other = place
    · rw [if_pos same]
      simp only [if_neg further]
      rfl
    · rw [if_neg same]
      simp only [if_neg further]
      rfl

/-! ## Reading and writing -/

theorem standing_startOf (t : FileTree) (path : Text) : t.Standing (startOf path) := by
  rw [startOf]
  split
  next => exact standing_none
  next => exact standing_nil

/-- A path leads to what stands in the tree. -/
theorem locate_stands {location : Location} (h : t.locate path = .ok location) :
    location.Stands t := by
  rw [locate] at h
  split at h
  next => cases h
  next => exact follow_stands (standing_startOf t path) h

theorem locate_written (h : Written t t' place bytes) (path : Text) :
    (t'.locate path).toOption =
      (t.locate path).toOption.map (Location.afterWriting place bytes) := by
  rw [locate, locate]
  split
  next => rfl
  next => exact follow_written h _ _

theorem read_eq_ok_iff :
    t.read path = .ok bytes ↔ ∃ place, t.locate path = .ok (.file place bytes) := by
  rw [read]
  split <;> simp_all

/-- A path can be written where it leads to a file or to nothing, unless it asks for a
directory. -/
theorem placeToWrite_eq_ok_iff : t.placeToWrite path = .ok place ↔
    asksForDirectory path = false ∧
      ∃ location, t.locate path = .ok location ∧ location.place? = some place := by
  rw [placeToWrite, locate]
  cases refusal? path with
  | some fault => exact ⟨nofun, by rintro ⟨_, _, h, _⟩; cases h⟩
  | none =>
    cases asks : asksForDirectory path with
    | true =>
      refine ⟨fun h => ?_, nofun⟩
      simp only [if_true] at h
      obtain ⟨_, _, h⟩ := bind_eq_ok.mp h
      cases h
    | false =>
      simp only [Bool.false_eq_true, if_false, List.append_nil, true_and]
      rcases t.follow (startOf path) (namesOf path) with fault | location
      · exact ⟨nofun, by rintro ⟨_, h, _⟩; cases h⟩
      · cases location <;> simp [bind, Except.bind, pure, Except.pure, throw, throwThe,
          MonadExceptOf.throw, Location.place?]

/-- Writing a path writes the file at one place. -/
theorem written_put (h : t.placeToWrite path = .ok place) (bytes : Bytes) :
    Written t (t.put place (.file bytes)) place bytes := by
  obtain ⟨_, location, leads, named⟩ := placeToWrite_eq_ok_iff.mp h
  obtain ⟨some_name, reached, before⟩ := (locate_stands leads).writable named
  exact ⟨entryAt_put some_name, fun other => entryAt_put_of_ne reached, before⟩

/-- Where a path leads after a file was written. -/
theorem locate_written_eq_ok_iff (h : Written t t' place bytes) {location : Location} :
    t'.locate path = .ok location ↔
      ∃ earlier, t.locate path = .ok earlier ∧ earlier.afterWriting place bytes = location := by
  rw [← toOption_eq_some_iff, locate_written h, Option.map_eq_some_iff]
  simp only [toOption_eq_some_iff]

/-- A path that was written leads to the new file. -/
theorem locate_put (h : t.placeToWrite path = .ok place) (bytes : Bytes) :
    (t.put place (.file bytes)).locate path = .ok (.file place bytes) := by
  rw [locate_written_eq_ok_iff (written_put h bytes)]
  obtain ⟨_, location, leads, named⟩ := placeToWrite_eq_ok_iff.mp h
  refine ⟨location, leads, ?_⟩
  cases location with
  | file | absent =>
    cases named
    rw [Location.afterWriting, if_pos rfl]
  | directory => cases named

theorem read_put (h : t.placeToWrite path = .ok place) (bytes : Bytes) :
    (t.put place (.file bytes)).read path = .ok bytes :=
  read_eq_ok_iff.mpr ⟨place, locate_put h bytes⟩

theorem refusal?_eq_nullCharacter_iff :
    refusal? path = some .nullCharacter ↔ '\x00' ∈ path := by
  rw [refusal?]
  split
  next empty => simp [empty]
  next =>
    split
    next there => simp [there]
    next absent => split <;> simp [absent]

theorem follow_ne_nullCharacter (t : FileTree) (current : Option Place) (names : List Text) :
    t.follow current names ≠ .error .nullCharacter := by
  fun_induction follow t current names with
  | case2 _ _ ih | case3 _ _ ih | case5 _ _ ih => exact ih
  | case6 _ _ _ _ ih | case8 _ _ _ _ _ _ _ _ ih => exact ih
  | case4 => split <;> nofun
  | _ => nofun

theorem locate_eq_nullCharacter_iff :
    t.locate path = .error .nullCharacter ↔ '\x00' ∈ path := by
  rw [← refusal?_eq_nullCharacter_iff, locate]
  split
  next fault refused => simp [refused]
  next allowed => simp [allowed, follow_ne_nullCharacter]

/-- A null character is the fault of every path that holds one. -/
theorem read_eq_nullCharacter_iff : t.read path = .error .nullCharacter ↔ '\x00' ∈ path := by
  rw [← @locate_eq_nullCharacter_iff t, read]
  split <;> simp_all

theorem placeToWrite_eq_nullCharacter_iff :
    t.placeToWrite path = .error .nullCharacter ↔ '\x00' ∈ path := by
  rw [← refusal?_eq_nullCharacter_iff, placeToWrite]
  cases refusal? path with
  | some fault => simp [throw, throwThe, MonadExceptOf.throw, bind, Except.bind]
  | none =>
    refine ⟨fun h => ?_, nofun⟩
    -- Only names are followed behind the refusals, and they end in another fault.
    dsimp only at h
    split at h
    next =>
      rcases bind_eq_error.mp h with h | ⟨_, _, h⟩
      · exact absurd h (follow_ne_nullCharacter t _ _)
      · cases h
    next =>
      rcases bind_eq_error.mp h with h | ⟨location, _, h⟩
      · exact absurd h (follow_ne_nullCharacter t _ _)
      · cases location <;> cases h

/-! ## Texts in files -/

theorem unifyLines_eq_self {s : Text} (h : '\r' ∉ s) : unifyLines s = s := by
  induction s with
  | nil => rfl
  | cons c s ih =>
    rw [List.mem_cons, not_or] at h
    rw [unifyLines, if_neg (Ne.symm h.1), ih h.2]
    rintro rest rfl
    exact absurd rfl h.1

/-- A text without carriage returns is read back from its bytes. -/
theorem decodeLines_encode {s : Text} (h : '\r' ∉ s) : decodeLines (Utf8.encode s) = .ok s := by
  rw [decodeLines, Utf8.decode_encode, Except.map, unifyLines_eq_self h]

end FileTree

end TokenForge
