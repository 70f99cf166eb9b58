import TokenForge.Proofs.Version.Accepted

/-!
# Sessions of look-ups

Look-ups that follow each other share the cache of installable versions.  A look-up adds to the
cache what it reads (`LookUp.cache_run`), so the cache after any look-ups is what the first of
them read that needed a listing and could read it (`cacheAfter_eq`).  From then on no look-up
depends on its own listing of installable versions.

A listing that cannot be read leaves the cache empty, and the next look-up that needs one reads
its own (`session_unread`).
-/

namespace TokenForge

namespace Version

/-- A look-up: for which source, what is installed and installable at its time, and whether
installable versions may be answered. -/
structure LookUp where
  source : Text
  installed : List Text
  installable : List Text
  tryInstall : Bool

namespace LookUp

variable (l : LookUp) (cache : Cache)

/-- What a look-up answers with a cache, and the cache after it. -/
def run : Detection := detect cache l.source l.installed l.installable l.tryInstall

/-- The installed versions that the source accepts. -/
def accepted : Except FilterFault (List Text) := (listed l.installed).bind (acceptedBy l.source)

/-- A look-up falls back to installable versions: it may answer them, its installed versions are
filtered without a fault, and none of them fits. -/
def FallsBack : Prop :=
  l.tryInstall = true ∧ ∃ installed accepted, listed l.installed = .ok installed ∧
    acceptedBy l.source installed = .ok accepted ∧ ¬ AnyFits l.source installed

/-- The installable versions that a look-up reads with an empty cache: its own, if it falls back
and they can be read. -/
def reading? : Option (List Text) :=
  match l.tryInstall, l.accepted with
  | true, .ok [] => (listedInOrder l.installable).toOption
  | _, _ => none

variable {l cache}

theorem fallsBack_iff : l.FallsBack ↔ l.tryInstall = true ∧ l.accepted = .ok [] := by
  refine and_congr_right fun _ => ⟨?_, fun none => ?_⟩
  · rintro ⟨installed, accepted, read, filtered, none⟩
    rw [LookUp.accepted, read]
    exact filtered.trans (congrArg Except.ok ((acceptedBy_eq_nil_iff filtered).mpr none))
  · obtain ⟨installed, read, filtered⟩ := bind_eq_ok.mp none
    exact ⟨installed, [], read, filtered, (acceptedBy_eq_nil_iff filtered).mp rfl⟩

theorem reading?_of_fallsBack (h : l.FallsBack) :
    l.reading? = (listedInOrder l.installable).toOption := by
  obtain ⟨asked, none⟩ := fallsBack_iff.mp h
  rw [reading?, asked, none]

theorem reading?_of_not_fallsBack (h : ¬ l.FallsBack) : l.reading? = none := by
  rw [fallsBack_iff] at h
  unfold reading?
  split
  · rename_i asked none
    exact absurd ⟨asked, none⟩ h
  · rfl

/-- A look-up reads a listing if and only if it falls back and the listing can be read. -/
theorem reading?_eq_some_iff {known : List Text} :
    l.reading? = some known ↔ l.FallsBack ∧ listedInOrder l.installable = .ok known := by
  by_cases h : l.FallsBack
  · rw [reading?_of_fallsBack h]
    cases listedInOrder l.installable <;> simp [Except.toOption, h]
  · simp [reading?_of_not_fallsBack h, h]

/-! ## One look-up -/

theorem run_eq : l.run cache =
    match l.accepted with
    | .error fault => ⟨.error fault, cache⟩
    | .ok (v :: vs) => ⟨.ok (v :: vs).getLast?, cache⟩
    | .ok [] =>
      if l.tryInstall then detectInstallable cache l.source l.installable else ⟨.ok none, cache⟩ :=
  rfl

theorem run_of_fallsBack (h : l.FallsBack) :
    l.run cache = detectInstallable cache l.source l.installable := by
  obtain ⟨asked, none⟩ := fallsBack_iff.mp h
  rw [run_eq, none]
  exact if_pos asked

theorem run_of_not_fallsBack (h : ¬ l.FallsBack) :
    l.run cache = ⟨l.accepted.map List.getLast?, cache⟩ := by
  rw [fallsBack_iff] at h
  rw [run_eq]
  rcases accepted : l.accepted with fault | _ | ⟨v, vs⟩
  · rfl
  · exact if_neg fun asked => h ⟨asked, accepted⟩
  · rfl

/-- A look-up adds to an empty cache what it reads, and leaves another as it is. -/
theorem cache_run : (l.run cache).cache = cache.or l.reading? := by
  by_cases h : l.FallsBack
  · rw [run_of_fallsBack h, reading?_of_fallsBack h, detectInstallable]
    cases cache with
    | some known => rfl
    | none => cases listedInOrder l.installable <;> rfl
  · rw [run_of_not_fallsBack h, reading?_of_not_fallsBack h, Option.or_none]

/-- A look-up does not depend on its own installable versions, unless it falls back with an empty
cache. -/
theorem run_installable (h : ¬ l.FallsBack ∨ cache ≠ none) (installable : List Text) :
    ({ l with installable } : LookUp).run cache = l.run cache := by
  by_cases fallsBack : l.FallsBack
  · obtain ⟨known, rfl⟩ := Option.ne_none_iff_exists'.mp (h.resolve_left (not_not_intro fallsBack))
    rw [run_of_fallsBack fallsBack,
      @run_of_fallsBack { l with installable } (some known) fallsBack]
    rfl
  · rw [run_of_not_fallsBack fallsBack,
      @run_of_not_fallsBack { l with installable } cache fallsBack]
    rfl

/-- A look-up that falls back and gives an answer answers from the cache after it. -/
theorem answer_of_fallsBack (h : l.FallsBack)
    (plain : ∀ known, cache = some known → ∀ t ∈ known, Plain t) {answer : Option Text}
    (given : (l.run cache).answer = .ok answer) :
    ∃ known, (l.run cache).cache = some known ∧ IsNewest l.source known answer := by
  rw [run_of_fallsBack h, detectInstallable] at given ⊢
  split at given
  · cases given
  · rename_i known read
    obtain ⟨accepted, filtered, rfl⟩ := map_eq_ok.mp given
    refine ⟨known, rfl, acceptedBy_newest ?_ filtered⟩
    cases cache with
    | some texts =>
      cases read
      exact plain known rfl
    | none => exact plain_listedInOrder read

/-- An answer that is given is a newest installed version and leaves the cache as it is, if any
installed version fits.  Otherwise it is from the cache after the look-up, if installable versions
may be answered, and none if they may not. -/
theorem answer_run (plain : ∀ known, cache = some known → ∀ t ∈ known, Plain t)
    {answer : Option Text} (given : (l.run cache).answer = .ok answer) :
    ∃ installed, listed l.installed = .ok installed ∧
      (AnyFits l.source installed →
        (l.run cache).cache = cache ∧ ∃ t, answer = some t ∧ Newest l.source installed t) ∧
      (¬ AnyFits l.source installed → l.tryInstall = true → ∃ known,
        (l.run cache).cache = some known ∧ IsNewest l.source known answer) ∧
      (¬ AnyFits l.source installed → l.tryInstall = false → answer = none) := by
  by_cases fallsBack : l.FallsBack
  · obtain ⟨asked, installed, _, read, _, none⟩ := id fallsBack
    refine ⟨installed, read, fun any => absurd any none, fun _ _ => ?_, fun _ unasked => ?_⟩
    · exact answer_of_fallsBack fallsBack plain given
    · rw [asked] at unasked
      cases unasked
  · rw [run_of_not_fallsBack fallsBack] at given ⊢
    obtain ⟨accepted, filtered, rfl⟩ := map_eq_ok.mp given
    obtain ⟨installed, read, filtered⟩ := bind_eq_ok.mp filtered
    obtain ⟨none, newest⟩ := acceptedBy_newest (plain_listed read) filtered
    refine ⟨installed, read, fun any => ⟨rfl, ?_⟩, fun unfit asked => ?_, fun unfit _ =>
      none.mpr unfit⟩
    · obtain ⟨t, answer⟩ := Option.ne_none_iff_exists'.mp fun empty => none.mp empty any
      exact ⟨t, answer, newest t answer⟩
    · exact absurd ⟨asked, installed, accepted, read, filtered, unfit⟩ fallsBack

end LookUp

/-! ## Sessions -/

/-- What each of some look-ups answers, from a cache that they share. -/
def session : Cache → List LookUp → List Detection
  | _, [] => []
  | cache, l :: ls => l.run cache :: session (l.run cache).cache ls

/-- The cache after some look-ups. -/
def cacheAfter (cache : Cache) (ls : List LookUp) : Cache :=
  ls.foldl (fun cache l => (l.run cache).cache) cache

/-- The cache after some look-ups is what it was before, or else what the first of them read. -/
theorem cacheAfter_eq (cache : Cache) (ls : List LookUp) :
    cacheAfter cache ls = cache.or (ls.findSome? LookUp.reading?) := by
  induction ls generalizing cache with
  | nil => exact Option.or_none.symm
  | cons l ls ih =>
    have step : cacheAfter cache (l :: ls) = cacheAfter (l.run cache).cache ls := rfl
    rw [step, ih, LookUp.cache_run, List.findSome?_cons]
    cases cache <;> cases l.reading? <;> rfl

/-- A session goes on from the cache after its first look-ups. -/
theorem session_append (cache : Cache) (before after : List LookUp) :
    session cache (before ++ after) =
      session cache before ++ session (cacheAfter cache before) after := by
  induction before generalizing cache with
  | nil => rfl
  | cons l before ih => exact congrArg _ (ih (l.run cache).cache)

theorem length_session (cache : Cache) (ls : List LookUp) :
    (session cache ls).length = ls.length := by
  induction ls generalizing cache with
  | nil => rfl
  | cons l ls ih => exact congrArg _ (ih (l.run cache).cache)

/-- What is kept of a listing is written with ASCII characters on one line. -/
theorem plain_findSome? {ls : List LookUp} {known : List Text}
    (h : ls.findSome? LookUp.reading? = some known) : ∀ t ∈ known, Plain t := by
  obtain ⟨l, _, read⟩ := List.exists_of_findSome?_eq_some h
  exact plain_listedInOrder (LookUp.reading?_eq_some_iff.mp read).2

/-- In a session with an empty cache at the start, take any look-up and those before it.

* The cache at its time is the listing that was read by the first look-up before it that fell
  back and had a listing that could be read.  The look-up adds to it only what it reads itself
  with an empty cache, so that at most one listing is kept and used.
* Unless the look-up falls back while the cache is empty, the session does not depend on its own
  listing of installable versions.
* If it gives an answer, the answer is a newest installed version and the cache stays, if any
  installed version fits.  Otherwise it is a newest version of the cache after it or none, if
  installable versions may be answered, and none if they may not. -/
theorem session_lookUps (before after : List LookUp) (l : LookUp) :
    ∃ d, (session none (before ++ l :: after))[before.length]? = some d ∧
      let cache := before.findSome? LookUp.reading?
      d.cache = cache.or l.reading? ∧
      (∀ known, l.reading? = some known ↔
        l.FallsBack ∧ listedInOrder l.installable = .ok known) ∧
      (¬ l.FallsBack ∨ cache ≠ none → ∀ installable,
        session none (before ++ { l with installable } :: after) =
          session none (before ++ l :: after)) ∧
      ∀ answer, d.answer = .ok answer → ∃ installed, listed l.installed = .ok installed ∧
        (AnyFits l.source installed →
          d.cache = cache ∧ ∃ t, answer = some t ∧ Newest l.source installed t) ∧
        (¬ AnyFits l.source installed → l.tryInstall = true → ∃ known,
          d.cache = some known ∧ IsNewest l.source known answer) ∧
        (¬ AnyFits l.source installed → l.tryInstall = false → answer = none) := by
  have start : cacheAfter none before = before.findSome? LookUp.reading? := by
    rw [cacheAfter_eq, Option.none_or]
  have parts : ∀ l : LookUp, session none (before ++ l :: after) = session none before ++
      l.run (before.findSome? LookUp.reading?) ::
        session (l.run (before.findSome? LookUp.reading?)).cache after := by
    intro l
    rw [session_append, start]
    rfl
  have kept : ∀ known, before.findSome? LookUp.reading? = some known → ∀ t ∈ known, Plain t :=
    fun _ => plain_findSome?
  refine ⟨l.run (before.findSome? LookUp.reading?), ?_, LookUp.cache_run,
    fun _ => LookUp.reading?_eq_some_iff, fun h installable => ?_, fun answer given => ?_⟩
  · rw [parts, List.getElem?_append_right (length_session _ _).le, length_session, Nat.sub_self]
    rfl
  · rw [parts, parts, LookUp.run_installable h]
  · exact LookUp.answer_run kept given

/-! ## A listing that cannot be read -/

/-- A look-up without installed versions. -/
def emptyHanded (installable : List Text) : LookUp where
  source := "pragma solidity ^0.8.0;\n"
  installed := []
  installable
  tryInstall := true

theorem fallsBack_emptyHanded (installable : List Text) : (emptyHanded installable).FallsBack := by
  have none : (emptyHanded []).accepted = .ok [] := by decide +kernel
  exact LookUp.fallsBack_iff.mpr ⟨rfl, none⟩

/-- After a look-up whose listing cannot be read the next one reads its own listing, and answers
from it. -/
theorem session_unread :
    (emptyHanded ["bad"]).FallsBack ∧ (emptyHanded ["0.8.20"]).FallsBack ∧
    (session none [emptyHanded ["bad"], emptyHanded ["0.8.20"]]).map Detection.answer =
      [.error (.listing .malformed), .ok (some "0.8.20".toList)] ∧
    (session none [emptyHanded ["bad"], emptyHanded []]).map Detection.answer =
      [.error (.listing .malformed), .ok none] :=
  ⟨fallsBack_emptyHanded _, fallsBack_emptyHanded _, by decide +kernel, by decide +kernel⟩

end Version

end TokenForge
