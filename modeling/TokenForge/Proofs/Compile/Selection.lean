import TokenForge.Proofs.Compile.Stages
import TokenForge.Proofs.Version.LookUps

/-!
# The selection of a version

A version that is asked for is taken as it is.  Otherwise the newest installed version that the
source accepts is wanted, or else, if versions may be installed, the newest installable one
(`wanted_eq_ok`).  A wanted version that is not installed is installed, if this is allowed, and
nothing else is (`selects_selectVersion`).

A version that is wanted because it is installed is found among the installed versions, as both
are normal forms.  So nothing is installed for a source that an installed version fits.
-/

namespace TokenForge

namespace Compile

open Version (LookUp AnyFits Newest IsNewest listed listedInOrder)

section Selection

variable (tools : Toolchain) (source : Text) (version : Option Text) (tryInstall : Bool)

/-! ## The wanted version -/

/-- The version that is wanted, whether installed or not. -/
def wanted : Except Fault Text :=
  (runOn (wantedVersion tools source version tryInstall) .empty).answer

/-- Nothing is recorded before a version is wanted. -/
theorem runOn_wantedVersion (r : Record) :
    runOn (wantedVersion tools source version tryInstall) r =
      ⟨wanted tools source version tryInstall, r⟩ := by
  unfold wanted wantedVersion
  split
  · rfl
  · rw [runOn_bind, runOn_bind, runOn_orFail, runOn_orFail]
    rcases (Version.detect none source tools.installed tools.installable tryInstall).answer
      with fault | _ | _ | ⟨c, cs⟩ <;> rfl

/-- A version is wanted for the reason that it is asked for, or that it is the newest one that
the source accepts: of the installed versions, or of those that may be installed if no installed
one fits. -/
inductive Wanted (v : Text) : Prop where
  | asked : version = some v → v ≠ [] → Wanted v
  | installed {installed} : version.getD [] = [] → listed tools.installed = .ok installed →
    Newest source installed v → Wanted v
  | installable {installed installable} : version.getD [] = [] →
    listed tools.installed = .ok installed → ¬ AnyFits source installed → tryInstall = true →
    listedInOrder tools.installable = .ok installable → Newest source installable v → Wanted v

variable {tools source version tryInstall} {v : Text}

theorem wanted_eq_ok (h : wanted tools source version tryInstall = .ok v) :
    Wanted tools source version tryInstall v := by
  unfold wanted wantedVersion at h
  split at h
  · cases h
    exact .asked rfl (List.cons_ne_nil _ _)
  · rename_i unasked
    have empty : version.getD [] = [] := by
      rcases version with _ | _ | ⟨c, cs⟩
      · rfl
      · rfl
      · exact absurd rfl (unasked c cs)
    have answer : ((⟨source, tools.installed, tools.installable, tryInstall⟩ :
        LookUp).run none).answer = .ok (some v) := by
      rw [runOn_bind, runOn_orFail] at h
      unfold LookUp.run
      dsimp only
      rcases answer : (Version.detect none source tools.installed tools.installable
        tryInstall).answer with fault | _ | _ | ⟨c, cs⟩
      all_goals
        rw [answer] at h
        cases h
      rfl
    obtain ⟨installed, read, fits, installable, refused⟩ :=
      LookUp.answer_run (fun _ impossible => by cases impossible) answer
    by_cases any : AnyFits source installed
    · obtain ⟨_, t, same, newest⟩ := fits any
      cases same
      exact .installed empty read newest
    · cases try_eq : tryInstall with
      | false => cases refused any try_eq
      | true =>
        obtain ⟨known, kept, newest⟩ := installable any try_eq
        have read' : listedInOrder tools.installable = .ok known := by
          rw [LookUp.cache_run, Option.none_or, LookUp.reading?_eq_some_iff] at kept
          exact kept.2
        exact .installable empty read any rfl read' (newest.2 v rfl)

/-! ## The installation -/

variable (tools source version tryInstall)

/-- How a selection ends that installs a version. -/
def installed (v : Text) : Except Fault Text :=
  match tools.install v with
  | none => .ok v
  | some fault =>
    match fault.installMessage? with
    | some message => .error (.installFailed v message)
    | none => .error (.tool fault)

/-- How a selection ends, and what it installs. -/
inductive Selects : List Text → Except Fault Text → Prop where
  /-- No version is wanted. -/
  | unwanted {fault} : wanted tools source version tryInstall = .error fault →
    Selects [] (.error fault)
  /-- The installed versions cannot be read. -/
  | unread {fault} : listed tools.installed = .error fault → Selects [] (.error (.versions fault))
  | installed {v listing} : wanted tools source version tryInstall = .ok v →
    listed tools.installed = .ok listing → v ∈ listing → Selects [] (.ok v)
  | refused {v listing} : wanted tools source version tryInstall = .ok v →
    listed tools.installed = .ok listing → v ∉ listing → tryInstall = false →
    Selects [] (.error (.notInstalled v))
  | installs {v listing} : wanted tools source version tryInstall = .ok v →
    listed tools.installed = .ok listing → v ∉ listing → tryInstall = true →
    Selects [v] (installed tools v)

theorem installed_eq_ok_iff {v w : Text} :
    installed tools v = .ok w ↔ tools.install v = none ∧ v = w := by
  unfold installed
  cases tools.install v with
  | none => simp
  | some fault => cases h : fault.installMessage? <;> simp [h]

theorem runOn_installVersion (v : Text) (r : Record) :
    runOn (installVersion tools v >>= fun _ => pure v) r =
      ⟨installed tools v, { r with
        notes := r.notes ++ [.installing v], installs := r.installs ++ [v] }⟩ := by
  rw [runOn_bind, installVersion, runOn_bind, runOn_note]
  dsimp only
  rw [runOn_bind, runOn_modify]
  dsimp only
  unfold installed
  cases tools.install v with
  | none => rfl
  | some fault =>
    dsimp only
    cases fault.installMessage? <;> rfl

/-- A selection ends in one of these ways. -/
theorem selects_selectVersion (r : Record) : ∃ installs,
    (runOn (selectVersion tools source version tryInstall) r).state.installs =
      r.installs ++ installs ∧
    Selects tools source version tryInstall installs
      (runOn (selectVersion tools source version tryInstall) r).answer := by
  rw [selectVersion, runOn_bind, runOn_wantedVersion]
  cases want : wanted tools source version tryInstall with
  | error fault => exact ⟨[], (List.append_nil _).symm, .unwanted want⟩
  | ok v =>
    dsimp only
    rw [runOn_bind, runOn_orFail]
    cases read : listed tools.installed with
    | error fault => exact ⟨[], (List.append_nil _).symm, .unread read⟩
    | ok listing =>
      dsimp only [Except.mapError]
      by_cases member : v ∈ listing
      · rw [if_pos member]
        exact ⟨[], (List.append_nil _).symm, .installed want read member⟩
      · rw [if_neg member]
        cases allowed : tryInstall with
        | false =>
          subst allowed
          exact ⟨[], (List.append_nil _).symm, .refused want read member rfl⟩
        | true =>
          subst allowed
          change ∃ installs,
            (runOn (installVersion tools v >>= fun _ => pure v) r).state.installs = _ ∧
              Selects tools source version true installs
                (runOn (installVersion tools v >>= fun _ => pure v) r).answer
          rw [runOn_installVersion]
          exact ⟨[v], rfl, .installs want read member rfl⟩

variable {tools source version tryInstall}

/-- The newest of some versions is one of them. -/
theorem mem_of_newest {texts : List Text} {t : Text} (h : Newest source texts t) : t ∈ texts := by
  obtain ⟨_, fits, _⟩ := h
  exact fits.1

/-- If an installed version fits, the version that is wanted is installed, unless another is asked
for. -/
theorem Wanted.mem {v : Text} (h : Wanted tools source version tryInstall v)
    (unasked : version.getD [] = []) {listing : List Text}
    (read : listed tools.installed = .ok listing) (fits : AnyFits source listing) :
    v ∈ listing := by
  cases h with
  | asked given some_text =>
    rw [given] at unasked
    exact absurd unasked some_text
  | installed _ read' newest =>
    cases read.symm.trans read'
    exact mem_of_newest newest
  | installable _ read' unfit =>
    cases read.symm.trans read'
    exact absurd fits unfit

variable (tools source version tryInstall)

/-- A selection installs one version at most.

* A version is installed only if this is allowed and the version is not installed.  It is the one
  that is selected, if its installation succeeds.  If the installation itself fails, the fault
  names it.
* If no version is asked for and an installed one fits, nothing is installed.
* A version that is selected is wanted: it is the one that is asked for, or the newest one that
  fits among the installed versions, or among the installable ones if no installed one fits.  It
  is installed, or it was installed by the selection. -/
theorem selectVersion_installs (r : Record) :
    let outcome := runOn (selectVersion tools source version tryInstall) r
    ∃ installs, outcome.state.installs = r.installs ++ installs ∧ installs.length ≤ 1 ∧
      (∀ v ∈ installs, tryInstall = true ∧
        (∃ listing, listed tools.installed = .ok listing ∧ v ∉ listing) ∧
        (tools.install v = none → outcome.answer = .ok v) ∧
        (∀ fault message, tools.install v = some fault → fault.installMessage? = some message →
          outcome.answer = .error (.installFailed v message) ∧
          (Fault.installFailed v message).message? =
            some ("Cannot install solc " ++ v ++ ": " ++ message)) ∧
        ∀ fault, tools.install v = some fault → fault.installMessage? = none →
          outcome.answer = .error (.tool fault)) ∧
      (version.getD [] = [] → ∀ listing, listed tools.installed = .ok listing →
        AnyFits source listing → installs = []) ∧
      ∀ v, outcome.answer = .ok v → Wanted tools source version tryInstall v ∧
        ∃ listing, listed tools.installed = .ok listing ∧
          (v ∈ listing ∧ installs = [] ∨ installs = [v] ∧ tools.install v = none) := by
  intro outcome
  obtain ⟨installs, record, ends⟩ := selects_selectVersion tools source version tryInstall r
  refine ⟨installs, record, ?_⟩
  change Selects _ _ _ _ _ outcome.answer at ends
  generalize outcome.answer = answer at ends ⊢
  refine ⟨?length, ?each, ?fits, ?selected⟩
  case length => cases ends <;> simp
  case each =>
    intro v member
    cases ends with
    | installs want read absent allowed =>
      cases List.mem_singleton.mp member
      refine ⟨allowed, ⟨_, read, absent⟩, fun done => ?_, fun fault message failed said => ?_,
        fun fault failed silent => ?_⟩
      · simp only [installed, done]
      · refine ⟨?_, rfl⟩
        simp only [installed, failed, said]
      · simp only [installed, failed, silent]
    | _ => cases member
  case fits =>
    intro unasked listing read fits
    cases ends with
    | installs want read' absent =>
      cases read.symm.trans read'
      exact absurd ((wanted_eq_ok want).mem unasked read fits) absent
    | _ => rfl
  case selected =>
    intro v answered
    cases ends with
    | installed want read member =>
      cases answered
      exact ⟨wanted_eq_ok want, _, read, .inl ⟨member, rfl⟩⟩
    | installs want read =>
      obtain ⟨done, rfl⟩ := (installed_eq_ok_iff tools).mp answered
      exact ⟨wanted_eq_ok want, _, read, .inr ⟨rfl, done⟩⟩
    | _ => cases answered

end Selection

end Compile

end TokenForge
