import TokenForge.CommandLine.Run
import TokenForge.Proofs.Outcome
import TokenForge.Proofs.Token.Features

/-!
# What commands produce

A command reads the files that it names, and computes its text from what they hold.
`Holds` and `Configures` say what a file holds; neither reading nor checking it tells
anything, so each has one law for the case that it ends well and one for its faults.

`Produces` lists the texts that commands produce, each with the path that it goes to, and
`produce_ok_iff` says that a command produces these and nothing else.
-/

namespace TokenForge

namespace CommandLine

variable {tree : FileTree} {world : World} {arguments : Arguments} {log log' : List LogLine}
  {path text source : Text} {fault : Fault}

@[simp]
theorem runOn_tell (lines log : List LogLine) :
    runOn (tell lines) log = ⟨.ok ⟨⟩, log ++ lines⟩ := rfl

/-! ## Files -/

/-- A file holds a text. -/
def Holds (tree : FileTree) (path text : Text) : Prop :=
  ∃ bytes, tree.read path = .ok bytes ∧ FileTree.decodeLines bytes = .ok text

/-- A file holds an object whose members are accepted as a configuration. -/
def Configures (tree : FileTree) (path : Text) (config : Token.Config) : Prop :=
  ∃ text value members, Holds tree path text ∧ Json.read text = .ok value ∧
    value.members? = some members ∧ Token.Config.ofMembers members = .ok config

theorem Holds.unique {text' : Text} (h : Holds tree path text)
    (h' : Holds tree path text') : text = text' := by
  obtain ⟨bytes, read, decoded⟩ := h
  obtain ⟨bytes', read', decoded'⟩ := h'
  cases read.symm.trans read'
  exact Except.ok.inj (decoded.symm.trans decoded')

theorem readFile_ok :
    runOn (readFile tree path) log = ⟨.ok text, log'⟩ ↔ Holds tree path text ∧ log' = log := by
  simp only [readFile, runOn_bind_ok, orFail_ok, Holds]
  constructor
  · rintro ⟨bytes, _, ⟨read, rfl⟩, decoded, rfl⟩
    exact ⟨⟨bytes, read, decoded⟩, rfl⟩
  · rintro ⟨⟨bytes, read, decoded⟩, rfl⟩
    exact ⟨bytes, _, ⟨read, rfl⟩, decoded, rfl⟩

theorem readFile_error :
    runOn (readFile tree path) log = ⟨.error fault, log'⟩ ↔
      ((∃ reason, tree.read path = .error reason ∧ fault = .opening path reason) ∨
        ∃ bytes reason, tree.read path = .ok bytes ∧ FileTree.decodeLines bytes = .error reason ∧
          fault = .decoding reason) ∧ log' = log := by
  simp only [readFile, runOn_bind_error, orFail_ok, orFail_error]
  constructor
  · rintro (⟨reason, refused, rfl, rfl⟩ | ⟨bytes, _, ⟨read, rfl⟩, reason, refused, rfl, rfl⟩)
    · exact ⟨.inl ⟨reason, refused, rfl⟩, rfl⟩
    · exact ⟨.inr ⟨bytes, reason, read, refused, rfl⟩, rfl⟩
  · rintro ⟨⟨reason, refused, rfl⟩ | ⟨bytes, reason, read, refused, rfl⟩, rfl⟩
    · exact .inl ⟨reason, refused, rfl, rfl⟩
    · exact .inr ⟨bytes, _, ⟨read, rfl⟩, reason, refused, rfl, rfl⟩

/-! ## Configurations -/

theorem Configures.unique {c c' : Token.Config} (h : Configures tree path c)
    (h' : Configures tree path c') : c = c' := by
  obtain ⟨text, value, members, holds, read, object, accepted⟩ := h
  obtain ⟨text', value', members', holds', read', object', accepted'⟩ := h'
  cases holds.unique holds'
  cases read.symm.trans read'
  cases object.symm.trans object'
  exact Except.ok.inj (accepted.symm.trans accepted')

theorem loadConfig_ok {config : Token.Config} :
    runOn (loadConfig tree path) log = ⟨.ok config, log'⟩ ↔
      Configures tree path config ∧ log' = log := by
  simp only [loadConfig, runOn_bind_ok, orFail_ok, readFile_ok, Configures]
  constructor
  · rintro ⟨text, _, ⟨holds, rfl⟩, value, _, ⟨read, rfl⟩, h⟩
    split at h
    next members object =>
      obtain ⟨accepted, rfl⟩ := orFail_ok.mp h
      exact ⟨⟨text, value, members, holds, read, object, accepted⟩, rfl⟩
    next => cases h
  · rintro ⟨⟨text, value, members, holds, read, object, accepted⟩, rfl⟩
    refine ⟨text, _, ⟨holds, rfl⟩, value, _, ⟨read, rfl⟩, ?_⟩
    rw [object]
    exact orFail_ok.mpr ⟨accepted, rfl⟩

/-- Why a file holds no configuration. -/
inductive Misconfigures (tree : FileTree) (path : Text) : Fault → Prop where
  | closed {reason} : tree.read path = .error reason →
    Misconfigures tree path (.opening path reason)
  | noText {bytes reason} : tree.read path = .ok bytes →
    FileTree.decodeLines bytes = .error reason → Misconfigures tree path (.decoding reason)
  | noJson {text reason} : Holds tree path text → Json.read text = .error reason →
    Misconfigures tree path (.json reason)
  | noObject {text value} : Holds tree path text → Json.read text = .ok value →
    value.members? = none → Misconfigures tree path .noObject
  | refused {text value members reason} : Holds tree path text → Json.read text = .ok value →
    value.members? = some members → Token.Config.ofMembers members = .error reason →
    Misconfigures tree path (.config reason)

theorem loadConfig_error :
    runOn (loadConfig tree path) log = ⟨.error fault, log'⟩ ↔
      Misconfigures tree path fault ∧ log' = log := by
  simp only [loadConfig, runOn_bind_error, readFile_ok, readFile_error, orFail_ok, orFail_error]
  constructor
  · rintro (⟨⟨reason, closed, rfl⟩ | ⟨bytes, reason, read, noText, rfl⟩, rfl⟩ |
      ⟨text, _, ⟨holds, rfl⟩, ⟨reason, noJson, rfl, rfl⟩ | ⟨value, _, ⟨read, rfl⟩, h⟩⟩)
    · exact ⟨.closed closed, rfl⟩
    · exact ⟨.noText read noText, rfl⟩
    · exact ⟨.noJson holds noJson, rfl⟩
    · split at h
      next members object =>
        obtain ⟨reason, refused, rfl, rfl⟩ := orFail_error.mp h
        exact ⟨.refused holds read object refused, rfl⟩
      next noObject =>
        cases h
        exact ⟨.noObject holds read noObject, rfl⟩
  · rintro ⟨h, rfl⟩
    cases h with
    | closed closed => exact .inl ⟨.inl ⟨_, closed, rfl⟩, rfl⟩
    | noText read noText => exact .inl ⟨.inr ⟨_, _, read, noText, rfl⟩, rfl⟩
    | noJson holds noJson => exact .inr ⟨_, _, ⟨holds, rfl⟩, .inl ⟨_, noJson, rfl, rfl⟩⟩
    | noObject holds read noObject =>
      refine .inr ⟨_, _, ⟨holds, rfl⟩, .inr ⟨_, _, ⟨read, rfl⟩, ?_⟩⟩
      rw [noObject]
      rfl
    | refused holds read object refused =>
      refine .inr ⟨_, _, ⟨holds, rfl⟩, .inr ⟨_, _, ⟨read, rfl⟩, ?_⟩⟩
      rw [object]
      exact orFail_error.mpr ⟨_, refused, rfl, rfl⟩

/-- Every accepted configuration has a source. -/
theorem loadSource_ok {source : Token.Source} :
    runOn (loadSource tree path) log = ⟨.ok source, log'⟩ ↔
      (∃ config, Configures tree path config ∧ source = config.features.source) ∧ log' = log := by
  simp only [loadSource, runOn_bind_ok, loadConfig_ok, orFail_ok, Token.Config.generate_request]
  constructor
  · rintro ⟨config, _, ⟨configures, rfl⟩, ⟨⟩, rfl⟩
    exact ⟨⟨config, configures, rfl⟩, rfl⟩
  · rintro ⟨⟨config, configures, rfl⟩, rfl⟩
    exact ⟨config, _, ⟨configures, rfl⟩, rfl, rfl⟩

theorem loadSource_error :
    runOn (loadSource tree path) log = ⟨.error fault, log'⟩ ↔
      Misconfigures tree path fault ∧ log' = log := by
  simp only [loadSource, runOn_bind_error, loadConfig_error, orFail_error,
    Token.Config.generate_request, reduceCtorEq, false_and, exists_false, and_false, or_false]

/-! ## Flattening and compiling -/

/-- A directory that has to have a value. -/
def named : Option Text → Except Fault Text
  | some directory => .ok directory
  | none => .error .directoryWithoutValue

/-- The one fault in saying where to look for imported files is a directory without a value. -/
theorem resolverOf_error :
    resolverOf arguments = .error fault ↔
      fault = .directoryWithoutValue ∧ none ∈ arguments.directories := by
  have only : ∀ directory e, named directory = .error e → e = .directoryWithoutValue := by
    intro directory e h
    cases directory with
    | some directory => cases h
    | none => exact (Except.error.inj h).symm
  have found : resolverOf arguments = .error fault ↔
      arguments.directories.mapM named = .error fault := by
    change (arguments.directories.mapM named >>= fun _ => pure _) = _ ↔ _
    rw [bind_eq_error]
    exact or_iff_left (by rintro ⟨_, _, ⟨⟩⟩)
  rw [found]
  constructor
  · intro h
    obtain ⟨directory, member, refused⟩ := exists_of_mapM_eq_error h
    cases directory with
    | some directory => cases refused
    | none => exact ⟨only none fault refused, member⟩
  · rintro ⟨rfl, member⟩
    exact mapM_eq_error only member rfl

/-- The flattening of a source over the files of a tree. -/
def flattening (tree : FileTree) (resolver : Import.Resolver) (source : Text) :
    Outcome Flatten.Fault Flatten.Session Text :=
  runOn (Flatten.flattenSource (fun path => (resolver.look tree path).text?) Flatten.defaultLimit
    source) .empty

/-- The files of a tree, as the arguments say where to look for them, flatten a source to a
text. -/
def Flattens (tree : FileTree) (arguments : Arguments) (source text : Text) : Prop :=
  ∃ resolver, resolverOf arguments = .ok resolver ∧
    (flattening tree resolver source).answer = .ok text

/-- The tools and the files of a tree compile what is ordered. -/
def Compiles (world : World) (arguments : Arguments) (order : Compile.Order)
    (compiled : Compile.Compiled) : Prop :=
  ∃ resolver, resolverOf arguments = .ok resolver ∧
    (runOn (Compile.compile world.tools (fun path => (resolver.look world.tree path).text?)
      unitLimit order) .empty).answer = .ok compiled

theorem flattenText_ok :
    runOn (flattenText tree arguments source) log = ⟨.ok text, log'⟩ ↔
      ∃ resolver, resolverOf arguments = .ok resolver ∧
        (flattening tree resolver source).answer = .ok text ∧
        log' = log ++
          flattenLines (resolver.look tree) (flattening tree resolver source).state := by
  simp only [flattenText, finderOf, runOn_bind_ok, orFail_ok, runOn_pure, runOn_tell,
    Outcome.mk.injEq, Except.ok.injEq]
  constructor
  · rintro ⟨_, _, ⟨resolver, _, ⟨known, rfl⟩, rfl, rfl⟩, _, _, ⟨_, rfl⟩, answer, rfl⟩
    exact ⟨resolver, known, answer, rfl⟩
  · rintro ⟨resolver, known, answer, rfl⟩
    exact ⟨_, _, ⟨resolver, _, ⟨known, rfl⟩, rfl, rfl⟩, ⟨⟩, _, ⟨trivial, rfl⟩, answer, rfl⟩

/-- Why a source is not flattened. -/
inductive Unflattened (tree : FileTree) (arguments : Arguments) (source : Text) : Fault → Prop where
  | noDirectory {reason : Fault} : resolverOf arguments = .error reason →
    Unflattened tree arguments source reason
  | refused {resolver reason} : resolverOf arguments = .ok resolver →
    (flattening tree resolver source).answer = .error reason →
    Unflattened tree arguments source (.flatten reason)

theorem flattenText_error :
    (∃ log', runOn (flattenText tree arguments source) log = ⟨.error fault, log'⟩) ↔
      Unflattened tree arguments source fault := by
  simp only [flattenText, finderOf, runOn_bind_error, orFail_ok, orFail_error, runOn_bind_ok,
    runOn_pure, runOn_tell, Outcome.mk.injEq, Except.ok.injEq, reduceCtorEq, false_and, and_false,
    exists_false, or_false, false_or, id]
  constructor
  · rintro ⟨log', ⟨_, unknown, rfl, rfl⟩ |
      ⟨_, _, ⟨resolver, _, ⟨known, rfl⟩, rfl, rfl⟩, _, _, ⟨_, rfl⟩, reason, refused, rfl, rfl⟩⟩
    · exact .noDirectory unknown
    · exact .refused known refused
  · intro h
    cases h with
    | noDirectory unknown => exact ⟨_, .inl ⟨_, unknown, rfl, rfl⟩⟩
    | refused known refused =>
      exact ⟨_, .inr ⟨_, _, ⟨_, _, ⟨known, rfl⟩, rfl, rfl⟩, ⟨⟩, _, ⟨trivial, rfl⟩, _, refused, rfl,
        rfl⟩⟩

theorem compileText_ok {order : Compile.Order} {compiled : Compile.Compiled} :
    (∃ log', runOn (compileText world arguments order) log = ⟨.ok compiled, log'⟩) ↔
      Compiles world arguments order compiled := by
  simp only [compileText, finderOf, runOn_bind_ok, orFail_ok, runOn_pure, runOn_tell,
    Outcome.mk.injEq, Except.ok.injEq, Compiles]
  constructor
  · rintro ⟨_, _, _, ⟨resolver, _, ⟨known, rfl⟩, rfl, rfl⟩, _, _, ⟨_, rfl⟩, answer, rfl⟩
    exact ⟨resolver, known, answer⟩
  · rintro ⟨resolver, known, answer⟩
    exact ⟨_, _, _, ⟨resolver, _, ⟨known, rfl⟩, rfl, rfl⟩, ⟨⟩, _, ⟨trivial, rfl⟩, answer, rfl⟩

/-! ## Commands -/

/-- The path that the flattened text of a file goes to. -/
def flattenedPath (target : Text) : Option Text → Text
  | none | some [] => flattenedName target
  | some output => output

/-- The texts that commands produce and the paths that they go to; the empty path stands for the
standard output. -/
inductive Produces (world : World) (arguments : Arguments) : Command → Text → Text → Prop where
  | source {config output c s} : Configures world.tree config c → Token.generate c.request = .ok s →
    Produces world arguments (.generate config false output) s.text (output.getD [])
  | flatSource {config output c s text} : Configures world.tree config c →
    Token.generate c.request = .ok s → Flattens world.tree arguments s.text text →
    Produces world arguments (.generate config true output) text (output.getD [])
  | flatFile {target output source text} : Holds world.tree target source →
    Flattens world.tree arguments source text →
    Produces world arguments (.flatten (some target) output) text (flattenedPath target output)
  | artifact {config version install output c s compiled} : Configures world.tree config c →
    Token.generate c.request = .ok s →
    Compiles world arguments ⟨s.text, some s.contractName, version, install, .null⟩ compiled →
    Produces world arguments (.compile config version install output)
      (artifact compiled s).indented (output.getD [])

theorem isFile_iff : tree.isFile path = true ↔ ∃ bytes, tree.read path = .ok bytes := by
  rw [FileTree.isFile]
  cases tree.read path <;> simp [Except.toOption]

theorem isFile_of_holds (h : Holds tree path text) : tree.isFile path = true := by
  obtain ⟨bytes, read, _⟩ := h
  exact isFile_iff.mpr ⟨bytes, read⟩

/-- What is told of a generated source. -/
def generatedLine (s : Token.Source) : LogLine :=
  ⟨.info, "Generated " ++ s.contractName ++ " (" ++ s.digest ++ ")"⟩

theorem produce_source (config : Text) (output : Option Text) :
    produce world arguments (.generate config false output) = do
      let s ← loadSource world.tree config
      return ⟨s.text, output.getD [], [generatedLine s]⟩ := rfl

theorem produce_flatSource (config : Text) (output : Option Text) :
    produce world arguments (.generate config true output) = do
      let s ← loadSource world.tree config
      let text ← flattenText world.tree arguments s.text
      return ⟨text, output.getD [], [generatedLine s]⟩ := rfl

theorem produce_flatFile (target : Text) (output : Option Text) :
    produce world arguments (.flatten (some target) output) =
      if world.tree.isFile target then do
        let source ← readFile world.tree target
        let text ← flattenText world.tree arguments source
        return ⟨text, flattenedPath target output, []⟩
      else throw (.noTarget target) := by
  rw [produce.eq_def]
  dsimp only
  cases world.tree.isFile target with
  | true => rfl
  | false => rfl

theorem produce_artifact (config : Text) (version : Option Text) (install : Bool)
    (output : Option Text) :
    produce world arguments (.compile config version install output) = do
      let s ← loadSource world.tree config
      let compiled ← compileText world arguments
        ⟨s.text, some s.contractName, version, install, .null⟩
      return ⟨(artifact compiled s).indented, output.getD [], []⟩ := rfl

/-- A command produces the texts that are listed and no others. -/
theorem produce_ok_iff {command : Command} {output : Text} :
    (∃ closing log', runOn (produce world arguments command) log =
      ⟨.ok ⟨text, output, closing⟩, log'⟩) ↔ Produces world arguments command text output := by
  constructor
  · rintro ⟨closing, log', h⟩
    cases command with
    | generate config flatten output =>
      cases flatten with
      | false =>
        simp only [produce_source, runOn_bind_ok, loadSource_ok, pure_ok, Product.mk.injEq] at h
        obtain ⟨_, _, ⟨⟨c, configures, rfl⟩, rfl⟩, ⟨rfl, rfl, _⟩, _⟩ := h
        exact .source configures c.generate_request
      | true =>
        simp only [produce_flatSource, runOn_bind_ok, loadSource_ok, flattenText_ok, pure_ok,
          Product.mk.injEq] at h
        obtain ⟨_, _, ⟨⟨c, configures, rfl⟩, rfl⟩, _, _, ⟨resolver, known, answer, _⟩,
          ⟨rfl, rfl, _⟩, _⟩ := h
        exact .flatSource configures c.generate_request ⟨resolver, known, answer⟩
    | flatten target output =>
      cases target with
      | none => cases h
      | some target =>
        rw [produce_flatFile] at h
        split at h
        next =>
          simp only [runOn_bind_ok, readFile_ok, flattenText_ok, pure_ok, Product.mk.injEq] at h
          obtain ⟨source, _, ⟨holds, rfl⟩, _, _, ⟨resolver, known, answer, _⟩, ⟨rfl, rfl, _⟩, _⟩ :=
            h
          exact .flatFile holds ⟨resolver, known, answer⟩
        next => cases h
    | compile config version install output =>
      simp only [produce_artifact, runOn_bind_ok, loadSource_ok, pure_ok, Product.mk.injEq] at h
      obtain ⟨_, _, ⟨⟨c, configures, rfl⟩, rfl⟩, compiled, _, result, ⟨rfl, rfl, _⟩, _⟩ := h
      exact .artifact configures c.generate_request (compileText_ok.mp ⟨_, result⟩)
  · intro h
    cases h with
    | @source config output c s configures generated =>
      cases (c.generate_request).symm.trans generated
      have loaded : runOn (loadSource world.tree config) log = ⟨.ok c.features.source, log⟩ :=
        loadSource_ok.mpr ⟨⟨c, configures, rfl⟩, rfl⟩
      rw [produce_source]
      exact ⟨_, _, runOn_bind_ok.mpr ⟨_, _, loaded, pure_ok.mpr ⟨rfl, rfl⟩⟩⟩
    | @flatSource config output c s text configures generated flattens =>
      cases (c.generate_request).symm.trans generated
      obtain ⟨resolver, known, answer⟩ := flattens
      have loaded : runOn (loadSource world.tree config) log = ⟨.ok c.features.source, log⟩ :=
        loadSource_ok.mpr ⟨⟨c, configures, rfl⟩, rfl⟩
      have flat : runOn (flattenText world.tree arguments c.features.source.text) log =
          ⟨.ok text, _⟩ := flattenText_ok.mpr ⟨resolver, known, answer, rfl⟩
      rw [produce_flatSource]
      exact ⟨_, _, runOn_bind_ok.mpr ⟨_, _, loaded,
        runOn_bind_ok.mpr ⟨_, _, flat, pure_ok.mpr ⟨rfl, rfl⟩⟩⟩⟩
    | @flatFile target output source text holds flattens =>
      obtain ⟨resolver, known, answer⟩ := flattens
      have read : runOn (readFile world.tree target) log = ⟨.ok source, log⟩ :=
        readFile_ok.mpr ⟨holds, rfl⟩
      have flat : runOn (flattenText world.tree arguments source) log = ⟨.ok text, _⟩ :=
        flattenText_ok.mpr ⟨resolver, known, answer, rfl⟩
      rw [produce_flatFile, if_pos (isFile_of_holds holds)]
      exact ⟨_, _, runOn_bind_ok.mpr ⟨_, _, read,
        runOn_bind_ok.mpr ⟨_, _, flat, pure_ok.mpr ⟨rfl, rfl⟩⟩⟩⟩
    | @artifact config version install output c s compiled configures generated compiles =>
      cases (c.generate_request).symm.trans generated
      have loaded : runOn (loadSource world.tree config) log = ⟨.ok c.features.source, log⟩ :=
        loadSource_ok.mpr ⟨⟨c, configures, rfl⟩, rfl⟩
      obtain ⟨log', result⟩ : ∃ log', runOn (compileText world arguments _) log =
          ⟨.ok compiled, log'⟩ := compileText_ok.mpr compiles
      rw [produce_artifact]
      exact ⟨_, _, runOn_bind_ok.mpr ⟨_, _, loaded,
        runOn_bind_ok.mpr ⟨_, _, result, pure_ok.mpr ⟨rfl, rfl⟩⟩⟩⟩

end CommandLine

end TokenForge
