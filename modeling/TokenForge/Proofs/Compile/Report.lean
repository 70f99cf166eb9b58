import TokenForge.Compile.Basic

/-!
# Reading a well-formed output

The output of a compiler is *well-formed* if its diagnostics are objects with text messages and
each contract of the entry unit has a name, an interface and both codes.  Reading it then ends
in one of three ways, listed by `Reads`: it is refused for the diagnostics of the severity
`error`, or it has no contract, or the chosen contract is read from it
(`reads_readOutput`).

`Chosen` says which contract that is, without searching for it.
-/

namespace TokenForge

theorem Text.endsWith_iff {ending s : Text} : Text.endsWith ending s = true ↔ ending <:+ s := by
  rw [Text.endsWith, Text.startsWith, Option.isSome_iff_exists]
  constructor
  · rintro ⟨rest, h⟩
    rw [Text.after?_eq_some_iff] at h
    exact ⟨rest.reverse, by rw [← List.reverse_reverse s, h]; simp⟩
  · rintro ⟨front, rfl⟩
    exact ⟨front.reverse, Text.after?_eq_some_iff.mpr (by simp)⟩

theorem Json.get?_eq_some_iff {v member : Json} {key : Text} :
    v.get? key = some member ↔ ∃ members, v.members? = some members ∧
      Assoc.get? members key = some member := by
  rw [Json.get?, Option.bind_eq_some_iff]

namespace Compile

/-! ## Parts of an output -/

/-- The diagnostics of an output, in order. -/
def diagnosticsOf (output : Json) : List (Assoc Json) :=
  match output.get? "errors" with
  | some (.array items) => items.filterMap Json.members?
  | _ => []

/-- The diagnostics of a severity. -/
def diagnosed (output : Json) (severity : Text) : List (Assoc Json) :=
  (diagnosticsOf output).filter (hasSeverity · severity)

/-- The contracts of a unit. -/
def contractsIn (output : Json) (unit : Text) : Assoc Json :=
  (((output.get? "contracts").bind (·.get? unit)).bind Json.members?).getD []

/-- The code of a contract under a name. -/
def codeText? (contract : Json) (code : Text) : Option Text :=
  (((contract.get? "evm").bind (·.get? code)).bind (·.get? "object")).bind Json.text?

/-- What a compiler puts out when it works. -/
structure WellFormed (output : Json) : Prop where
  diagnostics : ∀ part ∈ output.get? "errors", ∃ items, part = .array items ∧
    ∀ item ∈ items, ∃ members, item.members? = some members ∧ (messageOf members).text?.isSome
  units : ∀ part ∈ output.get? "contracts", part.members?.isSome ∧
    ∀ unit ∈ part.get? entryUnit, unit.members?.isSome
  named : ∀ c ∈ contractsIn output entryUnit, c.1 ≠ []
  compiled : ∀ c ∈ contractsIn output entryUnit, (c.2.get? "abi").isSome ∧
    (codeText? c.2 "bytecode").isSome ∧ (codeText? c.2 "deployedBytecode").isSome

theorem part_eq_ok {v member : Json} {key : Text} (h : v.get? key = some member) :
    part v key = .ok member := by
  obtain ⟨members, shape, stored⟩ := Json.get?_eq_some_iff.mp h
  simp [part, shape, stored]

/-! ## Diagnostics -/

theorem WellFormed.items {output : Json} (h : WellFormed output) :
    ∃ items, itemsOf ((output.get? "errors").getD .null) = .ok items ∧
      items.filterMap Json.members? = diagnosticsOf output ∧
      ∀ item ∈ items, ∃ members, item.members? = some members ∧
        (messageOf members).text?.isSome := by
  cases here : output.get? "errors" with
  | none => exact ⟨[], rfl, by rw [diagnosticsOf, here]; rfl, by simp⟩
  | some part =>
    obtain ⟨items, rfl, texts⟩ := h.diagnostics part here
    refine ⟨items, ?_, by rw [diagnosticsOf, here], texts⟩
    rw [Option.getD_some, itemsOf]
    cases items <;> simp [Json.isEmpty]

theorem messages_eq_ok {items : List Json} (severity : Text)
    (h : ∀ item ∈ items, ∃ members, item.members? = some members) :
    messages severity items =
      .ok (((items.filterMap Json.members?).filter (hasSeverity · severity)).map messageOf) := by
  induction items with
  | nil => rfl
  | cons item items ih =>
    obtain ⟨members, shape⟩ := h item (.head _)
    rw [messages, ih fun item member => h item (.tail _ member), shape,
      List.filterMap_cons_some shape]
    cases severe : hasSeverity members severity <;> simp [severe, Except.map]

theorem messageTexts_eq_ok {vs : List Json} (h : ∀ v ∈ vs, v.text?.isSome) :
    messageTexts vs = .ok (vs.filterMap Json.text?) := by
  induction vs with
  | nil => rfl
  | cons v vs ih =>
    obtain ⟨s, text⟩ := Option.isSome_iff_exists.mp (h v (.head _))
    rw [messageTexts, ih fun v member => h v (.tail _ member), text,
      List.filterMap_cons_some text]
    rfl

/-- The texts of the diagnostics of a severity. -/
def textsOf (output : Json) (severity : Text) : List Text :=
  ((diagnosed output severity).map messageOf).filterMap Json.text?

/-! ## Contracts -/

theorem WellFormed.contracts {output : Json} (h : WellFormed output) :
    contractsOf output entryUnit = .ok (contractsIn output entryUnit) := by
  rw [contractsOf, contractsIn]
  cases here : output.get? "contracts" with
  | none => rfl
  | some part =>
    obtain ⟨some_members, below⟩ := h.units part here
    obtain ⟨members, shape⟩ := Option.isSome_iff_exists.mp some_members
    simp only [Option.getD_some, shape, Option.bind_some]
    have stored : part.get? entryUnit = Assoc.get? members entryUnit := by simp [Json.get?, shape]
    cases unit : Assoc.get? members entryUnit with
    | none => rw [stored, unit]; rfl
    | some v =>
      obtain ⟨contracts, shape'⟩ := Option.isSome_iff_exists.mp (below v (stored.trans unit))
      simp [stored, unit, shape']

theorem interfaceOf_eq_ok {contract interface : Json} (h : contract.get? "abi" = some interface) :
    interfaceOf contract = .ok interface := by
  obtain ⟨members, shape, stored⟩ := Json.get?_eq_some_iff.mp h
  simp only [interfaceOf, shape, stored]

theorem codeOf_eq_ok {contract : Json} {code digits : Text}
    (h : codeText? contract code = some digits) : codeOf contract code = .ok ("0x" ++ digits) := by
  simp only [codeText?, Option.bind_eq_some_iff] at h
  obtain ⟨object, ⟨inner, ⟨machine, evm, inner_eq⟩, object_eq⟩, text⟩ := h
  simp only [codeOf, part_eq_ok evm, part_eq_ok inner_eq, part_eq_ok object_eq, bind, Except.bind,
    text]
  rfl

/-! ## The chosen contract -/

/-- A contract is asked for that is there. -/
def Asked (names : List Text) (wanted : Option Text) (name : Text) : Prop :=
  wanted = some name ∧ name ≠ [] ∧ name ∈ names

/-- The contract that is returned: the one that is asked for, or else the first one whose name
ends in `Token`, or else the first one. -/
inductive Chosen (names : List Text) (wanted : Option Text) : Text → Prop where
  | asked {name} : Asked names wanted name → Chosen names wanted name
  | token {name before after} : (∀ other, ¬ Asked names wanted other) →
    names = before ++ name :: after → "Token".toList <:+ name →
    (∀ other ∈ before, ¬ "Token".toList <:+ other) → Chosen names wanted name
  | first {name rest} : (∀ other, ¬ Asked names wanted other) →
    names = name :: rest → (∀ other ∈ names, ¬ "Token".toList <:+ other) →
    Chosen names wanted name

/-- The contract that is returned when none is asked for that is there. -/
theorem chosen_of_fallback {names : List Text} {wanted : Option Text} {name : Text}
    (none_asked : ∀ other, ¬ Asked names wanted other)
    (h : (names.find? (Text.endsWith "Token")).or names.head? = some name) :
    Chosen names wanted name := by
  cases token : names.find? (Text.endsWith "Token") with
  | some found =>
    rw [token, Option.some_or] at h
    cases h
    obtain ⟨ends, before, after, split, others⟩ := List.find?_eq_some_iff_append.mp token
    refine .token none_asked split (Text.endsWith_iff.mp ends) fun other member => ?_
    simpa [← Text.endsWith_iff] using others other member
  | none =>
    rw [token, Option.none_or, List.head?_eq_some_iff] at h
    obtain ⟨rest, split⟩ := h
    refine .first none_asked split fun other member => ?_
    simpa [← Text.endsWith_iff] using List.find?_eq_none.mp token other member

theorem chosen_pickContract {names : List Text} {wanted : Option Text} {name : Text}
    (h : pickContract names wanted = some name) : Chosen names wanted name := by
  cases wanted with
  | none => exact chosen_of_fallback (by simp [Asked]) h
  | some asked =>
    simp only [pickContract] at h
    split at h
    next there =>
      cases h
      exact .asked ⟨rfl, there⟩
    next absent =>
      refine chosen_of_fallback ?_ h
      rintro other ⟨same, there⟩
      cases same
      exact absent there

theorem Chosen.mem {names : List Text} {wanted : Option Text} {name : Text}
    (h : Chosen names wanted name) : name ∈ names := by
  cases h with
  | asked there => exact there.2.2
  | token _ split => simp [split]
  | first _ split => simp [split]

theorem pickContract_eq_none_iff {names : List Text} {wanted : Option Text} :
    pickContract names wanted = none ↔ names = [] := by
  constructor
  · intro h
    cases names with
    | nil => rfl
    | cons name names =>
      cases wanted with
      | none => simp [pickContract] at h
      | some asked =>
        simp only [pickContract] at h
        split at h <;> simp at h
  · rintro rfl
    cases wanted <;> simp [pickContract]

/-! ## Reading -/

/-- How reading an output ends. -/
inductive Reads (output : Json) (wanted : Option Text) (version : Text) :
    Except Fault Compiled → Prop where
  /-- There are errors. -/
  | refused : diagnosed output "error" ≠ [] →
    Reads output wanted version (.error (.failed (textsOf output "error")))
  /-- There is no contract. -/
  | empty : diagnosed output "error" = [] → contractsIn output entryUnit = [] →
    Reads output wanted version (.error .noContract)
  /-- A contract is read. -/
  | contract {name contract interface code deployed} : diagnosed output "error" = [] →
    Chosen (Assoc.keys (contractsIn output entryUnit)) wanted name →
    Assoc.get? (contractsIn output entryUnit) name = some contract →
    contract.get? "abi" = some interface → codeText? contract "bytecode" = some code →
    codeText? contract "deployedBytecode" = some deployed →
    Reads output wanted version (.ok ⟨name, interface, "0x" ++ code, "0x" ++ deployed, version,
      (diagnosed output "warning").map messageOf⟩)

@[simp]
theorem runOn_note (n : Note) (r : Record) :
    runOn (note n) r = ⟨.ok ⟨⟩, { r with notes := r.notes ++ [n] }⟩ := rfl

@[simp]
theorem runOn_orFail_ok {δ α : Type} (fault : δ → Fault) (a : α) (r : Record) :
    runOn (orFail fault (.ok a)) r = ⟨.ok a, r⟩ := rfl

theorem runOn_warn (warnings : List Json) (r : Record) :
    ∃ s, runOn (warnings.forM fun w => note (.warning w)) r = ⟨.ok ⟨⟩, s⟩ := by
  induction warnings generalizing r with
  | nil => exact ⟨r, rfl⟩
  | cons w warnings ih =>
    obtain ⟨s, ends⟩ := ih { r with notes := r.notes ++ [.warning w] }
    refine ⟨s, ?_⟩
    rw [List.forM_eq_forM, List.forM_cons, runOn_bind, runOn_note]
    exact ends

/-- The contract of a name that is there can be read. -/
theorem WellFormed.readable {output : Json} (h : WellFormed output) {name : Text}
    (there : name ∈ Assoc.keys (contractsIn output entryUnit)) :
    name ≠ [] ∧ ∃ contract interface code deployed,
      Assoc.get? (contractsIn output entryUnit) name = some contract ∧
      contract.get? "abi" = some interface ∧ codeText? contract "bytecode" = some code ∧
      codeText? contract "deployedBytecode" = some deployed := by
  obtain ⟨contract, stored⟩ := Option.isSome_iff_exists.mp (Assoc.isSome_get?_iff.mpr there)
  have member := Assoc.mem_of_get? stored
  obtain ⟨abi, bytecode, deployedBytecode⟩ := h.compiled _ member
  obtain ⟨interface, abi⟩ := Option.isSome_iff_exists.mp abi
  obtain ⟨code, bytecode⟩ := Option.isSome_iff_exists.mp bytecode
  obtain ⟨deployed, deployedBytecode⟩ := Option.isSome_iff_exists.mp deployedBytecode
  exact ⟨h.named _ member, contract, interface, code, deployed, stored, abi, bytecode,
    deployedBytecode⟩

theorem runOn_refuseErrors {errors : List Json} (texts : ∀ v ∈ errors, v.text?.isSome)
    (r : Record) :
    runOn (refuseErrors errors) r =
      if errors = [] then ⟨.ok ⟨⟩, r⟩
      else ⟨.error (.failed (errors.filterMap Json.text?)), r⟩ := by
  cases errors with
  | nil => rfl
  | cons error errors =>
    rw [if_neg (List.cons_ne_nil _ _)]
    simp only [refuseErrors, messageTexts_eq_ok texts, runOn_bind, runOn_orFail_ok, runOn_throw]

/-- A well-formed output is refused, or it has no contract, or the chosen contract is read. -/
theorem reads_readOutput {output : Json} (h : WellFormed output) (wanted : Option Text)
    (version : Text) (r : Record) :
    Reads output wanted version (runOn (readOutput output wanted version) r).answer := by
  obtain ⟨items, read, same, shape⟩ := h.items
  have severities : ∀ severity, messages severity items =
      .ok ((diagnosed output severity).map messageOf) := by
    intro severity
    rw [messages_eq_ok severity fun item member => ?_, same, diagnosed]
    obtain ⟨members, shape, _⟩ := shape item member
    exact ⟨members, shape⟩
  have texts : ∀ v ∈ (diagnosed output "error").map messageOf, v.text?.isSome := by
    intro v member
    obtain ⟨members, diagnosis, rfl⟩ := List.mem_map.mp member
    rw [diagnosed, ← same] at diagnosis
    obtain ⟨item, item_mem, shape'⟩ := List.mem_filterMap.mp (List.mem_filter.mp diagnosis).1
    obtain ⟨members', shape, text⟩ := shape item item_mem
    cases shape.symm.trans shape'
    exact text
  simp only [readOutput, runOn_bind, read, severities, runOn_orFail_ok, runOn_refuseErrors texts,
    List.map_eq_nil_iff]
  by_cases errors : diagnosed output "error" = []
  case neg =>
    rw [if_neg errors]
    exact .refused errors
  case pos =>
    rw [if_pos errors]
    obtain ⟨s, warned⟩ := runOn_warn ((diagnosed output "warning").map messageOf) r
    simp only [warned, h.contracts, runOn_orFail_ok]
    cases picked : pickContract (Assoc.keys (contractsIn output entryUnit)) wanted with
    | none =>
      have empty := List.map_eq_nil_iff.mp (pickContract_eq_none_iff.mp picked)
      have reading : Reads output wanted version (.error .noContract) := .empty errors empty
      -- Whether it is noted that a contract is not there makes no difference.
      dsimp only
      split
      · split
        · simpa only [runOn_bind, runOn_note, runOn_throw] using reading
        · exact reading
      · exact reading
    | some name =>
      have chosen := chosen_pickContract picked
      obtain ⟨named, contract, interface, code, deployed, stored, abi, bytecode,
        deployedBytecode⟩ := h.readable chosen.mem
      have reading : Reads output wanted version (.ok _) :=
        .contract errors chosen stored abi bytecode deployedBytecode
      simp only [stored, Option.getD_some, interfaceOf_eq_ok abi, codeOf_eq_ok bytecode,
        codeOf_eq_ok deployedBytecode]
      split
      · split
        · simpa only [runOn_bind, runOn_note, runOn_orFail_ok, runOn_pure] using reading
        · simpa only [runOn_bind, runOn_orFail_ok, runOn_pure] using reading
      · simpa only [runOn_bind, runOn_orFail_ok, runOn_pure] using reading

end Compile

end TokenForge
