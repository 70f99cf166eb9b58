import TokenForge.Proofs.Token.Members

/-!
# Order and names of the members of an object

Two objects are `Respelled` if one becomes the other by putting its members into another
order, by calling fields by their other names, and by adding or removing members that
belong to no field.  None of this changes what a field is given as long as no field is
given twice, so the outcome of a check stays as it is, with its configuration or its
fault (`Config.ofMembers_respelled`).
-/

namespace TokenForge

namespace Token

/-! ## Members of a field -/

/-- The values of the members that go by a name of a field, in order. -/
def entriesFor (members : List (Text × Json)) (field : Field) : List Json :=
  (members.filter fun m => field.goesBy m.1).map Prod.snd

/-- Whether no field is given twice, be it under one of its names or under both. -/
def GivenOnce (members : List (Text × Json)) : Prop :=
  ∀ field, (entriesFor members field).length ≤ 1

theorem entriesFor_append (members more : List (Text × Json)) (field : Field) :
    entriesFor (members ++ more) field = entriesFor members field ++ entriesFor more field := by
  rw [entriesFor, List.filter_append, List.map_append, entriesFor, entriesFor]

theorem entriesFor_cons (key : Text) (v : Json) (members : List (Text × Json)) (field : Field) :
    entriesFor ((key, v) :: members) field =
      (if field.goesBy key then [v] else []) ++ entriesFor members field := by
  rw [entriesFor, List.filter_cons]
  cases field.goesBy key <;> rfl

/-- A list of at most one element is in the only order. -/
theorem eq_of_perm_of_length_le_one {α : Type} {as bs : List α} (perm : as.Perm bs)
    (few : as.length ≤ 1) : as = bs := by
  rcases as with _ | ⟨a, _ | ⟨b, as⟩⟩
  · exact perm.nil_eq
  · exact (List.perm_singleton.mp perm.symm).symm
  · simp at few

theorem nodup_of_length_le_one {α : Type} {as : List α} (few : as.length ≤ 1) : as.Nodup := by
  rcases as with _ | ⟨a, _ | ⟨b, as⟩⟩
  · exact List.nodup_nil
  · exact List.nodup_singleton a
  · simp at few

/-- The values of a field that is given once are those of its members as they stand. -/
theorem valuesOf_of_givenOnce {members : List (Text × Json)} (once : GivenOnce members)
    (field : Field) : valuesOf members field = entriesFor members field := by
  have nodup : (Assoc.keys (members.filter fun m => field.goesBy m.1)).Nodup := by
    refine nodup_of_length_le_one ?_
    simpa [entriesFor, Assoc.keys] using once field
  rw [valuesOf, Assoc.filter_ofPairs field.goesBy, Assoc.ofPairs_of_nodup nodup, entriesFor]

/-- A check of members that give each field once depends on the values of their fields only. -/
theorem ofMembers_congr {members more : List (Text × Json)} (once : GivenOnce members)
    (onceMore : GivenOnce more)
    (same : ∀ field, entriesFor members field = entriesFor more field) :
    Config.ofMembers members = Config.ofMembers more := by
  refine check_congr fun field => ?_
  rw [given?_normalizeKeys, given?_normalizeKeys, valuesOf_of_givenOnce once,
    valuesOf_of_givenOnce onceMore, same]

/-! ## Respelling -/

/-- Objects that differ in the order of their members, in the names by which they call the
fields, and in members that belong to no field. -/
inductive Respelled : List (Text × Json) → List (Text × Json) → Prop where
  | reordered {members more : List (Text × Json)} : members.Perm more → Respelled members more
  | renamed (before : List (Text × Json)) (field : Field) {key other : Text} (v : Json)
      (after : List (Text × Json)) : field.goesBy key = true → field.goesBy other = true →
      Respelled (before ++ (key, v) :: after) (before ++ (other, v) :: after)
  | added (before : List (Text × Json)) {key : Text} (v : Json) (after : List (Text × Json)) :
      (∀ field, Field.goesBy field key = false) →
      Respelled (before ++ after) (before ++ (key, v) :: after)
  | removed (before : List (Text × Json)) {key : Text} (v : Json) (after : List (Text × Json)) :
      (∀ field, Field.goesBy field key = false) →
      Respelled (before ++ (key, v) :: after) (before ++ after)
  | trans {members between more : List (Text × Json)} : Respelled members between →
      Respelled between more → Respelled members more

/-- The names of a field are names of no other one. -/
theorem Field.goesBy_eq {field other : Field} {key key' : Text} (named : field.goesBy key = true)
    (named' : field.goesBy key' = true) : other.goesBy key = other.goesBy key' := by
  rw [Bool.eq_iff_iff, ← Field.normalKey_eq_key_iff, ← Field.normalKey_eq_key_iff,
    Field.normalKey_eq_key_iff.mpr named, Field.normalKey_eq_key_iff.mpr named']

/-- Respelling leaves the values of each field as they are, but for their order. -/
theorem Respelled.perm {members more : List (Text × Json)} (h : Respelled members more)
    (field : Field) : (entriesFor members field).Perm (entriesFor more field) := by
  induction h with
  | reordered perm => exact (perm.filter _).map _
  | renamed before _ v after named named' =>
    rw [entriesFor_append, entriesFor_append, entriesFor_cons, entriesFor_cons,
      Field.goesBy_eq named named']
  | added before v after unknown =>
    rw [entriesFor_append, entriesFor_append, entriesFor_cons, unknown field]
    rfl
  | removed before v after unknown =>
    rw [entriesFor_append, entriesFor_append, entriesFor_cons, unknown field]
    rfl
  | trans _ _ first second => exact first.trans second

theorem Respelled.givenOnce {members more : List (Text × Json)} (h : Respelled members more)
    (once : GivenOnce members) : GivenOnce more := by
  intro field
  rw [← (h.perm field).length_eq]
  exact once field

/-- If an object gives no field twice, neither does an object that differs from it in the order
of the members, in the names of fields and in members of no field, and it is accepted as the
same configuration or refused with the same fault. -/
theorem Config.ofMembers_respelled {members more : List (Text × Json)}
    (once : GivenOnce members) (respelled : Respelled members more) :
    GivenOnce more ∧ Config.ofMembers more = Config.ofMembers members := by
  have onceMore : GivenOnce more := respelled.givenOnce once
  refine ⟨onceMore, (ofMembers_congr once onceMore fun field => ?_).symm⟩
  exact eq_of_perm_of_length_le_one (respelled.perm field) (once field)

/-- Members as a form sends them. -/
def formMembers (tax : Int) : List (Text × Json) := [("name", .text "My Token"),
  ("symbol", .text "MTK"), ("initialSupply", .text "1_000"), ("buyTax", .int tax)]

/-- Members with the same fields under other names, in another order and beside a member of no
field. -/
def scriptMembers (tax : Int) : List (Text × Json) := [("buy_tax", .int tax), ("theme", .null),
  ("initial_supply", .text "1_000"), ("symbol", .text "MTK"), ("name", .text "My Token")]

theorem respelled_formMembers (tax : Int) : Respelled (formMembers tax) (scriptMembers tax) := by
  have reordered : Respelled (formMembers tax) (formMembers tax).reverse :=
    .reordered (List.reverse_perm _).symm
  have renamed : Respelled (formMembers tax).reverse ((scriptMembers tax).eraseIdx 1) :=
    .trans (.renamed [] .buyTax (.int tax) _ rfl rfl)
      (.renamed [("buy_tax", .int tax)] .initialSupply (.text "1_000") _ rfl rfl)
  have added : Respelled ((scriptMembers tax).eraseIdx 1) (scriptMembers tax) :=
    .added [("buy_tax", .int tax)] .null _ fun field => by cases field <;> decide
  exact reordered.trans (renamed.trans added)

theorem givenOnce_formMembers (tax : Int) : GivenOnce (formMembers tax) := by
  intro field
  cases field <;> exact Nat.le_of_ble_eq_true rfl

/-- They are accepted alike with a tax of five percent, and refused alike with one of thirty. -/
theorem Config.ofMembers_respelled_formMembers :
    (∀ tax, GivenOnce (formMembers tax) ∧ Respelled (formMembers tax) (scriptMembers tax)) ∧
      (Config.ofMembers (scriptMembers 5)).map Config.buyTax = .ok 5 ∧
      Config.ofMembers (scriptMembers 30) = .error .taxTooHigh := by
  have alike (tax : Int) := Config.ofMembers_respelled (givenOnce_formMembers tax)
    (respelled_formMembers tax)
  refine ⟨fun tax => ⟨givenOnce_formMembers tax, respelled_formMembers tax⟩, ?_, ?_⟩
  · rw [(alike 5).2]
    rfl
  · rw [(alike 30).2]
    rfl

end Token

end TokenForge
