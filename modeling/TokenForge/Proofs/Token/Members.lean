import TokenForge.Proofs.Assoc
import TokenForge.Proofs.Token.WellFormed

/-!
# Nulls among the members of an object

A check looks at a field only through the value that is given for it (`given?`,
`check_congr`), and of the values that the members of an object have for a field,
under either of its names, the last one counts (`given?_normalizeKeys`).

So null is the same as missing as long as it does not come last behind a value:
then it withdraws the field (`withdrawn`), and the values before it do not count
either.  `Config.ofMembers_standing` says what an object with nulls is checked as,
with and without withdrawn fields.
-/

namespace TokenForge

/-- Whether a value is null. -/
def Json.isNull : Json → Bool
  | .null => true
  | _ => false

namespace Token

/-! ## Given values -/

/-- The value that is given for a field: null does not count. -/
def given? (data : Assoc Json) (field : Field) : Option Json :=
  (Assoc.get? data field.key).filter fun v => !v.isNull

theorem valueOf_eq (data : Assoc Json) (field : Field) :
    valueOf data field = (given? data field).getD field.default := by
  unfold valueOf given?
  rcases Assoc.get? data field.key with _ | (_ | _) <;> rfl

theorem supplyGiven_eq (data : Assoc Json) :
    supplyGiven data = match given? data .initialSupply with
      | none | some (.text []) => false
      | some _ => true := by
  unfold supplyGiven given?
  rcases Assoc.get? data Field.initialSupply.key with _ | (_ | _ | _ | _ | (_ | _) | _) <;> rfl

/-- A check depends on nothing but the given values. -/
theorem check_congr {data data' : Assoc Json}
    (same : ∀ field, given? data field = given? data' field) : check data = check data' := by
  have value : valueOf data = valueOf data' := by
    funext field
    rw [valueOf_eq, valueOf_eq, same]
  have supply : supplyGiven data = supplyGiven data' := by
    rw [supplyGiven_eq, supplyGiven_eq, same]
  unfold check
  rw [value, supply]

/-- Of an accepted configuration, a field for which nothing is given has its default. -/
theorem Checked.value_eq_default {data : Assoc Json} {c : Config} (h : Checked data c)
    {field : Field} (missing : given? data field = none) : c.value field = field.default := by
  have value : valueOf data field = field.default := by rw [valueOf_eq, missing, Option.getD_none]
  cases field with
  | name => exact absurd (h.name.trans (by rw [value]; rfl)) h.named
  | symbol => exact absurd (h.symbol.trans (by rw [value]; rfl)) h.symbolic
  | initialSupply =>
    have supplied := h.supplied
    rw [supplyGiven_eq, missing] at supplied
    cases supplied
  | mintable => exact congrArg Json.bool (h.mintable.trans (by rw [value]; rfl))
  | burnable => exact congrArg Json.bool (h.burnable.trans (by rw [value]; rfl))
  | pausable => exact congrArg Json.bool (h.pausable.trans (by rw [value]; rfl))
  | maxSupply =>
    have zero : c.maxSupply = 0 := Except.ok.inj (h.maxSupply.symm.trans (by rw [value]; rfl))
    rw [Config.value, zero]
    rfl
  | buyTax =>
    have zero : c.buyTax = 0 := Except.ok.inj (h.buyTax.symm.trans (by rw [value]; rfl))
    rw [Config.value, zero]
    rfl
  | sellTax =>
    have zero : c.sellTax = 0 := Except.ok.inj (h.sellTax.symm.trans (by rw [value]; rfl))
    rw [Config.value, zero]
    rfl
  | taxReceiver =>
    have deployer : c.taxReceiver = none :=
      Except.ok.inj (h.taxReceiver.symm.trans (by rw [value]; rfl))
    rw [Config.value, deployer]
    rfl
  | accessControl =>
    have owned : c.access = .ownable := Except.ok.inj (h.access.symm.trans (by rw [value]; rfl))
    rw [Config.value, owned]
    rfl

/-! ## The two names of a field -/

/-- Whether a field goes by a name. -/
def Field.goesBy (field : Field) (key : Text) : Bool := key = field.key ∨ key = field.camelKey

theorem Field.mem_all (field : Field) : field ∈ Field.all := by
  cases field <;> decide

theorem Field.key_inj {field other : Field} (same : field.key = other.key) : field = other := by
  have all : ∀ f ∈ Field.all, ∀ g ∈ Field.all, f.key = g.key → f = g := by decide
  exact all field field.mem_all other other.mem_all same

/-- A name in camel case is the name of one field only. -/
theorem Field.eq_of_camelKey {field other : Field}
    (same : field.camelKey = other.key ∨ field.camelKey = other.camelKey) : field = other := by
  have all : ∀ f ∈ Field.all, ∀ g ∈ Field.all,
      f.camelKey = g.key ∨ f.camelKey = g.camelKey → f = g := by decide
  exact all field field.mem_all other other.mem_all same

theorem Field.normalKey_eq_key_iff {key : Text} {field : Field} :
    Field.normalKey key = field.key ↔ field.goesBy key = true := by
  rw [Field.goesBy, decide_eq_true_iff, Field.normalKey]
  cases found : Field.all.find? fun f => f.camelKey == key with
  | some other =>
    obtain rfl : other.camelKey = key := by simpa using List.find?_some found
    exact ⟨fun same => .inr (by rw [Field.key_inj same]), fun named => by
      rw [Field.eq_of_camelKey named]⟩
  | none =>
    refine ⟨.inl, fun named => named.resolve_right ?_⟩
    rintro rfl
    simpa using List.find?_eq_none.mp found field field.mem_all

/-! ## Values of the members -/

/-- The values that the members of an object have for a field, in order. -/
def valuesOf (members : List (Text × Json)) (field : Field) : List Json :=
  ((Assoc.ofPairs members).filter fun m => field.goesBy m.1).map Prod.snd

theorem get?_normalizeKeys (members : List (Text × Json)) (field : Field) :
    Assoc.get? (normalizeKeys (Assoc.ofPairs members)) field.key =
      (valuesOf members field).getLast? := by
  rw [normalizeKeys, Assoc.get?_ofPairs, List.filter_map, List.map_map, valuesOf]
  congr 2
  refine List.filter_congr fun m _ => ?_
  exact Bool.eq_iff_iff.mpr (decide_eq_true_iff.trans Field.normalKey_eq_key_iff)

/-- Of the values for a field the last one counts. -/
theorem given?_normalizeKeys (members : List (Text × Json)) (field : Field) :
    given? (normalizeKeys (Assoc.ofPairs members)) field =
      (valuesOf members field).getLast?.filter fun v => !v.isNull := by
  rw [given?, get?_normalizeKeys]

/-- The values of some of the members of an object are some of their values. -/
theorem valuesOf_filter (members : List (Text × Json)) (keep : Text × Json → Bool)
    (field : Field) :
    valuesOf ((Assoc.ofPairs members).filter keep) field =
      ((Assoc.ofPairs members).filter fun m => field.goesBy m.1 && keep m).map Prod.snd := by
  have nodup : (Assoc.keys ((Assoc.ofPairs members).filter keep)).Nodup :=
    (Assoc.nodup_keys_ofPairs members).sublist (List.filter_sublist.map Prod.fst)
  rw [valuesOf, Assoc.ofPairs_of_nodup nodup, List.filter_filter]

/-! ## Nulls -/

/-- The members of an object without those whose value is null. -/
def withoutNulls (members : List (Text × Json)) : List (Text × Json) :=
  (Assoc.ofPairs members).filter fun m => !m.2.isNull

/-- Whether the last value for a field is null and one before it is not. -/
def withdrawn (members : List (Text × Json)) (field : Field) : Bool :=
  (valuesOf members field).getLast?.any Json.isNull &&
    (valuesOf members field).any fun v => !v.isNull

/-- The members of an object whose value is not null and whose field is not withdrawn. -/
def standing (members : List (Text × Json)) : List (Text × Json) :=
  (Assoc.ofPairs members).filter fun m =>
    !m.2.isNull && !Field.all.any fun field => field.goesBy m.1 && withdrawn members field

theorem valuesOf_withoutNulls (members : List (Text × Json)) (field : Field) :
    valuesOf (withoutNulls members) field =
      (valuesOf members field).filter fun v => !v.isNull := by
  rw [withoutNulls, valuesOf_filter, valuesOf, List.filter_map, List.filter_filter]
  congr 1
  exact List.filter_congr fun m _ => Bool.and_comm ..

/-- A member goes by the name of a field that is withdrawn if and only if its own is. -/
theorem any_withdrawn {members : List (Text × Json)} {field : Field} {key : Text}
    (named : field.goesBy key = true) :
    (Field.all.any fun other => other.goesBy key && withdrawn members other) =
      withdrawn members field := by
  rw [Bool.eq_iff_iff, List.any_eq_true]
  constructor
  · rintro ⟨other, _, both⟩
    rw [Bool.and_eq_true, ← Field.normalKey_eq_key_iff,
      Field.normalKey_eq_key_iff.mpr named] at both
    rw [Field.key_inj both.1]
    exact both.2
  · intro gone
    exact ⟨field, field.mem_all, by rw [named, gone]; rfl⟩

theorem valuesOf_standing (members : List (Text × Json)) (field : Field) :
    valuesOf (standing members) field =
      if withdrawn members field then [] else valuesOf (withoutNulls members) field := by
  have kept : ∀ m : Text × Json, (field.goesBy m.1 && (!m.2.isNull &&
      !Field.all.any fun other => other.goesBy m.1 && withdrawn members other)) =
      (!withdrawn members field && (field.goesBy m.1 && !m.2.isNull)) := by
    intro m
    cases named : field.goesBy m.1 with
    | false => simp
    | true => rw [any_withdrawn named]; simp [Bool.and_comm]
  rw [standing, withoutNulls, valuesOf_filter, valuesOf_filter,
    List.filter_congr fun m _ => kept m]
  cases withdrawn members field <;> simp

/-- The last value, if it is not null: nothing where a null stands behind one that is not, and
otherwise the last of those that are not null. -/
theorem filter_getLast? (vs : List Json) :
    vs.getLast?.filter (fun v => !v.isNull) =
      if vs.getLast?.any Json.isNull && vs.any fun v => !v.isNull then none
      else (vs.filter fun v => !v.isNull).getLast? := by
  rcases List.eq_nil_or_concat vs with rfl | ⟨front, v, rfl⟩
  · rfl
  · cases null : v.isNull with
    | false => simp [null]
    | true =>
      have gone : (some v).filter (fun v => !v.isNull) = none := by simp [Option.filter, null]
      rw [List.concat_eq_append, List.getLast?_append, List.getLast?_singleton, Option.some_or,
        gone, Option.any_some, null, Bool.true_and]
      split
      · rfl
      · rename_i nulls
        rw [List.filter_eq_nil_iff.mpr (by grind), List.getLast?_nil]

/-- What is given for a field is its last value without the nulls, unless it is withdrawn. -/
theorem given?_eq (members : List (Text × Json)) (field : Field) :
    given? (normalizeKeys (Assoc.ofPairs members)) field =
      if withdrawn members field then none
      else (valuesOf (withoutNulls members) field).getLast? := by
  rw [given?_normalizeKeys, filter_getLast?, valuesOf_withoutNulls, withdrawn]

theorem given?_withoutNulls (members : List (Text × Json)) (field : Field) :
    given? (normalizeKeys (Assoc.ofPairs (withoutNulls members))) field =
      (valuesOf (withoutNulls members) field).getLast? := by
  rw [given?_normalizeKeys, valuesOf_withoutNulls]
  cases last : ((valuesOf members field).filter fun v => !v.isNull).getLast? with
  | none => rfl
  | some v =>
    have given : (!v.isNull) = true := (List.mem_filter.mp (List.mem_of_getLast? last)).2
    rw [Option.filter, given, if_pos rfl]

/-- What is given for a field by an object is given by its standing members. -/
theorem given?_standing (members : List (Text × Json)) (field : Field) :
    given? (normalizeKeys (Assoc.ofPairs (standing members))) field =
      given? (normalizeKeys (Assoc.ofPairs members)) field := by
  rw [given?_eq members, given?_normalizeKeys, valuesOf_standing]
  cases withdrawn members field with
  | true => rfl
  | false => exact (given?_normalizeKeys _ _).symm.trans (given?_withoutNulls members field)

/-- If no field is withdrawn, the standing members are those that are not null. -/
theorem standing_eq_withoutNulls {members : List (Text × Json)}
    (kept : ∀ field, withdrawn members field = false) :
    standing members = withoutNulls members := by
  refine List.filter_congr fun m _ => ?_
  simp [kept]

/-- An object is checked as its standing members are.  So null is the same as missing if no
field is withdrawn.  A field that is withdrawn has its default if the object is accepted, and
without the nulls its last other value counts. -/
theorem Config.ofMembers_standing (members : List (Text × Json)) :
    Config.ofMembers members = Config.ofMembers (standing members) ∧
      ((∀ field, withdrawn members field = false) →
        Config.ofMembers members = Config.ofMembers (withoutNulls members)) ∧
      ∀ field, withdrawn members field = true →
        ((valuesOf members field).filter fun v => !v.isNull).getLast? =
            some (givenValue (withoutNulls members) field) ∧
          ∀ c, Config.ofMembers members = .ok c → c.value field = field.default := by
  have stands : Config.ofMembers members = Config.ofMembers (standing members) :=
    check_congr fun field => (given?_standing members field).symm
  refine ⟨stands, fun kept => standing_eq_withoutNulls kept ▸ stands, fun field gone => ⟨?_, ?_⟩⟩
  · rw [givenValue, valueOf_eq, given?_withoutNulls, valuesOf_withoutNulls]
    have others : ((valuesOf members field).filter fun v => !v.isNull) ≠ [] := by
      rw [withdrawn, Bool.and_eq_true, List.any_eq_true] at gone
      obtain ⟨v, member, given⟩ := gone.2
      exact List.ne_nil_of_mem (List.mem_filter.mpr ⟨member, given⟩)
    rw [List.getLast?_eq_some_getLast others, Option.getD_some]
  · intro c accepted
    refine (check_eq_ok_iff.mp accepted).value_eq_default ?_
    rw [given?_eq, gone, if_pos rfl]

/-- A tax is lost to a later null under the other name. -/
example :
    let members : List (Text × Json) := [("name", .text "A"), ("symbol", .text "ABC"),
      ("initialSupply", .int 1), ("buyTax", .int 5), ("buy_tax", .null)]
    (Config.ofMembers members).map (·.buyTax) = .ok 0 ∧
      (Config.ofMembers (withoutNulls members)).map (·.buyTax) = .ok 5 := by
  decide

end Token

end TokenForge
