import Mathlib.Data.List.Nodup
import StagedQuery.Proofs.Argument.Coercion
import StagedQuery.Proofs.Argument.Structure
import StagedQuery.Proofs.Refinement

/-!
# Coerced values conform to their types

What coercion makes of a value has the form that its type promises, at every depth: scalars of
their own kind, listed enumeration values, lists of conforming items, and input objects whose
members are those of declared fields. Null stands only where no value is required.

One kind of value is not looked at. The default of a field that is not supplied is set as it was
declared, and nothing fits it to the type of the field. So a coerced value conforms exactly where
the defaults do that were set in it.
-/

namespace StagedQuery

/-- Whether a value is a scalar of a kind. An identifier is a string. -/
def Value.isOfKind : ScalarKind → Value → Bool
  | .int, .int _ => true
  | .float, .float _ => true
  | .string, .string _ => true
  | .boolean, .bool _ => true
  | .id, .string _ => true
  | _, _ => false

namespace ArgumentType

/-! ## Conformance -/

/-- Null where no value is required. -/
def AdmitsNull (presence : Presence) (value : Value) : Prop :=
  value = .null ∧ presence.required = false

mutual

/-- Whether a value conforms to a type, but for excused values of members of input objects. -/
def ConformsBut (excused : ArgumentType → Value → Prop) : ArgumentType → Value → Prop
  | .scalar kind presence, value => AdmitsNull presence value ∨ value.isOfKind kind = true
  | .enumeration _ values presence, value =>
    AdmitsNull presence value ∨ ∃ name ∈ values, value = .enumeration name
  | .input _ fields presence, value =>
    AdmitsNull presence value ∨ ∃ members : Members Value, value = .object members ∧
      members.Distinct ∧ (∀ pair ∈ members, MemberConforms excused fields pair) ∧
      ∀ field ∈ fields, field.type.presence.required = true → field.member ∈ members.names
  | .list item presence, value =>
    AdmitsNull presence value ∨ ∃ items, value = .list items ∧
      ∀ one ∈ items, item.ConformsBut excused one

/-- Whether a member is that of a field, and its value conforms to the type of the field or is
    excused from it. -/
def MemberConforms (excused : ArgumentType → Value → Prop) :
    List (InputField ArgumentType) → String × Value → Prop
  | [], _ => False
  | ⟨_, member, type⟩ :: rest, pair =>
    pair.1 = member ∧ (excused type pair.2 ∨ type.ConformsBut excused pair.2) ∨
      MemberConforms excused rest pair

end

/-- Whether a value conforms to a type: null where no value is required, a scalar of the kind, a
    listed enumeration value, a list of conforming items, or an object that has the members of
    required fields and whose members are those of fields with conforming values. -/
def Conforms (type : ArgumentType) (value : Value) : Prop :=
  type.ConformsBut (fun _ _ => False) value

/-- Whether a value conforms to a type, but for members that hold the default of their field. -/
def ConformsButDefaults (type : ArgumentType) (value : Value) : Prop :=
  type.ConformsBut (fun type value => type.presence.default? = some value) value

/-- A member conforms if some field sets it and either its value is excused there or it conforms
    to the type of that field. -/
theorem memberConforms_iff {excused : ArgumentType → Value → Prop}
    {fields : List (InputField ArgumentType)} {pair : String × Value} :
    MemberConforms excused fields pair ↔ ∃ field ∈ fields, field.member = pair.1 ∧
      (excused field.type pair.2 ∨ field.type.ConformsBut excused pair.2) := by
  induction fields with
  | nil => simp [MemberConforms]
  | cons first rest ih => simp [MemberConforms, ih, eq_comm]

/-! ## Fields that are not supplied -/

mutual

/-- The fields of input objects, at every depth, for which a value supplies no member. -/
def unsupplied : ArgumentType → Value → List (InputField ArgumentType)
  | .scalar _ _, _ => []
  | .enumeration _ _ _, _ => []
  | .input _ fields _, value =>
    match value with
    | .object members => unsuppliedFields fields members
    | _ => []
  | .list item _, value =>
    match value with
    | .list items => items.flatMap fun one => item.unsupplied one
    | single => item.unsupplied single

/-- Those among some fields and below them, where earlier fields have taken their members. -/
def unsuppliedFields : List (InputField ArgumentType) → Members Value →
    List (InputField ArgumentType)
  | [], _ => []
  | ⟨name, member, type⟩ :: rest, left =>
    match left.value? name with
    | some given => type.unsupplied given ++ unsuppliedFields rest (left.remove name)
    | none => ⟨name, member, type⟩ :: unsuppliedFields rest left

end

/-- Null supplies nothing and has no members to supply anything for. -/
theorem unsupplied_null (type : ArgumentType) : type.unsupplied .null = [] := by
  induction type using ArgumentType.induction with
  | scalar | enumeration | input => simp only [unsupplied]
  | list item presence ih => simpa only [unsupplied] using ih

/-- A value that is not a list supplies what it does as an item. -/
theorem unsupplied_single {item : ArgumentType} {presence : Presence} {value : Value}
    (alone : ∀ items, value ≠ .list items) :
    (ArgumentType.list item presence).unsupplied value = item.unsupplied value := by
  cases value with
  | list items => exact absurd rfl (alone items)
  | _ => simp only [unsupplied]

/-- Of a field that is supplied, only what its value leaves out counts as unsupplied. -/
theorem unsuppliedFields_of_some {field : InputField ArgumentType}
    {rest : List (InputField ArgumentType)} {left : Members Value} {given : Value}
    (found : left.value? field.name = some given) :
    unsuppliedFields (field :: rest) left =
      field.type.unsupplied given ++ unsuppliedFields rest (left.remove field.name) := by
  simp only [unsuppliedFields, found]

/-- A field that is not supplied counts as unsupplied itself. -/
theorem unsuppliedFields_of_none {field : InputField ArgumentType}
    {rest : List (InputField ArgumentType)} {left : Members Value}
    (absent : left.value? field.name = none) :
    unsuppliedFields (field :: rest) left = field :: unsuppliedFields rest left := by
  simp only [unsuppliedFields, absent]

/-- What some fields leave unsupplied is one of them or stands below one of them. -/
theorem mem_of_mem_unsuppliedFields {fields : List (InputField ArgumentType)}
    {left : Members Value} {field : InputField ArgumentType}
    (missing : field ∈ unsuppliedFields fields left) :
    field ∈ fields ∨ ∃ next ∈ fields, ∃ given, field ∈ next.type.unsupplied given := by
  induction fields generalizing left with
  | nil => simp [unsuppliedFields] at missing
  | cons first rest ih =>
    have further {left : Members Value} (later : field ∈ unsuppliedFields rest left) :
        field ∈ first :: rest ∨
          ∃ next ∈ first :: rest, ∃ given, field ∈ next.type.unsupplied given := by
      rcases ih later with own | ⟨next, inside, below⟩
      · exact .inl (List.mem_cons_of_mem _ own)
      · exact .inr ⟨next, List.mem_cons_of_mem _ inside, below⟩
    cases found : left.value? first.name with
    | none =>
      rw [unsuppliedFields_of_none found, List.mem_cons] at missing
      rcases missing with rfl | later
      · exact .inl List.mem_cons_self
      · exact further later
    | some given =>
      rw [unsuppliedFields_of_some found, List.mem_append] at missing
      rcases missing with below | later
      · exact .inr ⟨first, List.mem_cons_self, given, below⟩
      · exact further later

/-- What is not supplied is a field of an input object of the type. -/
theorem mem_inputObjects_of_unsupplied {type : ArgumentType} {value : Value}
    {field : InputField ArgumentType} (missing : field ∈ type.unsupplied value) :
    ∃ fields ∈ type.inputObjects, field ∈ fields := by
  induction type using ArgumentType.induction generalizing value with
  | scalar | enumeration => simp [unsupplied] at missing
  | input name fields presence ih =>
    simp only [unsupplied] at missing
    split at missing
    · rcases mem_of_mem_unsuppliedFields missing with own | ⟨next, inside, given, below⟩
      · exact ⟨fields, List.mem_cons_self, own⟩
      · obtain ⟨object, mentioned, listed⟩ := ih next inside below
        refine ⟨object, ?_, listed⟩
        simp only [inputObjects, List.mem_cons, mem_inputObjectsBelow]
        exact .inr ⟨next, inside, mentioned⟩
    · cases missing
  | list item presence ih =>
    simp only [unsupplied] at missing
    split at missing
    · obtain ⟨one, -, below⟩ := List.mem_flatMap.mp missing
      exact ih below
    · exact ih missing

/-! ## What the fields of an input object set -/

/-- Whether a member is that of one of some fields: what the type of the field made of a supplied
    value, or the default if the field is among those that are not supplied. -/
def SetBy (fields missing : List (InputField ArgumentType)) (pair : String × Value) : Prop :=
  ∃ field ∈ fields, field.member = pair.1 ∧
    ((∃ given, field.type.coerce? given = some pair.2 ∧ field.type.unsupplied given ⊆ missing) ∨
      field.type.presence.default? = some pair.2 ∧ field ∈ missing)

/-- What is set by some of the fields is set by more of them, and what is set by default still
    is. -/
theorem SetBy.mono {fields more missing further : List (InputField ArgumentType)}
    {pair : String × Value} (set : SetBy fields missing pair) (among : fields ⊆ more)
    (below : missing ⊆ further) : SetBy more further pair := by
  obtain ⟨field, listed, member, origin⟩ := set
  refine ⟨field, among listed, member, ?_⟩
  rcases origin with ⟨given, coerced, supplied⟩ | ⟨known, absent⟩
  · exact .inl ⟨given, coerced, List.Subset.trans supplied below⟩
  · exact .inr ⟨known, below absent⟩

namespace FitsFields

variable {fields : List (InputField ArgumentType)} {left fitted result : Members Value}

/-- Members with distinct names stay such. -/
theorem distinct (fits : FitsFields fields left fitted result) (before : fitted.Distinct) :
    result.Distinct := by
  induction fits with
  | done => exact before
  | supplied _ _ _ ih | filled _ _ _ ih => exact ih (Members.distinct_put before _ _)
  | omitted _ _ _ _ ih => exact ih before

/-- No member is lost. -/
theorem mem_names (fits : FitsFields fields left fitted result) {name : String}
    (before : name ∈ fitted.names) : name ∈ result.names := by
  induction fits with
  | done => exact before
  | supplied _ _ _ ih | filled _ _ _ ih => exact ih (Members.mem_names_put.mpr (.inr before))
  | omitted _ _ _ _ ih => exact ih before

/-- Every required field has its member. -/
theorem mem_of_required (fits : FitsFields fields left fitted result) :
    ∀ field ∈ fields, field.type.presence.required = true → field.member ∈ result.names := by
  induction fits with
  | done => simp
  | supplied _ _ later ih | filled _ _ later ih =>
    rw [List.forall_mem_cons]
    exact ⟨fun _ => later.mem_names (Members.mem_names_put.mpr (.inl rfl)), ih⟩
  | omitted _ _ optional _ ih =>
    rw [List.forall_mem_cons]
    exact ⟨fun required => absurd required (by simp [optional]), ih⟩

/-- Every member was there before or was set by a field. -/
theorem setBy (fits : FitsFields fields left fitted result) {pair : String × Value}
    (inside : pair ∈ result) :
    pair ∈ fitted ∨ SetBy fields (unsuppliedFields fields left) pair := by
  induction fits with
  | done => exact .inl inside
  | @supplied field rest left fitted result given one found coerced later ih =>
    rw [unsuppliedFields_of_some found]
    rcases ih inside with put | set
    · refine (Members.mem_of_mem_put put).symm.imp_right ?_
      rintro rfl
      exact ⟨field, by simp, rfl, .inl ⟨given, coerced, List.subset_append_left _ _⟩⟩
    · exact .inr (set.mono (List.subset_cons_self _ _) (List.subset_append_right _ _))
  | @filled field rest left fitted result default absent known later ih =>
    rw [unsuppliedFields_of_none absent]
    rcases ih inside with put | set
    · refine (Members.mem_of_mem_put put).symm.imp_right ?_
      rintro rfl
      exact ⟨field, by simp, rfl, .inr ⟨known, by simp⟩⟩
    · exact .inr (set.mono (List.subset_cons_self _ _) (List.subset_cons_self _ _))
  | omitted absent _ _ _ ih =>
    rw [unsuppliedFields_of_none absent]
    exact (ih inside).imp_right (·.mono (List.subset_cons_self _ _) (List.subset_cons_self _ _))

/-- Where the values that a result has for some fields satisfy a condition, so do the defaults of
    those that are not supplied, at every depth, if that holds of what each field makes of a
    supplied value. No other field may have the same member. -/
theorem defaultsSatisfy {condition : ArgumentType → Value → Prop}
    (fits : FitsFields fields left fitted result) (once : (fields.map InputField.member).Nodup)
    (held : ∀ field ∈ fields, ∀ value, result.value? field.member = some value →
      condition field.type value)
    (below : ∀ field ∈ fields, ∀ given one, field.type.coerce? given = some one →
      condition field.type one → DefaultsSatisfy condition (field.type.unsupplied given)) :
    DefaultsSatisfy condition (unsuppliedFields fields left) := by
  induction fits with
  | done => simp [unsuppliedFields, DefaultsSatisfy]
  | @supplied field rest left fitted result given one found coerced later ih =>
    rw [List.map_cons, List.nodup_cons] at once
    rw [List.forall_mem_cons] at held below
    rw [unsuppliedFields_of_some found, DefaultsSatisfy, List.forall_mem_append]
    have own := held.1 one (later.value?_of_put once.1)
    exact ⟨below.1 given one coerced own, ih once.2 held.2 below.2⟩
  | @filled field rest left fitted result default absent known later ih =>
    rw [List.map_cons, List.nodup_cons] at once
    rw [List.forall_mem_cons] at held below
    rw [unsuppliedFields_of_none absent, DefaultsSatisfy, List.forall_mem_cons]
    refine ⟨fun other same => ?_, ih once.2 held.2 below.2⟩
    obtain rfl := Option.some.inj (known.symm.trans same)
    exact held.1 default (later.value?_of_put once.1)
  | omitted absent unknown _ _ ih =>
    rw [List.map_cons, List.nodup_cons] at once
    rw [List.forall_mem_cons] at held below
    rw [unsuppliedFields_of_none absent, DefaultsSatisfy, List.forall_mem_cons]
    exact ⟨fun default known => by simp [unknown] at known, ih once.2 held.2 below.2⟩

end FitsFields

/-! ## Soundness -/

variable {type : ArgumentType} {value fitted : Value}

/-- Null conforms where no value is required. -/
theorem conformsBut_null {excused : ArgumentType → Value → Prop}
    (optional : type.presence.required = false) : type.ConformsBut excused .null := by
  cases type <;> exact .inl ⟨rfl, optional⟩

/-- A value that was coerced to a scalar kind is of that kind. -/
theorem isOfKind_of_coerceScalar? {kind : ScalarKind}
    (coerced : coerceScalar? kind value = some fitted) : fitted.isOfKind kind = true := by
  unfold coerceScalar? at coerced
  split at coerced <;> cases coerced <;> rfl

/-- A coerced value conforms but for what is excused, if the defaults that were set in it do.

    Proof: induction on the type. The members of an object are what the types of their fields
    made of supplied values, which conform by induction, and defaults, which are assumed to. -/
theorem conformsBut_of_coerce? {excused : ArgumentType → Value → Prop}
    (coerced : type.coerce? value = some fitted)
    (defaults : DefaultsSatisfy (fun type default => excused type default ∨
      type.ConformsBut excused default) (type.unsupplied value)) :
    type.ConformsBut excused fitted := by
  induction type using ArgumentType.induction generalizing value fitted with
  | scalar kind presence =>
    cases coerce?_iff.mp coerced with
    | null optional => exact conformsBut_null optional
    | scalar fits => exact .inr (isOfKind_of_coerceScalar? fits)
  | enumeration name values presence =>
    cases coerce?_iff.mp coerced with
    | null optional => exact conformsBut_null optional
    | listed fits => exact .inr (exists_name_of_coerceName? fits)
  | input name fields presence ih =>
    cases coerce?_iff.mp coerced with
    | null optional => exact conformsBut_null optional
    | @object _ _ _ supplied members fits =>
      have distinct : members.Distinct := fits.distinct (by simp [Members.Distinct, Members.names])
      refine .inr ⟨members, rfl, distinct, fun pair inside => ?_, fits.mem_of_required⟩
      rcases fits.setBy inside with old | ⟨field, listed, member, origin⟩
      · cases old
      · rw [memberConforms_iff]
        simp only [unsupplied] at defaults
        refine ⟨field, listed, member, ?_⟩
        rcases origin with ⟨given, own, below⟩ | ⟨known, absent⟩
        · exact .inr (ih field listed own (defaults.mono below))
        · exact defaults field absent _ known
  | list item presence ih =>
    cases coerce?_iff.mp coerced with
    | null optional => exact conformsBut_null optional
    | @items _ _ items results each =>
      simp only [unsupplied] at defaults
      refine .inr ⟨results, rfl, fun result inside => ?_⟩
      obtain ⟨one, listed, own⟩ := exists_of_mem_forall₂ each inside
      exact ih own (defaults.mono fun field inside => List.mem_flatMap.mpr ⟨one, listed, inside⟩)
    | @single _ _ _ one present alone own =>
      rw [unsupplied_single alone] at defaults
      refine .inr ⟨[one], rfl, fun result inside => ?_⟩
      obtain rfl := List.mem_singleton.mp inside
      exact ih own defaults

/-- Where a coerced value conforms, so do the defaults that were set in it, if no two fields of
    one input object have the same member, at every depth. -/
theorem defaultsSatisfy_of_conforms (coerced : type.coerce? value = some fitted)
    (once : ∀ fields ∈ type.inputObjects, (fields.map InputField.member).Nodup)
    (conforms : type.Conforms fitted) : DefaultsSatisfy Conforms (type.unsupplied value) := by
  induction type using ArgumentType.induction generalizing value fitted with
  | scalar kind presence | enumeration name values presence =>
    simp [unsupplied, DefaultsSatisfy]
  | input name fields presence ih =>
    cases coerce?_iff.mp coerced with
    | null => simp [unsupplied, DefaultsSatisfy]
    | @object _ _ _ supplied members fits =>
      rw [forall_inputObjects_input] at once
      obtain ⟨own, below⟩ := once
      simp only [unsupplied]
      rcases conforms with ⟨same, -⟩ | ⟨_, same, -, each, -⟩
      · cases same
      · cases same
        refine fits.defaultsSatisfy own (fun field listed value found => ?_)
          (fun field listed given one fitsField => ih field listed fitsField (below field listed))
        obtain ⟨other, among, member, conforms⟩ :=
          memberConforms_iff.mp (each _ (Members.mem_of_value? found))
        obtain rfl := List.inj_on_of_nodup_map own among listed member
        exact conforms.resolve_left id
  | list item presence ih =>
    cases coerce?_iff.mp coerced with
    | null => simp [unsupplied_null, DefaultsSatisfy]
    | @items _ _ items results each =>
      rcases conforms with ⟨same, -⟩ | ⟨_, same, all⟩
      · cases same
      · cases same
        intro field inside
        simp only [unsupplied, List.mem_flatMap] at inside
        obtain ⟨one, listed, missing⟩ := inside
        obtain ⟨result, among, own⟩ := exists_of_mem_forall₂ each.flip listed
        exact ih own once (all result among) field missing
    | @single _ _ _ one present alone own =>
      rcases conforms with ⟨same, -⟩ | ⟨_, same, all⟩
      · cases same
      · cases same
        rw [unsupplied_single alone]
        exact ih own once (all one (by simp))

/-- When a coerced value conforms to its type, for every type and every value that fits it.

    It always does but for members that hold the default of their field as it was declared. It
    conforms altogether if the declared defaults all do, or just those of the fields that the value
    does not supply; and only then, if no two fields of one input object have the same member. -/
theorem coerced_conforms (type : ArgumentType) (value fitted : Value)
    (coerced : type.coerce? value = some fitted) :
    type.ConformsButDefaults fitted ∧
      ((∀ fields ∈ type.inputObjects, DefaultsSatisfy Conforms fields) → type.Conforms fitted) ∧
      (DefaultsSatisfy Conforms (type.unsupplied value) → type.Conforms fitted) ∧
      ((∀ fields ∈ type.inputObjects, (fields.map InputField.member).Nodup) →
        type.Conforms fitted → DefaultsSatisfy Conforms (type.unsupplied value)) := by
  have of_missing (defaults : DefaultsSatisfy Conforms (type.unsupplied value)) :
      type.Conforms fitted :=
    conformsBut_of_coerce? coerced fun field inside default known =>
      .inr (defaults field inside default known)
  refine ⟨conformsBut_of_coerce? coerced ?_, ?_, of_missing, defaultsSatisfy_of_conforms coerced⟩
  · exact fun field _ default known => .inl known
  · intro declared
    refine of_missing fun field missing => ?_
    obtain ⟨fields, mentioned, listed⟩ := mem_inputObjects_of_unsupplied missing
    exact declared fields mentioned field listed

/-- An input object with one field, a direction to sort by. Its default is declared as a string,
    like the value that a request may supply. -/
def sortInput : ArgumentType :=
  .input "SortInput" [⟨"direction", "direction",
    .enumeration "SortDirection" ["ASC", "DESC"] ⟨false, some (.string "ASC")⟩⟩] optional

/-- A direction that is supplied as a string becomes an enumeration value, and the default stays
    the string, which does not conform. -/
theorem sortInput_default_unfitted :
    sortInput.coerce? (.object [("direction", .string "ASC")]) =
        some (.object [("direction", .enumeration "ASC")]) ∧
      sortInput.coerce? (.object []) = some (.object [("direction", .string "ASC")]) ∧
      sortInput.ConformsButDefaults (.object [("direction", .string "ASC")]) ∧
      ¬ sortInput.Conforms (.object [("direction", .string "ASC")]) := by
  have filled : sortInput.coerce? (.object []) =
      some (.object [("direction", .string "ASC")]) := rfl
  obtain ⟨butDefaults, -, -, defaults⟩ := coerced_conforms sortInput _ _ filled
  have once : ∀ fields ∈ sortInput.inputObjects, (fields.map InputField.member).Nodup := by
    simp [sortInput, inputObjects, inputObjectsBelow]
  refine ⟨rfl, filled, butDefaults, fun conforms => ?_⟩
  rcases defaults once conforms _ (List.mem_singleton_self _) _ rfl with ⟨same, -⟩ | ⟨_, -, same⟩
  · cases same
  · cases same

end ArgumentType

end StagedQuery
