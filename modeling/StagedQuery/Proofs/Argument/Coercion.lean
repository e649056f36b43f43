import Mathlib.Data.List.Forall2
import StagedQuery.Argument.Coercion
import StagedQuery.Proofs.Members

/-!
# What coercion makes of a value

Coercion succeeds exactly as a relation says, form by form of the type. On scalars,
coercion fits no value that conversion would not, and conversion makes the same of it. On
an input object whose fields have pairwise distinct names and members, each member of the
result is what the type of its field makes of the value supplied under the name of the
field, or the default of the field if none is supplied.
-/

namespace StagedQuery

namespace ArgumentType

/-! ## Input objects -/

/-- How some fields fit the members of an input object, one after the other: `left` are the
    members that no field has taken yet, `fitted` those that were set. A field takes the member
    of its name and sets what its type makes of it, or sets its default, or is left out. In the
    end no member is left. -/
inductive FitsFields : List (InputField ArgumentType) → Members Value → Members Value →
    Members Value → Prop where
  | done {fitted : Members Value} : FitsFields [] [] fitted fitted
  | supplied {field : InputField ArgumentType} {rest : List (InputField ArgumentType)}
      {left fitted result : Members Value} {given one : Value}
      (found : left.value? field.name = some given) (coerced : field.type.coerce? given = some one)
      (later : FitsFields rest (left.remove field.name) (fitted.put field.member one) result) :
      FitsFields (field :: rest) left fitted result
  | filled {field : InputField ArgumentType} {rest : List (InputField ArgumentType)}
      {left fitted result : Members Value} {default : Value}
      (absent : left.value? field.name = none)
      (known : field.type.presence.default? = some default)
      (later : FitsFields rest left (fitted.put field.member default) result) :
      FitsFields (field :: rest) left fitted result
  | omitted {field : InputField ArgumentType} {rest : List (InputField ArgumentType)}
      {left fitted result : Members Value} (absent : left.value? field.name = none)
      (unknown : field.type.presence.default? = none)
      (optional : field.type.presence.required = false)
      (later : FitsFields rest left fitted result) : FitsFields (field :: rest) left fitted result

/-- Fitting fields succeeds exactly if every field fits in turn. -/
theorem coerceFields?_iff {fields : List (InputField ArgumentType)}
    {left fitted result : Members Value} :
    coerceFields? fields left fitted = some result ↔ FitsFields fields left fitted result := by
  constructor
  · intro coerced
    induction fields generalizing left fitted with
    | nil =>
      simp only [coerceFields?] at coerced
      split at coerced
      · rename_i empty
        obtain rfl := List.isEmpty_iff.mp empty
        obtain rfl := Option.some.inj coerced
        exact .done
      · cases coerced
    | cons field rest ih =>
      simp only [coerceFields?] at coerced
      split at coerced
      · rename_i given found
        split at coerced
        · rename_i one fits
          exact .supplied found fits (ih coerced)
        · cases coerced
      · rename_i absent
        split at coerced
        · rename_i default known
          exact .filled absent known (ih coerced)
        · rename_i unknown
          split at coerced
          · cases coerced
          · rename_i optional
            exact .omitted absent unknown (by simpa using optional) (ih coerced)
  · intro fits
    induction fits with
    | done => rfl
    | supplied found coerced _ ih => simpa only [coerceFields?, found, coerced] using ih
    | filled absent known _ ih => simpa only [coerceFields?, absent, known] using ih
    | omitted absent unknown optional _ ih =>
      simpa [coerceFields?, absent, unknown, optional] using ih

/-! ## Forms of types -/

/-- A list fits exactly if every item does. -/
theorem mapM_eq_some_iff {α β : Type} {fit : α → Option β} {items : List α} {results : List β} :
    items.mapM fit = some results ↔
      List.Forall₂ (fun item result => fit item = some result) items results := by
  induction items generalizing results with
  | nil => simp [eq_comm]
  | cons first rest ih =>
    simp only [List.mapM_cons, Option.bind_eq_bind, Option.bind_eq_some_iff, ih,
      List.forall₂_cons_left_iff]
    constructor
    · rintro ⟨one, own, others, later, same⟩
      exact ⟨one, others, own, later, (Option.some.inj same).symm⟩
    · rintro ⟨one, others, own, later, rfl⟩
      exact ⟨one, own, others, later, rfl⟩

/-- What fits a type and what is made of it: null where no value is required, a scalar, a listed
    name, an object whose members fit the fields, a list of items that fit, and any other value
    that fits the item, as a list of its own. -/
inductive Fits : ArgumentType → Value → Value → Prop where
  | null {type : ArgumentType} (optional : type.presence.required = false) : Fits type .null .null
  | scalar {kind : ScalarKind} {presence : Presence} {value fitted : Value}
      (coerced : coerceScalar? kind value = some fitted) :
      Fits (.scalar kind presence) value fitted
  | listed {name : String} {values : List String} {presence : Presence} {value fitted : Value}
      (coerced : coerceName? values value = some fitted) :
      Fits (.enumeration name values presence) value fitted
  | object {name : String} {fields : List (InputField ArgumentType)} {presence : Presence}
      {supplied members : Members Value} (fits : FitsFields fields supplied [] members) :
      Fits (.input name fields presence) (.object supplied) (.object members)
  | items {item : ArgumentType} {presence : Presence} {items results : List Value}
      (each : List.Forall₂ (fun one result => item.coerce? one = some result) items results) :
      Fits (.list item presence) (.list items) (.list results)
  | single {item : ArgumentType} {presence : Presence} {value one : Value}
      (present : value.isNull = false) (alone : ∀ items, value ≠ .list items)
      (coerced : item.coerce? value = some one) : Fits (.list item presence) value (.list [one])

/-- Null is the only value that counts as null. -/
theorem eq_null_of_isNull {value : Value} (null : value.isNull = true) : value = .null := by
  cases value <;> simp_all [Value.isNull]

/-- Null is accepted by every type that is not required, and stays null. -/
theorem coerce?_null_iff {type : ArgumentType} {fitted : Value} :
    type.coerce? .null = some fitted ↔ type.presence.required = false ∧ fitted = .null := by
  have refused : type.coerce? .null = refuseNull type.presence := by
    cases type <;> rfl
  rw [refused, refuseNull]
  cases type.presence.required <;> simp [eq_comm]

/-- Null is of no scalar kind. -/
theorem coerceScalar?_null {kind : ScalarKind} : coerceScalar? kind .null = none := by
  cases kind <;> rfl

/-- Coercion makes of a value what fits the type, and refuses every other. -/
theorem coerce?_iff {type : ArgumentType} {value fitted : Value} :
    type.coerce? value = some fitted ↔ Fits type value fitted := by
  constructor
  · intro coerced
    by_cases null : value.isNull = true
    · obtain rfl := eq_null_of_isNull null
      obtain ⟨optional, rfl⟩ := coerce?_null_iff.mp coerced
      exact .null optional
    · have present : value.isNull = false := by simpa using null
      cases type with
      | scalar kind presence =>
        exact .scalar (by simpa [coerce?, present] using coerced)
      | enumeration name values presence =>
        exact .listed (by simpa [coerce?, present] using coerced)
      | input name fields presence =>
        simp only [coerce?, present, Bool.false_eq_true, ↓reduceIte] at coerced
        split at coerced
        · obtain ⟨members, fits, rfl⟩ := Option.map_eq_some_iff.mp coerced
          exact .object (coerceFields?_iff.mp fits)
        · cases coerced
      | list item presence =>
        simp only [coerce?, present, Bool.false_eq_true, ↓reduceIte] at coerced
        split at coerced
        · obtain ⟨results, each, rfl⟩ := Option.map_eq_some_iff.mp coerced
          exact .items (mapM_eq_some_iff.mp each)
        · rename_i alone
          obtain ⟨one, own, rfl⟩ := Option.map_eq_some_iff.mp coerced
          exact .single present (fun items same => alone items same) own
  · intro fits
    cases fits with
    | null optional => exact coerce?_null_iff.mpr ⟨optional, rfl⟩
    | scalar coerced =>
      cases value with
      | null => simp [coerceScalar?_null] at coerced
      | _ => simpa [coerce?, Value.isNull] using coerced
    | listed coerced =>
      cases value with
      | null => cases coerced
      | _ => simpa [coerce?, Value.isNull] using coerced
    | object fits => simpa [coerce?, Value.isNull] using coerceFields?_iff.mpr fits
    | items each => simpa [coerce?, Value.isNull] using mapM_eq_some_iff.mpr each
    | single present alone coerced =>
      cases value with
      | list items => exact absurd rfl (alone items)
      | null => cases present
      | _ => simpa [coerce?, Value.isNull] using coerced

/-- A name that fits an enumeration is listed. -/
theorem exists_name_of_coerceName? {values : List String} {value fitted : Value}
    (coerced : coerceName? values value = some fitted) :
    ∃ name ∈ values, fitted = .enumeration name := by
  unfold coerceName? at coerced
  split at coerced
  · split at coerced <;> cases coerced
    exact ⟨_, by simp_all, rfl⟩
  · split at coerced <;> cases coerced
    exact ⟨_, by simp_all, rfl⟩
  · cases coerced

/-- Conversion makes of a scalar what coercion makes of it. -/
theorem convert?_of_coerceScalar? {kind : ScalarKind} {value fitted : Value}
    (coerced : coerceScalar? kind value = some fitted) : value.convert? kind = some fitted := by
  unfold coerceScalar? at coerced
  split at coerced <;> cases coerced <;> rfl

/-- Conversion makes of a value what coercion to a scalar type makes of it. -/
theorem convert?_of_coerce? {type : ArgumentType} {kind : ScalarKind} {value fitted : Value}
    (scalar : type.scalarKind? = some kind) (coerced : type.coerce? value = some fitted) :
    value.convert? kind = some fitted := by
  cases coerce?_iff.mp coerced with
  | null => cases kind <;> rfl
  | scalar fits =>
    obtain rfl := Option.some.inj scalar
    exact convert?_of_coerceScalar? fits
  | _ => cases scalar

/-! ## Members of input objects -/

/-- Fields whose names are pairwise distinct and whose members are. -/
structure Apart (fields : List (InputField ArgumentType)) : Prop where
  names : (fields.map InputField.name).Nodup
  members : (fields.map InputField.member).Nodup

/-- What a field makes of the members that are supplied to its input object. -/
def fittedMember? (field : InputField ArgumentType) (supplied : Members Value) : Option Value :=
  match supplied.value? field.name with
  | some given => field.type.coerce? given
  | none => field.type.presence.default?

/-- Fields that fit leave alone the members that belong to none of them. -/
theorem FitsFields.value?_of_not_mem {fields : List (InputField ArgumentType)}
    {left fitted result : Members Value} (fits : FitsFields fields left fitted result)
    {member : String} (foreign : member ∉ fields.map InputField.member) :
    result.value? member = fitted.value? member := by
  induction fits with
  | done => rfl
  | supplied _ _ _ ih | filled _ _ _ ih =>
    simp only [List.map_cons, List.mem_cons, not_or] at foreign
    rw [ih foreign.2, Members.value?_put_of_ne _ _ foreign.1]
  | omitted _ _ _ _ ih =>
    simp only [List.map_cons, List.mem_cons, not_or] at foreign
    exact ih foreign.2

/-- What a field has set is the member in the end, if no later field has that member. -/
theorem FitsFields.value?_of_put {rest : List (InputField ArgumentType)}
    {left fitted result : Members Value} {member : String} {value : Value}
    (later : FitsFields rest left (fitted.put member value) result)
    (foreign : member ∉ rest.map InputField.member) : result.value? member = some value := by
  rw [later.value?_of_not_mem foreign, Members.value?_put_self]

/-- Each member of a fitted object is what its field makes of the supplied members, and
    what is supplied to a field fits its type.

    Proof: induction on the fields. The first field takes its name out of what is left,
    which the names of later fields do not miss, and sets its member, which no later field
    sets again. -/
theorem FitsFields.value?_eq {fields : List (InputField ArgumentType)}
    {left fitted result : Members Value} (fits : FitsFields fields left fitted result)
    (apart : Apart fields) (fresh : ∀ field ∈ fields, fitted.value? field.member = none) :
    ∀ field ∈ fields, result.value? field.member = fittedMember? field left ∧
      ∀ given, left.value? field.name = some given → (field.type.coerce? given).isSome = true := by
  -- No later field has the member or the name of the first.
  have others {field : InputField ArgumentType} {rest : List (InputField ArgumentType)}
      (apart : Apart (field :: rest)) :
      Apart rest ∧ field.member ∉ rest.map InputField.member ∧
        ∀ later ∈ rest, later.member ≠ field.member ∧ later.name ≠ field.name := by
    obtain ⟨names, members⟩ := apart
    simp only [List.map_cons, List.nodup_cons] at names members
    refine ⟨⟨names.2, members.2⟩, members.1, fun later inside => ⟨?_, ?_⟩⟩
    · exact fun same => members.1 (same ▸ List.mem_map_of_mem inside)
    · exact fun same => names.1 (same ▸ List.mem_map_of_mem inside)
  induction fits with
  | done => simp
  | @supplied field rest left fitted result given one found coerced later ih =>
    obtain ⟨apartLater, foreign, different⟩ := others apart
    rw [List.forall_mem_cons]
    refine ⟨⟨?_, ?_⟩, ?_⟩
    · simp only [later.value?_of_put foreign, fittedMember?, found, coerced]
    · intro other same
      obtain rfl : given = other := Option.some.inj (found.symm.trans same)
      simp [coerced]
    · intro next inside
      obtain ⟨otherMember, otherName⟩ := different next inside
      have supply := Members.value?_remove_of_ne left otherName
      have rested := ih apartLater (fun next inside => by
        rw [Members.value?_put_of_ne _ _ (different next inside).1]
        exact fresh next (List.mem_cons_of_mem _ inside)) next inside
      rwa [supply, fittedMember?, supply] at rested
  | @filled field rest left fitted result default absent known later ih =>
    obtain ⟨apartLater, foreign, different⟩ := others apart
    rw [List.forall_mem_cons]
    refine ⟨⟨?_, ?_⟩, ?_⟩
    · simp only [later.value?_of_put foreign, fittedMember?, absent, known]
    · intro given same
      rw [absent] at same
      cases same
    · refine ih apartLater fun next inside => ?_
      rw [Members.value?_put_of_ne _ _ (different next inside).1]
      exact fresh next (List.mem_cons_of_mem _ inside)
  | @omitted field rest left fitted result absent unknown optional later ih =>
    obtain ⟨apartLater, foreign, -⟩ := others apart
    rw [List.forall_mem_cons]
    refine ⟨⟨?_, ?_⟩, ?_⟩
    · simp only [later.value?_of_not_mem foreign, fresh field (by simp), fittedMember?, absent,
        unknown]
    · intro given same
      rw [absent] at same
      cases same
    · exact ih apartLater fun next inside => fresh next (List.mem_cons_of_mem _ inside)

/-- The member of a value that fits an input object is what the field of that member makes
    of the supplied members, and null if no field has it. -/
theorem member_of_coerce?_object {name : String} {fields : List (InputField ArgumentType)}
    {presence : Presence} (apart : Apart fields) {supplied : Members Value} {fitted : Value}
    (coerced : (ArgumentType.input name fields presence).coerce? (.object supplied) = some fitted)
    (member : String) :
    fitted.member member =
      (((fields.find? (·.member = member)).bind (fittedMember? · supplied)).getD .null) := by
  cases coerce?_iff.mp coerced with | object fits
  simp only [Value.member]
  cases found : fields.find? (·.member = member) with
  | none =>
    have foreign : member ∉ fields.map InputField.member := by
      intro inside
      obtain ⟨field, listed, rfl⟩ := List.mem_map.mp inside
      simpa using List.find?_eq_none.mp found field listed
    rw [fits.value?_of_not_mem foreign]
    rfl
  | some field =>
    have same : field.member = member := by simpa using List.find?_some found
    obtain ⟨made, -⟩ := fits.value?_eq apart (fun _ _ => rfl) field
      (List.mem_of_find?_eq_some found)
    rw [Option.bind_some, ← same, made]

/-- What is supplied to a field of an input object that fits is fit for the field. -/
theorem coerce?_isSome_of_object {name : String} {fields : List (InputField ArgumentType)}
    {presence : Presence} (apart : Apart fields) {supplied : Members Value} {fitted : Value}
    (coerced : (ArgumentType.input name fields presence).coerce? (.object supplied) = some fitted)
    {field : InputField ArgumentType} (listed : field ∈ fields) {given : Value}
    (known : supplied.value? field.name = some given) :
    (field.type.coerce? given).isSome = true := by
  cases coerce?_iff.mp coerced with | object fits
  obtain ⟨-, fit⟩ := fits.value?_eq apart (fun _ _ => rfl) field listed
  exact fit given known

/-- Where no later field has the member of the first, setting it leaves their members new. -/
theorem fresh_put {field : InputField ArgumentType} {rest : List (InputField ArgumentType)}
    {fitted : Members Value} {one : Value} (foreign : field.member ∉ rest.map InputField.member)
    (fresh : ∀ next ∈ field :: rest, next.member ∉ fitted.names) :
    ∀ next ∈ rest, next.member ∉ (fitted.put field.member one).names := by
  intro next inside
  have different : next.member ≠ field.member :=
    fun same => foreign (same ▸ List.mem_map_of_mem inside)
  rw [Members.mem_names_put, not_or]
  exact ⟨different, fresh next (List.mem_cons_of_mem _ inside)⟩

/-- Members that fields set follow those that were there, in the order of the fields. -/
theorem FitsFields.exists_added {fields : List (InputField ArgumentType)}
    {left fitted result : Members Value} (fits : FitsFields fields left fitted result)
    (once : (fields.map InputField.member).Nodup)
    (fresh : ∀ field ∈ fields, field.member ∉ fitted.names) :
    ∃ added : Members Value, result = fitted ++ added ∧
      added.names.Sublist (fields.map InputField.member) := by
  induction fits with
  | done => exact ⟨[], by simp, .slnil⟩
  | @supplied field rest left fitted result _ one _ _ _ ih
  | @filled field rest left fitted result one _ _ _ ih =>
    rw [List.map_cons, List.nodup_cons] at once
    obtain ⟨added, same, ordered⟩ := ih once.2 (fresh_put once.1 fresh)
    rw [Members.put_of_not_mem _ (fresh field (by simp))] at same
    exact ⟨(field.member, one) :: added, by simpa using same, ordered.cons_cons _⟩
  | @omitted field rest left fitted result _ _ _ _ ih =>
    rw [List.map_cons, List.nodup_cons] at once
    obtain ⟨added, rfl, ordered⟩ := ih once.2 fun later inside => fresh later (by simp [inside])
    exact ⟨added, rfl, ordered.cons _⟩

end ArgumentType

end StagedQuery
