import StagedQuery.Value.Json
import StagedQuery.Proofs.FloatOrder
import StagedQuery.Proofs.SortedMembers

/-!
# JSON and back

On its way to JSON a value has the members of its objects sorted by name, and its enumeration
values and the numbers that are not finite are replaced. Where it has neither of these, it comes
back with its members in another order, so equal, and where it has one of them it does not.

A JSON value comes back as it is if values can hold its numbers. What a value becomes is always
such a JSON value.
-/

namespace StagedQuery

namespace Value

/-! ## The structure of values -/

/-- Induction over the forms of a value. -/
@[elab_as_elim]
theorem induction {motive : Value → Prop} (null : motive .null)
    (bool : ∀ truth, motive (.bool truth)) (int : ∀ number, motive (.int number))
    (float : ∀ number, motive (.float number)) (string : ∀ text, motive (.string text))
    (enumeration : ∀ name, motive (.enumeration name))
    (list : ∀ items, (∀ item ∈ items, motive item) → motive (.list items))
    (object : ∀ members, (∀ member ∈ members, motive member.2) → motive (.object members))
    (value : Value) : motive value := by
  refine @Value.rec motive (fun items => ∀ item ∈ items, motive item)
    (fun members => ∀ member ∈ members, motive member.2) (fun member => motive member.2)
    null bool int float string enumeration list object ?_ ?_ ?_ ?_ ?_ value
  all_goals simp_all

/-- Items are well-formed together if they are one by one. -/
theorem wellFormedItems_iff {items : List Value} :
    WellFormedItems items ↔ ∀ item ∈ items, item.WellFormed := by
  induction items with
  | nil => simp [WellFormedItems]
  | cons first rest ih => simp [WellFormedItems, ih]

/-- The values of some members are well-formed together if they are one by one. -/
theorem wellFormedMembers_iff {members : Members Value} :
    WellFormedMembers members ↔ ∀ member ∈ members, member.2.WellFormed := by
  induction members with
  | nil => simp [WellFormedMembers]
  | cons first rest ih => simp [WellFormedMembers, ih]

/-- Values without enumeration values whose numbers are all finite. -/
inductive Plain : Value → Prop
  | null : Plain .null
  | bool (truth : Bool) : Plain (.bool truth)
  | int (number : Int64) : Plain (.int number)
  | float {number : Float} (finite : number.isFinite = true) : Plain (.float number)
  | string (text : String) : Plain (.string text)
  | list {items : List Value} (each : ∀ item ∈ items, Plain item) : Plain (.list items)
  | object {members : Members Value} (each : ∀ member ∈ members, Plain member.2) :
      Plain (.object members)

/-- A list is plain if its items are. -/
theorem plain_list_iff {items : List Value} :
    Plain (.list items) ↔ ∀ item ∈ items, item.Plain :=
  ⟨fun | .list each => each, .list⟩

/-- An object is plain if the values of its members are. -/
theorem plain_object_iff {members : Members Value} :
    Plain (.object members) ↔ ∀ member ∈ members, member.2.Plain :=
  ⟨fun | .object each => each, .object⟩

/-! ## Equality -/

/-- Items are equal to what a change makes of them if each of them is. -/
theorem sameItems_map_iff {change : Value → Value} {items : List Value} :
    sameItems (items.map change) items = true ↔
      ∀ item ∈ items, (change item).same item = true := by
  induction items with
  | nil => simp [sameItems]
  | cons first rest ih => simp [sameItems, ih]

/-- Members have equal members among others if each is equal to what its name has there. -/
theorem sameMembers_iff {left right : Members Value} :
    sameMembers left right = true ↔ ∀ member ∈ left, ∃ other,
      right.value? member.1 = some other ∧ member.2.same other = true := by
  induction left with
  | nil => simp [sameMembers]
  | cons first rest ih =>
    simp only [sameMembers, Bool.and_eq_true, ih, List.forall_mem_cons]
    cases right.value? first.1 <;> simp

end Value

namespace Json

/-- JSON values that values can hold: the integers have 64 bits, the other numbers are finite, and
    objects are maps, with their members sorted by name. -/
inductive Fits : Json → Prop
  | null : Fits .null
  | bool (truth : Bool) : Fits (.bool truth)
  | integer {number : Int} (narrow : Value.fitsInt64 number = true) : Fits (.integer number)
  | real {number : Float} (finite : number.isFinite = true) : Fits (.real number)
  | string (text : String) : Fits (.string text)
  | array {items : List Json} (each : ∀ item ∈ items, Fits item) : Fits (.array items)
  | object {members : Members Json} (ordered : members.Ordered)
      (each : ∀ member ∈ members, Fits member.2) : Fits (.object members)

end Json

namespace Value

/-! ## Both ways, member by member -/

/-- The items of a list are turned into JSON one by one. -/
theorem itemsToJson_eq_map (items : List Value) : itemsToJson items = items.map toJson := by
  induction items with
  | nil => rfl
  | cons first rest ih => rw [itemsToJson, ih, List.map_cons]

/-- The members of an object are turned into JSON one by one and keep their names. -/
theorem membersToJson_eq_map (members : Members Value) :
    membersToJson members = members.map fun member => (member.1, member.2.toJson) := by
  induction members with
  | nil => rfl
  | cons first rest ih => rw [membersToJson, ih, List.map_cons]

/-- The items of an array become values one by one. -/
theorem itemsOfJson_eq_map (items : List Json) : itemsOfJson items = items.map ofJson := by
  induction items with
  | nil => rfl
  | cons first rest ih => rw [itemsOfJson, ih, List.map_cons]

/-- The members of a JSON object become members one by one and keep their names. -/
theorem membersOfJson_eq_map (members : Members Json) :
    membersOfJson members = members.map fun member => (member.1, ofJson member.2) := by
  induction members with
  | nil => rfl
  | cons first rest ih => rw [membersOfJson, ih, List.map_cons]

/-- Members that stand in order are taken over one by one. -/
theorem ofJson_object {members : Members Json} (ordered : members.Ordered) :
    ofJson (.object members) = .object (members.map fun member => (member.1, ofJson member.2)) := by
  have distinct := Members.distinct_map ofJson ordered.distinct
  rw [ofJson, membersOfJson_eq_map, ofPairs, Members.ofPairs_of_distinct distinct]

/-- A 64-bit integer fits into 64 bits. -/
theorem fitsInt64_toInt (number : Int64) : fitsInt64 number.toInt = true := by
  simp only [fitsInt64, Bool.and_eq_true, decide_eq_true_eq]
  exact ⟨number.minValue_le_toInt, number.toInt_le⟩

/-- An integer that fits into 64 bits is not changed by storing it there. -/
theorem toInt_ofInt_of_fits {number : Int} (narrow : fitsInt64 number = true) :
    (Int64.ofInt number).toInt = number := by
  simp only [fitsInt64, Bool.and_eq_true, decide_eq_true_eq] at narrow
  exact Int64.toInt_ofInt_of_le narrow.1 (Int.lt_add_one_of_le narrow.2)

/-! ## Round trips -/

/-- What a value becomes can be held by a value. -/
theorem fits_toJson (value : Value) : value.toJson.Fits := by
  induction value using Value.induction with
  | null => exact .null
  | bool truth => exact .bool truth
  | int number => exact .integer (fitsInt64_toInt number)
  | float number =>
    unfold toJson
    split
    · rename_i finite
      exact .real finite
    · exact .null
  | string text => exact .string text
  | enumeration name => exact .string name
  | list items each =>
    rw [toJson, itemsToJson_eq_map]
    exact .array (List.forall_mem_map.mpr each)
  | object members each =>
    rw [toJson, membersToJson_eq_map, Json.ofPairs]
    refine .object (Members.ordered_sorted _) ?_
    intro pair inside
    obtain ⟨member, listed, rfl⟩ := List.mem_map.mp (Members.mem_of_mem_sorted inside)
    exact each member listed

/-- A JSON value that a value can hold comes back as it was. -/
theorem toJson_ofJson {json : Json} (fits : json.Fits) : (ofJson json).toJson = json := by
  induction fits with
  | null | bool | string => rfl
  | integer narrow => rw [ofJson, if_pos narrow, toJson, toInt_ofInt_of_fits narrow]
  | real finite => rw [ofJson, toJson, if_pos finite]
  | array each ih =>
    rw [ofJson, toJson, itemsOfJson_eq_map, itemsToJson_eq_map, List.map_map]
    exact congrArg Json.array ((List.map_congr_left ih).trans (List.map_id _))
  | @object members ordered each ih =>
    have back :
        membersToJson (members.map fun member => (member.1, ofJson member.2)) = members := by
      rw [membersToJson_eq_map, List.map_map]
      have kept : ∀ member ∈ members, (member.1, (ofJson member.2).toJson) = id member :=
        fun member listed => Prod.ext rfl (ih member listed)
      exact (List.map_congr_left kept).trans (List.map_id _)
    rw [ofJson_object ordered, toJson, back, Json.ofPairs, Members.sorted_of_ordered ordered]

/-- A value comes back equal exactly if JSON can tell its parts from all others. -/
theorem same_ofJson_toJson_iff {value : Value} (wellFormed : value.WellFormed) :
    (ofJson value.toJson).same value = true ↔ value.Plain := by
  induction value using Value.induction with
  | null => exact iff_of_true rfl .null
  | bool truth => exact iff_of_true (beq_self_eq_true truth) (.bool truth)
  | int number =>
    rw [toJson, ofJson, if_pos (fitsInt64_toInt number), Int64.ofInt_toInt]
    exact iff_of_true (beq_self_eq_true number) (.int number)
  | float number =>
    by_cases finite : number.isFinite = true
    · rw [toJson, if_pos finite]
      exact iff_of_true (float_beq_self_iff.mpr (float_isNaN_of_isFinite finite)) (.float finite)
    · rw [toJson, if_neg finite]
      exact iff_of_false Bool.false_ne_true fun | .float other => finite other
  | string text => exact iff_of_true (beq_self_eq_true text) (.string text)
  | enumeration name => exact iff_of_false Bool.false_ne_true nofun
  | list items each =>
    have inner := wellFormedItems_iff.mp wellFormed
    rw [toJson, ofJson, itemsToJson_eq_map, itemsOfJson_eq_map, List.map_map, same,
      sameItems_map_iff, plain_list_iff]
    exact forall₂_congr fun item inside => each item inside (inner item inside)
  | object members each =>
    obtain ⟨distinct, allWellFormed⟩ := wellFormed
    have inner := wellFormedMembers_iff.mp allWellFormed
    have moved := Members.perm_sorted (Members.distinct_map toJson distinct)
    rw [toJson, membersToJson_eq_map, Json.ofPairs, ofJson_object (Members.ordered_sorted _), same,
      List.length_map, moved.length_eq, List.length_map, beq_self_eq_true, Bool.true_and,
      sameMembers_iff, plain_object_iff]
    simp only [List.forall_mem_map, moved.mem_iff]
    -- Sorting has moved each member, but it is still found by its name.
    refine forall₂_congr fun member inside => ?_
    rw [Members.value?_of_mem distinct inside]
    simpa using each member inside (inner member inside)

/-- A value comes back from JSON equal to what it was if it has no enumeration values and its
    numbers are finite, and only then. A JSON value whose integers have 64 bits and whose other
    numbers are finite comes back from a value as it was. Whatever a value is, it becomes the same
    JSON value again after it has come back. -/
theorem json_round_trips :
    (∀ value : Value, value.WellFormed →
      ((ofJson value.toJson == value) = true ↔ value.Plain)) ∧
    (∀ json : Json, json.Fits → (ofJson json).toJson = json) ∧
    ∀ value : Value, (ofJson value.toJson).toJson = value.toJson :=
  ⟨fun _ => same_ofJson_toJson_iff, fun _ => toJson_ofJson,
    fun value => toJson_ofJson value.fits_toJson⟩

/-- A film comes back with its members sorted by name. An enumeration value comes back as a text
    and a NaN as null, which then stay what they are. -/
theorem json_round_trips_film :
    let film : Value := .object
      [("title", .string "Alien"), ("cast", .list [.null, .bool true]),
        ("score", .object [("votes", .int (-3)), ("mean", .float 1.5)])]
    let back : Value := .object
      [("cast", .list [.null, .bool true]),
        ("score", .object [("mean", .float 1.5), ("votes", .int (-3))]),
        ("title", .string "Alien")]
    let tagged : Value := .list [.enumeration "HORROR", .float (0 / 0)]
    film.WellFormed ∧ film.Plain ∧ film.toJson.Fits ∧
    ofJson film.toJson = back ∧ (back == film) = true ∧ back.toJson = film.toJson ∧
    ofJson tagged.toJson = .list [.string "HORROR", .null] ∧
    (ofJson tagged.toJson == tagged) = false ∧ (ofJson tagged.toJson).toJson = tagged.toJson := by
  intro film back tagged
  obtain ⟨equal, same, again⟩ := json_round_trips
  have wellFormed : film.WellFormed := by
    simp [film, WellFormed, WellFormedItems, WellFormedMembers, Members.Distinct, Members.names]
  have cast : Plain (.list [.null, .bool true]) := .list (by simp [Plain.null, Plain.bool])
  have mean : Plain (.float 1.5) := .float (by decide)
  have score : Plain (.object [("votes", .int (-3)), ("mean", .float 1.5)]) :=
    .object (by simp [Plain.int, mean])
  have plain : film.Plain := .object (by simp [Plain.string, cast, score])
  have fits : film.toJson.Fits := film.fits_toJson
  have sorted : ofJson film.toJson = back := rfl
  exact ⟨wellFormed, plain, fits, sorted, sorted ▸ (equal film wellFormed).mpr plain,
    sorted ▸ same _ fits, rfl, by decide, again tagged⟩

end Value

end StagedQuery
