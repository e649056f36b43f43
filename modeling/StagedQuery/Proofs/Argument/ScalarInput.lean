import StagedQuery.Extension
import StagedQuery.Proofs.Argument.Binding
import StagedQuery.Proofs.Argument.Coercion

/-!
# Input objects over the scalar members of a shape

A filter and a sort bring one argument each, an input object with a field for each scalar
member of the items. What is bound for it has the members that are written, each fitted to the
type of its field, in the order in which the shape declares them: the order in which they are
written is lost.
-/

namespace StagedQuery

/-- Members are one that is found and what is left without it, in another order. -/
theorem Members.perm_cons_remove {α : Type} {members : Members α} {name : String} {value : α}
    (found : members.value? name = some value) :
    List.Perm members ((name, value) :: members.remove name) := by
  induction members with
  | nil => cases found
  | cons head rest ih =>
    obtain ⟨other, first⟩ := head
    by_cases same : other = name
    · simp only [value?, same, ↓reduceIte, Option.some.injEq] at found
      simp [remove, same, found]
    · simp only [value?, same, ↓reduceIte] at found
      simp only [remove, same, ↓reduceIte]
      exact ((ih found).cons _).trans (List.Perm.swap _ _ _)

/-- Items that are picked nothing of may be left out before. -/
theorem filterMap_of_sublist {α β : Type} {items chosen : List α} (inside : chosen.Sublist items)
    (once : items.Nodup) {pick : α → Option β}
    (others : ∀ item ∈ items, item ∉ chosen → pick item = none) :
    items.filterMap pick = chosen.filterMap pick := by
  induction inside with
  | slnil => rfl
  | @cons chosen items item among ih =>
    obtain ⟨fresh, once⟩ := List.nodup_cons.mp once
    obtain ⟨own, others⟩ := List.forall_mem_cons.mp others
    rw [List.filterMap_cons_none (own fun again => fresh (among.subset again)), ih once others]
  | @cons_cons chosen items item among ih =>
    obtain ⟨fresh, once⟩ := List.nodup_cons.mp once
    have below : ∀ other ∈ items, other ∉ chosen → pick other = none := by
      intro other listed left
      refine others other (List.mem_cons_of_mem _ listed) ?_
      rw [List.mem_cons, not_or]
      exact ⟨fun same => fresh (same ▸ listed), left⟩
    rw [List.filterMap_cons, List.filterMap_cons, ih once below]

namespace ArgumentType

variable {fields : List (InputField ArgumentType)} {left fitted result : Members Value}

/-- Members that fit some fields have distinct names, all of them names of fields. -/
theorem FitsFields.names_left (fits : FitsFields fields left fitted result)
    (once : (fields.map InputField.name).Nodup) :
    left.Distinct ∧ left.names ⊆ fields.map InputField.name := by
  induction fits with
  | done => simp [Members.Distinct, Members.names]
  | @supplied field rest left _ _ given _ found _ _ ih =>
    rw [List.map_cons, List.nodup_cons] at once
    obtain ⟨distinct, among⟩ := ih once.2
    have moved : left.names.Perm (field.name :: (left.remove field.name).names) :=
      (Members.perm_cons_remove found).map Prod.fst
    refine ⟨moved.nodup_iff.mpr (List.nodup_cons.mpr ⟨fun again => once.1 (among again), distinct⟩),
      fun name inside => ?_⟩
    rcases List.mem_cons.mp (moved.mem_iff.mp inside) with rfl | later
    · exact List.mem_cons_self
    · exact List.mem_cons_of_mem _ (among later)
  | filled _ _ _ ih | omitted _ _ _ _ ih =>
    rw [List.map_cons, List.nodup_cons] at once
    obtain ⟨distinct, among⟩ := ih once.2
    exact ⟨distinct, fun name inside => List.mem_cons_of_mem _ (among inside)⟩

/-- Fields that fit add their members in the order of the fields.

    Proof: induction on the fields. The first one sets a new member, and what is left to the
    later ones has the same value under their names. -/
theorem FitsFields.eq_append (fits : FitsFields fields left fitted result) (apart : Apart fields)
    (fresh : ∀ field ∈ fields, field.member ∉ fitted.names) :
    result = fitted ++ fields.filterMap fun field =>
      (fittedMember? field left).map (field.member, ·) := by
  have others {field : InputField ArgumentType} {rest : List (InputField ArgumentType)}
      (apart : Apart (field :: rest)) :
      Apart rest ∧ field.member ∉ rest.map InputField.member ∧
        field.name ∉ rest.map InputField.name := by
    obtain ⟨names, members⟩ := apart
    simp only [List.map_cons, List.nodup_cons] at names members
    exact ⟨⟨names.2, members.2⟩, members.1, names.1⟩
  induction fits with
  | done => simp
  | @supplied field rest left fitted result given one found coerced _ ih =>
    obtain ⟨apartLater, foreign, otherNames⟩ := others apart
    have untouched : ∀ next ∈ rest, (fittedMember? next (left.remove field.name)).map
        (next.member, ·) = (fittedMember? next left).map (next.member, ·) := by
      intro next inside
      have different : next.name ≠ field.name :=
        fun same => otherNames (same ▸ List.mem_map_of_mem inside)
      rw [fittedMember?, Members.value?_remove_of_ne _ different, fittedMember?]
    have own : fittedMember? field left = some one := by simp only [fittedMember?, found, coerced]
    rw [ih apartLater (fresh_put foreign fresh), List.filterMap_congr untouched,
      Members.put_of_not_mem _ (fresh field (by simp)), List.filterMap_cons_some (by rw [own]; rfl),
      List.append_assoc]
    rfl
  | @filled field rest left fitted result default absent known _ ih =>
    obtain ⟨apartLater, foreign, -⟩ := others apart
    have own : fittedMember? field left = some default := by
      simp only [fittedMember?, absent, known]
    rw [ih apartLater (fresh_put foreign fresh),
      Members.put_of_not_mem _ (fresh field (by simp)), List.filterMap_cons_some (by rw [own]; rfl),
      List.append_assoc]
    rfl
  | @omitted field rest left fitted result absent unknown _ _ ih =>
    obtain ⟨apartLater, -, -⟩ := others apart
    have own : fittedMember? field left = none := by simp only [fittedMember?, absent, unknown]
    rw [ih apartLater fun next inside => fresh next (by simp [inside]),
      List.filterMap_cons_none (by rw [own]; rfl)]

end ArgumentType

/-- A binding of a table has its member for itself. -/
def Binding.AloneIn (binding : Binding) (table : List Binding) : Prop :=
  binding ∈ table ∧ ∀ other ∈ table, other.member = binding.member → other = binding

namespace ArgumentSet

variable {field : String} {table : List Binding} {request : Request}
  {supplied : Option Variables} {arguments : ArgumentSet} {binding : Binding} {value : Value}
  {origin : Option String}

/-- The last binding of a member that meets a condition is the only binding of the member. -/
theorem exists_lastOf_of_alone {condition : Binding → Prop} (alone : binding.AloneIn table)
    (meets : condition binding) :
    ∃ after, LastOf condition table binding.member binding after := by
  obtain ⟨last, after, found⟩ :=
    exists_lastOf_iff.mpr ⟨binding, alone.1, rfl, meets⟩
  obtain ⟨before, listed⟩ := found.listed
  obtain rfl := alone.2 last (by simp [listed]) found.names
  exact ⟨after, found⟩

/-- What is chosen for a binding that has its member for itself is bound, as it fits the type. -/
theorem value?_of_alone (alone : binding.AloneIn table)
    (chosen : binding.Chooses request supplied value origin)
    (bound : bind field table request supplied = .ok arguments) :
    ∃ fitted, binding.type.coerce? value = some fitted ∧
      arguments.value? binding.member = some fitted := by
  obtain ⟨after, last⟩ := exists_lastOf_of_alone alone chosen.takes
  obtain ⟨fits, held⟩ := value?_of_lastOf last chosen (bind_ok bound).2
  obtain ⟨fitted, coerced⟩ := Option.isSome_iff_exists.mp fits
  exact ⟨fitted, coerced, held.trans coerced⟩

/-- It is recorded with the variable that it comes from, and only then with one. -/
theorem source?_of_alone (alone : binding.AloneIn table)
    (chosen : binding.Chooses request supplied value origin)
    (bound : bind field table request supplied = .ok arguments) :
    arguments.sources.value? binding.member = origin.map (⟨·, binding.type⟩) := by
  cases origin with
  | some name =>
    have written := (chosen.origin_eq_some_iff name).mp rfl
    obtain ⟨after, last⟩ := @exists_lastOf_of_alone _ _ (Binding.ReadsVariable request) alone
      ⟨name, written⟩
    obtain ⟨own, _, chosenToo, -, recorded⟩ := source?_of_lastOf last (bind_ok bound).2
    obtain ⟨-, same⟩ := chosen.unique chosenToo
    obtain rfl := Option.some.inj same
    exact recorded
  | none =>
    refine (source?_of_unread ?_ (bind_ok bound).2).trans rfl
    rintro other listed names ⟨name, written⟩
    obtain rfl := alone.2 other listed names
    cases (chosen.origin_eq_some_iff name).mpr written

end ArgumentSet

namespace Extension

variable {title : String} {shapes : Members Shape} {argument ending : String}
  {type : ScalarKind → ArgumentType} {field : String} {table : List Binding} {request : Request}
  {supplied : Option Variables} {arguments : ArgumentSet} {binding : Binding}
  {origin : Option String}

/-- The fields of an input object over the scalar members of a shape. -/
def scalarFields (shape : Shape) (type : ScalarKind → ArgumentType) :
    List (InputField ArgumentType) :=
  shape.scalarMembers.map fun (member, kind) => ⟨member, member, type kind⟩

/-- An object shape gives rise to one argument, of the input object over its scalar members. -/
theorem binding_of_mem_scalarBindings
    (own : binding ∈ scalarBindings (.object title shapes) argument ending type) :
    binding.member = argument ∧ binding.type = .input (title ++ ending)
      (scalarFields (.object title shapes) type) ArgumentType.optional := by
  obtain rfl : binding = _ := List.mem_singleton.mp own
  exact ⟨rfl, rfl⟩

/-- The scalar members of a shape are some of its members. -/
theorem names_scalarMembers_sublist (title : String) (shapes : Members Shape) :
    (Members.names (Shape.object title shapes).scalarMembers).Sublist shapes.names := by
  induction shapes with
  | nil => exact .slnil
  | cons head rest ih =>
    obtain ⟨name, shape⟩ := head
    cases shape with
    | scalar kind => exact ih.cons_cons name
    | _ => exact ih.cons name

/-- Among members of distinct names those of a scalar kind have distinct names. -/
theorem distinct_scalarMembers (distinct : shapes.Distinct) :
    Members.Distinct (Shape.object title shapes).scalarMembers :=
  List.Nodup.sublist (names_scalarMembers_sublist title shapes) distinct

/-- An input object that is made of the scalar members of a shape exposes and sets each name
    once. -/
theorem apart_scalarFields (distinct : shapes.Distinct) :
    ArgumentType.Apart (scalarFields (.object title shapes) type) := by
  have names := @distinct_scalarMembers title shapes distinct
  constructor
  · rw [scalarFields, List.map_map]
    exact names
  · rw [scalarFields, List.map_map]
    exact names

/-- The field of a scalar member. -/
theorem find?_scalarFields (distinct : shapes.Distinct) {name : String} {kind : ScalarKind}
    (scalar : (name, kind) ∈ (Shape.object title shapes).scalarMembers) :
    (scalarFields (.object title shapes) type).find? (·.member = name) =
      some ⟨name, name, type kind⟩ := by
  have found := Members.value?_of_mem (distinct_scalarMembers distinct) scalar
  rw [Members.value?_eq_find?, Option.map_eq_some_iff] at found
  obtain ⟨⟨other, own⟩, first, rfl⟩ := found
  obtain rfl : other = name := by simpa using List.find?_some first
  rw [scalarFields, List.find?_map]
  exact congrArg (Option.map _) first

/-- What is bound for an input object over the scalar members of a shape: the members that are
    written, fitted to their types, in the order of the shape. Only scalar members are accepted,
    and none of them twice. -/
theorem bound_scalarInput (distinct : shapes.Distinct)
    (plain : ∀ kind, (type kind).presence.default? = none)
    (own : binding ∈ scalarBindings (.object title shapes) argument ending type)
    (alone : binding.AloneIn table) {asked : Members Value}
    (chosen : binding.Chooses request supplied (.object asked) origin)
    (bound : ArgumentSet.bind field table request supplied = .ok arguments) :
    asked.Distinct ∧
      asked.names ⊆ Members.names (Shape.object title shapes).scalarMembers ∧
      (∀ name kind, (name, kind) ∈ (Shape.object title shapes).scalarMembers → ∀ value,
        asked.value? name = some value → ∃ one, (type kind).coerce? value = some one) ∧
      boundMembers arguments argument =
        (Shape.object title shapes).scalarMembers.filterMap fun (name, kind) =>
          ((asked.value? name).bind (type kind).coerce?).map (name, ·) := by
  obtain ⟨fitted, coerced, held⟩ := ArgumentSet.value?_of_alone alone chosen bound
  obtain ⟨named, typed⟩ := binding_of_mem_scalarBindings own
  rw [named] at held
  rw [typed] at coerced
  have apart := @apart_scalarFields title shapes type distinct
  have supplies := @ArgumentType.coerce?_isSome_of_object _ _ _ apart _ _ coerced
  cases ArgumentType.coerce?_iff.mp coerced with | object fits
  obtain ⟨once, among⟩ := fits.names_left apart.names
  refine ⟨once, ?_, ?_, ?_⟩
  · simpa [scalarFields, Members.names, List.map_map, Function.comp_def] using among
  · intro name kind listed value given
    exact Option.isSome_iff_exists.mp
      (@supplies ⟨name, name, type kind⟩ (List.mem_map.mpr ⟨_, listed, rfl⟩) value given)
  · have made := fits.eq_append apart (by simp [Members.names])
    rw [boundMembers, held]
    simp only [Option.bind_some, Value.members?, Option.getD_some, made, List.nil_append,
      scalarFields, List.filterMap_map]
    refine List.filterMap_congr fun pair _ => ?_
    obtain ⟨name, kind⟩ := pair
    simp only [Function.comp_apply, ArgumentType.fittedMember?]
    cases asked.value? name with
    | none => simp [plain]
    | some value => rfl

end Extension

end StagedQuery
