import StagedQuery.Proofs.Argument.Coercion
import StagedQuery.Proofs.Argument.Structure
import StagedQuery.Proofs.Refinement

/-!
# Coercion is idempotent

A coerced value fits its type again, and coercion leaves it as it is. An integer that became an
identifier is a string by then, a string that became an enumeration value is listed, a single value
is already the only item of its list, and the members of an input object stand in the order of the
fields.

Members are taken by the names of fields and set by their member names, so the fields must be
members under their own names. A default is set as it was declared, and must fit its own field.
-/

namespace StagedQuery.ArgumentType

/-- Input objects whose members can be supplied again: the fields have distinct names and are
    members under them, and what each sets by default fits as it is. -/
structure Settled (fields : List (InputField ArgumentType)) : Prop where
  names : (fields.map InputField.name).Nodup
  members : ∀ field ∈ fields, field.member = field.name
  defaults : DefaultsSatisfy (fun type default => type.coerce? default = some default) fields

namespace Settled

variable {field : InputField ArgumentType} {rest : List (InputField ArgumentType)}

/-- The fields after the first are settled if all fields are. -/
theorem tail (settled : Settled (field :: rest)) : Settled rest where
  names := (List.nodup_cons.mp settled.names).2
  members := (List.forall_mem_cons.mp settled.members).2
  defaults := (List.forall_mem_cons.mp settled.defaults).2

/-- The fields have distinct members as well. -/
theorem distinct {fields : List (InputField ArgumentType)} (settled : Settled fields) :
    (fields.map InputField.member).Nodup := by
  rw [List.map_congr_left settled.members]
  exact settled.names

/-- No later field has the member of the first. -/
theorem not_mem (settled : Settled (field :: rest)) :
    field.member ∉ rest.map InputField.member :=
  (List.nodup_cons.mp settled.distinct).1

end Settled

/-- A field sets again what it has set, if its type leaves that as it is and if later fields set
    again what they have. -/
theorem FitsFields.again_cons {field : InputField ArgumentType}
    {rest : List (InputField ArgumentType)} {left fitted result added : Members Value} {one : Value}
    (later : FitsFields rest left (fitted.put field.member one) result)
    (split : result = fitted ++ added) (settled : Settled (field :: rest))
    (fresh : ∀ next ∈ field :: rest, next.member ∉ fitted.names)
    (kept : field.type.coerce? one = some one)
    (again : ∀ {more}, result = fitted.put field.member one ++ more →
      FitsFields rest more (fitted.put field.member one) result) :
    FitsFields (field :: rest) added fitted result := by
  obtain ⟨more, same, -⟩ := later.exists_added settled.tail.distinct
    (fresh_put settled.not_mem fresh)
  have own := again same
  rw [Members.put_of_not_mem one (fresh field (by simp)), split] at same
  obtain rfl : added = (field.member, one) :: more := by simpa using same
  have found : Members.value? ((field.member, one) :: more) field.name = some one := by
    simp [Members.value?, settled.members field (by simp)]
  refine .supplied found kept ?_
  simpa [Members.remove, settled.members field (by simp)] using own

/-- The members that fields have added are what the same fields add if they are supplied again.

    Proof: induction on the fields. What the first field has added comes first, under its own
    name, and later fields have added only members of theirs. So the first field takes it out of
    what is left and sets it again, or finds nothing again and has no default. -/
theorem FitsFields.again {fields : List (InputField ArgumentType)}
    {left fitted result added : Members Value} (fits : FitsFields fields left fitted result)
    (split : result = fitted ++ added) (settled : Settled fields)
    (fresh : ∀ field ∈ fields, field.member ∉ fitted.names)
    (stable : ∀ field ∈ fields, ∀ given one, field.type.coerce? given = some one →
      field.type.coerce? one = some one) :
    FitsFields fields added fitted result := by
  induction fits generalizing added with
  | done =>
    obtain rfl := List.self_eq_append_right.mp split
    exact .done
  | @supplied field rest left fitted result given one found coerced later ih =>
    rw [List.forall_mem_cons] at stable
    exact later.again_cons split settled fresh (stable.1 given one coerced)
      fun same => ih same settled.tail (fresh_put settled.not_mem fresh) stable.2
  | @filled field rest left fitted result default absent known later ih =>
    rw [List.forall_mem_cons] at stable
    exact later.again_cons split settled fresh (settled.defaults field (by simp) default known)
      fun same => ih same settled.tail (fresh_put settled.not_mem fresh) stable.2
  | @omitted field rest left fitted result absent unknown optional later ih =>
    have others : ∀ next ∈ rest, next.member ∉ fitted.names :=
      fun next inside => fresh next (List.mem_cons_of_mem _ inside)
    have own := ih split settled.tail others fun next inside =>
      stable next (List.mem_cons_of_mem _ inside)
    obtain ⟨more, same, ordered⟩ := later.exists_added settled.tail.distinct others
    obtain rfl : more = added := List.append_cancel_left (same.symm.trans split)
    have missing : Members.value? more field.name = none := by
      rw [← Option.not_isSome_iff_eq_none, Members.value?_isSome_iff,
        ← settled.members field (by simp)]
      exact fun inside => settled.not_mem (ordered.subset inside)
    exact .omitted missing unknown optional own

/-- Coercion to a type whose input objects can all be supplied again is idempotent: what it makes
    of a value fits the type as it is.

    Proof: induction on the type. -/
theorem coerce?_idempotent (type : ArgumentType) (value fitted : Value)
    (settled : ∀ fields ∈ type.inputObjects, Settled fields)
    (coerced : type.coerce? value = some fitted) : type.coerce? fitted = some fitted := by
  induction type using ArgumentType.induction generalizing value fitted with
  | scalar kind presence =>
    cases coerce?_iff.mp coerced with
    | null => exact coerced
    | scalar fits =>
      refine coerce?_iff.mpr (.scalar ?_)
      unfold coerceScalar? at fits
      split at fits <;> cases fits <;> rfl
  | enumeration name values presence =>
    cases coerce?_iff.mp coerced with
    | null => exact coerced
    | listed fits =>
      obtain ⟨name, listed, rfl⟩ := exists_name_of_coerceName? fits
      exact coerce?_iff.mpr (.listed (by simp [coerceName?, listed]))
  | input name fields presence ih =>
    cases coerce?_iff.mp coerced with
    | null => exact coerced
    | object fits =>
      rw [forall_inputObjects_input] at settled
      obtain ⟨own, below⟩ := settled
      refine coerce?_iff.mpr (.object (fits.again rfl own (by simp [Members.names]) ?_))
      exact fun field listed given one fitsField => ih field listed given one (below field listed)
        fitsField
  | list item presence ih =>
    cases coerce?_iff.mp coerced with
    | null => exact coerced
    | items each =>
      refine coerce?_iff.mpr (.items (List.forall₂_same.mpr fun result inside => ?_))
      obtain ⟨one, -, fits⟩ := exists_of_mem_forall₂ each inside
      exact ih one result settled fits
    | single present alone fits =>
      exact coerce?_iff.mpr (.items (.cons (ih _ _ settled fits) .nil))

/-- A list of films: an identifier, the genres and the year, which may be left out. -/
def filmsInput : ArgumentType :=
  .list (.input "FilmInput" [
    ⟨"id", "id", .scalar .id ⟨true, none⟩⟩,
    ⟨"genres", "genres", .list (.enumeration "Genre" ["DRAMA", "WESTERN"] optional) optional⟩,
    ⟨"year", "year", .scalar .int ⟨false, some (.int 2000)⟩⟩] optional) optional

/-- One film becomes a list with its identifier a string, its genre an enumeration value in a list
    and its year filled in, and the list is coerced to itself. -/
theorem coerce?_filmsInput :
    ∃ fitted, filmsInput.coerce? (.object [("genres", .string "DRAMA"), ("id", .int 5)]) =
        some fitted ∧
      fitted = .list [.object [("id", .string "5"), ("genres", .list [.enumeration "DRAMA"]),
        ("year", .int 2000)]] ∧
      filmsInput.coerce? fitted = some fitted := by
  have settled : ∀ fields ∈ filmsInput.inputObjects, Settled fields := by
    simp only [filmsInput, inputObjects, inputObjectsBelow, List.append_nil,
      List.forall_mem_singleton]
    refine ⟨by decide, by simp, ?_⟩
    simp [DefaultsSatisfy, presence, optional, coerce?, coerceScalar?, Value.isNull]
  have coerced : filmsInput.coerce? (.object [("genres", .string "DRAMA"), ("id", .int 5)]) =
      some (.list [.object [("id", .string "5"), ("genres", .list [.enumeration "DRAMA"]),
        ("year", .int 2000)]]) := by
    have text : Value.intText 5 = "5" := by decide
    rw [← text]
    rfl
  exact ⟨_, coerced, rfl, coerce?_idempotent filmsInput _ _ settled coerced⟩

end StagedQuery.ArgumentType
