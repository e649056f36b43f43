import StagedQuery.Proofs.Refinement
import StagedQuery.Proofs.Selection.Meaning

/-!
# What a selection shows

The meaning of an outline is laid out as the outline is. Every visible field stands in it
under its own name, in the order of the selection, and nothing else does, at every level of
objects and lists. So whatever evaluates to the meaning of an outline exposes no member that
was not selected, in particular none of those that one stage leaves for the next.
-/

namespace StagedQuery

open Outcome

/-! ## Values from which members were selected -/

/-- A value of objects whose members are as a predicate says: null, one object, or a list of
    objects. -/
def Value.MadeOf (members : List (String × Value) → Prop) (isList : Bool) (value : Value) : Prop :=
  value = .null ∨
    if isList then ∃ items, value = .list items ∧
      ∀ item ∈ items, ∃ pairs, item = .ofPairs pairs ∧ members pairs
    else ∃ pairs, value = .ofPairs pairs ∧ members pairs

/-- What was selected from a value: null from null, what the body makes of the value, or what it
    makes of each item of a list. -/
theorem selectFrom_cases {isList : Bool} {body : Value → Outcome Value} {source result : Value}
    (selected : (selectFrom isList body source).result = .ok result) :
    (source = .null ∧ result = .null) ∨
      (source ≠ .null ∧ isList = false ∧ (body source).result = .ok result) ∨
      ∃ items results, source = .list items ∧ isList = true ∧ result = .list results ∧
        List.Forall₂ (fun item result => (body item).result = .ok result) items results := by
  by_cases null : source = .null
  · subst null
    rw [selectFrom_null] at selected
    exact .inl ⟨rfl, (Except.ok.inj selected).symm⟩
  · right
    cases isList with
    | false =>
      rw [selectFrom_of_ne_null null] at selected
      exact .inl ⟨null, rfl, selected⟩
    | true =>
      cases source with
      | list items =>
        rw [selectFrom_list] at selected
        obtain ⟨results, mapped, rfl⟩ := map_result_eq_ok.mp selected
        exact .inr ⟨items, results, rfl, rfl, rfl, forall₂_of_mapItems_ok mapped⟩
      | null => exact absurd rfl null
      | bool | int | float | string | enumeration | object => cases selected

section MadeOf

variable {members : List (String × Value) → Prop} {isList : Bool} {value : Value}

/-- What is selected from a value is made of the objects that the body makes. -/
theorem madeOf_selectFrom {body : Value → Outcome (List (String × Value))}
    (each : ∀ item pairs, (body item).result = .ok pairs → members pairs) {source : Value}
    (selected : (selectFrom isList (fun item => Value.ofPairs <$> body item) source).result =
      .ok value) : value.MadeOf members isList := by
  have objects (item result : Value)
      (made : (Value.ofPairs <$> body item).result = .ok result) :
      ∃ pairs, result = .ofPairs pairs ∧ members pairs := by
    obtain ⟨pairs, found, rfl⟩ := map_result_eq_ok.mp made
    exact ⟨pairs, rfl, each item pairs found⟩
  rcases selectFrom_cases selected with
    ⟨-, rfl⟩ | ⟨-, rfl, made⟩ | ⟨items, results, -, rfl, rfl, each⟩
  · exact .inl rfl
  · exact .inr (objects source value made)
  · refine .inr ⟨results, rfl, fun result inside => ?_⟩
    obtain ⟨item, -, made⟩ := exists_of_mem_forall₂ each inside
    exact objects item result made

/-- A cut leaves items that were there. -/
theorem mem_of_mem_cutItems {α : Type} {cuts : List Cut} {items : List α} {item : α}
    (inside : item ∈ cutItems cuts items) : item ∈ items := by
  induction cuts generalizing items with
  | nil => exact inside
  | cons cut rest ih =>
    have kept : item ∈ cutOnce cut items := ih inside
    obtain ⟨skip, _ | count⟩ := cut
    · exact List.mem_of_mem_drop kept
    · exact List.mem_of_mem_drop (List.mem_of_mem_take kept)

/-- Cuts change no object. -/
theorem Value.MadeOf.cut (made : value.MadeOf members isList) {cuts : List Cut} {result : Value}
    (cut : (cutValue cuts value).result = .ok result) : result.MadeOf members isList := by
  rcases made with rfl | laid
  · rw [cutValue_null] at cut
    exact .inl (Except.ok.inj cut).symm
  · right
    cases isList with
    | false =>
      obtain ⟨pairs, rfl, shown⟩ := laid
      obtain ⟨-, rfl⟩ := cutValue_object cut
      exact ⟨pairs, rfl, shown⟩
    | true =>
      obtain ⟨items, rfl, each⟩ := laid
      rw [cutValue_list] at cut
      exact ⟨_, (Except.ok.inj cut).symm, fun item inside => each item (mem_of_mem_cutItems inside)⟩

end MadeOf

namespace Outline

/-! ## Named values that are laid out as an outline -/

mutual

/-- Whether named values are laid out as an outline: those of its visible fields, with
    objects that are laid out as the members below. -/
def Shows : Outline → List (String × Value) → Prop
  | .scalar field, pairs => ∃ value, pairs = [(field.name, value)]
  | .selection field _ isList children, pairs =>
    if (visibleAll children).isEmpty then pairs = []
    else ∃ value, pairs = [(field.name, value)] ∧ value.MadeOf (ShowsAll children) isList
  | .spread _ fields, pairs => ShowsAll fields pairs
  | .endless, pairs => pairs = []

/-- Whether named values are laid out as some outlines, in order. -/
def ShowsAll : List Outline → List (String × Value) → Prop
  | [], pairs => pairs = []
  | first :: rest, pairs =>
    ∃ own others, pairs = own ++ others ∧ Shows first own ∧ ShowsAll rest others

end

variable {outline : Outline} {outlines : List Outline} {pairs : List (String × Value)}

/-- What is laid out as some outlines has their visible names, if that holds of each. -/
theorem names_of_showsAll
    (each : ∀ outline ∈ outlines, ∀ pairs, outline.Shows pairs →
      pairs.map Prod.fst = outline.visible)
    (shows : ShowsAll outlines pairs) : pairs.map Prod.fst = visibleAll outlines := by
  induction outlines generalizing pairs with
  | nil =>
    obtain rfl : pairs = [] := by simpa only [ShowsAll] using shows
    rfl
  | cons first rest ih =>
    simp only [ShowsAll] at shows
    obtain ⟨own, others, rfl, here, there⟩ := shows
    rw [List.map_append, visibleAll, each first (by simp) own here,
      ih (fun outline inside => each outline (by simp [inside])) there]

/-- What is laid out as an outline has the visible names and no others. -/
theorem names_of_shows (shows : outline.Shows pairs) : pairs.map Prod.fst = outline.visible := by
  induction outline using Outline.induction generalizing pairs with
  | scalar field =>
    simp only [Shows] at shows
    obtain ⟨value, rfl⟩ := shows
    rfl
  | selection field element isList children below =>
    simp only [Shows] at shows
    simp only [visible]
    split at shows <;> rename_i hidden
    · rw [if_pos hidden, shows, List.map_nil]
    · obtain ⟨value, rfl, -⟩ := shows
      rw [if_neg hidden, List.map_cons, List.map_nil]
  | spread field fields below =>
    simp only [Shows] at shows
    exact names_of_showsAll (fun child inside pairs => below child inside) shows
  | endless =>
    simp only [Shows] at shows
    rw [shows]
    rfl

variable {frame : Frame} {value : Value}

/-- What outlines mean is laid out as they are, if that holds of each. -/
theorem showsAll_of_meaningAll
    (each : ∀ outline ∈ outlines, ∀ pairs, (outline.meaning frame value).result = .ok pairs →
      outline.Shows pairs)
    (means : (meaningAll frame outlines value).result = .ok pairs) : ShowsAll outlines pairs := by
  induction outlines generalizing pairs with
  | nil =>
    simp only [ShowsAll]
    exact (Except.ok.inj means).symm
  | cons first rest ih =>
    simp only [meaningAll] at means
    obtain ⟨own, head, later⟩ := bind_result_eq_ok.mp means
    obtain ⟨others, tail, joined⟩ := bind_result_eq_ok.mp later
    simp only [ShowsAll]
    exact ⟨own, others, (Except.ok.inj joined).symm, each first (by simp) own head,
      ih (fun outline inside => each outline (by simp [inside])) tail⟩

/-- The meaning of an outline is laid out as the outline.

    Proof: induction on the outline. What is selected from a source is made of objects that are
    laid out as the members, and cuts change no object. -/
theorem shows_of_meaning (means : (outline.meaning frame value).result = .ok pairs) :
    outline.Shows pairs := by
  induction outline using Outline.induction generalizing value pairs with
  | scalar field =>
    simp only [meaning] at means
    obtain ⟨result, -, same⟩ := bind_result_eq_ok.mp means
    simp only [Shows]
    exact ⟨result, (Except.ok.inj same).symm⟩
  | selection field element isList children below =>
    simp only [meaning] at means
    simp only [Shows]
    split at means <;> rename_i hidden
    · rw [if_pos hidden]
      exact (Except.ok.inj means).symm
    · rw [if_neg hidden]
      obtain ⟨source, -, later⟩ := bind_result_eq_ok.mp means
      obtain ⟨selected, found, rest⟩ := bind_result_eq_ok.mp later
      obtain ⟨result, cut, same⟩ := bind_result_eq_ok.mp rest
      have made : selected.MadeOf (ShowsAll children) isList :=
        madeOf_selectFrom (fun item pairs means =>
          showsAll_of_meaningAll (fun child inside pairs => below child inside) means) found
      exact ⟨result, (Except.ok.inj same).symm, made.cut cut⟩
  | spread field fields below =>
    simp only [meaning] at means
    simp only [Shows]
    exact showsAll_of_meaningAll (fun child inside pairs => below child inside) means
  | endless =>
    simp only [Shows]
    exact (Except.ok.inj means).symm

end Outline

end StagedQuery
