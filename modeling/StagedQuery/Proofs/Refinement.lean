import Mathlib.Data.List.Forall2
import StagedQuery.Proofs.Extension

/-!
# Outcomes that refine others

One outcome refines another if it succeeds with the same value wherever the other does,
and starts no call that the other does not start, in the same order. The refinement is
exact if it starts all of them. Nothing is said of outcomes where the other fails.

A list of results that is cut is refined by the results of the list that is cut first: the
items that were dropped are not evaluated at all.
-/

namespace StagedQuery

variable {α β γ : Type} {exact : Prop}

/-- Wherever an outcome succeeds, another succeeds with the same value and calls that are
    among its calls, or all of them if the refinement is exact. -/
def Outcome.Refines (exact : Prop) (refined outcome : Outcome α) : Prop :=
  ∀ value, outcome.result = .ok value →
    refined.result = .ok value ∧ refined.log.Sublist outcome.log ∧
      (exact → refined.log = outcome.log)

namespace Outcome

/-- Every outcome refines itself exactly. -/
theorem refines_refl (outcome : Outcome α) : Refines exact outcome outcome := by
  intro value succeeded
  exact ⟨succeeded, List.Sublist.refl _, fun _ => rfl⟩

/-- Equal outcomes refine each other. -/
theorem refines_of_eq {refined outcome : Outcome α} (same : refined = outcome) :
    Refines exact refined outcome := by
  rw [same]
  exact refines_refl outcome

/-- Refinements may be chained; the calls of the first are then among those of the last. -/
theorem Refines.trans {first second third : Outcome α} (refines : Refines exact first second)
    (further : Refines exact second third) : Refines exact first third := by
  intro value succeeded
  obtain ⟨middle, fewer, same⟩ := further value succeeded
  obtain ⟨result, least, alike⟩ := refines value middle
  refine ⟨result, least.trans fewer, ?_⟩
  intro all
  exact (alike all).trans (same all)

/-- Sequences refine each other part by part. -/
theorem Refines.bind {refined outcome : Outcome α} {next later : α → Outcome β}
    (refines : Refines exact refined outcome)
    (rest : ∀ value, Refines exact (next value) (later value)) :
    Refines exact (refined >>= next) (outcome >>= later) := by
  intro value succeeded
  obtain ⟨middle, first, second⟩ := bind_result_eq_ok.mp succeeded
  obtain ⟨result, fewer, same⟩ := refines middle first
  obtain ⟨resultToo, fewerToo, sameToo⟩ := rest middle value second
  have whole := bind_result_eq_ok.mpr ⟨middle, result, resultToo⟩
  refine ⟨whole, ?_, ?_⟩
  · rw [bind_log result, bind_log first]
    exact fewer.append fewerToo
  · intro all
    rw [bind_log result, bind_log first, same all, sameToo all]

/-- A refined outcome stays refined when the values of both change in one way. -/
theorem Refines.map {refined outcome : Outcome α} (refines : Refines exact refined outcome)
    (change : α → β) : Refines exact (change <$> refined) (change <$> outcome) := by
  rw [map_eq_pure_bind, map_eq_pure_bind]
  exact refines.bind fun value => refines_refl _

/-- Whatever comes first may be left out if its value is not used. -/
theorem Refines.after {refined outcome : Outcome α} (refines : Refines False refined outcome)
    (first : Outcome β) : Refines False refined (first >>= fun _ => outcome) := by
  intro value succeeded
  obtain ⟨unused, before, second⟩ := bind_result_eq_ok.mp succeeded
  obtain ⟨result, fewer, -⟩ := refines value second
  refine ⟨result, ?_, False.elim⟩
  rw [bind_log before]
  exact fewer.trans (List.sublist_append_right _ _)

/-- A plain value refines every outcome that can have no other value. -/
theorem refines_pure {value : α} {outcome : Outcome α}
    (only : ∀ other, outcome.result = .ok other → other = value) :
    Refines False (pure value) outcome := by
  intro other succeeded
  obtain rfl := only other succeeded
  exact ⟨rfl, List.nil_sublist _, False.elim⟩

end Outcome

open Outcome

/-! ## Results for the items of a list -/

section Items

variable {body : Value → Outcome α}

/-- Results refine results item by item. -/
theorem refines_mapItems {body : Value → Outcome β} {later : Value → Outcome β}
    {items others : List Value}
    (each : List.Forall₂ (fun item other => Refines exact (later other) (body item)) items others) :
    Refines exact (mapItems later others) (mapItems body items) := by
  induction each with
  | nil => exact refines_refl _
  | cons head tail ih =>
    simp only [mapItems]
    exact head.bind fun first => ih.bind fun rest => refines_refl _

/-- To evaluate fewer items from the front is a refinement of dropping their results. -/
theorem refines_mapItems_drop (count : Nat) (items : List Value) :
    Refines False (mapItems body (items.drop count)) (List.drop count <$> mapItems body items) := by
  induction items generalizing count with
  | nil => cases count <;> exact refines_refl _
  | cons item rest ih =>
    cases count with
    | zero =>
      simp only [List.drop_zero]
      exact refines_of_eq (id_map _).symm
    | succ count =>
      simp only [List.drop_succ_cons, mapItems, map_bind, map_pure]
      have later := (ih count).after (body item)
      rwa [map_eq_pure_bind] at later

/-- To evaluate the first items only is a refinement of dropping the results of the others. -/
theorem refines_mapItems_take (count : Nat) (items : List Value) :
    Refines False (mapItems body (items.take count)) (List.take count <$> mapItems body items) := by
  induction items generalizing count with
  | nil => cases count <;> exact refines_refl _
  | cons item rest ih =>
    cases count with
    | zero =>
      apply refines_pure
      intro other succeeded
      obtain ⟨results, -, same⟩ := map_result_eq_ok.mp succeeded
      exact same.symm
    | succ count =>
      simp only [List.take_succ_cons, mapItems, map_bind, map_pure]
      apply (refines_refl (body item)).bind
      intro first
      have later := (ih count).map (first :: ·)
      simp only [map_eq_pure_bind, bind_assoc, pure_bind] at later
      exact later

/-- The results of a cut list refine the cut results. -/
theorem refines_mapItems_cutOnce (cut : Cut) (items : List Value) :
    Refines False (mapItems body (cutOnce cut items)) (cutOnce cut <$> mapItems body items) := by
  obtain ⟨skip, _ | count⟩ := cut
  · exact refines_mapItems_drop skip items
  · have taken := (refines_mapItems_take count (items.drop skip)).trans
      ((@refines_mapItems_drop _ body skip items).map (List.take count))
    rwa [← comp_map] at taken

/-- Without cuts the refinement is exact. -/
theorem refines_mapItems_cutItems (cuts : List Cut) (whole : exact → cuts = [])
    (items : List Value) :
    Refines exact (mapItems body (cutItems cuts items))
      (cutItems cuts <$> mapItems body items) := by
  have fewer : Refines False (mapItems body (cutItems cuts items))
      (cutItems cuts <$> mapItems body items) := by
    clear whole
    induction cuts generalizing items with
    | nil => exact refines_of_eq (id_map _).symm
    | cons cut rest ih =>
      have cutFirst := (ih (cutOnce cut items)).trans
        ((@refines_mapItems_cutOnce _ body cut items).map (cutItems rest))
      rwa [← comp_map] at cutFirst
  intro value succeeded
  obtain ⟨result, sublist, -⟩ := fewer value succeeded
  refine ⟨result, sublist, ?_⟩
  intro all
  obtain rfl := whole all
  exact congrArg Outcome.log (id_map _).symm

end Items

/-- Items whose results are plain values, each with its result. -/
theorem forall₂_of_mapItems {body : Value → Outcome Value} {items results : List Value}
    (evaluated : mapItems body items = pure results) :
    List.Forall₂ (fun item result => body item = pure result) items results := by
  induction items generalizing results with
  | nil =>
    obtain rfl := pure_inj.mp evaluated
    exact .nil
  | cons item rest ih =>
    simp only [mapItems] at evaluated
    obtain ⟨first, head, remaining⟩ := bind_eq_pure.mp evaluated
    obtain ⟨others, tail, joined⟩ := bind_eq_pure.mp remaining
    obtain rfl := pure_inj.mp joined
    exact .cons head (ih tail)

/-- Items of which each has a result, each with its result. -/
theorem forall₂_of_mapItems_ok {body : Value → Outcome Value} {items results : List Value}
    (mapped : (mapItems body items).result = .ok results) :
    List.Forall₂ (fun item result => (body item).result = .ok result) items results := by
  induction items generalizing results with
  | nil =>
    obtain rfl := Except.ok.inj mapped
    exact .nil
  | cons item rest ih =>
    simp only [mapItems] at mapped
    obtain ⟨first, head, later⟩ := bind_result_eq_ok.mp mapped
    obtain ⟨others, tail, joined⟩ := bind_result_eq_ok.mp later
    obtain rfl := Except.ok.inj joined
    exact .cons head (ih tail)

/-- Every item of the second of two related lists is related to one of the first. -/
theorem exists_of_mem_forall₂ {α β : Type} {related : α → β → Prop} {first : List α}
    {second : List β} (each : List.Forall₂ related first second) {right : β}
    (inside : right ∈ second) : ∃ left ∈ first, related left right := by
  induction each with
  | nil => cases inside
  | cons head _ ih =>
    rcases List.mem_cons.mp inside with rfl | deeper
    · exact ⟨_, List.mem_cons_self, head⟩
    · obtain ⟨left, listed, own⟩ := ih deeper
      exact ⟨left, List.mem_cons_of_mem _ listed, own⟩

/-- Items with the same outcomes have the same results. -/
theorem mapItems_eq_of_forall₂ {body later : Value → Outcome α} {items others : List Value}
    (each : List.Forall₂ (fun item other => later other = body item) items others) :
    mapItems later others = mapItems body items := by
  induction each with
  | nil => rfl
  | cons head tail ih => simp only [mapItems, head, ih]

/-- Lists that correspond item by item do so after the same cuts. -/
theorem forall₂_cutItems {related : Value → Value → Prop} (cuts : List Cut)
    {items others : List Value} (each : List.Forall₂ related items others) :
    List.Forall₂ related (cutItems cuts items) (cutItems cuts others) := by
  induction cuts generalizing items others with
  | nil => exact each
  | cons cut rest ih =>
    apply ih
    obtain ⟨skip, count?⟩ := cut
    have dropped := List.forall₂_drop skip each
    cases count? with
    | none => exact dropped
    | some count => exact List.forall₂_take count dropped

end StagedQuery
