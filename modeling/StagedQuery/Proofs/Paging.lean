import StagedQuery.Proofs.Extension

/-!
# Pages

The counts that paging accepts, and the items that a page has. A requested size is checked
against the maximum; the default size is not, and it comes before the maximum when no size is
requested. So the maximum bounds every page of accepted arguments exactly if a size is
requested or the default does not exceed it.
-/

namespace StagedQuery.Extension

variable {field : String} {arguments : ArgumentSet} {default maximum : Option Nat} {most : Nat}

/-! ## Counts -/

/-- A count that is not negative is a natural number. -/
theorem natural?_of_nonneg {count : Int64} (counts : 0 ≤ count) :
    natural? count = some count.toInt.toNat :=
  if_neg (Int64.not_lt.mpr counts)

/-- A count passes the check exactly if it is missing or not negative. -/
theorem refuseNegative_eq_ok_iff {member : String} :
    refuseNegative field arguments member = .ok () ↔
      ∀ count, boundInt? arguments member = some count → 0 ≤ count := by
  unfold refuseNegative
  cases boundInt? arguments member with
  | none => simp
  | some count => simp

/-- A size that is not negative is refused exactly if it exceeds the maximum. -/
theorem refuseLargePage_eq_ok_iff
    (counts : ∀ size, boundInt? arguments "take" = some size → 0 ≤ size) :
    refuseLargePage field arguments maximum = .ok () ↔
      ∀ size, boundInt? arguments "take" = some size →
        ∀ most ∈ maximum, size.toInt.toNat ≤ most := by
  unfold refuseLargePage
  cases requested : boundInt? arguments "take" with
  | none => simp
  | some size =>
    cases maximum with
    | none => simp
    | some most =>
      simp [natural?_of_nonneg (counts size requested)]

/-- The arguments that paging accepts: no count is negative, and a requested size does not
    exceed the maximum. -/
theorem validate_paging_iff :
    (paging default maximum).validate field arguments = .ok () ↔
      (∀ count, boundInt? arguments "skip" = some count → 0 ≤ count) ∧
      (∀ size, boundInt? arguments "take" = some size → 0 ≤ size) ∧
      ∀ size, boundInt? arguments "take" = some size →
        ∀ most ∈ maximum, size.toInt.toNat ≤ most := by
  have inTurn (first second third : Except CompileFault Unit) :
      (do first; second; third) = .ok () ↔ first = .ok () ∧ second = .ok () ∧ third = .ok () := by
    rcases first with _ | ⟨⟩ <;> rcases second with _ | ⟨⟩ <;> simp [bind, Except.bind]
  change (do
    refuseNegative field arguments "skip"
    refuseNegative field arguments "take"
    refuseLargePage field arguments maximum) = .ok () ↔ _
  rw [inTurn, refuseNegative_eq_ok_iff, refuseNegative_eq_ok_iff]
  refine and_congr_right fun _ => and_congr_right fun counts => ?_
  exact refuseLargePage_eq_ok_iff counts

/-! ## The items of a page -/

/-- How many items stand before a page. -/
def skipped (arguments : ArgumentSet) : Nat :=
  ((boundInt? arguments "skip").map fun count => count.toInt.toNat).getD 0

/-- The first of the requested, the default and the maximum size that is given. -/
def firstSize (default maximum : Option Nat) (arguments : ArgumentSet) : Option Nat :=
  (((boundInt? arguments "take").map fun size => size.toInt.toNat).or default).or maximum

/-- What is on a page. -/
def pageOf {α : Type} (default maximum : Option Nat) (arguments : ArgumentSet) (items : List α) :
    List α :=
  cutOnce (skipped arguments, firstSize default maximum arguments) items

/-- On a page there are items of the list only. -/
theorem pageOf_subset {α : Type} (items : List α) :
    pageOf default maximum arguments items ⊆ items := by
  unfold pageOf cutOnce
  split
  · exact ((List.take_sublist _ _).trans (List.drop_sublist _ _)).subset
  · exact (List.drop_sublist _ _).subset

/-- As many items are skipped as were asked for, and none by default. -/
theorem skipped_eq (counts : ∀ count, boundInt? arguments "skip" = some count → 0 ≤ count) :
    ((boundInt? arguments "skip").bind natural?).getD 0 = skipped arguments := by
  unfold skipped
  cases skip : boundInt? arguments "skip" with
  | none => rfl
  | some count =>
    rw [Option.bind_some, natural?_of_nonneg (counts count skip)]
    rfl

/-- The size of a page is the requested one, or else the default, or else the maximum. -/
theorem pageSize_eq (sizes : ∀ size, boundInt? arguments "take" = some size → 0 ≤ size) :
    pageSize arguments default maximum = firstSize default maximum arguments := by
  unfold pageSize firstSize
  cases take : boundInt? arguments "take" with
  | none => rfl
  | some size => simp [natural?_of_nonneg (sizes size take)]

/-- With accepted arguments, what is made of a selection that is a list has the items of the
    page. -/
theorem result_pageSelection
    (accepted : (paging default maximum).validate field arguments = .ok ()) {selection : Expr}
    {provider : Provider} {env : Environment} {items : List Value}
    (listed : (selection.evaluate provider env).result = .ok (.list items)) (supply : Nat) :
    ((pageSelection default maximum field arguments selection supply).1.evaluate provider
      env).result = .ok (.list (pageOf default maximum arguments items)) := by
  obtain ⟨counts, sizes, -⟩ := validate_paging_iff.mp accepted
  simp only [pageSelection, Drawing.run_pure, skipped_eq counts, pageSize_eq sizes]
  split
  · rename_i whole
    rw [pageOf, whole.1, whole.2]
    exact listed
  · rw [Expr.evaluate_slice, Outcome.bind_result_eq_ok]
    exact ⟨.list items, listed, rfl⟩

/-- A page has at most as many items as its size. -/
theorem length_cutOnce_le {α : Type} (skip size : Nat) (items : List α) :
    (cutOnce (skip, some size) items).length ≤ size :=
  List.length_take_le _ _

/-- A page of a list that is long enough has as many. -/
theorem length_cutOnce_replicate {α : Type} (skip size : Nat) (item : α) :
    (cutOnce (skip, some size) (List.replicate (skip + size) item)).length = size := by
  simp [cutOnce]

/-- Whether the maximum bounds the pages of accepted arguments, whatever is selected: it does
    exactly if a size is requested or no default exceeds it. -/
theorem page_bounded_iff
    (accepted : (paging default (some most)).validate field arguments = .ok ()) :
    (∀ selection supply provider env items,
      (selection.evaluate provider env).result = .ok (.list items) →
        ∃ page, (((paging default (some most)).afterSelection field arguments selection
            supply).1.evaluate provider env).result = .ok (.list page) ∧ page.length ≤ most) ↔
      (boundInt? arguments "take").isSome = true ∨ ∀ size ∈ default, size ≤ most := by
  constructor
  · intro bounded
    refine or_iff_not_imp_left.mpr fun unrequested size standsIn => ?_
    have sized : firstSize default (some most) arguments = some size := by
      rw [firstSize, show boundInt? arguments "take" = none by simpa using unrequested,
        show default = some size from standsIn]
      rfl
    let items := List.replicate (skipped arguments + size) Value.null
    have listed : ((Expr.constant (.list items)).evaluate Provider.none []).result =
        .ok (.list items) := rfl
    obtain ⟨page, cutOut, short⟩ := bounded _ 0 _ _ _ listed
    cases cutOut.symm.trans (result_pageSelection accepted listed 0)
    rwa [pageOf, sized, length_cutOnce_replicate] at short
  · intro small selection supply provider env items listed
    refine ⟨_, result_pageSelection accepted listed supply, ?_⟩
    obtain ⟨-, -, fits⟩ := validate_paging_iff.mp accepted
    rw [pageOf, firstSize]
    cases requested : boundInt? arguments "take" with
    | some size =>
      exact Nat.le_trans (length_cutOnce_le _ _ _) (fits size requested most rfl)
    | none =>
      cases default with
      | none => exact length_cutOnce_le _ _ _
      | some size =>
        refine Nat.le_trans (length_cutOnce_le _ _ _) ?_
        simpa [requested] using small

/-- Where the default is three and the maximum is one, a request without arguments is
    accepted, and its pages may have more than one item. -/
theorem page_unbounded_by_default :
    ∃ arguments, ArgumentSet.bind "films" ((paging (some 3) (some 1)).bindings .any) .empty none =
        .ok arguments ∧
      (paging (some 3) (some 1)).validate "films" arguments = .ok () ∧
      ¬∀ selection supply provider env items,
        (selection.evaluate provider env).result = .ok (.list items) →
          ∃ page, (((paging (some 3) (some 1)).afterSelection "films" arguments selection
              supply).1.evaluate provider env).result = .ok (.list page) ∧ page.length ≤ 1 := by
  have accepted : (paging (some 3) (some 1)).validate "films" .empty = .ok () := rfl
  refine ⟨.empty, rfl, accepted, ?_⟩
  rw [page_bounded_iff accepted]
  decide

end StagedQuery.Extension
