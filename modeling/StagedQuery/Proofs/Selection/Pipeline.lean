import Mathlib.Data.List.Perm.Basic
import StagedQuery.Proofs.ListHooks
import StagedQuery.Proofs.Selection.Growth
import StagedQuery.Selection.Pass

/-!
# What a list field selects

The extensions of a list field run in the order in which they are registered: a filter and a
sort rewrite the source, a page cuts what is selected. With arguments that are written out
the order does not matter. Items may be dropped before or after a stable sort, and nothing
else meets: so a full pass selects the members of the items that pass the filter, in the
order of the sort, and cuts the page out of that.
-/

namespace StagedQuery

open Extension

/-! ## Pipelines -/

/-- The extensions around a list selection that a field carries, each of them at most once. -/
structure Pipeline where
  filters : Bool
  sorts : Bool
  /-- The default and the maximum size of a page. -/
  pages? : Option (Option Nat × Option Nat)

/-- An extension that does nothing around a selection. -/
structure Extension.Idle (extension : Extension) : Prop where
  beforeSelection : extension.beforeSelection = Adjustment.none
  afterSelection : extension.afterSelection = Adjustment.none

namespace Pipeline

variable {α β : Type} {pipeline : Pipeline}

/-- One part for each extension that is carried. -/
def parts (pipeline : Pipeline) (filter sort : α) (page : Option Nat × Option Nat → α) : List α :=
  (if pipeline.filters then [filter] else []) ++ (if pipeline.sorts then [sort] else []) ++
    (pipeline.pages?.map page).toList

/-- The extensions themselves, in one order. -/
def extensions (pipeline : Pipeline) : List Extension :=
  pipeline.parts .filter .sort fun sizes => .paging sizes.1 sizes.2

/-- Extensions that are those of a pipeline, in any order and among others that do nothing
    around a selection. -/
def Carried (pipeline : Pipeline) (extensions : List Extension) : Prop :=
  ∃ others, (∀ extension ∈ others, extension.Idle) ∧
    extensions.Perm (pipeline.extensions ++ others)

/-- The parts of a pipeline are related one by one if those for each extension are. -/
theorem forall₂_parts {related : α → β → Prop} {filter sort : α} {filter' sort' : β}
    {page : Option Nat × Option Nat → α} {page' : Option Nat × Option Nat → β}
    (filters : pipeline.filters = true → related filter filter')
    (sorts : pipeline.sorts = true → related sort sort')
    (pages : ∀ sizes ∈ pipeline.pages?, related (page sizes) (page' sizes)) :
    List.Forall₂ related (pipeline.parts filter sort page)
      (pipeline.parts filter' sort' page') := by
  obtain ⟨filtering, sorting, pages?⟩ := pipeline
  refine List.rel_append (List.rel_append ?_ ?_) ?_
  · cases filtering with
    | true => exact .cons (filters rfl) .nil
    | false => exact .nil
  · cases sorting with
    | true => exact .cons (sorts rfl) .nil
    | false => exact .nil
  · cases pages? with
    | some sizes => exact .cons (pages sizes rfl) .nil
    | none => exact .nil

/-- A part of a pipeline is its filter, its sort or a page of its sizes. -/
theorem mem_parts {filter sort part : α} {page : Option Nat × Option Nat → α}
    (inside : part ∈ pipeline.parts filter sort page) :
    part = filter ∨ part = sort ∨ ∃ sizes ∈ pipeline.pages?, part = page sizes := by
  obtain ⟨filtering, sorting, pages?⟩ := pipeline
  simp only [parts, List.mem_append] at inside
  rcases inside with (inside | inside) | inside
  · cases filtering <;> simp_all
  · cases sorting <;> simp_all
  · cases pages? <;> simp_all

/-! ## What a pipeline does to items -/

/-- The items that pass the filter. -/
def kept (pipeline : Pipeline) (arguments : ArgumentSet) (items : List Value) : List Value :=
  if pipeline.filters then items.filter (hasWanted (boundMembers arguments "filter")) else items

/-- The members that items are sorted by, each with its direction. -/
def sortKeys (pipeline : Pipeline) (arguments : ArgumentSet) : List (String × Direction) :=
  if pipeline.sorts then sortedMembers arguments else []

/-- Items in the order of the sort. -/
def ordered (pipeline : Pipeline) (arguments : ArgumentSet) (items : List Value) : List Value :=
  items.mergeSort (standsBefore (pipeline.sortKeys arguments))

/-- The page of some results. -/
def paged (pipeline : Pipeline) (arguments : ArgumentSet) (results : List Value) : List Value :=
  match pipeline.pages? with
  | some (default, maximum) => pageOf default maximum arguments results
  | none => results

variable {field : String} {arguments : ArgumentSet} {extensions : List Extension}
  {pick : Extension → Adjustment} {usable : Value → Prop}
  {filter sort : List Value → List Value}
  {page : Option Nat × Option Nat → List Value → List Value}

/-- The actions of a pipeline, in one order. -/
def run (pipeline : Pipeline) (filter sort : List Value → List Value)
    (page : Option Nat × Option Nat → List Value → List Value) (items : List Value) :
    List Value :=
  (pipeline.parts filter sort page).foldl (fun left action => action left) items

/-- The hooks of carried extensions act on lists like the pipeline, in whatever order they are
    registered, if their actions commute.

    Proof: the actions are moved to where the extensions are registered. Actions that commute
    do together what they do in any other order. -/
theorem Carried.actsOnItems (carried : pipeline.Carried extensions)
    (idle : ∀ extension : Extension, extension.Idle → pick extension = Adjustment.none)
    (each : List.Forall₂ (fun extension action =>
      ActsOnItems (pick extension field arguments) usable action ∧ ∀ items, action items ⊆ items)
      pipeline.extensions (pipeline.parts filter sort page))
    (commute : ∀ first ∈ pipeline.parts filter sort page,
      ∀ second ∈ pipeline.parts filter sort page, ∀ items,
        first (second items) = second (first items)) :
    ActsOnItems (adjustAll pick field arguments extensions) usable
      (pipeline.run filter sort page) := by
  obtain ⟨others, silent, perm⟩ := carried
  have nothing : List.Forall₂ (fun extension action =>
      ActsOnItems (pick extension field arguments) usable action ∧ ∀ items, action items ⊆ items)
      others (others.map fun _ => id) := by
    rw [List.forall₂_map_right_iff, List.forall₂_same]
    intro extension inside
    rw [idle extension (silent extension inside)]
    exact ⟨actsOnItems_none field arguments, fun items => List.Subset.refl items⟩
  obtain ⟨actions, registered, moved⟩ :=
    List.perm_comp_forall₂ perm (List.rel_append each nothing)
  have same (items : List Value) : actions.foldl (fun left action => action left) items =
      pipeline.run filter sort page items := by
    have any : ∀ first ∈ actions, ∀ second ∈ actions, ∀ items,
        second (first items) = first (second items) := by
      intro first inside second insideToo items
      rcases List.mem_append.mp (moved.mem_iff.mp inside) with inside | inside
      · rcases List.mem_append.mp (moved.mem_iff.mp insideToo) with insideToo | insideToo
        · exact commute second insideToo first inside items
        · obtain ⟨_, -, rfl⟩ := List.mem_map.mp insideToo
          rfl
      · obtain ⟨_, -, rfl⟩ := List.mem_map.mp inside
        rfl
    rw [moved.foldl_eq' any, List.foldl_append, List.foldl_map]
    exact List.foldl_fixed _
  rw [← funext same]
  exact actsOnItems_adjustAll registered

/-- The page of a pipeline is carried. -/
theorem Carried.mem_of_pages (carried : pipeline.Carried extensions)
    {sizes : Option Nat × Option Nat} (pages : sizes ∈ pipeline.pages?) :
    paging sizes.1 sizes.2 ∈ extensions := by
  obtain ⟨others, -, perm⟩ := carried
  refine perm.mem_iff.mpr (List.mem_append_left _ (List.mem_append_right _ ?_))
  rw [show pipeline.pages? = some sizes from pages]
  exact List.mem_singleton_self _

/-- Before the selection carried extensions keep the items that pass the filter and put them in
    order. -/
theorem Carried.actsOnItems_before (carried : pipeline.Carried extensions) (field : String)
    (known : arguments.sources.value? "filter" = none)
    (distinct : (boundMembers arguments "filter").Distinct) {all : List Value}
    (comparable : ∀ key ∈ pipeline.sortKeys arguments, Comparable (all.map (·.member key.1))) :
    ActsOnItems (adjustAll beforeSelection field arguments extensions) (· ∈ all)
      fun items => pipeline.ordered arguments (pipeline.kept arguments items) := by
  let keep := List.filter (hasWanted (boundMembers arguments "filter"))
  let order := fun items : List Value => items.mergeSort (standsBefore (sortedMembers arguments))
  have commutes (items : List Value) : order (keep items) = keep (order items) :=
    (filter_mergeSort (totalPreorder_standsBefore _) _ items).symm
  have same : pipeline.run keep order (fun _ => id) =
      fun items => pipeline.ordered arguments (pipeline.kept arguments items) := by
    funext items
    obtain ⟨filtering, sorting, pages?⟩ := pipeline
    cases filtering <;> cases sorting <;> cases pages? <;>
      simp [run, parts, ordered, kept, sortKeys, keep, order, mergeSort_standsBefore_nil]
  rw [← same]
  refine carried.actsOnItems (fun extension idle => idle.beforeSelection) ?_ ?_
  · refine forall₂_parts (fun _ => ?_) (fun sorts => ?_) fun sizes _ => ?_
    · exact ⟨actsOnItems_filterSource field known distinct, fun items => List.filter_sublist.subset⟩
    · rw [sortKeys, if_pos sorts] at comparable
      exact ⟨actsOnItems_sortSource field comparable, fun items => (List.mergeSort_perm _ _).subset⟩
    · exact ⟨actsOnItems_none field arguments, fun items => List.Subset.refl items⟩
  · intro first inside second insideToo items
    rcases mem_parts inside with rfl | rfl | ⟨_, -, rfl⟩ <;>
      rcases mem_parts insideToo with rfl | rfl | ⟨_, -, rfl⟩ <;>
      first | rfl | exact commutes items | exact (commutes items).symm

/-- After the selection carried extensions cut the page, if it is accepted. -/
theorem Carried.actsOnItems_after (carried : pipeline.Carried extensions)
    (accepted : ∀ sizes ∈ pipeline.pages?,
      (paging sizes.1 sizes.2).validate field arguments = .ok ()) :
    ActsOnItems (adjustAll afterSelection field arguments extensions) usable
      (pipeline.paged arguments) := by
  have same : pipeline.run id id (fun sizes => pageOf sizes.1 sizes.2 arguments) =
      pipeline.paged arguments := by
    funext items
    obtain ⟨filtering, sorting, pages?⟩ := pipeline
    cases filtering <;> cases sorting <;> cases pages? <;> rfl
  rw [← same]
  refine carried.actsOnItems (fun extension idle => idle.afterSelection) ?_ ?_
  · refine forall₂_parts (fun _ => ?_) (fun _ => ?_) fun sizes pages => ?_
    · exact ⟨actsOnItems_none field arguments, fun items => List.Subset.refl items⟩
    · exact ⟨actsOnItems_none field arguments, fun items => List.Subset.refl items⟩
    · exact ⟨actsOnItems_pageSelection (accepted sizes pages), fun items => pageOf_subset items⟩
  · intro first inside second insideToo items
    rcases mem_parts inside with rfl | rfl | ⟨sizes, pages, rfl⟩ <;>
      rcases mem_parts insideToo with rfl | rfl | ⟨sizesToo, pagesToo, rfl⟩ <;> try rfl
    obtain rfl : sizes = sizesToo := Option.some.inj (pages.symm.trans pagesToo)
    rfl

end Pipeline

/-! ## The full pass -/

/-- The object that is selected of each item of a list field. -/
def Field.itemObject (field : Field) (element : Placeholder) (members : Members Expr) : Expr :=
  .object (element.shape.objectName?.getD field.name) members

/-- A full pass contributes of a list field nothing if no member is selected, and else the map
    of the members over the adjusted source, adjusted again. -/
theorem Outline.contribute_list_full (field : Field) (element : Placeholder)
    (children : List Outline) (base? : Option Placeholder) (supply : Nat) :
    let source := adjustAll beforeSelection field.name field.arguments field.extensions
      (field.relocate base? .full field.expr) supply
    let below := contributeAll .full none children source.2
    let members := Members.firsts below.1
    (contribute .full base? (.selection field element true children) supply).1 =
      if members.isEmpty then []
      else [(field.name, (adjustAll afterSelection field.name field.arguments field.extensions
        (.map source.1 element (field.itemObject element members)) below.2).1)] := by
  intro source below members
  simp only [contribute, PassOptions.full, Field.drawSource, Bool.false_and, Bool.false_eq_true,
    ↓reduceIte, Option.bind_none, Drawing.run_bind, Drawing.run_pure, Bool.not_false,
    Bool.and_true]
  split
  · rename_i none
    exact (if_pos none).symm
  · rename_i some
    exact (if_neg some).symm

/-- A full pass over a list field whose arguments are written out selects the members of the
    items that pass the filter, in the order of the sort, and cuts the page out of that, in
    whatever order the extensions are registered. -/
theorem Pipeline.full_pass_value {pipeline : Pipeline} {tree : SelectionTree}
    {definition : FieldDefinition} {request : Request} {supplied : Option Variables}
    {field : Field} (carried : pipeline.Carried definition.extensions)
    (literal : request.Literal)
    (bound : tree.bindArguments definition request supplied = .ok field.arguments)
    (named : field.name = definition.name) (registered : field.extensions = definition.extensions)
    (element : Placeholder) (children : List Outline) (base? : Option Placeholder)
    (supply : Nat) :
    ∃ middle,
      let members := Members.firsts (Outline.contributeAll .full none children middle).1
      let contributed :=
        ((Outline.selection field element true children).contribute .full base? supply).1
      (members = [] ∧ contributed = []) ∨
      ∃ value, contributed = [(field.name, value)] ∧ ∀ provider env items result,
        ((field.relocate base? .full field.expr).evaluate provider env).result =
            .ok (.list items) →
        (∀ key ∈ pipeline.sortKeys field.arguments,
          Comparable (items.map (·.member key.1))) →
        (∀ item ∈ pipeline.kept field.arguments items,
          ((field.itemObject element members).evaluate provider (env.bind element item)).result =
            .ok (result item)) →
        (value.evaluate provider env).result = .ok (.list (pipeline.paged field.arguments
          ((pipeline.ordered field.arguments (pipeline.kept field.arguments items)).map
            result))) := by
  obtain ⟨plain, made, arguments⟩ := SelectionTree.bindArguments_ok bound
  have known : field.arguments.sources.value? "filter" = none := by
    rw [arguments]
    exact ArgumentSet.source?_of_literal literal made "filter"
  have distinct : (boundMembers field.arguments "filter").Distinct := by
    rw [arguments]
    exact distinct_boundMembers made "filter"
  have accepted : ∀ sizes ∈ pipeline.pages?,
      (paging sizes.1 sizes.2).validate definition.name field.arguments = .ok () :=
    fun sizes pages => SelectionTree.accepted_of_bindArguments bound _ (carried.mem_of_pages pages)
  rw [← named] at accepted
  rw [← registered] at carried
  refine ⟨(adjustAll beforeSelection field.name field.arguments field.extensions
    (field.relocate base? .full field.expr) supply).2, ?_⟩
  intro members contributed
  have gathered := Outline.contribute_list_full field element children base? supply
  cases empty : members.isEmpty with
  | true => exact .inl ⟨List.isEmpty_iff.mp empty, gathered.trans (if_pos empty)⟩
  | false =>
    have selects : ¬members.isEmpty = true := Bool.eq_false_iff.mp empty
    refine .inr ⟨_, gathered.trans (if_neg selects), ?_⟩
    intro provider env items result listed comparable each
    have source := carried.actsOnItems_before field.name known distinct comparable _ supply provider
      env items listed fun item inside => inside
    -- Only kept items reach the map, so that nothing is asked of the members of the others.
    refine carried.actsOnItems_after accepted _ _ provider env _ ?_ fun _ _ => trivial
    refine result_map source fun item inside => each item ?_
    exact (List.mergeSort_perm _ _).mem_iff.mp inside

/-- A list of films with a page, a sort and a filter, registered in this order. -/
def pagedFilms : FieldDefinition :=
  (((FieldDefinition.ofMember "films" (.list (.object "Film"
    [("id", .scalar .int), ("title", .scalar .string), ("year", .scalar .int)]))).withExtension
      (.paging (some 5) none)).withExtension .sort).withExtension .filter

/-- The latest film of a title. -/
def latestFilm : Request :=
  ⟨[("filter", .literal (.object [("title", .string "Heat")])),
    ("sort", .literal (.object [("year", .string "DESC")])), ("take", .literal (.int 1))]⟩

/-- The arguments of the latest film. -/
def latestFilmArguments (slot : Placeholder) : ArgumentSet :=
  ⟨[("take", .int 1), ("sort", .object [("year", .enumeration "DESC")]),
    ("filter", .object [("title", .string "Heat")])], [], some slot⟩

/-- The films as they are selected over a tree, each with the placeholder of a film. -/
def latestFilmField (tree : SelectionTree) (element : Placeholder) : Field where
  name := "films"
  kind := .list element
  expr := (Expr.read tree.root).get "films"
  context := tree.root
  extensions := pagedFilms.extensions
  arguments := latestFilmArguments tree.variablesSlot

/-- The number of a film. -/
def filmNumber (element : Placeholder) : Field where
  name := "id"
  kind := .scalar
  expr := (Expr.read element).get "id"
  context := element

/-- A film with its number, its title and its year. -/
def filmItem (id : Int64) (title : String) (year : Int64) : Value :=
  .object [("id", .int id), ("title", .string title), ("year", .int year)]

/-- Of three films the two of the title are kept, the later one comes first, and the page ends
    there. -/
theorem full_pass_value_latestFilm :
    let tree := (drawSelectionTree .any 0).1
    let element : Placeholder := ⟨2, "films", .any⟩
    let field := latestFilmField tree element
    let films := [filmItem 1 "Heat" 1986, filmItem 2 "Ronin" 1998, filmItem 3 "Heat" 1995]
    tree.bindArguments pagedFilms latestFilm none = .ok field.arguments ∧
      ∃ value, ((Outline.selection field element true [.scalar (filmNumber element)]).contribute
          .full none 3).1 = [("films", value)] ∧
        (value.evaluate Provider.none [(0, .object [("films", .list films)])]).result =
          .ok (.list [.object [("id", .int 3)]]) := by
  intro tree element field films
  let pipeline : Pipeline := ⟨true, true, some (some 5, none)⟩
  have carried : pipeline.Carried pagedFilms.extensions := by
    refine ⟨[], by simp, ?_⟩
    exact (List.Perm.swap Extension.sort _ _).trans
      (((List.Perm.swap Extension.filter _ _).cons _).trans (List.Perm.swap Extension.filter _ _))
  have literal : latestFilm.Literal := by simp [Request.Literal, latestFilm]
  have bound : tree.bindArguments pagedFilms latestFilm none = .ok field.arguments := rfl
  have kept : pipeline.kept field.arguments films =
      [filmItem 1 "Heat" 1986, filmItem 3 "Heat" 1995] := rfl
  have ordered : pipeline.ordered field.arguments (pipeline.kept field.arguments films) =
      [filmItem 3 "Heat" 1995, filmItem 1 "Heat" 1986] := by
    have later : standsBefore (pipeline.sortKeys field.arguments) (filmItem 1 "Heat" 1986)
        (filmItem 3 "Heat" 1995) = false := by decide
    rw [kept, Pipeline.ordered]
    simp [List.mergeSort, later]
  obtain ⟨middle, ⟨empty, -⟩ | ⟨value, contributed, evaluates⟩⟩ :=
    Pipeline.full_pass_value carried literal bound rfl rfl element
      [.scalar (filmNumber element)] none 3
  · cases empty
  · refine ⟨bound, value, contributed, ?_⟩
    have page := evaluates Provider.none [(0, .object [("films", .list films)])] films
      (fun item => .object [("id", item.member "id")]) rfl ?_ ?_
    · rwa [ordered] at page
    · intro key inside
      obtain rfl : key = ("year", .descending) := List.mem_singleton.mp inside
      refine .inl fun value inside => .inr ?_
      obtain ⟨film, among, rfl⟩ := List.mem_map.mp inside
      have years : ∀ film ∈ films, ∃ year, film.member "year" = .int year := by
        simp [films, filmItem, Value.member, Members.value?]
      exact years film among
    · intro item inside
      rfl

end StagedQuery
