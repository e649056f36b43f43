import StagedQuery.Proofs.Selection.ClosedStages
import StagedQuery.Proofs.Selection.Parametric
import StagedQuery.Proofs.Selection.Staging

/-!
# Spreads written out

A tree is written out if every spread is replaced by the fields of its fragment, at the place
of the spread and all the way down. The fields are then written over the owner of the spread
instead of the fragment.

Nothing that selections mean looks at spreads, and parametric resolvers do not look at their
context. So both trees mean the same in every stage, and their compiled queries have the same
outcomes.
-/

namespace StagedQuery

open Outcome

/-! ## Outlines without spreads -/

namespace Outline

/-- Some outlines are others with all spreads written out, where the fields of both are related
    one to one. -/
inductive WrittenOut (related : Field → Field → Prop) : List Outline → List Outline → Prop where
  | nil : WrittenOut related [] []
  | scalar {field field' : Field} {rest rest' : List Outline} (same : related field field')
      (later : WrittenOut related rest rest') :
      WrittenOut related (.scalar field :: rest) (.scalar field' :: rest')
  | selection {field field' : Field} {element element' : Placeholder} {isList : Bool}
      {children children' rest rest' : List Outline} (same : related field field')
      (below : WrittenOut related children children') (later : WrittenOut related rest rest') :
      WrittenOut related (.selection field element isList children :: rest)
        (.selection field' element' isList children' :: rest')
  | spread {field : Field} {fields rest rest' : List Outline}
      (within : WrittenOut related (fields ++ rest) rest') :
      WrittenOut related (.spread field fields :: rest) rest'

/-! ### What follows in a selection -/

/-- Names are visible part by part. -/
theorem visibleAll_append (left right : List Outline) :
    visibleAll (left ++ right) = visibleAll left ++ visibleAll right := by
  induction left with
  | nil => rfl
  | cons first rest ih => simp [visibleAll, ih]

/-- The first part decides on services unless it calls none. -/
theorem anyServices?_append (left right : List Outline) :
    anyServices? (left ++ right) =
      match anyServices? left with
      | some false => anyServices? right
      | answer => answer := by
  induction left with
  | nil => rfl
  | cons first rest ih =>
    simp only [List.cons_append, anyServices?, ih]
    cases first.hasServices? with
    | none => rfl
    | some calls => cases calls <;> rfl

variable {frame frame' : Frame} {outlines outlines' : List Outline}

/-- Outlines mean together what their parts mean in turn. -/
theorem meaningAll_append (left right : List Outline) (value : Value) :
    meaningAll frame (left ++ right) value =
      meaningAll frame left value >>= fun own =>
        meaningAll frame right value >>= fun others => pure (own ++ others) := by
  induction left with
  | nil => simp [meaningAll]
  | cons first rest ih =>
    simp only [List.cons_append, meaningAll, ih, bind_assoc, pure_bind, List.append_assoc]

/-- In two stages, too, outlines mean together what their parts mean in turn. -/
theorem stagedAll_append (left right : List Outline) (value : Value) :
    stagedAll frame (left ++ right) value =
      stagedAll frame left value >>= fun own =>
        stagedAll frame right value >>= fun others => pure (own ++ others) := by
  induction left with
  | nil => simp [stagedAll]
  | cons first rest ih =>
    simp only [List.cons_append, stagedAll, ih, bind_assoc, pure_bind, List.append_assoc]

/-- Outlines are prepared part by part. -/
theorem preparedAll_append (left right : List Outline) (value : Value) :
    preparedAll frame (left ++ right) value =
      preparedAll frame left value >>= fun _ => preparedAll frame right value := by
  induction left with
  | nil => simp [preparedAll]
  | cons first rest ih => simp [preparedAll, ih]

/-! ### Selections that are written out -/

section WrittenOut

variable (written : WrittenOut (frame.SeesAlike frame') outlines outlines')
include written

/-- The same names are visible. -/
theorem WrittenOut.visibleAll : visibleAll outlines = visibleAll outlines' := by
  induction written with
  | nil => rfl
  | scalar same _ ih => simp [Outline.visibleAll, visible, same.name, ih]
  | selection same _ _ below ih => simp [Outline.visibleAll, visible, same.name, below, ih]
  | @spread field fields rest rest' _ ih =>
    rwa [visibleAll_append] at ih

/-- A service is called in both selections or in neither. -/
theorem WrittenOut.anyServices? : anyServices? outlines = anyServices? outlines' := by
  induction written with
  | nil => rfl
  | scalar same _ ih => simp [Outline.anyServices?, hasServices?, same.callsService, ih]
  | selection same _ _ below ih =>
    simp [Outline.anyServices?, hasServices?, same.callsService, below, ih]
  | @spread field fields rest rest' _ ih =>
    rwa [anyServices?_append] at ih

/-- Both selections mean the same. -/
theorem WrittenOut.meaningAll (value : Value) :
    meaningAll frame outlines value = meaningAll frame' outlines' value := by
  induction written generalizing value with
  | nil => rfl
  | scalar same _ ih =>
    simp only [Outline.meaningAll, meaning, same.name, same.valueOf, same.onScalar, ih]
  | selection same below _ belowMeans ih =>
    simp only [Outline.meaningAll, meaning, same.name, same.valueOf, same.before, same.cuts,
      below.visibleAll, belowMeans, ih]
  | @spread field fields rest rest' _ ih =>
    rw [← ih, meaningAll_append]
    rfl

/-- In two stages both selections mean the same. -/
theorem WrittenOut.stagedAll (value : Value) :
    stagedAll frame outlines value = stagedAll frame' outlines' value := by
  induction written generalizing value with
  | nil => rfl
  | scalar same _ ih =>
    simp only [Outline.stagedAll, staged, meaning, same.name, same.valueOf, same.onScalar, ih]
  | selection same below _ belowMeans ih =>
    simp only [Outline.stagedAll, staged, meaning, same.name, same.callsService, same.valueOf,
      same.before, same.cuts, below.visibleAll, below.meaningAll, belowMeans, ih]
  | @spread field fields rest rest' _ ih =>
    rw [← ih, stagedAll_append]
    rfl

/-- The first stage does the same for both selections. -/
theorem WrittenOut.preparedAll (value : Value) :
    preparedAll frame outlines value = preparedAll frame' outlines' value := by
  induction written generalizing value with
  | nil => rfl
  | scalar same _ ih =>
    simp only [Outline.preparedAll, prepared, same.callsService, same.valueOf, same.onScalar, ih]
  | selection same below _ belowDoes ih =>
    simp only [Outline.preparedAll, prepared, same.callsService, same.valueOf, same.before,
      same.cuts, below.visibleAll, below.anyServices?, belowDoes, ih]
  | @spread field fields rest rest' _ ih =>
    rw [← ih, preparedAll_append]
    rfl

end WrittenOut

end Outline

/-! ## Trees without spreads -/

namespace SelectionTree

/-- Some fields of a tree are written out as fields of another tree: every field becomes one
    that selects the same definition with the same arguments, with its own fields written out
    below it, and every spread becomes what the fields of its fragment become, at its place. -/
inductive WritesOut (offers : FieldDefinition → Prop) (tree tree' : SelectionTree) :
    List Address → List Address → Prop where
  | nil : WritesOut offers tree tree' [] []
  | field {address address' : Address} {field field' : Field} {definition : FieldDefinition}
      {plain : ArgumentSet} {rest rest' : List Address}
      (stored : tree.field? address = some field) (stored' : tree'.field? address' = some field')
      (known : offers definition) (selects : field.Selects definition plain tree.variablesSlot)
      (selects' : field'.Selects definition plain tree'.variablesSlot)
      (below : WritesOut offers tree tree' field.children field'.children)
      (later : WritesOut offers tree tree' rest rest') :
      WritesOut offers tree tree' (address :: rest) (address' :: rest')
  | spread {address fragment : Address} {field : Field} {rest rest' : List Address}
      (stored : tree.field? address = some field) (kind : field.kind = .spread fragment)
      (within : WritesOut offers tree tree' (tree.fragmentFields fragment ++ rest) rest') :
      WritesOut offers tree tree' (address :: rest) rest'

variable {offers : FieldDefinition → Prop} {tree tree' : SelectionTree}
  {addresses addresses' : List Address}

/-- Outlines of some fields, each within a bound of its own. -/
def Outlined (tree : SelectionTree) : List Address → List Outline → Prop :=
  List.Forall₂ fun address outline =>
    ∃ bound opened, tree.outlineWithin bound opened address = some outline

/-- Fields that the tree holds have outlines. -/
theorem outlined_filterMap (stored : ∀ address ∈ addresses, (tree.field? address).isSome = true)
    (bound : Nat) (opened : List Address) :
    tree.Outlined addresses (addresses.filterMap (tree.outlineWithin bound opened)) := by
  induction addresses with
  | nil => exact .nil
  | cons address rest ih =>
    have later := ih fun other inside => stored other (by simp [inside])
    obtain ⟨field, known⟩ := Option.isSome_iff_exists.mp (stored address (by simp))
    obtain ⟨outline, made⟩ := exists_outlineWithin known bound opened
    rw [List.filterMap_cons_some made]
    exact .cons ⟨bound, opened, made⟩ later

/-- Both trees hold the fields that are written out and what they are written out as. -/
theorem WritesOut.stored (writes : WritesOut offers tree tree' addresses addresses') :
    (∀ address ∈ addresses, (tree.field? address).isSome = true) ∧
      ∀ address ∈ addresses', (tree'.field? address).isSome = true := by
  induction writes with
  | nil => simp
  | field stored stored' _ _ _ _ _ _ ih =>
    constructor
    · intro other inside
      rcases List.mem_cons.mp inside with rfl | deeper
      · simp [stored]
      · exact ih.1 other deeper
    · intro other inside
      rcases List.mem_cons.mp inside with rfl | deeper
      · simp [stored']
      · exact ih.2 other deeper
  | spread stored _ _ ih =>
    refine ⟨?_, ih.2⟩
    intro other inside
    rcases List.mem_cons.mp inside with rfl | deeper
    · simp [stored]
    · exact ih.1 other (List.mem_append_right _ deeper)

/-- The outline of a field that comes to an end: a spread of a fragment, otherwise a selection
    or a scalar. -/
theorem outline_of_finite {bound : Nat} {opened : List Address} {address : Address}
    {field : Field} {outline : Outline} (stored : tree.field? address = some field)
    (outlined : tree.outlineWithin bound opened address = some outline)
    (finite : outline.isFinite false = true) :
    ∃ bound opened,
      (∀ fragment, field.kind = .spread fragment → outline = .spread field
        ((tree.fragmentFields fragment).filterMap (tree.outlineWithin bound opened))) ∧
      ((∀ fragment, field.kind ≠ .spread fragment) →
        (∀ element, field.element? = some element →
          outline = .selection field element (selectsList field)
            (field.children.filterMap (tree.outlineWithin bound opened))) ∧
        (field.element? = none → outline = .scalar field)) := by
  cases bound with
  | zero =>
    obtain rfl := Option.some.inj outlined
    cases finite
  | succ bound =>
    simp only [outlineWithin, stored, Option.map_some, Option.some.injEq] at outlined
    split at outlined
    · subst outlined
      cases finite
    · refine ⟨bound, address :: opened, ?_, ?_⟩
      · intro fragment kind
        rw [kind] at outlined
        exact outlined.symm
      · intro noSpread
        split at outlined
        · rename_i fragment kind
          exact absurd kind (noSpread fragment)
        · rename_i element members _
          simp [members, outlined]
        · rename_i none _
          simp [none, outlined]

/-- The outlines of fields that are written out are written out. -/
theorem WritesOut.writtenOut {related : Field → Field → Prop}
    (writes : WritesOut offers tree tree' addresses addresses') {outlines outlines' : List Outline}
    (outlined : tree.Outlined addresses outlines) (outlined' : tree'.Outlined addresses' outlines')
    (finite : ∀ outline ∈ outlines, outline.isFinite false = true)
    (finite' : ∀ outline ∈ outlines', outline.isFinite false = true)
    (each : ∀ address address' field field' definition plain,
      tree.field? address = some field → tree'.field? address' = some field' →
      offers definition → field.Selects definition plain tree.variablesSlot →
      field'.Selects definition plain tree'.variablesSlot → related field field') :
    Outline.WrittenOut related outlines outlines' := by
  induction writes generalizing outlines outlines' with
  | nil =>
    cases outlined
    cases outlined'
    exact .nil
  | @field address address' field field' definition plain rest rest' stored stored' known selects
      selects' below _ ihBelow ihLater =>
    obtain ⟨outline, others, ⟨bound, opened, made⟩, later, rfl⟩ :=
      List.forall₂_cons_left_iff.mp outlined
    obtain ⟨outline', others', ⟨bound', opened', made'⟩, later', rfl⟩ :=
      List.forall₂_cons_left_iff.mp outlined'
    simp only [List.mem_cons, forall_eq_or_imp] at finite finite'
    have same := each _ _ _ _ _ _ stored stored' known selects selects'
    have remaining := ihLater later later' finite.2 finite'.2
    obtain ⟨noSpread, members, lists⟩ := selects.kinds selects'
    obtain ⟨bound, opened, -, shape⟩ := outline_of_finite stored made finite.1
    obtain ⟨bound', opened', -, shape'⟩ := outline_of_finite stored' made' finite'.1
    have forms := shape fun fragment => (noSpread fragment).1
    have forms' := shape' fun fragment => (noSpread fragment).2
    cases selected : field.element? with
    | none =>
      have selected' : field'.element? = none := by
        rwa [selected, eq_comm, Option.isSome_none, Option.isSome_eq_false_iff,
          Option.isNone_iff_eq_none] at members
      obtain rfl := forms.2 selected
      obtain rfl := forms'.2 selected'
      exact .scalar same remaining
    | some element =>
      obtain ⟨element', selected'⟩ : ∃ element', field'.element? = some element' := by
        rw [← Option.isSome_iff_exists, ← members, selected, Option.isSome_some]
      obtain rfl := forms.1 element selected
      obtain rfl := forms'.1 element' selected'
      rw [lists]
      have ends := Outline.allFinite_iff.mp (by simpa [Outline.isFinite] using finite.1)
      have ends' := Outline.allFinite_iff.mp (by simpa [Outline.isFinite] using finite'.1)
      exact .selection same (ihBelow (outlined_filterMap below.stored.1 bound opened)
        (outlined_filterMap below.stored.2 bound' opened') ends ends') remaining
  | @spread address fragment field rest rest' stored kind within ih =>
    obtain ⟨outline, others, ⟨bound, opened, made⟩, later, rfl⟩ :=
      List.forall₂_cons_left_iff.mp outlined
    simp only [List.mem_cons, forall_eq_or_imp] at finite
    obtain ⟨bound, opened, shape, -⟩ := outline_of_finite stored made finite.1
    obtain rfl := shape fragment kind
    have ends := Outline.allFinite_iff.mp (by simpa [Outline.isFinite] using finite.1)
    have fields : tree.Outlined (tree.fragmentFields fragment) _ := outlined_filterMap
      (fun address inside => within.stored.1 address (List.mem_append_left rest inside)) bound
      opened
    refine .spread (ih (List.rel_append fields later) outlined' ?_ finite')
    intro outline inside
    rcases List.mem_append.mp inside with here | after
    · exact ends outline here
    · exact finite.2 outline after

/-- A query that is compiled without execution yields nothing. -/
theorem runWith_compile_noExecution (tree : SelectionTree) (supply : Nat) (root supplied : Value)
    (provider : Provider) : (tree.compile true supply).1.runWith root supplied provider =
      pure none := by
  unfold compile
  split <;> rfl

/-- Compiled queries of a tree and of the same tree written out have the same outcomes, in
    frames that do not tell the fields of the two apart. -/
theorem WritesOut.runWith_eq {frame frame' : Frame} (placed : tree.Placed) (placed' : tree'.Placed)
    (framed : tree.FramedBy frame) (framed' : tree'.FramedBy frame') (regular : tree.Regular)
    (regular' : tree'.Regular)
    (writes : WritesOut offers tree tree' tree.queryRoots tree'.queryRoots)
    (parametric : ∀ definition, offers definition →
      definition.Parametric tree.variablesSlot tree'.variablesSlot)
    (supplied : frame.supplied = frame'.supplied) (provider : frame.provider = frame'.provider)
    {supply supply' : Nat} (compiled : frame.supply ≤ supply) (compiled' : frame'.supply ≤ supply')
    (root : Value) :
    (tree.compile false supply).1.runWith root frame.supplied frame.provider =
      (tree'.compile false supply').1.runWith root frame'.supplied frame'.provider := by
  have written : Outline.WrittenOut (frame.SeesAlike frame') tree.queryOutlines
      tree'.queryOutlines := by
    refine writes.writtenOut (outlined_filterMap writes.stored.1 _ _)
      (outlined_filterMap writes.stored.2 _ _)
      (Outline.allFinite_iff.mp regular.acyclic.allFinite_queryOutlines)
      (Outline.allFinite_iff.mp regular'.acyclic.allFinite_queryOutlines) ?_
    intro address address' field field' definition plain stored stored' known selects selects'
    have parametric := parametric definition known
    rw [← framed.slot, ← framed'.slot] at parametric
    rw [← framed.slot] at selects
    rw [← framed'.slot] at selects'
    exact selects.seesAlike selects' parametric (framed.fits address field stored)
      (framed'.fits address' field' stored') (regular.builtIn address field stored) supplied
      provider
  rw [runWith_compile_eq placed framed regular.orderly regular.hooksAddNoService compiled,
    runWith_compile_eq placed' framed' regular'.orderly regular'.hooksAddNoService compiled']
  unfold operationHasServices?
  rw [written.anyServices?, written.meaningAll, written.stagedAll, written.preparedAll]

/-- Spreading a fragment equals writing its fields in place. For every regular tree and every
    regular tree that is the first with all spreads written out, both built from parametric
    resolvers, both compilations are defined, and the compiled queries have the same outcome
    for every root value, all variables and every provider: the same value or fault after the
    same calls. -/
theorem Built.execution_written_out {practice practice' : Practice} {supply supply' : Nat}
    (built : tree.Built practice supply) (built' : tree'.Built practice' supply')
    (regular : tree.Regular) (regular' : tree'.Regular)
    (same : ∀ definition, practice'.offers definition → practice.offers definition)
    (parametric : ∀ definition, practice.offers definition →
      definition.Parametric tree.variablesSlot tree'.variablesSlot)
    (writes : WritesOut practice.offers tree tree' tree.queryRoots tree'.queryRoots)
    {compileSupply compileSupply' : Nat} (compiled : supply ≤ compileSupply)
    (compiled' : supply' ≤ compileSupply') (noExecution : Bool) (root : Value)
    (supplied : Variables) (provider : Provider) :
    tree.compile? noExecution = some (tree.compile noExecution) ∧
      tree'.compile? noExecution = some (tree'.compile noExecution) ∧
      (tree.compile noExecution compileSupply).1.executeWith root supplied provider =
        (tree'.compile noExecution compileSupply').1.executeWith root supplied provider := by
  refine ⟨regular.acyclic.compile? noExecution, regular'.acyclic.compile? noExecution, ?_⟩
  unfold Query.executeWith
  cases noExecution with
  | true => rw [runWith_compile_noExecution, runWith_compile_noExecution]
  | false =>
    have isSealed := built.isSealed_of_closedOver fun definition known =>
      (parametric definition known).closedOver
    have isSealed' := built'.isSealed_of_closedOver fun definition known =>
      (parametric definition (same definition known)).swap.closedOver
    obtain ⟨frame, given, provided, passed, framed, -⟩ :=
      regular.exists_frame isSealed supplied.toValue provider
    obtain ⟨frame', given', provided', passed', framed', -⟩ :=
      regular'.exists_frame isSealed' supplied.toValue provider
    have outcomes := writes.runWith_eq built.placed built'.placed framed framed' regular regular'
      parametric (given.trans given'.symm) (provided.trans provided'.symm)
      (Nat.le_trans (Nat.le_of_eq passed) compiled)
      (Nat.le_trans (Nat.le_of_eq passed') compiled') root
    rwa [given, provided, given', provided'] at outcomes

/-! ## Films with nested spreads -/

/-- The resolvers of films are parametric. -/
theorem parametric_filmPractice (slot slot' : Placeholder) (definition : FieldDefinition)
    (offered : filmPractice.offers definition) : definition.Parametric slot slot' := by
  simp only [filmPractice, List.mem_cons, List.not_mem_nil, or_false] at offered
  rcases offered with rfl | rfl | rfl
  · exact FieldDefinition.parametric_ofMember _ _
  · exact FieldDefinition.parametric_ofMember _ _
  · apply FieldDefinition.parametric_ofResolver
    · intro context allowed
      exact binds_idService context allowed _ _ _
    · intro pairs left right same
      exact .service (.cons (same.member "id" _ _) .nil) _ _

/-- The titles and ratings of films, where a fragment of both spreads one of the rating. -/
def spreadFilms : SelectionTree where
  root := ⟨0, "ctx", .any⟩
  variablesSlot := ⟨1, "vars", .any⟩
  bound := .empty
  fields := ⟨#[
    { name := "rating"
      kind := .scalar
      expr := .service ⟨"Ratings"⟩ "rating"
        [(Expr.read ⟨2, "Scored", ratedFilm⟩).get "id"] (.scalar .int) fun state _ => .ok state
      context := ⟨2, "Scored", ratedFilm⟩
      arguments := ArgumentSet.empty.readVariablesFrom ⟨1, "vars", .any⟩ },
    { name := "title"
      kind := .scalar
      expr := .member (.read ⟨3, "Rated", ratedFilm⟩) "title" (.scalar .string)
      context := ⟨3, "Rated", ratedFilm⟩
      arguments := ArgumentSet.empty.readVariablesFrom ⟨1, "vars", .any⟩ },
    spreadField "Scored" ⟨0⟩ ⟨3, "Rated", ratedFilm⟩,
    { name := "films"
      kind := .list ⟨4, "films", ratedFilm⟩
      expr := .member (.read ⟨0, "ctx", .any⟩) "films" (.list ratedFilm)
      context := ⟨0, "ctx", .any⟩
      arguments := ArgumentSet.empty.readVariablesFrom ⟨1, "vars", .any⟩
      children := [⟨4⟩] },
    { spreadField "Rated" ⟨1⟩ ⟨4, "films", ratedFilm⟩ with parent? := some ⟨3⟩ }]⟩
  roots := [⟨3⟩]
  fragments := ⟨#[
    { name := "Scored", slot := ⟨2, "Scored", ratedFilm⟩, fields := [⟨0⟩] },
    { name := "Rated", slot := ⟨3, "Rated", ratedFilm⟩, fields := [⟨1⟩, ⟨2⟩] }]⟩

/-- The fragments are declared and filled, then spread below the films. -/
theorem built_spreadFilms : spreadFilms.Built filmFragmentPractice 5 := by
  have start : Built filmFragmentPractice (drawSelectionTree .any 0).1 2 := .start .any 0
  have scored := start.declareFragment "Scored" ratedFilm
  have rating := @Built.select _ _ _ _ (.fragment ⟨0⟩) ratingDefinition .empty none ⟨0⟩ scored
    (by simp [filmFragmentPractice, filmPractice]) rfl
  have rated := rating.declareFragment "Rated" ratedFilm
  have title := @Built.select _ _ _ _ (.fragment ⟨1⟩) titleDefinition .empty none ⟨1⟩ rated
    (by simp [filmFragmentPractice, filmPractice]) rfl
  have inner := @Built.spread _ _ _ _ (.fragment ⟨1⟩) "Scored" ⟨2⟩ ⟨0⟩ title (by decide +kernel)
    trivial rfl
  have films := @Built.select _ _ _ _ .operation filmsDefinition .empty none ⟨3⟩ inner
    (by simp [filmFragmentPractice, filmPractice]) rfl
  exact @Built.spread _ _ spreadFilms _ (.field ⟨3⟩) "Rated" ⟨4⟩ ⟨1⟩ films (by decide +kernel)
    trivial rfl

/-- The tree with nested spreads is regular. -/
theorem regular_spreadFilms : spreadFilms.Regular where
  acyclic := by
    apply built_spreadFilms.placed.acyclic_iff_outlines.mpr
    intro address outline outlined
    obtain ⟨_ | _ | _ | _ | _ | index⟩ := address <;> cases outlined <;> decide
  distinct := by decide
  distinctBelow := ⟨⟨by decide, ⟨trivial, ⟨trivial, trivial⟩, trivial⟩, trivial⟩, trivial⟩
  fieldNames := by
    intro address field stored
    obtain ⟨_ | _ | _ | _ | _ | index⟩ := address <;> cases stored <;> rfl
  memberNames := by
    have shapes (owner : Placeholder) (owns : spreadFilms.Owns owner) :
        owner.shape = .any ∨ owner.shape = ratedFilm := by
      cases owns with
      | root => exact .inl rfl
      | @context address field stored =>
        obtain ⟨_ | _ | _ | _ | _ | index⟩ := address <;> cases stored
        · exact .inr rfl
        · exact .inr rfl
        · exact .inr rfl
        · exact .inl rfl
        · exact .inr rfl
      | @element address field slot stored selects =>
        obtain ⟨_ | _ | _ | _ | _ | index⟩ := address <;> cases stored <;> cases selects
        exact .inr rfl
      | @fragment address fragment stored =>
        obtain ⟨_ | _ | index⟩ := address <;> cases stored
        · exact .inr rfl
        · exact .inr rfl
    intro owner owns
    exact unreserved_of_film (shapes owner owns)
  builtIn := by
    intro address field stored extension inside
    obtain ⟨_ | _ | _ | _ | _ | index⟩ := address <;> cases stored <;> cases inside

/-- With its spreads written out it is the tree of films without fragments. -/
theorem writesOut_spreadFilms : WritesOut filmFragmentPractice.offers spreadFilms ratedFilms
    spreadFilms.queryRoots ratedFilms.queryRoots := by
  have offered (definition : FieldDefinition)
      (known : definition ∈ [filmsDefinition, titleDefinition, ratingDefinition]) :
      filmFragmentPractice.offers definition := known
  have rating : WritesOut filmFragmentPractice.offers spreadFilms ratedFilms [⟨0⟩] [⟨2⟩] :=
    .field rfl rfl (offered ratingDefinition (by simp))
      (show Field.Selects _ ratingDefinition .empty _ from
        ⟨3, none, [], ⟨by decide, by decide, by decide⟩, rfl⟩)
      (show Field.Selects _ ratingDefinition .empty _ from
        ⟨3, some ⟨0⟩, [], ⟨by decide, by decide, by decide⟩, rfl⟩) .nil .nil
  have members : WritesOut filmFragmentPractice.offers spreadFilms ratedFilms [⟨1⟩, ⟨2⟩]
      [⟨1⟩, ⟨2⟩] :=
    .field rfl rfl (offered titleDefinition (by simp))
      (show Field.Selects _ titleDefinition .empty _ from
        ⟨4, none, [], ⟨by decide, by decide, by decide⟩, rfl⟩)
      (show Field.Selects _ titleDefinition .empty _ from
        ⟨3, some ⟨0⟩, [], ⟨by decide, by decide, by decide⟩, rfl⟩) .nil (.spread rfl rfl rating)
  exact .field rfl rfl (offered filmsDefinition (by simp))
    (show Field.Selects _ filmsDefinition .empty _ from
      ⟨4, none, [⟨4⟩], ⟨by decide, by decide, by decide⟩, rfl⟩)
    (show Field.Selects _ filmsDefinition .empty _ from
      ⟨2, none, [⟨1⟩, ⟨2⟩], ⟨by decide, by decide, by decide⟩, rfl⟩)
    (.spread rfl rfl members) .nil

/-- The films with nested spreads and the films without fragments are answered alike: with the
    title and the rating, after one call. -/
theorem execution_written_out_spreadFilms :
    spreadFilms.Regular ∧ ratedFilms.Regular ∧
      WritesOut filmFragmentPractice.offers spreadFilms ratedFilms spreadFilms.queryRoots
        ratedFilms.queryRoots ∧
      (spreadFilms.compile false 5).1.executeWith heatRoot .empty ratingsProvider =
        (ratedFilms.compile false 3).1.executeWith heatRoot .empty ratingsProvider ∧
      ((spreadFilms.compile false 5).1.executeWith heatRoot .empty ratingsProvider).result =
        .ok (some heatAnswer) := by
  obtain ⟨-, -, same⟩ := built_spreadFilms.execution_written_out built_ratedFilms
    regular_spreadFilms regular_ratedFilms (fun _ offered => offered)
    (parametric_filmPractice _ _) writesOut_spreadFilms (Nat.le_refl 5) (Nat.le_refl 3) false
    heatRoot .empty ratingsProvider
  exact ⟨regular_spreadFilms, regular_ratedFilms, writesOut_spreadFilms, same, by rfl⟩

end SelectionTree

end StagedQuery
