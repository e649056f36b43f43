import StagedQuery.Proofs.Selection.Inlined
import StagedQuery.Proofs.Selection.Shaping

/-!
# What the second stage reads again

The first stage stores every field that calls no service and that no field with services
stands above. Its static shape declares the field, at every level down to the last, so the
second stage finds it there: a scalar is the member of its name and nothing else, and the
members of a selection are selected from the member of its name. The expressions of such
fields, their arguments and their extensions are not looked at again, so anything may stand
in their place.

What a hook makes of a selection could have another shape than the selection. The extensions
are assumed to be built in, which keep it.
-/

namespace StagedQuery

namespace Outline

variable {outline : Outline} {outlines children : List Outline} {options : PassOptions}
  {base? : Option Placeholder} {stock : Placeholder} {shape : Shape} {field : Field}
  {element : Placeholder} {isList : Bool} {first supply : Nat} {other : Field → Field}

/-! ## Fields that are read again -/

mutual

/-- An object reads again what is stored for an outline. A field that calls no service is the
    stored member of its name if it is a scalar. If it is a selection of anything, its members
    are selected from the stored member of its name, over a placeholder from which they are
    read again. Of a field that calls a service, and of all below it, nothing is said. -/
def Rereads (stock : Placeholder) (members : Members Expr) : Outline → Prop
  | .scalar field => field.callsService = false →
    stock.shape.hasMember field.name = true ∧
      members.value? field.name = some ((Expr.read stock).get field.name)
  | .selection field _ isList children => field.callsService = false →
    (visibleAll children).isEmpty = false →
    stock.shape.hasMember field.name = true ∧
      ∃ fresh title inner,
        (let known := (Expr.read stock).get field.name
          let body := Expr.object title inner
          members.value? field.name =
            some (if isList then .map known fresh body else .scope fresh known body)) ∧
        Members.names inner = visibleAll children ∧ RereadsAll fresh inner children
  | .spread _ fields => RereadsAll stock members fields
  | .endless => True

/-- An object reads again what is stored for some outlines. -/
def RereadsAll (stock : Placeholder) (members : Members Expr) : List Outline → Prop
  | [] => True
  | first :: rest => first.Rereads stock members ∧ RereadsAll stock members rest

end

/-- An object reads some outlines again if it reads each of them. -/
theorem rereadsAll_iff {members : Members Expr} :
    RereadsAll stock members outlines ↔ ∀ outline ∈ outlines, outline.Rereads stock members := by
  induction outlines with
  | nil => simp [RereadsAll]
  | cons first rest ih => simp [RereadsAll, ih]

mutual

/-- The outline with other fields in the place of those that are read again. -/
def recast (other : Field → Field) : Outline → Outline
  | .scalar field => .scalar (if field.callsService then field else other field)
  | .selection field element isList children =>
    if field.callsService || (visibleAll children).isEmpty then
      .selection field element isList children
    else .selection (other field) element isList (recastAll other children)
  | .spread field fields => .spread field (recastAll other fields)
  | .endless => .endless

/-- Some outlines with other fields in the place of those that are read again. -/
def recastAll (other : Field → Field) : List Outline → List Outline
  | [] => []
  | first :: rest => recast other first :: recastAll other rest

end

/-- Outlines are recast one by one. -/
theorem recastAll_eq_map (outlines : List Outline) :
    recastAll other outlines = outlines.map (recast other) := by
  induction outlines with
  | nil => rfl
  | cons first rest ih => simp [recastAll, ih]

/-! ## Fields that are stored -/

/-- What a first stage stores of an outline can be found by its static shape: the outline comes
    to an end, names are distinct below it and none begins as the names of chains do, and all
    extensions are built in. -/
structure Storable (outline : Outline) : Prop where
  finite : outline.isFinite false = true
  distinct : outline.Distinct
  unreserved : ∀ field ∈ outline.fields, isReserved field.name = false
  builtIn : ∀ field ∈ outline.fields, ∀ extension ∈ field.extensions, extension.BuiltIn

/-- So can what it stores of the children of a selection. -/
theorem Storable.child (storable : Storable (.selection field element isList children)) :
    ∀ child ∈ children, child.Storable := by
  obtain ⟨finite, ⟨-, distinct⟩, unreserved, builtIn⟩ := storable
  intro child inside
  have below (found : Field) (listed : found ∈ child.fields) :
      found ∈ (Outline.selection field element isList children).fields :=
    List.mem_cons_of_mem _ (mem_allFields.mpr ⟨child, inside, listed⟩)
  exact ⟨allFinite_iff.mp finite child inside, distinctBelow_iff.mp distinct child inside,
    fun found listed => unreserved found (below found listed),
    fun found listed => builtIn found (below found listed)⟩

/-- So can what it stores of the fields that a spread stands for. -/
theorem Storable.spread (storable : Storable (.spread field outlines)) :
    ∀ outline ∈ outlines, outline.Storable := by
  obtain ⟨finite, distinct, unreserved, builtIn⟩ := storable
  intro outline inside
  have below (found : Field) (listed : found ∈ outline.fields) :
      found ∈ (Outline.spread field outlines).fields :=
    List.mem_cons_of_mem _ (mem_allFields.mpr ⟨outline, inside, listed⟩)
  exact ⟨allFinite_iff.mp finite outline inside, distinctBelow_iff.mp distinct outline inside,
    fun found listed => unreserved found (below found listed),
    fun found listed => builtIn found (below found listed)⟩

/-- What one of some outlines contributes, from some supply, is among what all of them do. -/
theorem exists_contribute_subset (inside : outline ∈ outlines) (supply : Nat) :
    ∃ own, ∀ pair ∈ (outline.contribute options base? own).1,
      pair ∈ (contributeAll options base? outlines supply).1 := by
  induction outlines generalizing supply with
  | nil => cases inside
  | cons first rest ih =>
    simp only [contributeAll, Drawing.run_bind, Drawing.run_pure]
    rcases List.mem_cons.mp inside with rfl | later
    · exact ⟨supply, fun pair => List.mem_append_left _⟩
    · obtain ⟨own, among⟩ := ih later (first.contribute options base? supply).2
      exact ⟨own, fun pair listed => List.mem_append_right _ (among pair listed)⟩

/-- If contributions have distinct names, those of each outline are found by their names. -/
theorem exists_contribute_found
    (distinct : Members.Distinct (contributeAll options base? outlines supply).1)
    (inside : outline ∈ outlines) :
    ∃ own, ∀ pair ∈ (outline.contribute options base? own).1,
      Members.value? (contributeAll options base? outlines supply).1 pair.1 = some pair.2 := by
  obtain ⟨own, among⟩ := exists_contribute_subset inside supply
  exact ⟨own, fun pair listed => Members.value?_of_mem distinct (among pair listed)⟩

/-- What is declared of all contributions is declared of those of each outline. -/
theorem declares_of_contributeAll
    (declares : Declares shape (contributeAll options base? outlines supply).1)
    (inside : outline ∈ outlines) :
    ∃ own, Declares shape (outline.contribute options base? own).1 := by
  obtain ⟨own, among⟩ := exists_contribute_subset inside supply
  exact ⟨own, declares.mono among⟩

/-- A scalar that calls no service is stored under its name. -/
theorem exists_stored_scalar (calls : field.callsService = false)
    (plain : isReserved field.name = false)
    (declares : Declares shape (contribute .withoutServices base? (.scalar field) first).1) :
    ∃ own, shape.member? field.name = some own := by
  have contributed : ∃ expr,
      (contribute .withoutServices base? (.scalar field) first).1 = [(field.name, expr)] := by
    simp only [contribute, Field.contributeScalar, calls, Bool.and_false, Bool.false_eq_true,
      ↓reduceIte]
    exact ⟨_, rfl⟩
  obtain ⟨expr, same⟩ := contributed
  exact ⟨expr.shape, declares field.name expr (by simp [same]) plain⟩

/-- A selection of anything that calls no service itself is stored under its name. Wherever its
    value or items are bound, the fields that are stored of its children are declared. -/
theorem Storable.exists_stored_selection
    (storable : Storable (.selection field element isList children))
    (calls : field.callsService = false) (filled : (visibleAll children).isEmpty = false)
    (declares : Declares shape
      (contribute .withoutServices base? (.selection field element isList children) first).1) :
    ∃ own middle, shape.member? field.name = some own ∧
      ∀ supply, Declares (drawnElement field.name isList own supply).shape
        (contributeAll .withoutServices none children middle).1 := by
  have listed : field ∈ (Outline.selection field element isList children).fields :=
    List.mem_cons_self
  obtain ⟨source, middle, later, contributed⟩ :=
    @contribute_selection_stored field element isList children calls base? first
  let members := storedMembers children middle
  let title := element.shape.objectName?.getD field.name
  -- An empty object is stored as well if a service is called below.
  have stored : (members.isEmpty && anyServices? children != some true) = false := by
    by_cases silent : anyServices? children = some true
    · simp [silent]
    · have names := @names_of_anyServices? _ none middle
        (fun child inside => (storable.child child inside).finite) silent
      have present : members.isEmpty = false := by
        rw [← filled, ← names, List.isEmpty_map]
        exact Members.isEmpty_firsts _
      simp [present]
  simp only [members] at stored
  simp only [stored, Bool.false_eq_true, ↓reduceIte] at contributed
  refine ⟨selectionShape title isList members, middle, ?_, fun supply => ?_⟩
  · rw [declares field.name _ (by rw [contributed]; exact List.mem_cons_self)
      (storable.unreserved field listed), Extension.shape_adjustAll (storable.builtIn field listed),
      SelectionSource.shape_select]
  · rw [shape_drawnElement]
    exact declares_firsts (storable.distinct.1.sublist (plainNames_contributeAll
      (fun child _ => plainNames_contribute child .withoutServices none) middle)) title

/-! ## What is found in the stock -/

/-- What the stock declares of a field is what a read of it has as its shape. -/
theorem read_of_declared {name : String} {own : Shape}
    (declared : stock.shape.member? name = some own) :
    Expr.member (.read stock) name own = (Expr.read stock).get name := by
  simp [Expr.get, Expr.shape, declared]

/-- A merging pass over outlines of distinct names reads all of them again if it does so of each
    that the stock declares. -/
theorem rereadsAll_contributeAll (distinct : ((expandedAll outlines).map Field.name).Nodup)
    (declares : Declares stock.shape (contributeAll .withoutServices none outlines first).1)
    (each : ∀ outline ∈ outlines, ∀ first supply (members : Members Expr),
      Declares stock.shape (outline.contribute .withoutServices none first).1 →
      (∀ pair ∈ (outline.contribute (.merging (.read stock)) none supply).1,
        members.value? pair.1 = some pair.2) → outline.Rereads stock members) :
    RereadsAll stock (contributeAll (.merging (.read stock)) none outlines supply).1 outlines := by
  have whole : (PassOptions.merging (.read stock)).leavingOut = false := rfl
  have apart : Members.Distinct
      (contributeAll (.merging (.read stock)) none outlines supply).1 := by
    rw [← (firsts_contributeAll whole distinct none supply).1]
    exact Members.distinct_firsts _
  refine rereadsAll_iff.mpr fun outline inside => ?_
  obtain ⟨start, stocked⟩ := declares_of_contributeAll declares inside
  obtain ⟨later, found⟩ := exists_contribute_found apart inside
  exact each outline inside start later _ stocked found

/-- A merging pass reads again what the stock declares of an outline.

    Proof: induction on the outline. What is declared of a selection is the shape of the objects
    stored for its children, so the placeholder drawn for the selection is the stock of the
    children. -/
theorem Storable.rereads (storable : outline.Storable)
    (declares : Declares stock.shape (outline.contribute .withoutServices base? first).1)
    {members : Members Expr}
    (kept : ∀ pair ∈ (outline.contribute (.merging (.read stock)) base? supply).1,
      members.value? pair.1 = some pair.2) : outline.Rereads stock members := by
  induction outline using Outline.induction generalizing stock base? first supply members with
  | scalar field =>
    intro calls
    obtain ⟨own, declared⟩ := exists_stored_scalar calls
      (storable.unreserved field List.mem_cons_self) declares
    rw [contribute, contributeScalar_of_declared calls declared, read_of_declared declared] at kept
    exact ⟨by simp [Shape.hasMember, declared], kept _ List.mem_cons_self⟩
  | selection field element isList children below =>
    intro calls filled
    obtain ⟨own, middle, declared, stocked⟩ :=
      storable.exists_stored_selection calls filled declares
    let fresh := drawnElement field.name isList own supply
    have whole : (PassOptions.merging (.read fresh)).leavingOut = false := rfl
    obtain ⟨gathered, empty⟩ := firsts_contributeAll whole storable.distinct.1 none (supply + 1)
    rw [contribute_selection_of_declared calls declared, read_of_declared declared] at kept
    simp only [gathered, empty, filled, Bool.false_eq_true, ↓reduceIte, fresh] at kept
    refine ⟨by simp [Shape.hasMember, declared], fresh, fresh.shape.objectName?.getD field.name, _,
      kept _ List.mem_cons_self, ?_, ?_⟩
    · exact names_contributeAll (fun child _ => names_contribute child none (.inl whole)) _
    · exact rereadsAll_contributeAll storable.distinct.1 (stocked supply)
        fun child inside start later members stockedBelow found =>
          below child inside (storable.child child inside) stockedBelow found
  | spread field fields below =>
    refine rereadsAll_iff.mpr fun child inside => ?_
    simp only [contribute] at declares kept
    obtain ⟨start, stocked⟩ := declares_of_contributeAll declares inside
    obtain ⟨later, among⟩ := exists_contribute_subset inside supply
    exact below child inside (storable.spread child inside) stocked
      fun pair listed => kept pair (among pair listed)
  | endless => trivial

/-- Fields to stand in the place of fields without services: they have the names of these and
    call no service either. -/
def StandIns (other : Field → Field) : Prop :=
  ∀ field, field.callsService = false →
    (other field).name = field.name ∧ (other field).callsService = false

/-- Outlines contribute the same with other fields if each does. -/
theorem contributeAll_recast (each : ∀ outline ∈ outlines,
      (outline.recast other).contribute options base? = outline.contribute options base?) :
    contributeAll options base? (recastAll other outlines) =
      contributeAll options base? outlines := by
  rw [recastAll_eq_map]
  exact contributeAll_congr (List.forall₂_map_right_iff.mpr (List.forall₂_same.mpr each))

/-- Whatever fields stand in the place of those that are read again, a merging pass makes the
    same of an outline.

    Proof: induction on the outline. Of a field that the stock declares, the pass looks at the
    name only. -/
theorem Storable.contribute_recast (storable : outline.Storable)
    (declares : Declares stock.shape (outline.contribute .withoutServices base? first).1)
    (standIns : StandIns other) :
    (outline.recast other).contribute (.merging (.read stock)) base? =
      outline.contribute (.merging (.read stock)) base? := by
  induction outline using Outline.induction generalizing stock base? first with
  | scalar field =>
    cases calls : field.callsService with
    | true => simp [recast, calls]
    | false =>
      obtain ⟨own, declared⟩ := exists_stored_scalar calls
        (storable.unreserved field List.mem_cons_self) declares
      obtain ⟨named, silent⟩ := standIns field calls
      funext supply
      simp only [recast, calls, Bool.false_eq_true, ↓reduceIte, contribute]
      rw [contributeScalar_of_declared calls declared,
        contributeScalar_of_declared silent (named ▸ declared), named]
  | selection field element isList children below =>
    by_cases kept : (field.callsService || (visibleAll children).isEmpty) = true
    · rw [recast, if_pos kept]
    · obtain ⟨calls, filled⟩ := Bool.or_eq_false_iff.mp (Bool.eq_false_iff.mpr kept)
      obtain ⟨own, middle, declared, stocked⟩ :=
        storable.exists_stored_selection calls filled declares
      obtain ⟨named, silent⟩ := standIns field calls
      funext supply
      have same := @contributeAll_recast children
        (.merging (.read (drawnElement field.name isList own supply))) none other
        fun child inside => by
          obtain ⟨start, stockedBelow⟩ := declares_of_contributeAll (stocked supply) inside
          exact below child inside (storable.child child inside) stockedBelow
      rw [recast, if_neg kept, contribute_selection_of_declared calls declared,
        contribute_selection_of_declared silent (named ▸ declared), named, same]
  | spread field fields below =>
    simp only [recast, contribute] at declares ⊢
    refine contributeAll_recast fun child inside => ?_
    obtain ⟨start, stocked⟩ := declares_of_contributeAll declares inside
    exact below child inside (storable.spread child inside) stocked
  | endless => rfl

end Outline

namespace SelectionTree

variable {tree : SelectionTree}

/-- The second stage reads again what the first has stored. For every acyclic tree that calls a
    service, with distinct expanded names of which none begins as those of chains do and with
    built-in extensions, compilation is defined and has a second stage. This is an object of the
    visible query fields. In it, and at every level below fields without services, each visible
    field without services is the member of its name of what is bound at the level, or its
    members are selected from that member. Whatever fields of the same names stand in the place
    of all these, with whatever resolvers, arguments and extensions, a pass that reads from the
    value of the first stage makes the same object.

    Proof: the value of the first stage has the shape of the object that stores the query
    fields, and the outlines of an acyclic tree come to an end. -/
theorem Acyclic.second_stage_rereads (acyclic : tree.Acyclic)
    (services : tree.operationHasServices? = some true)
    (distinct : ((Outline.expandedAll tree.queryOutlines).map Field.name).Nodup)
    (distinctBelow : Outline.DistinctBelow tree.queryOutlines)
    (unreserved : ∀ field ∈ Outline.allFields tree.queryOutlines, isReserved field.name = false)
    (builtIn : ∀ field ∈ Outline.allFields tree.queryOutlines,
      ∀ extension ∈ field.extensions, extension.BuiltIn) (noExecution : Bool) (supply : Nat) :
    ∃ drawing stage members later, tree.compile? noExecution = some drawing ∧
      (drawing supply).1.second? = some stage ∧
      stage.expr = .object tree.operationName members ∧
      Members.names members = Outline.visibleAll tree.queryOutlines ∧
      Outline.RereadsAll stage.slot members tree.queryOutlines ∧
      ∀ other, Outline.StandIns other →
        (Outline.contributeAll (.merging (.read stage.slot)) none
          (Outline.recastAll other tree.queryOutlines) later).1 = members := by
  have storable (outline : Outline) (inside : outline ∈ tree.queryOutlines) :
      outline.Storable := by
    have among (field : Field) (listed : field ∈ outline.fields) :
        field ∈ Outline.allFields tree.queryOutlines :=
      Outline.mem_allFields.mpr ⟨outline, inside, listed⟩
    exact ⟨Outline.allFinite_iff.mp acyclic.allFinite_queryOutlines outline inside,
      Outline.distinctBelow_iff.mp distinctBelow outline inside,
      fun field listed => unreserved field (among field listed),
      fun field listed => builtIn field (among field listed)⟩
  let first := tree.operationPass .withoutServices supply
  let stock : Placeholder := ⟨first.2, "stage1", first.1.shape⟩
  let options : PassOptions := .merging (.read stock)
  let contributed := Outline.contributeAll options none tree.queryOutlines (first.2 + 1)
  have stocked : Declares stock.shape
      (Outline.contributeAll .withoutServices none tree.queryOutlines supply).1 :=
    declares_firsts (distinct.sublist (Outline.plainNames_contributeAll
      (fun outline _ => outline.plainNames_contribute .withoutServices none) supply))
      tree.operationName
  have gathered : Members.firsts contributed.1 = contributed.1 :=
    (Outline.firsts_contributeAll (show options.leavingOut = false from rfl) distinct none _).1
  have named : Members.names contributed.1 = Outline.visibleAll tree.queryOutlines :=
    Outline.names_contributeAll (fun outline _ => outline.names_contribute none (.inl rfl)) _
  have staged : (tree.compile noExecution supply).1.second? = some (.compile stock
      (.object tree.operationName (Members.firsts contributed.1)) tree.variablesSlot
      noExecution) := by
    rw [compile_of_staged services]
    rfl
  rw [gathered] at staged
  refine ⟨_, _, contributed.1, first.2 + 1, acyclic.compile? noExecution, staged, rfl, named,
    ?_, ?_⟩
  · exact Outline.rereadsAll_contributeAll distinct stocked
      fun outline inside start later members stockedBelow found =>
        (storable outline inside).rereads stockedBelow found
  · intro other standIns
    have same := @Outline.contributeAll_recast tree.queryOutlines options none other
      fun outline inside => by
        obtain ⟨start, stockedBelow⟩ := Outline.declares_of_contributeAll stocked inside
        exact (storable outline inside).contribute_recast stockedBelow standIns
    exact congrArg (fun drawing : Drawing Contributions => (drawing (first.2 + 1)).1) same

/-- Of films, whose titles and ratings come from fragments, the second stage reads the list and
    the titles again. -/
theorem second_stage_rereads_spreadFilms :
    spreadFilms.Regular ∧ spreadFilms.operationHasServices? = some true ∧
      ∃ stage members fresh title inner, (spreadFilms.compile false 5).1.second? = some stage ∧
        stage.expr = .object "Query" members ∧ Members.names members = ["films"] ∧
        Members.value? members "films" =
          some (Expr.map ((Expr.read stage.slot).get "films") fresh (.object title inner)) ∧
        Members.names inner = ["title", "rating"] ∧
        Members.value? inner "title" = some ((Expr.read fresh).get "title") := by
  have regular := regular_spreadFilms
  have services : spreadFilms.operationHasServices? = some true := by decide
  obtain ⟨drawing, stage, members, later, compiled, second, built, named, rereads, -⟩ :=
    regular.acyclic.second_stage_rereads services regular.distinct regular.distinctBelow
      (fun field inside => by
        obtain ⟨address, stored⟩ := field_of_mem_queryOutlines inside
        exact regular.fieldNames address field stored)
      (fun field inside => by
        obtain ⟨address, stored⟩ := field_of_mem_queryOutlines inside
        exact regular.builtIn address field stored) false 5
  rw [regular.acyclic.compile? false] at compiled
  obtain rfl := Option.some.inj compiled
  obtain ⟨-, fresh, title, inner, listed, namedBelow, again⟩ := rereads.1 rfl rfl
  exact ⟨regular, services, stage, members, fresh, title, inner, second, built, named, listed,
    namedBelow, (again.1.1 rfl).2⟩

end SelectionTree

end StagedQuery
