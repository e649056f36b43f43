import StagedQuery.Proofs.Selection.Inlined
import StagedQuery.Proofs.Selection.Layout

/-!
# The chains that a first stage stores

The object that a pass without services builds at a level stores the chains that the
services of the level ask for, each under the name that the chain determines. The names of
chains are pairwise different, but they share one namespace with the names of fields and
with the members that shapes declare. So a chain is stored unless one of the fields of the
level up to the one that asks for it is in its way: a field without services that has the
name of the chain, or one from a fragment whose chain is moved to a placeholder that
declares a member of such a name.

A later stage that reads from such an object finds under the name of the chain the value of
the chain over the source, and evaluates the field as its resolver asked.
-/

namespace StagedQuery

open Outcome

/-! ## What fields contribute -/

namespace Field

variable {field : Field} {context : Placeholder} {path : List String}

/-- A chain is extracted for the services of a field. -/
def AsksFor (field : Field) (path : List String) : Prop :=
  ∃ node, (extractedName path, node) ∈ field.extracted?.getD []

/-- A field is not in the way of a chain over a placeholder: it does not have the name of the
    chain if it calls no service, and if it asks for the chain, it is written over the
    placeholder itself or the placeholder declares no member under the name of a part of the
    chain. -/
structure Spares (field : Field) (context : Placeholder) (path : List String) : Prop where
  unnamed : field.callsService = false → field.name ≠ extractedName path
  unmoved : field.AsksFor path → field.context.number = context.number ∨
    ∀ shorter, shorter <+: path → context.shape.hasMember (extractedName shorter) = false

/-- What a field contributes to a pass without services where its context is a placeholder:
    its chains if it calls a service, else something under its own name, if anything. -/
structure Contributes (context : Placeholder) (field : Field) (own : Contributions) : Prop where
  chains : field.callsService = true →
    own = field.contributeExtracted (some context) .withoutServices
  named : field.callsService = false → ∀ name ∈ own.map Prod.fst, name = field.name

/-- Only a field that calls a service asks for chains. -/
theorem AsksFor.callsService (asks : field.AsksFor path) : field.callsService = true := by
  obtain ⟨node, listed⟩ := asks
  rw [callsService_eq]
  cases calls : field.expr.hasServices with
  | true => rfl
  | false =>
    have none : field.extracted? = none := by simp [extracted?, Expr.extract?, calls]
    simp [none] at listed

/-- Every chain of a field that calls a service is asked for. -/
theorem asksFor_of_chain (calls : field.callsService = true) {node : Expr}
    (visited : node ∈ field.expr.chainWalk field.context)
    (chained : node.chain? field.context = some path) : field.AsksFor path := by
  rw [callsService_eq] at calls
  obtain ⟨found, first, extracted, listed⟩ := Expr.exists_extracted_of_chain calls visited chained
  refine ⟨first, ?_⟩
  rwa [extracted?, extracted, Option.getD_some]

/-- Without a replacement an expression is moved to what stands in for the context, which is
    the context itself if nothing else does. -/
theorem relocate_withoutServices (field : Field) (base? : Option Placeholder) (expr : Expr) :
    field.relocate base? .withoutServices expr =
      field.relocate (some (base?.getD field.context)) .withoutServices expr := by
  cases base? with
  | none => simp [relocate, PassOptions.withoutServices, Placeholder.is]
  | some base => rfl

/-- A chain of a field that spares it is contributed as the chain over the placeholder. -/
theorem Spares.chain?_relocate (spares : field.Spares context path) (asks : field.AsksFor path)
    {node : Expr} (chained : node.chain? field.context = some path) :
    (field.relocate (some context) .withoutServices node).chain? context = some path := by
  simp only [relocate, PassOptions.withoutServices]
  split
  · rename_i same
    rwa [Expr.chain?_congr (Placeholder.is_iff.mp same)]
  · rename_i apart
    rcases spares.unmoved asks with same | clear
    · exact absurd (Placeholder.is_iff.mpr same.symm) apart
    · exact Expr.chain?_substitute chained clear

/-- Whatever a field that spares a chain contributes under its name is the chain. -/
theorem Contributes.chain?_of_value? {own : Contributions}
    (contributes : Contributes context field own) (spares : field.Spares context path)
    {expr : Expr} (found : Members.value? own (extractedName path) = some expr) :
    expr.chain? context = some path := by
  have listed := Members.mem_of_value? found
  cases calls : field.callsService with
  | true =>
    rw [contributes.chains calls] at listed
    obtain ⟨⟨name, node⟩, extracted, same⟩ := List.mem_map.mp listed
    obtain ⟨rfl, rfl⟩ := Prod.mk.inj same
    obtain ⟨path', node', chained, named, moved⟩ := field.exists_chain_of_extracted listed
    obtain rfl := extractedName_inj named
    rw [moved]
    exact spares.chain?_relocate ⟨node, extracted⟩ chained
  | false =>
    have own := contributes.named calls _ (List.mem_map_of_mem listed)
    exact absurd own.symm (spares.unnamed calls)

/-- What a field asks for is contributed. -/
theorem Contributes.exists_value? {own : Contributions}
    (contributes : Contributes context field own) (asks : field.AsksFor path) :
    ∃ expr, Members.value? own (extractedName path) = some expr := by
  obtain ⟨node, listed⟩ := asks
  rw [contributes.chains (AsksFor.callsService ⟨node, listed⟩)]
  exact Members.exists_value?_of_mem (List.mem_map_of_mem listed)

/-- Of the contributions of some fields in turn, the first under the name of a chain is the
    chain, if one of the fields asks for it and no field up to that one is in its way.

    Proof: induction on the fields before it. -/
theorem exists_chain_of_flatten {before after : List Field} {pieces : List Contributions}
    (each : List.Forall₂ (Contributes context) (before ++ field :: after) pieces)
    (asks : field.AsksFor path) (spare : ∀ other ∈ before ++ [field], other.Spares context path) :
    ∃ expr, Members.value? pieces.flatten (extractedName path) = some expr ∧
      expr.chain? context = some path := by
  induction before generalizing pieces with
  | nil =>
    cases each with
    | cons own others =>
      obtain ⟨expr, found⟩ := own.exists_value? asks
      refine ⟨expr, ?_, own.chain?_of_value? (spare field (by simp)) found⟩
      rw [List.flatten_cons, Members.value?_append, found, Option.some_or]
  | cons first rest ih =>
    cases each with
    | @cons _ piece _ others own later =>
      rw [List.flatten_cons, Members.value?_append]
      cases found : Members.value? piece (extractedName path) with
      | some expr =>
        exact ⟨expr, rfl, own.chain?_of_value? (spare first (by simp)) found⟩
      | none =>
        rw [Option.none_or]
        refine ih later fun other inside => spare other ?_
        rw [List.cons_append]
        exact List.mem_cons_of_mem _ inside

end Field

/-! ## Objects of a first stage -/

namespace Outline

variable {context own : Placeholder} {outline : Outline} {outlines : List Outline}
  {path : List String}

/-- What some outlines contribute is what their fields contribute, if this holds of each. -/
theorem exists_pieces_of_each {base? : Option Placeholder}
    (each : ∀ outline ∈ outlines, ∀ supply, ∃ pieces,
      List.Forall₂ (Field.Contributes context) outline.expanded pieces ∧
        (outline.contribute .withoutServices base? supply).1 = pieces.flatten) (supply : Nat) :
    ∃ pieces, List.Forall₂ (Field.Contributes context) (expandedAll outlines) pieces ∧
      (contributeAll .withoutServices base? outlines supply).1 = pieces.flatten := by
  induction outlines generalizing supply with
  | nil => exact ⟨[], .nil, rfl⟩
  | cons first rest ih =>
    obtain ⟨pieces, own, gathered⟩ := each first (by simp) supply
    obtain ⟨others, later, gatheredToo⟩ :=
      ih (fun outline inside => each outline (by simp [inside]))
        (first.contribute .withoutServices base? supply).2
    refine ⟨pieces ++ others, List.rel_append own later, ?_⟩
    simp only [contributeAll, Drawing.run_bind, Drawing.run_pure, gathered, gatheredToo,
      List.flatten_append]

/-- What an outline contributes to a pass without services is what its fields contribute, those
    of a fragment where it is spread.

    Proof: induction on the outline. The placeholder that stands in for the context of a spread
    stands in for the contexts of its fields. -/
theorem exists_pieces (written : outline.WrittenOver own) (base? : Option Placeholder)
    (supply : Nat) :
    ∃ pieces, List.Forall₂ (Field.Contributes (base?.getD own)) outline.expanded pieces ∧
      (outline.contribute .withoutServices base? supply).1 = pieces.flatten := by
  have chains (field : Field) (base? : Option Placeholder) :
      field.contributeExtracted base? .withoutServices =
        field.contributeExtracted (some (base?.getD field.context)) .withoutServices :=
    List.map_congr_left fun ⟨_, expr⟩ _ => congrArg _ (field.relocate_withoutServices base? expr)
  have alone {field : Field} {base? : Option Placeholder} {piece : Contributions}
      (calling : field.callsService = true →
        piece = field.contributeExtracted base? .withoutServices)
      (named : field.callsService = false → ∀ name ∈ piece.map Prod.fst, name = field.name) :
      ∃ pieces, List.Forall₂ (Field.Contributes (base?.getD field.context)) [field] pieces ∧
        piece = pieces.flatten :=
    ⟨[piece], .cons ⟨fun calls => (calling calls).trans (chains field base?), named⟩ .nil,
      by simp⟩
  induction written generalizing base? supply with
  | @scalar field =>
    refine alone contribute_scalar_of_callsService fun calls name inside => ?_
    simp only [contribute, Field.contributeScalar, calls, Bool.and_false, Bool.false_eq_true,
      ↓reduceIte, PassOptions.withoutServices, Option.bind_none, Drawing.run_bind,
      Drawing.run_pure, List.map_cons, List.map_nil, List.mem_singleton] at inside
    exact inside
  | @selection field element isList children selects lists below ih =>
    refine alone contribute_selection_of_callsService fun calls name inside => ?_
    simp only [contribute, calls, Bool.and_false, Bool.false_eq_true, ↓reduceIte,
      Drawing.run_bind] at inside
    split at inside
    · cases inside
    · split at inside <;>
        simpa only [Drawing.run_bind, Drawing.run_pure, List.map_cons, List.map_nil,
          List.mem_singleton] using inside
  | @spread field slot fields below ih =>
    simp only [contribute, expanded]
    exact exists_pieces_of_each
      (fun child inside supply => ih child inside (some (base?.getD field.context)) supply) supply

/-- An object stores a chain: under the name of the chain it has the chain over a placeholder. -/
def Stores (members : Members Expr) (context : Placeholder) (path : List String) : Prop :=
  ∃ expr, members.value? (extractedName path) = some expr ∧ expr.chain? context = some path

/-- The object of a level stores the chains that its fields ask for, each unless a field up to
    the one that asks is in its way. -/
theorem stores_of_spares (written : ∀ outline ∈ outlines, outline.WrittenOver context)
    {before after : List Field} {field : Field}
    (standing : expandedAll outlines = before ++ field :: after) (asks : field.AsksFor path)
    (spare : ∀ other ∈ before ++ [field], other.Spares context path) (supply : Nat) :
    Stores (storedMembers outlines supply) context path := by
  obtain ⟨pieces, each, gathered⟩ := exists_pieces_of_each
    (fun outline inside => exists_pieces (written outline inside) none) supply
  rw [standing] at each
  obtain ⟨expr, found, chained⟩ := Field.exists_chain_of_flatten each asks spare
  exact ⟨expr, by rw [storedMembers, Members.value?_firsts, gathered, found], chained⟩

/-! ## Stored chains that are read again -/

section Filled

variable {provider : Provider} {env : Environment} {members : Members Expr} {value : Value}
  {stock : Placeholder}

/-- A member of an evaluated object is the value of the expression under its name. -/
theorem evaluate_of_value? {object : Value} (distinct : members.Distinct)
    (evaluated : (Expr.evaluateObject provider members env).result = .ok object) {name : String}
    {expr : Expr} (held : members.value? name = some expr) :
    (expr.evaluate provider env).result = .ok (object.member name) := by
  obtain ⟨pairs, fields, rfl⟩ := map_result_eq_ok.mp evaluated
  have values := Expr.forall₂_of_evaluateFields fields
  have names : pairs.map Prod.fst = members.names :=
    names_of_forall₂ values fun _ _ related => related.1
  have apart : (pairs.map Prod.fst).Nodup := by rwa [names]
  obtain ⟨⟨own, result⟩, listed, same, valued⟩ :=
    exists_of_mem_forall₂ values.flip (Members.mem_of_value? held)
  obtain rfl : own = name := same
  rwa [Value.member_ofPairs apart listed]

/-- A placeholder for the objects that some members make of the values of a context holds the
    object that was made of one value. -/
structure FilledFrom (provider : Provider) (members : Members Expr) (context : Placeholder)
    (value : Value) (stock : Placeholder) (env : Environment) : Prop where
  shaped : ∃ title, stock.shape = (Expr.object title members).shape
  filled : ∃ earlier object, Environment.value? earlier context = some value ∧
    (Expr.evaluateObject provider members earlier).result = .ok object ∧
    env.value? stock = some object

/-- A chain that is stored has its value after it is moved to the stock. -/
theorem Stores.evaluate_moved (stores : Stores members context path) (distinct : members.Distinct)
    (filled : FilledFrom provider members context value stock env) {root : Placeholder}
    {node : Expr} (chained : node.chain? root = some path) :
    (node.substitute root (.read stock)).evaluate provider env = pure (value.along path) := by
  obtain ⟨expr, held, own⟩ := stores
  obtain ⟨⟨title, shape⟩, earlier, object, given, evaluated, stocked⟩ := filled
  have declared : stock.shape.hasMember (extractedName path) = true := by
    have found := member?_shape_of_distinct distinct title (extractedName path)
    rw [held] at found
    rw [shape]
    exact (congrArg Option.isSome found).trans rfl
  have carried := evaluate_of_value? distinct evaluated held
  rw [Expr.evaluate_of_chain? given own] at carried
  exact Expr.evaluate_moved_of_carried (Expr.evaluate_read stocked) chained declared
    (Except.ok.inj carried).symm

end Filled

end Outline

namespace Field

/-- A field that is moved to a stock is evaluated there as over the source: it has the outcome,
    with the calls, of its own expression over the value from which the stock was filled. -/
def ServedFrom (field : Field) (members : Members Expr) (context slot : Placeholder)
    (supply : Nat) : Prop :=
  ∀ (provider : Provider) (env : Environment) (stock : Placeholder) (value supplied : Value),
    Outline.FilledFrom provider members context value stock env → supply ≤ stock.number →
      env.value? slot = some supplied → ∀ base?,
        (field.relocate base? (.merging (.read stock)) field.expr).evaluate provider env =
          field.expr.evaluate provider
            [(slot.number, supplied), (field.context.number, value)]

/-- A closed field that calls a service is served from an object that stores all its chains.

    Proof: after the move its maximal chains have the values that they have over the source,
    and apart from them it reads the variables only. -/
theorem Closed.servedFrom {field : Field} {context slot : Placeholder}
    {owners : Placeholder → Prop} {supply : Nat} {members : Members Expr}
    (closed : field.Closed slot owners supply) (owned : owners field.context)
    (apart : field.context.number ≠ slot.number) (calls : field.callsService = true)
    (distinct : members.Distinct)
    (stores : ∀ path, field.AsksFor path → Outline.Stores members context path) :
    field.ServedFrom members context slot supply := by
  intro provider env stock value supplied filled unused given base?
  let own : Environment := [(slot.number, supplied), (field.context.number, value)]
  have rooted : own.value? field.context = some value := by
    simp [own, Environment.value?, Ne.symm apart]
  have suppliedToo : own.value? slot = some supplied := by simp [own, Environment.value?]
  have binders : field.expr.Binds fun number =>
      number ≠ field.context.number ∧ number ∉ (Expr.read stock).free := by
    refine closed.binds.mono ?_
    rintro number ⟨below, -, clear⟩
    have apart : number ≠ stock.number := Nat.ne_of_lt (Nat.lt_of_lt_of_le below unused)
    exact ⟨clear _ owned, by simpa [Expr.free] using apart⟩
  have agree (other : Placeholder) (free : other.number ∈ field.expr.free)
      (different : other.number ≠ field.context.number) :
      own.value? other = env.value? other := by
    have same := (closed.free other.number free).resolve_left different
    rw [Environment.value?_congr same, Environment.value?_congr same, suppliedToo, given]
  obtain ⟨shaped, earlier, object, valued, evaluated, stocked⟩ := filled
  refine Expr.evaluate_substitute_of_chains field.expr binders rooted agree ?_
  intro node visited path chained later same
  have based : later.value? stock = some object := by
    rw [← same stock (by simp [Expr.free]), stocked]
  exact (stores path (asksFor_of_chain calls visited chained)).evaluate_moved distinct
    ⟨shaped, earlier, object, valued, evaluated, based⟩ chained

end Field

/-! ## Every level of a tree -/

namespace Outline

/-- An outline stands among some outlines, or among the fields of a fragment that is spread
    there. -/
inductive StandsAmong (outline : Outline) : List Outline → Prop where
  | own {outlines : List Outline} (inside : outline ∈ outlines) : StandsAmong outline outlines
  | spread {outlines fields : List Outline} {field : Field}
      (inside : .spread field fields ∈ outlines) (deeper : StandsAmong outline fields) :
      StandsAmong outline outlines

variable {outline : Outline} {outlines : List Outline} {field : Field}

/-- What stands among outlines that are written over a placeholder is written over one. -/
theorem StandsAmong.exists_writtenOver (stands : outline.StandsAmong outlines)
    {context : Placeholder} (written : ∀ other ∈ outlines, other.WrittenOver context) :
    ∃ own, outline.WrittenOver own := by
  induction stands generalizing context with
  | own inside => exact ⟨context, written _ inside⟩
  | spread inside deeper ih =>
    cases written _ inside with
    | spread below => exact ih below

/-- The fields of what stands among outlines are fields of the outlines. -/
theorem StandsAmong.mem_allFields (stands : outline.StandsAmong outlines)
    (inside : field ∈ outline.fields) : field ∈ allFields outlines := by
  induction stands with
  | own listed => exact Outline.mem_allFields.mpr ⟨outline, listed, inside⟩
  | spread listed deeper ih =>
    exact Outline.mem_allFields.mpr ⟨_, listed, List.mem_cons_of_mem _ ih⟩

/-- The expanded fields of outlines are fields of them, if that holds of each. -/
theorem mem_allFields_of_expandedAll
    (each : ∀ outline ∈ outlines, field ∈ outline.expanded → field ∈ outline.fields)
    (inside : field ∈ expandedAll outlines) : field ∈ allFields outlines := by
  induction outlines with
  | nil => cases inside
  | cons first rest ih =>
    rcases List.mem_append.mp inside with own | later
    · exact List.mem_append_left _ (each first (by simp) own)
    · exact List.mem_append_right _
        (ih (fun outline listed => each outline (by simp [listed])) later)

/-- The field of an outline, or the fields that a spread stands for, are among all its fields. -/
theorem mem_fields_of_expanded (inside : field ∈ outline.expanded) : field ∈ outline.fields := by
  induction outline using Outline.induction with
  | scalar own => exact inside
  | selection own element isList children below =>
    obtain rfl := List.mem_singleton.mp inside
    exact List.mem_cons_self
  | spread own fields below =>
    exact List.mem_cons_of_mem _ (mem_allFields_of_expandedAll below inside)
  | endless => cases inside

end Outline

namespace SelectionTree

/-- The levels of a tree, each with the placeholder over which its fields are written: the
    query fields of the operation, the members of a mutation, and the members of a field that
    stands at a level. -/
inductive Level (tree : SelectionTree) : Placeholder → List Outline → Prop where
  | operation : Level tree tree.root tree.queryOutlines
  | mutation {address : Address} {field : Field} {element : Placeholder} {isList : Bool}
      {children : List Outline}
      (outlined : tree.outline? address = some (.selection field element isList children))
      (mutates : field.isMutation = true) : Level tree element children
  | members {context element : Placeholder} {field : Field} {isList : Bool}
      {outlines children : List Outline} (level : Level tree context outlines)
      (inside : (Outline.selection field element isList children).StandsAmong outlines) :
      Level tree element children

variable {practice : Practice} {tree : SelectionTree} {supply : Nat} {context : Placeholder}
  {outlines : List Outline}

/-- In an acyclic tree the fields of a level are written over its placeholder, and fields of
    fragments over that of the fragment. -/
theorem Level.writtenOver (level : tree.Level context outlines) (placed : tree.Placed)
    (acyclic : tree.Acyclic) : ∀ outline ∈ outlines, outline.WrittenOver context := by
  induction level with
  | operation => exact writtenOver_queryOutlines placed acyclic
  | mutation outlined mutates =>
    obtain ⟨field, stored, -⟩ := Option.map_eq_some_iff.mp outlined
    exact (writtenOver_outlineWithin placed stored outlined
      (acyclic.isFinite_outline outlined)).members
  | members level inside ih =>
    obtain ⟨own, written⟩ := inside.exists_writtenOver ih
    exact written.members

/-- The fields of a level are fields of the tree. -/
theorem Level.field? (level : tree.Level context outlines) :
    ∀ field ∈ Outline.allFields outlines, ∃ address, tree.field? address = some field := by
  induction level with
  | operation => exact fun field => field_of_mem_queryOutlines
  | mutation outlined mutates =>
    intro field inside
    exact field_of_mem_outlineWithin outlined field (List.mem_cons_of_mem _ inside)
  | members level inside ih =>
    intro field listed
    exact ih field (inside.mem_allFields (List.mem_cons_of_mem _ listed))

/-- Chains that are asked for are stored, unless a field is in their way. The first stage of an
    operation with services is the object of its query fields; `contribute_selection_stored`
    says which objects stand below. At every level of a built acyclic tree and for each field of
    the level, the object that a pass without services builds there, whichever placeholders it
    draws, stores every chain that the field asks for and that no field of the level up to this
    one is in the way of. Where a later stage reads the chain from such an object, it reads the
    value of the chain over the source. If this holds of all chains of a field and resolvers
    are closed, the later stage evaluates the field as its resolver asked.

    Proof: what a level contributes is what its fields contribute in turn. Up to the field in
    question nothing but the chain is contributed under the name of the chain, since different
    chains have different names. -/
theorem Built.chains_stored (built : tree.Built practice supply) (acyclic : tree.Acyclic) :
    tree.compile? false = some (tree.compile false) ∧
    (tree.operationHasServices? = some true → ∀ first,
      (tree.compile false first).1.first = .compile tree.root
        (.object tree.operationName (Outline.storedMembers tree.queryOutlines first))
        tree.variablesSlot false) ∧
    ∀ context outlines, tree.Level context outlines → ∀ before field after,
      Outline.expandedAll outlines = before ++ field :: after → ∀ first,
      let members := Outline.storedMembers outlines first
      (∀ path, field.AsksFor path → (∀ other ∈ before ++ [field], other.Spares context path) →
        Outline.Stores members context path ∧
        ∀ provider env stock value,
          Outline.FilledFrom provider members context value stock env →
          ∀ node : Expr, node.chain? field.context = some path →
            (node.substitute field.context (.read stock)).evaluate provider env =
              pure (value.along path)) ∧
      ((∀ definition, practice.offers definition → definition.Closed) →
        field.callsService = true →
        (∀ path, field.AsksFor path → ∀ other ∈ before ++ [field], other.Spares context path) →
        field.ServedFrom members context tree.variablesSlot supply) := by
  refine ⟨acyclic.compile? false, fun services first =>
    (runWith_compile_of_staged services first .null .null fun _ => none).1, ?_⟩
  intro context outlines level before field after standing first members
  have written := level.writtenOver built.placed acyclic
  have distinct : members.Distinct := Members.distinct_firsts _
  have stores (path : List String) (asks : field.AsksFor path)
      (spare : ∀ other ∈ before ++ [field], other.Spares context path) :
      Outline.Stores members context path :=
    Outline.stores_of_spares written standing asks spare first
  constructor
  · intro path asks spare
    refine ⟨stores path asks spare, ?_⟩
    intro provider env stock value filled node chained
    exact (stores path asks spare).evaluate_moved distinct filled chained
  · intro closed calls spare
    have isSealed := built.isSealed closed
    have inside : field ∈ Outline.expandedAll outlines := by simp [standing]
    obtain ⟨address, stored⟩ := level.field? field (Outline.mem_allFields_of_expandedAll
      (fun _ _ => Outline.mem_fields_of_expanded) inside)
    have owned : tree.Owns field.context := .context stored
    exact (isSealed.fields address field stored).servedFrom owned
      (isSealed.owners field.context owned).2 calls distinct
      fun path asks => stores path asks (spare path asks)

/-- In a regular tree no field is in the way of a chain, for no name begins as the names of
    chains do. -/
theorem Regular.spares (regular : tree.Regular) (owned : tree.Owns context) {address : Address}
    {field : Field} (stored : tree.field? address = some field) (path : List String) :
    field.Spares context path where
  unnamed _ same := by
    have plain := regular.fieldNames address field stored
    rw [same, isReserved_extractedName] at plain
    cases plain
  unmoved _ := .inr fun shorter _ => by
    apply Bool.eq_false_iff.mpr
    intro declared
    have plain := regular.memberNames context owned _ declared
    rw [isReserved_extractedName] at plain
    cases plain

/-- The id of a film is stored for its rating, which comes from a fragment of a fragment, and
    the rating is asked for as its resolver says. -/
theorem chains_stored_spreadFilms :
    spreadFilms.Built filmFragmentPractice 5 ∧ spreadFilms.Acyclic ∧
      ∃ outlines title rating, spreadFilms.Level ⟨4, "films", ratedFilm⟩ outlines ∧
        Outline.expandedAll outlines = [title, rating] ∧
        rating.callsService = true ∧ rating.AsksFor ["id"] ∧
        Outline.Stores (Outline.storedMembers outlines 5) ⟨4, "films", ratedFilm⟩ ["id"] ∧
        rating.ServedFrom (Outline.storedMembers outlines 5) ⟨4, "films", ratedFilm⟩
          ⟨1, "vars", .any⟩ 5 := by
  obtain ⟨films, children, title, rating, outlined, standing, atTitle, atRating⟩ :
      ∃ films children title rating,
        spreadFilms.queryOutlines = [.selection films ⟨4, "films", ratedFilm⟩ true children] ∧
        Outline.expandedAll children = [title, rating] ∧
        spreadFilms.field? ⟨1⟩ = some title ∧ spreadFilms.field? ⟨0⟩ = some rating :=
    ⟨_, _, _, _, rfl, rfl, rfl, rfl⟩
  have level : spreadFilms.Level ⟨4, "films", ratedFilm⟩ children :=
    .members .operation (.own (by rw [outlined]; exact List.mem_cons_self))
  have owned : spreadFilms.Owns ⟨4, "films", ratedFilm⟩ :=
    @Owns.element _ ⟨3⟩ _ _ rfl rfl
  have spare (path : List String) (other : Field) (listed : other ∈ [title] ++ [rating]) :
      other.Spares ⟨4, "films", ratedFilm⟩ path := by
    rcases List.mem_pair.mp listed with rfl | rfl
    · exact regular_spreadFilms.spares owned atTitle path
    · exact regular_spreadFilms.spares owned atRating path
  have calls : rating.callsService = true := by
    obtain rfl := Option.some.inj atRating
    rfl
  have asks : rating.AsksFor ["id"] := by
    obtain rfl := Option.some.inj atRating
    exact ⟨_, List.mem_cons_self⟩
  obtain ⟨-, -, every⟩ := built_spreadFilms.chains_stored regular_spreadFilms.acyclic
  obtain ⟨stores, serves⟩ := every _ _ level [title] rating [] standing 5
  exact ⟨built_spreadFilms, regular_spreadFilms.acyclic, children, title, rating, level, standing,
    calls, asks, (stores ["id"] asks (spare ["id"])).1,
    serves closed_filmPractice calls fun path _ => spare path⟩

-- A title that is selected under the name of a chain is stored in the place of the chain,
-- whatever fields follow.
example (others : List Outline) (supply : Nat) :
    let title : Field :=
      { name := extractedName ["id"]
        kind := .scalar
        expr := .member (.read ⟨0, "ctx", .any⟩) "title" (.scalar .string)
        context := ⟨0, "ctx", .any⟩ }
    (Outline.storedMembers (.scalar title :: others) supply).value? (extractedName ["id"]) =
      some title.expr := by
  intro title
  rw [Outline.storedMembers, Members.value?_firsts]
  rfl

end SelectionTree

end StagedQuery
