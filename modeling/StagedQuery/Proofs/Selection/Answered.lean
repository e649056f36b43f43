import StagedQuery.Proofs.Selection.Layout

/-!
# Which leaves are answered

A leaf is a field of which no members are selected. At every level of a result, where names
are distinct, a leaf of a scalar kind has a member under its name. A leaf that is declared
with an object or a list has none: it contributes nothing, whatever the items of the list
are declared to be.

Where resolvers are closed, hooks act on values and no name begins as the names of chains do,
every member is the one that was asked for: the value of the field's expression over the value
above it, after the hooks of the field, with its members selected from that value or from each
item of what the hooks leave of it.
-/

namespace StagedQuery

open Outcome

namespace Outline

/-! ## Leaves at every level -/

/-- The levels of a result: the fields that are selected at a place of the result, and the
    members of the object that stands there. The fields of a spread stand where it does, and
    the members of a field stand in its objects, unless a hook put something else there. -/
inductive Reached (outlines : List Outline) (pairs : List (String × Value)) :
    List Outline → List (String × Value) → Prop where
  | top : Reached outlines pairs outlines pairs
  | spread {children fields : List Outline} {members : List (String × Value)} {field : Field}
      (level : Reached outlines pairs children members)
      (inside : .spread field fields ∈ children) : Reached outlines pairs fields members
  | object {children below : List Outline} {members inner : List (String × Value)}
      {field : Field} {element : Placeholder} (level : Reached outlines pairs children members)
      (inside : .selection field element false below ∈ children)
      (keep : ∀ extension ∈ field.extensions, extension.KeepsSelections)
      (found : (field.name, .object inner) ∈ members) : Reached outlines pairs below inner
  | item {children below : List Outline} {members inner : List (String × Value)}
      {field : Field} {element : Placeholder} {items : List Value}
      (level : Reached outlines pairs children members)
      (inside : .selection field element true below ∈ children)
      (keep : ∀ extension ∈ field.extensions, extension.KeepsSelections)
      (found : (field.name, .list items) ∈ members) (listed : .object inner ∈ items) :
      Reached outlines pairs below inner

/-- Leaves of a scalar kind have members, other leaves have none. -/
def KeepsScalarLeaves (children : List Outline) (members : List (String × Value)) : Prop :=
  (∀ field, .scalar field ∈ children → field.name ∈ members.map Prod.fst) ∧
    ∀ field element isList, .selection field element isList [] ∈ children →
      field.name ∉ members.map Prod.fst

variable {outline : Outline} {outlines children fields below : List Outline} {field : Field}
  {pairs members inner : List (String × Value)} {name : String}

/-- The fields of an outline are among the expanded fields of all, in their order. -/
theorem expanded_sublist (inside : outline ∈ outlines) :
    outline.expanded.Sublist (expandedAll outlines) := by
  induction outlines with
  | nil => cases inside
  | cons first rest ih =>
    rcases List.mem_cons.mp inside with rfl | deeper
    · exact List.sublist_append_left _ _
    · exact (ih deeper).trans (List.sublist_append_right _ _)

/-- Where names are distinct, an outline is the only one that shows a name of its fields. -/
theorem shown_of_distinct (distinct : ((expandedAll outlines).map Field.name).Nodup)
    (inside : outline ∈ outlines) (own : name ∈ outline.expanded.map Field.name) :
    (name ∈ visibleAll outlines ↔ name ∈ outline.visible) ∧ ∀ value,
      name ∈ outline.visible → LaysFirst outlines name value → outline.Lays name value := by
  induction outlines with
  | nil => cases inside
  | cons first rest ih =>
    simp only [expandedAll, List.map_append] at distinct
    obtain ⟨-, distinctRest, apart⟩ := List.nodup_append.mp distinct
    rcases List.mem_cons.mp inside with rfl | deeper
    · have hidden : name ∉ visibleAll rest := fun shown =>
        apart name own name ((visibleAll_sublist fun other _ => other.visible_sublist).mem shown)
          rfl
      refine ⟨by simp [visibleAll, hidden], fun value shown first => ?_⟩
      rwa [LaysFirst, if_pos shown] at first
    · have later := ((expanded_sublist deeper).map Field.name).mem own
      have hidden : name ∉ first.visible := fun shown =>
        apart name (first.visible_sublist.mem shown) name later rfl
      obtain ⟨shows, lays⟩ := ih distinctRest deeper
      refine ⟨by simp [visibleAll, hidden, shows], fun value shown first => ?_⟩
      rw [LaysFirst, if_neg hidden] at first
      exact lays value shown first

/-- The members of an object under the names of some outlines, which need not be all that
    contribute to the object, are those that the outlines lay out. -/
structure LaysOut (children : List Outline) (members : List (String × Value)) : Prop where
  named : ∀ name ∈ (expandedAll children).map Field.name,
    (name ∈ members.map Prod.fst ↔ name ∈ visibleAll children)
  fits : ∀ name value, name ∈ visibleAll children → (name, value) ∈ members →
    LaysFirst children name value
  distinct : ((expandedAll children).map Field.name).Nodup
  distinctBelow : DistinctBelow children

/-- What all contributing outlines lay out, under distinct names, is laid out by them. -/
theorem LaysAll.laysOut (laid : LaysAll children members)
    (distinct : ((expandedAll children).map Field.name).Nodup)
    (distinctBelow : DistinctBelow children) : LaysOut children members :=
  ⟨fun name _ => laid.named name, fun name value _ => laid.fits name value, distinct,
    distinctBelow⟩

/-- The fields of a spread lay out their part of the object. -/
theorem LaysOut.spread (laid : LaysOut children members)
    (inside : .spread field fields ∈ children) : LaysOut fields members where
  named := by
    intro name own
    have listed := ((expanded_sublist inside).map Field.name).mem own
    rw [laid.named name listed]
    exact (shown_of_distinct laid.distinct inside own).1
  fits := by
    intro name value shown found
    have own := (visibleAll_sublist fun other _ => other.visible_sublist).mem shown
    obtain ⟨shows, lays⟩ := shown_of_distinct laid.distinct inside own
    have first := laid.fits name value (shows.mpr shown) found
    simpa only [Lays] using lays value shown first
  distinct := laid.distinct.sublist ((expanded_sublist inside).map Field.name)
  distinctBelow := by
    simpa only [Distinct] using distinctBelow_iff.mp laid.distinctBelow _ inside

/-- What stands under the name of a field whose hooks keep selections is made of objects that
    the members of the field lay out. -/
theorem LaysOut.madeOf (laid : LaysOut children members) {element : Placeholder} {isList : Bool}
    (inside : .selection field element isList below ∈ children)
    (keep : ∀ extension ∈ field.extensions, extension.KeepsSelections) {value : Value}
    (found : (field.name, value) ∈ members) : value.MadeOf (LaysAll below) isList := by
  have own : field.name ∈ (expanded (.selection field element isList below)).map Field.name := by
    simp [expanded]
  obtain ⟨shows, lays⟩ := shown_of_distinct laid.distinct inside own
  have listed := ((expanded_sublist inside).map Field.name).mem own
  have shown := (laid.named field.name listed).mp (List.mem_map_of_mem found)
  have first := laid.fits field.name value shown found
  have made := lays value (shows.mp shown) first
  simp only [Lays] at made
  exact made keep

/-- What an object of laid out members is made of is laid out. -/
theorem laysAll_of_object (object : ∃ pairs, Value.object inner = .ofPairs pairs ∧
    LaysAll below pairs) : LaysAll below inner := by
  obtain ⟨pairs, same, laid⟩ := object
  have members : inner = Members.ofPairs pairs := Value.object.inj same
  rwa [members, Members.ofPairs_of_distinct laid.distinct]

/-- Every level of a result is laid out by the fields that are selected there. -/
theorem Reached.laysOut (reached : Reached outlines pairs children members)
    (laid : LaysOut outlines pairs) : LaysOut children members := by
  have distinctBelow {children below : List Outline} {members : List (String × Value)}
      {field : Field} {element : Placeholder} {isList : Bool} (above : LaysOut children members)
      (inside : .selection field element isList below ∈ children) :
      ((expandedAll below).map Field.name).Nodup ∧ DistinctBelow below := by
    simpa only [Distinct] using distinctBelow_iff.mp above.distinctBelow _ inside
  induction reached with
  | top => exact laid
  | spread level inside ih => exact ih.spread inside
  | object level inside keep found ih =>
    obtain ⟨distinct, deeper⟩ := distinctBelow ih inside
    have made := (ih.madeOf inside keep found).resolve_left (by simp)
    exact (laysAll_of_object made).laysOut distinct deeper
  | item level inside keep found listed ih =>
    obtain ⟨distinct, deeper⟩ := distinctBelow ih inside
    obtain ⟨items, same, each⟩ := (ih.madeOf inside keep found).resolve_left (by simp)
    obtain rfl := Value.list.inj same
    exact (laysAll_of_object (each _ listed)).laysOut distinct deeper

/-- Where names are distinct, the leaves that have members are those of a scalar kind. -/
theorem LaysOut.keepsScalarLeaves (laid : LaysOut children members) :
    KeepsScalarLeaves children members := by
  constructor
  · intro field inside
    have own : field.name ∈ (expanded (.scalar field)).map Field.name := by simp [expanded]
    have listed := ((expanded_sublist inside).map Field.name).mem own
    rw [laid.named field.name listed, (shown_of_distinct laid.distinct inside own).1]
    simp [visible]
  · intro field element isList inside
    have own : field.name ∈ (expanded (.selection field element isList [])).map Field.name := by
      simp [expanded]
    have listed := ((expanded_sublist inside).map Field.name).mem own
    rw [laid.named field.name listed, (shown_of_distinct laid.distinct inside own).1]
    simp [visible, visibleAll]

end Outline

/-! ## The values of members -/

/-- Whether a value is made of what members are over another: null for null, an object for a
    value, or an object for each item of a list. -/
def Value.AnsweredBy (members : Value → List (String × Value) → Prop) (isList : Bool)
    (source result : Value) : Prop :=
  if source.isNull then result = .null
  else if isList then ∃ items results, source = .list items ∧ result = .list results ∧
    List.Forall₂ (fun item result => ∃ pairs, result = .object pairs ∧ members item pairs) items
      results
  else ∃ pairs, result = .object pairs ∧ members source pairs

namespace Outline

mutual

/-- Whether named values answer an outline over a value. A leaf of a scalar kind is answered by
    the value of its expression after its hooks. A field with visible members is answered by
    their answers over the value of its expression, or over each of its items, as far as the
    hooks after a selection leave the items there. -/
def Answers (setting : Setting) : Outline → Value → List (String × Value) → Prop
  | .scalar field, value, pairs => ∃ result, pairs = [(field.name, result)] ∧
    setting.Finds Extension.onScalar field field.expr value result
  | .selection field _ isList children, value, pairs =>
    if (visibleAll children).isEmpty then pairs = []
    else ∃ source shown result, pairs = [(field.name, result)] ∧
      setting.Finds Extension.beforeSelection field field.expr value source ∧
      setting.Finds Extension.afterSelection field (.constant source) value shown ∧
      shown.AnsweredBy (AnswersAll setting children) isList result
  | .spread _ fields, value, pairs => AnswersAll setting fields value pairs
  | .endless, _, pairs => pairs = []

/-- Whether named values answer some outlines over a value, in order. -/
def AnswersAll (setting : Setting) : List Outline → Value → List (String × Value) → Prop
  | [], _, pairs => pairs = []
  | first :: rest, value, pairs => ∃ own others, pairs = own ++ others ∧
    Answers setting first value own ∧ AnswersAll setting rest value others

end

end Outline

/-! ## Selections as answers -/

section AnsweredBy

variable {members : Value → List (String × Value) → Prop} {isList : Bool}
  {source selected result : Value}

/-- What is selected from a source is made of what the body finds over it or its items. -/
theorem answeredBy_of_selectFrom {body : Value → Outcome (List (String × Value))}
    (each : ∀ item pairs, (body item).result = .ok pairs →
      members item pairs ∧ (pairs.map Prod.fst).Nodup)
    (selects : (selectFrom isList (fun item => Value.ofPairs <$> body item) source).result =
      .ok selected) : source.AnsweredBy members isList selected := by
  have objects (item result : Value)
      (made : (Value.ofPairs <$> body item).result = .ok result) :
      ∃ pairs, result = .object pairs ∧ members item pairs := by
    obtain ⟨pairs, found, rfl⟩ := map_result_eq_ok.mp made
    obtain ⟨answers, distinct⟩ := each item pairs found
    exact ⟨pairs, Value.ofPairs_of_distinct distinct, answers⟩
  unfold Value.AnsweredBy
  rcases selectFrom_cases selects with
    ⟨rfl, rfl⟩ | ⟨present, rfl, made⟩ | ⟨items, results, rfl, rfl, rfl, each⟩
  · rw [if_pos (show Value.null.isNull = true from rfl)]
  · have filled : source.isNull = false := by
      cases source with
      | null => exact absurd rfl present
      | bool | int | float | string | enumeration | list | object => rfl
    rw [filled]
    exact objects source selected made
  · exact ⟨items, results, rfl, rfl, each.imp objects⟩

/-- A cut of what was selected is what is selected from the cut source. -/
theorem Value.AnsweredBy.cut (answered : source.AnsweredBy members isList selected)
    {cuts : List Cut} (cut : (cutValue cuts selected).result = .ok result) :
    ∃ shown, (cutValue cuts source).result = .ok shown ∧
      shown.AnsweredBy members isList result := by
  by_cases null : source.isNull = true
  · have absent : source = .null := by
      cases source with
      | null => rfl
      | bool | int | float | string | enumeration | list | object => cases null
    subst absent
    rw [Value.AnsweredBy, if_pos null] at answered
    rw [answered, cutValue_null] at cut
    refine ⟨.null, by rw [cutValue_null]; rfl, ?_⟩
    rw [Value.AnsweredBy, if_pos null]
    exact (Except.ok.inj cut).symm
  · have whole := answered
    rw [Value.AnsweredBy, if_neg null] at answered
    cases isList with
    | false =>
      obtain ⟨pairs, rfl, -⟩ := answered
      obtain ⟨rfl, rfl⟩ := cutValue_object cut
      exact ⟨source, rfl, whole⟩
    | true =>
      obtain ⟨items, results, rfl, rfl, each⟩ := answered
      rw [cutValue_list] at cut
      obtain rfl := Except.ok.inj cut
      exact ⟨.list (cutItems cuts items), by rw [cutValue_list]; rfl, _, _, rfl, rfl,
        forall₂_cutItems cuts each⟩

end AnsweredBy

/-! ## Meanings as answers -/

namespace Outline

variable {frame : Frame} {context : Placeholder} {outline : Outline} {outlines : List Outline}
  {value : Value} {pairs : List (String × Value)} {setting : Setting}

/-- Outlines answer under their visible names in order, if each of them does. -/
theorem names_of_answersAll
    (each : ∀ outline ∈ outlines, ∀ pairs, outline.Answers setting value pairs →
      pairs.map Prod.fst = outline.visible)
    (answers : AnswersAll setting outlines value pairs) :
    pairs.map Prod.fst = visibleAll outlines := by
  induction outlines generalizing pairs with
  | nil =>
    obtain rfl : pairs = [] := by simpa only [AnswersAll] using answers
    rfl
  | cons first rest ih =>
    simp only [AnswersAll] at answers
    obtain ⟨own, others, rfl, here, there⟩ := answers
    rw [List.map_append, visibleAll, each first (by simp) own here,
      ih (fun outline inside => each outline (by simp [inside])) there]

/-- What answers an outline has the visible names and no others. -/
theorem names_of_answers (answers : outline.Answers setting value pairs) :
    pairs.map Prod.fst = outline.visible := by
  induction outline using Outline.induction generalizing value pairs with
  | scalar field =>
    simp only [Answers] at answers
    obtain ⟨result, rfl, -⟩ := answers
    rfl
  | selection field element isList children below =>
    simp only [Answers] at answers
    simp only [visible]
    split at answers <;> rename_i hidden
    · rw [if_pos hidden, answers, List.map_nil]
    · obtain ⟨source, shown, result, rfl, -⟩ := answers
      rw [if_neg hidden, List.map_cons, List.map_nil]
  | spread field fields below =>
    simp only [Answers] at answers
    exact names_of_answersAll (fun child inside pairs => below child inside) answers
  | endless =>
    simp only [Answers] at answers
    rw [answers]
    rfl

/-- Outlines that are evaluated in turn are answered if each of them is. -/
theorem answersAll_of_each {one : Outline → Value → Outcome (List (String × Value))}
    {all : List Outline → Value → Outcome (List (String × Value))}
    (nil : ∀ value, all [] value = pure [])
    (cons : ∀ first rest value, all (first :: rest) value =
      one first value >>= fun own => all rest value >>= fun others => pure (own ++ others))
    (each : ∀ outline ∈ outlines, ∀ pairs, (one outline value).result = .ok pairs →
      outline.Answers setting value pairs)
    (found : (all outlines value).result = .ok pairs) :
    AnswersAll setting outlines value pairs := by
  induction outlines generalizing pairs with
  | nil =>
    rw [nil] at found
    simp only [AnswersAll]
    exact (Except.ok.inj found).symm
  | cons first rest ih =>
    rw [cons] at found
    obtain ⟨own, head, later⟩ := bind_result_eq_ok.mp found
    obtain ⟨others, tail, joined⟩ := bind_result_eq_ok.mp later
    simp only [AnswersAll]
    exact ⟨own, others, (Except.ok.inj joined).symm, each first (by simp) own head,
      ih (fun outline inside => each outline (by simp [inside])) tail⟩

/-- Fields with distinct names that are evaluated in turn over any value have answers with
    distinct names, if each of them has answers. -/
theorem distinct_answersAll_of_each {one : Outline → Value → Outcome (List (String × Value))}
    {all : List Outline → Value → Outcome (List (String × Value))}
    (distinct : ((expandedAll outlines).map Field.name).Nodup)
    (nil : ∀ value, all [] value = pure [])
    (cons : ∀ first rest value, all (first :: rest) value =
      one first value >>= fun own => all rest value >>= fun others => pure (own ++ others))
    (each : ∀ outline ∈ outlines, ∀ {value pairs}, (one outline value).result = .ok pairs →
      outline.Answers setting value pairs) (value : Value) (pairs : List (String × Value))
    (found : (all outlines value).result = .ok pairs) :
    AnswersAll setting outlines value pairs ∧ (pairs.map Prod.fst).Nodup := by
  have answers : AnswersAll setting outlines value pairs :=
    answersAll_of_each nil cons (fun outline inside _ => each outline inside) found
  refine ⟨answers, ?_⟩
  rw [names_of_answersAll (fun outline _ pairs => names_of_answers) answers]
  exact nodup_visibleAll distinct

/-- A selection is answered if its members are, over what the hooks leave of its source. -/
theorem answers_selection {field : Field} {element : Placeholder} {isList : Bool}
    {children : List Outline} (fits : frame.Fits field)
    (filled : ¬(visibleAll children).isEmpty = true) {source shown result : Value}
    (found : (frame.valueOf field value >>= (frame.actions field).before).result = .ok source)
    (cut : (cutValue (frame.actions field).cuts source).result = .ok shown)
    (answered : shown.AnsweredBy (AnswersAll frame.setting children) isList result) :
    (Outline.selection field element isList children).Answers frame.setting value
      [(field.name, result)] := by
  simp only [Answers, if_neg filled]
  exact ⟨source, shown, result, rfl, (Frame.finds_iff fits fits.acts.before).mpr found,
    (Frame.finds_iff fits fits.acts.after).mpr cut, answered⟩

/-- The meaning of an outline answers it.

    Proof: induction on the outline. A cut after a selection leaves what would have been
    selected from the items that it leaves. -/
theorem Suits.answers_of_meaning (suits : Suits frame context outline)
    (means : (outline.meaning frame value).result = .ok pairs) :
    outline.Answers frame.setting value pairs := by
  induction suits generalizing value pairs with
  | @scalar field fits =>
    simp only [meaning] at means
    obtain ⟨result, found, same⟩ := bind_result_eq_ok.mp means
    simp only [Answers]
    exact ⟨result, (Except.ok.inj same).symm, (Frame.finds_iff fits fits.acts.onScalar).mpr found⟩
  | @selection field element isList children fits selects lists distinct below ih =>
    simp only [meaning] at means
    split at means <;> rename_i hidden
    · simp only [Answers, if_pos hidden]
      exact (Except.ok.inj means).symm
    · obtain ⟨source, found, later⟩ := bind_result_eq_ok.mp means
      obtain ⟨selected, selecting, rest⟩ := bind_result_eq_ok.mp later
      obtain ⟨result, cut, same⟩ := bind_result_eq_ok.mp rest
      obtain rfl := Except.ok.inj same
      have items := @distinct_answersAll_of_each _ frame.setting _ (meaningAll frame) distinct
        (fun _ => rfl) (fun _ _ _ => rfl) ih
      obtain ⟨shown, cutFirst, answered⟩ := (answeredBy_of_selectFrom items selecting).cut cut
      exact answers_selection fits hidden found cutFirst answered
  | @spread field slot fields below ih =>
    simp only [meaning] at means
    simp only [Answers]
    exact answersAll_of_each (fun _ => rfl) (fun _ _ _ => rfl)
      (fun child inside pairs => ih child inside) means

/-- What two stages find for an outline answers it.

    Proof: induction on the outline. A field that calls a service itself is found as in one
    stage; any other selection is cut before its members are selected. -/
theorem Suits.answers_of_staged (suits : Suits frame context outline)
    (finds : (outline.staged frame value).result = .ok pairs) :
    outline.Answers frame.setting value pairs := by
  induction suits generalizing value pairs with
  | @scalar field fits => exact (Suits.scalar fits).answers_of_meaning finds
  | @selection field element isList children fits selects lists distinct below ih =>
    simp only [staged] at finds
    split at finds
    · exact (Suits.selection fits selects lists distinct below).answers_of_meaning finds
    · split at finds <;> rename_i hidden
      · simp only [Answers, if_pos hidden]
        exact (Except.ok.inj finds).symm
      · obtain ⟨source, found, later⟩ := bind_result_eq_ok.mp finds
        obtain ⟨kept, cut, rest⟩ := bind_result_eq_ok.mp later
        obtain ⟨result, selecting, same⟩ := bind_result_eq_ok.mp rest
        obtain rfl := Except.ok.inj same
        have items := @distinct_answersAll_of_each _ frame.setting _ (stagedAll frame) distinct
          (fun _ => rfl) (fun _ _ _ => rfl) ih
        exact answers_selection fits hidden found cut (answeredBy_of_selectFrom items selecting)
  | @spread field slot fields below ih =>
    simp only [staged] at finds
    simp only [Answers]
    exact answersAll_of_each (fun _ => rfl) (fun _ _ _ => rfl)
      (fun child inside pairs => ih child inside) finds

end Outline

namespace SelectionTree

variable {practice : Practice} {tree : SelectionTree} {supply : Nat}

/-- Whatever an orderly tree with closed fields is answered with answers its query fields, if
    its hooks act and add no service. -/
theorem Orderly.answersAll (orderly : tree.Orderly) (hooks : tree.HooksAddNoService)
    (placed : tree.Placed) (closed : tree.Sealed supply) {compileSupply : Nat}
    (compiled : supply ≤ compileSupply) {root : Value} {supplied : Variables}
    {provider : Provider} (acts : tree.HooksAct supplied.toValue provider) {answer : Option Value}
    (succeeded : ((tree.compile false compileSupply).1.executeWith root supplied provider).result =
      .ok answer) :
    ∃ pairs, answer = some (.object pairs) ∧ (pairs.map Prod.fst).Nodup ∧
      Outline.AnswersAll ⟨tree.variablesSlot, supplied.toValue, provider, supply⟩
        tree.queryOutlines root pairs := by
  obtain ⟨frame, given, rfl, rfl, framed⟩ := orderly.exists_frame closed acts
  have setting : frame.setting =
      ⟨tree.variablesSlot, supplied.toValue, frame.provider, frame.supply⟩ := by
    rw [Frame.setting, framed.slot, given]
  have suits := suits_queryOutlines placed framed orderly
  rw [← setting]
  rw [Query.executeWith, ← given,
    runWith_compile_eq placed framed orderly hooks compiled] at succeeded
  have named {found : Outcome (List (String × Value))}
      (each : ∀ pairs, found.result = .ok pairs →
        Outline.AnswersAll frame.setting tree.queryOutlines root pairs ∧
          (pairs.map Prod.fst).Nodup)
      (succeeded : (some <$> Value.ofPairs <$> found).result = .ok answer) :
      ∃ pairs, answer = some (.object pairs) ∧ (pairs.map Prod.fst).Nodup ∧
        Outline.AnswersAll frame.setting tree.queryOutlines root pairs := by
    obtain ⟨value, made, rfl⟩ := map_result_eq_ok.mp succeeded
    obtain ⟨pairs, evaluated, rfl⟩ := map_result_eq_ok.mp made
    obtain ⟨answers, distinct⟩ := each pairs evaluated
    exact ⟨pairs, congrArg some (Value.ofPairs_of_distinct distinct), distinct, answers⟩
  split at succeeded
  · obtain ⟨_, -, staged⟩ := bind_result_eq_ok.mp succeeded
    exact named (Outline.distinct_answersAll_of_each orderly.distinct (fun _ => rfl)
      (fun _ _ _ => rfl) (fun outline inside => (suits outline inside).answers_of_staged) root)
      staged
  · exact named (Outline.distinct_answersAll_of_each orderly.distinct (fun _ => rfl)
      (fun _ _ _ => rfl) (fun outline inside => (suits outline inside).answers_of_meaning) root)
      succeeded

/-- Which leaves are answered. In a built acyclic tree with distinct names, whenever the query
    has a value it is an object, and at every level of it each leaf of a scalar kind has a
    member, while a leaf that is declared with a list or an object has none. If resolvers are
    closed, hooks act and add no service, and no name begins as the names of chains do, each
    member is the answer to its field: for a leaf of a scalar kind the value of its expression
    over the value above it, after its hooks.

    Proof: at every level the members are those of the visible fields, and leaves are visible
    exactly if they are of a scalar kind. The meaning of the query fields, in one stage or in
    two, answers them. -/
theorem Built.leaves_answered (built : tree.Built practice supply) (acyclic : tree.Acyclic)
    (distinct : ((Outline.expandedAll tree.queryOutlines).map Field.name).Nodup)
    (distinctBelow : Outline.DistinctBelow tree.queryOutlines) {compileSupply : Nat}
    (compiled : supply ≤ compileSupply) (root : Value) (supplied : Variables)
    (provider : Provider) :
    tree.compile? false = some (tree.compile false) ∧
    ∀ answer, ((tree.compile false compileSupply).1.executeWith root supplied provider).result =
        .ok answer →
      ∃ pairs, answer = some (.object pairs) ∧
        (∀ children members, Outline.Reached tree.queryOutlines pairs children members →
          Outline.KeepsScalarLeaves children members) ∧
        ((∀ definition, practice.offers definition → definition.Closed) → tree.Orderly →
          tree.HooksAddNoService → tree.HooksAct supplied.toValue provider →
          Outline.AnswersAll ⟨tree.variablesSlot, supplied.toValue, provider, supply⟩
            tree.queryOutlines root pairs) := by
  refine ⟨acyclic.compile? false, fun answer succeeded => ?_⟩
  obtain ⟨pairs, same, laid⟩ := laysAll_of_executeWith succeeded
  refine ⟨pairs, same, fun children members reached => ?_, fun closed orderly hooks acts => ?_⟩
  · exact (reached.laysOut (laid.laysOut distinct distinctBelow)).keepsScalarLeaves
  · obtain ⟨others, alike, -, answers⟩ :=
      orderly.answersAll hooks built.placed (built.isSealed closed) compiled acts succeeded
    obtain rfl := Value.object.inj (Option.some.inj (same.symm.trans alike))
    exact answers

/-! ## A film with tags -/

/-- The tags of a film, which are strings. -/
def tagsDefinition : FieldDefinition :=
  .ofMember "tags" (.list (.scalar .string))

/-- The titles, tags and ratings of films. -/
def taggedFilms : SelectionTree where
  root := ⟨0, "ctx", .any⟩
  variablesSlot := ⟨1, "vars", .any⟩
  bound := .empty
  fields := ⟨#[
    { name := "films"
      kind := .list ⟨2, "films", ratedFilm⟩
      expr := .member (.read ⟨0, "ctx", .any⟩) "films" (.list ratedFilm)
      context := ⟨0, "ctx", .any⟩
      arguments := ArgumentSet.empty.readVariablesFrom ⟨1, "vars", .any⟩
      children := [⟨1⟩, ⟨2⟩, ⟨3⟩] },
    { name := "title"
      kind := .scalar
      expr := .member (.read ⟨2, "films", ratedFilm⟩) "title" (.scalar .string)
      context := ⟨2, "films", ratedFilm⟩
      arguments := ArgumentSet.empty.readVariablesFrom ⟨1, "vars", .any⟩
      parent? := some ⟨0⟩ },
    { name := "tags"
      kind := .list ⟨3, "tags", .scalar .string⟩
      expr := .member (.read ⟨2, "films", ratedFilm⟩) "tags" (.list (.scalar .string))
      context := ⟨2, "films", ratedFilm⟩
      arguments := ArgumentSet.empty.readVariablesFrom ⟨1, "vars", .any⟩
      parent? := some ⟨0⟩ },
    { name := "rating"
      kind := .scalar
      expr := .service ⟨"Ratings"⟩ "rating"
        [(Expr.read ⟨2, "films", ratedFilm⟩).get "id"] (.scalar .int) fun state _ => .ok state
      context := ⟨2, "films", ratedFilm⟩
      arguments := ArgumentSet.empty.readVariablesFrom ⟨1, "vars", .any⟩
      parent? := some ⟨0⟩ }]⟩
  roots := [⟨0⟩]
  fragments := .empty

/-- Callers who select films with their titles, tags and ratings and spread nothing. -/
def tagPractice : Practice where
  offers definition :=
    definition ∈ [filmsDefinition, titleDefinition, tagsDefinition, ratingDefinition]
  admits _ _ _ := False

/-- The films are selected, then the title, the tags and the rating of each. -/
theorem built_taggedFilms : taggedFilms.Built tagPractice 4 := by
  have start : Built tagPractice (drawSelectionTree .any 0).1 2 := .start .any 0
  have films := @Built.select _ _ _ _ .operation filmsDefinition .empty none ⟨0⟩ start
    (by simp [tagPractice]) rfl
  have title := @Built.select _ _ _ _ (.field ⟨0⟩) titleDefinition .empty none ⟨1⟩ films
    (by simp [tagPractice]) rfl
  have tags := @Built.select _ _ _ _ (.field ⟨0⟩) tagsDefinition .empty none ⟨2⟩ title
    (by simp [tagPractice]) rfl
  exact @Built.select _ _ taggedFilms _ (.field ⟨0⟩) ratingDefinition .empty none ⟨3⟩ tags
    (by simp [tagPractice]) rfl

/-- The resolvers of the tagged films are closed. -/
theorem closed_tagPractice (definition : FieldDefinition)
    (offered : tagPractice.offers definition) : definition.Closed := by
  simp only [tagPractice, List.mem_cons, List.not_mem_nil, or_false] at offered
  rcases offered with rfl | rfl | rfl | rfl
  · exact FieldDefinition.closed_ofMember _ _
  · exact FieldDefinition.closed_ofMember _ _
  · exact FieldDefinition.closed_ofMember _ _
  · exact closed_ratingDefinition

/-- The tree of tagged films is regular. -/
theorem regular_taggedFilms : taggedFilms.Regular where
  acyclic := built_taggedFilms.acyclic (by simp [tagPractice])
  distinct := by decide
  distinctBelow := ⟨⟨by decide, trivial, ⟨by decide, trivial⟩, trivial, trivial⟩, trivial⟩
  fieldNames := by
    intro address field stored
    obtain ⟨_ | _ | _ | _ | index⟩ := address <;> cases stored <;> rfl
  memberNames := by
    intro owner owns name declared
    cases owns with
    | root => cases declared
    | @context address field stored =>
      obtain ⟨_ | _ | _ | _ | index⟩ := address <;> cases stored
      · cases declared
      all_goals exact unreserved_of_film (.inr rfl) name declared
    | @element address field slot stored selects =>
      obtain ⟨_ | _ | _ | _ | index⟩ := address <;> cases stored <;> cases selects
      · exact unreserved_of_film (.inr rfl) name declared
      · cases declared
    | @fragment address fragment stored => cases stored
  builtIn := by
    intro address field stored extension inside
    obtain ⟨_ | _ | _ | _ | index⟩ := address <;> cases stored <;> cases inside

/-- A film with two tags. -/
def taggedRoot : Value :=
  .object [("films", .list [.object [("id", .string "a"), ("title", .string "Heat"),
    ("tags", .list [.string "crime", .string "drama"])]])]

/-- The title and the rating of the film are answered. Its tags, which the film has, are not. -/
theorem leaves_answered_taggedFilms :
    taggedFilms.Built tagPractice 4 ∧ taggedFilms.Regular ∧
      (∀ definition, tagPractice.offers definition → definition.Closed) ∧
      ((taggedFilms.compile false 4).1.executeWith taggedRoot .empty ratingsProvider).result =
        .ok (some heatAnswer) ∧
      ∃ pairs, heatAnswer = .object pairs ∧
        (∀ children members, Outline.Reached taggedFilms.queryOutlines pairs children members →
          Outline.KeepsScalarLeaves children members) ∧
        Outline.AnswersAll ⟨⟨1, "vars", .any⟩, Variables.empty.toValue, ratingsProvider, 4⟩
          taggedFilms.queryOutlines taggedRoot pairs := by
  have succeeded : ((taggedFilms.compile false 4).1.executeWith taggedRoot .empty
      ratingsProvider).result = .ok (some heatAnswer) := by rfl
  obtain ⟨-, answered⟩ := built_taggedFilms.leaves_answered regular_taggedFilms.acyclic
    regular_taggedFilms.distinct regular_taggedFilms.distinctBelow (Nat.le_refl 4) taggedRoot
    .empty ratingsProvider
  obtain ⟨pairs, same, leaves, answers⟩ := answered _ succeeded
  exact ⟨built_taggedFilms, regular_taggedFilms, closed_tagPractice, succeeded, pairs,
    Option.some.inj same, leaves, answers closed_tagPractice regular_taggedFilms.orderly
      regular_taggedFilms.hooksAddNoService (regular_taggedFilms.hooksAct
        (built_taggedFilms.isSealed closed_tagPractice) _ _)⟩

end SelectionTree

end StagedQuery
