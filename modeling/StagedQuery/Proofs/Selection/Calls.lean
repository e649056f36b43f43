import StagedQuery.Proofs.Selection.Staging

/-!
# Two stages call no more than one pass

Where a full pass succeeds, the calls that a query of two stages starts are among those of
the full pass, in the same order and with the same arguments. The second stage leaves out
only what a page has dropped before, so without paging of lists it starts all of them. The
exception is again a hollow selection: where one fails on a value that is reached, the first
stage fails with it, and no call is started at all.
-/

namespace StagedQuery.SelectionTree

open Outcome

variable {practice : Practice} {tree : SelectionTree} {supply : Nat}

/-- No list field of the tree is paged. Other fields may carry paging. -/
def PagesNoList (tree : SelectionTree) : Prop :=
  ∀ address field element, tree.field? address = some field → field.kind = .list element →
    ∀ extension ∈ field.extensions, ¬extension.Pages

/-- In a built tree without paged lists, no field that selects from a list is paged: the
    mutations among them have no extensions. -/
theorem Built.pages_nothing_selected (built : tree.Built practice supply)
    (pageless : tree.PagesNoList) {address : Address} {field : Field}
    (stored : tree.field? address = some field) (lists : selectsList field = true) :
    ∀ extension ∈ field.extensions, ¬extension.Pages := by
  cases kind : field.kind with
  | list element => exact pageless address field element stored kind
  | mutation selection =>
    rw [(built.mutation_plain stored kind).2]
    intro extension inside
    cases inside
  | scalar | object | spread => simp [selectsList, kind] at lists

/-- Staging adds no call. For every regular tree that was built from closed resolvers and
    every run on which the full pass succeeds, the calls that the compiled query starts are
    among those of the full pass, in their order. If no list is paged, they are the same
    calls, unless a hollow selection fails on a value that is reached from the root. Then
    the first stage fails with the fault of a hollow selection, and no call is started. -/
theorem Built.calls_among_fullPass (built : tree.Built practice supply)
    (closed : ∀ definition, practice.offers definition → definition.Closed)
    (regular : tree.Regular) {passSupply compileSupply : Nat} (passed : supply ≤ passSupply)
    (compiled : supply ≤ compileSupply) (root : Value) (supplied : Variables)
    (provider : Provider) {value : Value}
    (succeeded : (tree.runFull passSupply root supplied.toValue provider).result = .ok value) :
    let setting : Setting := ⟨tree.variablesSlot, supplied.toValue, provider, supply⟩
    let whole := tree.runFull passSupply root supplied.toValue provider
    let query := (tree.compile false compileSupply).1
    let outcome := query.executeWith root supplied provider
    tree.compile? false = some (tree.compile false) ∧
      outcome.log.Sublist whole.log ∧
      (tree.PagesNoList →
        (∀ outline ∈ tree.queryOutlines, ∀ fault, ¬outline.HollowFails setting root fault) ∧
            outcome.log = whole.log ∨
          ∃ outline ∈ tree.queryOutlines, ∃ fault, outline.HollowFails setting root fault ∧
            query.FirstFails root supplied.toValue provider fault ∧ outcome.log = []) := by
  intro setting whole query outcome
  obtain ⟨frame, given, rfl, rfl, framed, uncut⟩ :=
    regular.exists_frame (built.isSealed closed) supplied.toValue provider
  have lists : tree.PagesNoList → ∀ field, selectsList field = true →
      (frame.actions field).cuts = [] := by
    intro pageless field lists
    apply uncut
    rintro ⟨address, stored⟩
    exact built.pages_nothing_selected pageless stored lists
  have same : frame.setting = setting := by
    simp only [setting, Frame.setting, framed.slot, given]
  have refines :=
    @refines_compile _ _ _ root _ built.placed framed regular _ passed compiled lists
  rw [same, given] at refines
  refine ⟨regular.acyclic.compile? false, ?_⟩
  rcases refines with refined | ⟨outline, inside, fault, fails, failed, silent⟩
  · have kept : (some <$> whole).log = whole.log := by
      rw [map_eq_pure_bind, bind_log succeeded]
      exact List.append_nil _
    obtain ⟨yields, fewer, alike⟩ :=
      refined (some value) (map_result_eq_ok.mpr ⟨value, succeeded, rfl⟩)
    rw [kept] at fewer alike
    refine ⟨fewer, fun pageless => .inl ⟨fun outline inside fault fails => ?_, alike pageless⟩⟩
    rw [← same] at fails
    apply not_succeeds_compile built.placed framed regular compiled inside fails
    rw [given]
    exact ⟨some value, yields⟩
  · refine ⟨?_, fun _ => .inr ⟨outline, inside, fault, fails, failed, silent⟩⟩
    rw [show outcome.log = [] from silent]
    exact List.nil_sublist _

/-- Of the films every call is started in both ways. -/
theorem calls_among_fullPass_ratedFilms :
    ratedFilms.Regular ∧ ratedFilms.PagesNoList ∧
      (ratedFilms.runFull 3 heatRoot Variables.empty.toValue ratingsProvider).result =
        .ok heatAnswer ∧
      ((ratedFilms.compile false 3).1.executeWith heatRoot .empty ratingsProvider).log =
        (ratedFilms.runFull 3 heatRoot Variables.empty.toValue ratingsProvider).log ∧
      (ratedFilms.runFull 3 heatRoot Variables.empty.toValue ratingsProvider).log =
        [.service ⟨"Ratings"⟩ "rating" [.string "a"]] := by
  have pageless : ratedFilms.PagesNoList := by
    intro address field element stored kind extension inside
    obtain ⟨_ | _ | _ | index⟩ := address <;> cases stored <;> cases inside
  have succeeded : (ratedFilms.runFull 3 heatRoot Variables.empty.toValue ratingsProvider).result =
      .ok heatAnswer := by rfl
  refine ⟨regular_ratedFilms, pageless, succeeded, ?_, by rfl⟩
  obtain ⟨-, -, same⟩ := built_ratedFilms.calls_among_fullPass closed_filmPractice
    regular_ratedFilms (Nat.le_refl 3) (Nat.le_refl 3) heatRoot .empty ratingsProvider succeeded
  rcases same pageless with ⟨-, alike⟩ | ⟨outline, inside, fault, fails, -⟩
  · exact alike
  · have hollow := Outline.anyHollow_eq_true.mpr ⟨outline, inside, fails.hasHollow⟩
    exact absurd hollow (by decide)

/-! ## A call that is not started -/

/-- The directors of reels, of whom nothing is selected, and a rating beside them. -/
def ratedReels : SelectionTree where
  root := ⟨0, "ctx", .any⟩
  variablesSlot := ⟨1, "vars", .any⟩
  bound := .empty
  fields := ⟨#[
    { name := "reels"
      kind := .list ⟨2, "reels", .any⟩
      expr := .member (.read ⟨0, "ctx", .any⟩) "reels" (.list .any)
      context := ⟨0, "ctx", .any⟩
      arguments := ArgumentSet.empty.readVariablesFrom ⟨1, "vars", .any⟩
      children := [⟨1⟩] },
    { name := "director"
      kind := .object ⟨3, "director", .object "Person" []⟩
      expr := .service ⟨"Ratings"⟩ "director" [] (.object "Person" []) fun state _ => .ok state
      context := ⟨2, "reels", .any⟩
      arguments := ArgumentSet.empty.readVariablesFrom ⟨1, "vars", .any⟩
      parent? := some ⟨0⟩ },
    { name := "rating"
      kind := .scalar
      expr := .service ⟨"Ratings"⟩ "rating"
        [(Expr.read ⟨0, "ctx", .any⟩).get "id"] (.scalar .int) fun state _ => .ok state
      context := ⟨0, "ctx", .any⟩
      arguments := ArgumentSet.empty.readVariablesFrom ⟨1, "vars", .any⟩ }]⟩
  roots := [⟨0⟩, ⟨2⟩]
  fragments := .empty

/-- Callers who select reels, their directors and ratings and spread nothing. -/
def ratedReelPractice : Practice where
  offers definition := definition ∈ [reelsDefinition, directorDefinition, ratingDefinition]
  admits _ _ _ := False

/-- The reels are selected, then the director of each, then the rating. -/
theorem built_ratedReels : ratedReels.Built ratedReelPractice 4 := by
  have start : Built ratedReelPractice (drawSelectionTree .any 0).1 2 := .start .any 0
  have reels := @Built.select _ _ _ _ .operation reelsDefinition .empty none ⟨0⟩ start
    (by simp [ratedReelPractice]) rfl
  have directors := @Built.select _ _ _ _ (.field ⟨0⟩) directorDefinition .empty none ⟨1⟩ reels
    (by simp [ratedReelPractice]) rfl
  exact @Built.select _ _ ratedReels _ .operation ratingDefinition .empty none ⟨2⟩ directors
    (by simp [ratedReelPractice]) rfl

/-- The resolvers of that tree are closed. -/
theorem closed_ratedReelPractice (definition : FieldDefinition)
    (offered : ratedReelPractice.offers definition) : definition.Closed := by
  simp only [ratedReelPractice, List.mem_cons, List.not_mem_nil, or_false] at offered
  rcases offered with rfl | rfl | rfl
  · exact FieldDefinition.closed_ofMember _ _
  · exact closed_directorDefinition
  · exact closed_ratingDefinition

/-- The tree is regular. -/
theorem regular_ratedReels : ratedReels.Regular where
  acyclic := built_ratedReels.acyclic (by simp [ratedReelPractice])
  distinct := by decide
  distinctBelow := ⟨⟨by decide, ⟨by decide, trivial⟩, trivial⟩, trivial, trivial⟩
  fieldNames := by
    intro address field stored
    obtain ⟨_ | _ | _ | index⟩ := address <;> cases stored <;> rfl
  memberNames := by
    intro owner owns name declared
    cases owns with
    | root => cases declared
    | @context address field stored =>
      obtain ⟨_ | _ | _ | index⟩ := address <;> cases stored <;> cases declared
    | @element address field slot stored selects =>
      obtain ⟨_ | _ | _ | index⟩ := address <;> cases stored <;> cases selects <;> cases declared
    | @fragment address fragment stored => cases stored
  builtIn := by
    intro address field stored extension inside
    obtain ⟨_ | _ | _ | index⟩ := address <;> cases stored <;> cases inside

/-- Where the reels are no list, the full pass leaves them out and asks for the rating; but the
    first stage keeps a shell of them and fails, so that no call is started. No list is paged. -/
theorem calls_nothing_ratedReels :
    ratedReels.Built ratedReelPractice 4 ∧ ratedReels.Regular ∧ ratedReels.PagesNoList ∧
      (∀ definition, ratedReelPractice.offers definition → definition.Closed) ∧
      (ratedReels.runFull 4 (.object [("reels", .int 5)]) Variables.empty.toValue
        ratingsProvider).result = .ok (.object [("rating", .int 5)]) ∧
      (ratedReels.runFull 4 (.object [("reels", .int 5)]) Variables.empty.toValue
        ratingsProvider).log = [.service ⟨"Ratings"⟩ "rating" [.null]] ∧
      ((ratedReels.compile false 4).1.executeWith (.object [("reels", .int 5)]) .empty
        ratingsProvider).log = [] := by
  refine ⟨built_ratedReels, regular_ratedReels, ?_, closed_ratedReelPractice, by rfl, by rfl,
    by rfl⟩
  intro address field element stored kind extension inside
  obtain ⟨_ | _ | _ | index⟩ := address <;> cases stored <;> cases inside

end StagedQuery.SelectionTree
