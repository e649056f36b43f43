import StagedQuery.Expr.Chain

/-!
# Reading the name of a chain

The name of a chain is read back in two steps. It is cut at the dots that no backslash
announces, and each piece is read as one member: the marker of the empty member, or characters
of which those with a meaning in names are announced.

The reader accepts exactly the names of chains and answers with the members that a name was
made from. So two chains have the same name only if they have the same members, whatever
characters the members hold.
-/

namespace StagedQuery

/-! ## Cutting a name -/

/-- Puts a text in front of the first of some pieces. -/
def onFirst (text : List Char) : List (List Char) → List (List Char)
  | [] => [text]
  | first :: rest => (text ++ first) :: rest

/-- The pieces of a text between the dots that no backslash announces, given whether one
    announces the first character. -/
def pieces : Bool → List Char → List (List Char)
  | _, [] => [[]]
  | true, char :: rest => onFirst [char] (pieces false rest)
  | false, char :: rest =>
    if char = '.' then [] :: pieces false rest
    else onFirst [char] (pieces (char = '\\') rest)

/-- However a text is cut, there is a first piece, which may be empty. -/
theorem pieces_ne_nil (announced : Bool) (text : List Char) : pieces announced text ≠ [] := by
  have filled (text : List Char) (cut : List (List Char)) : onFirst text cut ≠ [] := by
    cases cut <;> simp [onFirst]
  cases text with
  | nil => simp [pieces]
  | cons char rest =>
    cases announced with
    | true => exact filled _ _
    | false =>
      rw [pieces]
      split
      · simp
      · exact filled _ _

/-- Two texts are put in front of the first piece one after the other. -/
theorem onFirst_append (first second : List Char) {cut : List (List Char)} (filled : cut ≠ []) :
    onFirst (first ++ second) cut = onFirst first (onFirst second cut) := by
  cases cut with
  | nil => exact absurd rfl filled
  | cons piece rest => simp [onFirst]

/-- The pieces make up the text again when dots are put between them. -/
theorem intercalate_pieces (announced : Bool) (text : List Char) :
    List.intercalate ['.'] (pieces announced text) = text := by
  have extended (text : List Char) {cut : List (List Char)} (filled : cut ≠ []) :
      List.intercalate ['.'] (onFirst text cut) = text ++ List.intercalate ['.'] cut := by
    cases cut with
    | nil => exact absurd rfl filled
    | cons piece rest => cases rest <;> simp [onFirst]
  induction text generalizing announced with
  | nil => simp [pieces]
  | cons char rest ih =>
    cases announced with
    | true => rw [pieces, extended _ (pieces_ne_nil _ _), ih, List.singleton_append]
    | false =>
      rw [pieces]
      split
      · rename_i dot
        obtain ⟨piece, others, cut⟩ := List.exists_cons_of_ne_nil (pieces_ne_nil false rest)
        rw [cut, List.intercalate_cons_cons, ← cut, ih, dot, List.nil_append,
          List.singleton_append]
      · rw [extended _ (pieces_ne_nil _ _), ih, List.singleton_append]

/-! ## Reading a member -/

/-- One character inside the name of a chain. -/
def escapedChar (char : Char) : List Char :=
  if char = '.' ∨ char = '\\' then ['\\', char] else [char]

/-- The characters that a piece of a name writes, given whether a backslash announces the
    first one. -/
def unescape? : Bool → List Char → Option (List Char)
  | false, [] => some []
  | true, [] => none
  | true, char :: rest =>
    if char = '.' ∨ char = '\\' then (unescape? false rest).map (char :: ·) else none
  | false, char :: rest =>
    if char = '\\' then unescape? true rest
    else if char = '.' then none
    else (unescape? false rest).map (char :: ·)

/-- The member that a piece of a name writes. -/
def memberOfPiece? (piece : List Char) : Option String :=
  if piece = ['\\', '0'] then some ""
  else if piece = [] then none
  else (unescape? false piece).map String.ofList

/-- Escaped characters are read back. -/
theorem unescape?_flatMap (chars : List Char) :
    unescape? false (chars.flatMap escapedChar) = some chars := by
  induction chars with
  | nil => rfl
  | cons char rest ih =>
    rw [List.flatMap_cons, escapedChar]
    split
    · rename_i special
      simp [unescape?, special, ih]
    · rename_i plain
      rw [not_or] at plain
      simp [unescape?, plain, ih]

/-- Only escaped characters are read, the pending backslash included.

    Proof: induction on the text. A backslash is read together with what it announces. -/
theorem eq_flatMap_of_unescape? {announced : Bool} {text chars : List Char}
    (read : unescape? announced text = some chars) :
    (if announced then '\\' :: text else text) = chars.flatMap escapedChar := by
  induction text generalizing announced chars with
  | nil =>
    cases announced with
    | true => cases read
    | false =>
      obtain rfl := Option.some.inj read
      rfl
  | cons char rest ih =>
    cases announced with
    | true =>
      simp only [unescape?] at read
      split at read
      · rename_i special
        obtain ⟨others, later, rfl⟩ := Option.map_eq_some_iff.mp read
        simpa [escapedChar, special] using ih later
      · cases read
    | false =>
      simp only [unescape?] at read
      split at read
      · rename_i backslash
        simpa [backslash] using ih read
      · rename_i plain
        split at read
        · cases read
        · rename_i inside
          obtain ⟨others, later, rfl⟩ := Option.map_eq_some_iff.mp read
          simpa [escapedChar, plain, inside] using ih later

/-- A piece is read as a member exactly if it is the text of that member. -/
theorem memberOfPiece?_eq_some_iff {piece : List Char} {member : String} :
    memberOfPiece? piece = some member ↔ escapedMember member.toList = piece := by
  have filled {chars : List Char} (some : chars ≠ []) :
      escapedMember chars = chars.flatMap escapedChar := by
    rw [escapedMember, if_neg (by simpa using some)]
    rfl
  constructor
  · intro read
    rw [memberOfPiece?] at read
    split at read
    · rename_i marker
      obtain rfl := Option.some.inj read
      rw [marker]
      rfl
    · split at read
      · cases read
      · rename_i present
        obtain ⟨chars, later, rfl⟩ := Option.map_eq_some_iff.mp read
        have text : piece = chars.flatMap escapedChar := eq_flatMap_of_unescape? later
        have some : chars ≠ [] := by
          rintro rfl
          exact present text
        rw [String.toList_ofList, filled some, text]
  · rintro rfl
    cases chars : member.toList with
    | nil => simp [escapedMember, memberOfPiece?, String.toList_eq_nil_iff.mp chars]
    | cons first rest =>
      have back : (unescape? false ((first :: rest).flatMap escapedChar)).map String.ofList =
          some member := by
        rw [unescape?_flatMap, ← chars, Option.map_some, String.ofList_toList]
      -- The text of such a member is not empty, and it is not the marker of the empty one.
      rw [filled (List.cons_ne_nil _ _), memberOfPiece?, back]
      simp only [List.flatMap_cons, escapedChar]
      grind

/-! ## Reading a name -/

/-- The members of the chain that a name belongs to. -/
def pathOfName? (name : String) : Option (List String) :=
  match name.toList with
  | ['_', '_'] => some []
  | '_' :: '_' :: text => (pieces false text).mapM memberOfPiece?
  | _ => none

/-- The texts of the members of a chain. -/
def memberTexts (path : List String) : List (List Char) :=
  path.map fun member => escapedMember member.toList

/-- Dots stand between the texts of the members. -/
theorem joinedMembers_eq_intercalate (path : List String) :
    joinedMembers path = List.intercalate ['.'] (memberTexts path) := by
  induction path with
  | nil => rfl
  | cons first rest ih =>
    cases rest with
    | nil => simp [joinedMembers, memberTexts]
    | cons next others => simpa [joinedMembers, memberTexts] using ih

/-- An announced character stays in its piece, together with the backslash. -/
theorem pieces_announced (char : Char) (rest : List Char) :
    pieces false ('\\' :: char :: rest) = onFirst ['\\', char] (pieces false rest) := by
  have apart := onFirst_append ['\\'] [char] (pieces_ne_nil false rest)
  simpa [pieces] using apart.symm

/-- No dot inside the text of a member cuts it. -/
theorem pieces_escapedMember_append (member rest : List Char) :
    pieces false (escapedMember member ++ rest) =
      onFirst (escapedMember member) (pieces false rest) := by
  have one (char : Char) (rest : List Char) : pieces false (escapedChar char ++ rest) =
      onFirst (escapedChar char) (pieces false rest) := by
    rw [escapedChar]
    split
    · exact pieces_announced char rest
    · rename_i plain
      rw [not_or] at plain
      simp [pieces, plain]
  have several (chars : List Char) : pieces false (chars.flatMap escapedChar ++ rest) =
      onFirst (chars.flatMap escapedChar) (pieces false rest) := by
    induction chars with
    | nil =>
      obtain ⟨piece, others, cut⟩ := List.exists_cons_of_ne_nil (pieces_ne_nil false rest)
      simp [cut, onFirst]
    | cons char others ih =>
      rw [List.flatMap_cons, List.append_assoc, one, ih, onFirst_append _ _ (pieces_ne_nil _ _)]
  rw [escapedMember]
  split
  · exact pieces_announced '0' rest
  · exact several member

/-- The joined members of a chain are cut into their texts. -/
theorem pieces_joinedMembers (first : String) (rest : List String) :
    pieces false (joinedMembers (first :: rest)) = memberTexts (first :: rest) := by
  induction rest generalizing first with
  | nil =>
    have cut := pieces_escapedMember_append first.toList []
    simpa [joinedMembers, memberTexts, pieces, onFirst] using cut
  | cons next others ih =>
    rw [joinedMembers, pieces_escapedMember_append, pieces, if_pos rfl, ih, onFirst,
      List.append_nil]
    · rfl
    · simp

/-- Pieces are read as some members exactly if they are the texts of these members. -/
theorem mapM_memberOfPiece?_iff {cut : List (List Char)} {path : List String} :
    cut.mapM memberOfPiece? = some path ↔ memberTexts path = cut := by
  induction cut generalizing path with
  | nil => cases path <;> simp [memberTexts]
  | cons piece rest ih =>
    simp only [List.mapM_cons, Option.bind_eq_bind, Option.bind_eq_some_iff, ih,
      memberOfPiece?_eq_some_iff]
    cases path with
    | nil => simp [memberTexts]
    | cons member others =>
      constructor
      · rintro ⟨_, own, _, later, same⟩
        obtain ⟨rfl, rfl⟩ := List.cons.inj (Option.some.inj same)
        exact List.cons_eq_cons.mpr ⟨own, later⟩
      · intro texts
        obtain ⟨own, later⟩ := List.cons.inj texts
        exact ⟨member, own, others, later, rfl⟩

/-- Only the chain without members has nothing behind the underscores of its name. -/
theorem joinedMembers_eq_nil_iff {path : List String} : joinedMembers path = [] ↔ path = [] := by
  constructor
  · intro empty
    cases path with
    | nil => rfl
    | cons first rest =>
      have cut := pieces_joinedMembers first rest
      rw [empty, memberTexts, List.map_cons, pieces] at cut
      have read := memberOfPiece?_eq_some_iff.mpr (List.cons.inj cut).1.symm
      cases read
  · rintro rfl
    rfl

/-- The members of a chain are read from its name, and only from its name. -/
theorem pathOfName?_eq_some_iff {name : String} {path : List String} :
    pathOfName? name = some path ↔ extractedName path = name := by
  have shown : extractedName path = name ↔ '_' :: '_' :: joinedMembers path = name.toList := by
    rw [extractedName, ← String.toList_inj, String.toList_ofList]
  rw [shown, pathOfName?]
  split
  · rename_i chars
    rw [chars, Option.some.injEq, eq_comm, ← joinedMembers_eq_nil_iff]
    simp
  · rename_i text others chars
    simp only [chars, List.cons.injEq, true_and, mapM_memberOfPiece?_iff]
    constructor
    · intro texts
      rw [joinedMembers_eq_intercalate, texts, intercalate_pieces]
    · rintro rfl
      cases path with
      | nil => exact absurd rfl others
      | cons first rest => exact (pieces_joinedMembers first rest).symm
  · rename_i others
    constructor
    · intro read
      cases read
    · intro chars
      exact absurd chars.symm (others _)

/-- The members of a chain are read back from its name. -/
theorem pathOfName?_extractedName (path : List String) :
    pathOfName? (extractedName path) = some path :=
  pathOfName?_eq_some_iff.mpr rfl

/-- The name of a chain determines its members. -/
theorem extractedName_inj {left right : List String}
    (same : extractedName left = extractedName right) : left = right := by
  have read := pathOfName?_extractedName left
  rw [same, pathOfName?_extractedName] at read
  exact (Option.some.inj read).symm

/-- Two chains have one name exactly if they have the same members, and the reader recovers
    the members from the name and from nothing else. -/
theorem names_determine_chains :
    (∀ left right, extractedName left = extractedName right ↔ left = right) ∧
      ∀ name path, pathOfName? name = some path ↔ extractedName path = name := by
  refine ⟨fun left right => ⟨extractedName_inj, ?_⟩, fun name path => pathOfName?_eq_some_iff⟩
  rintro rfl
  rfl

end StagedQuery
