import StagedQuery.Proofs.Argument.Conformance
import StagedQuery.Proofs.Argument.VariableReads
import StagedQuery.Proofs.JsonRoundTrip

/-!
# Conversion of scalars

What is converted to a kind is null or a scalar of that kind, and conversion leaves both as
they are. So a second conversion to the same kind changes nothing, whatever the first one
started from.

An integer is read back from its decimal text, the least one included, and a boolean from its
text and from its number. Coercion to a scalar type succeeds on fewer values than conversion
and makes the same of them. So where a variable was bound with a scalar type, the compiled
read of it gives what was bound.
-/

namespace StagedQuery

/-! ## Integers in decimal -/

namespace Text

/-- Characters none of which is blank are all kept. -/
theorem stripBlank_of_unblank {chars : List Char}
    (unblank : ∀ char ∈ chars, isBlank char = false) : stripBlank chars = chars := by
  have kept {some : List Char} (clear : ∀ char ∈ some, isBlank char = false) :
      some.dropWhile isBlank = some := by
    cases some with
    | nil => rfl
    | cons first rest => simp [clear first List.mem_cons_self]
  have reversed : ∀ char ∈ chars.reverse, isBlank char = false := by simpa using unblank
  rw [stripBlank, kept unblank, kept reversed, List.reverse_reverse]

/-- A digit is not blank. -/
theorem isBlank_of_isDigit {char : Char} (digit : char.isDigit = true) : isBlank char = false := by
  have range : 48 ≤ char.toNat ∧ char.toNat ≤ 57 := by
    simpa [Char.isDigit, Char.le_def, UInt32.le_iff_toNat_le] using digit
  simp only [isBlank, Bool.or_eq_false_iff, Bool.and_eq_false_iff, decide_eq_false_iff_not,
    beq_eq_false_iff_ne]
  omega

end Text

namespace Decimal

/-- A natural number is written in digits. -/
theorem isDigit_of_mem_digitsOf {number : Nat} {char : Char} (inside : char ∈ digitsOf number) :
    char.isDigit = true :=
  Nat.isDigit_of_mem_toDigits (by decide) (by decide) inside

/-- A natural number is read back from its digits. -/
theorem readDigits_digitsOf (number : Nat) : readDigits 0 (digitsOf number) = number :=
  Nat.ofDigitChars_ten_toDigits

/-- A text that starts with a digit has no sign. -/
theorem takeSign_of_isDigit {first : Char} {rest : List Char} (digit : first.isDigit = true) :
    takeSign (first :: rest) = (false, first :: rest) := by
  unfold takeSign
  split
  · rename_i same
    cases same
    cases digit
  · rename_i same
    cases same
    cases digit
  · rfl

/-- What a sign and the digits of a natural number are read as. -/
theorem readInteger?_of_takeSign {chars : List Char} {negative : Bool} {number : Nat}
    (taken : takeSign chars = (negative, digitsOf number)) :
    readInteger? chars = some (if negative then -(number : Int) else number) := by
  have filled : (digitsOf number).isEmpty = false := by
    simp [digitsOf]
  have digits : (digitsOf number).all Char.isDigit = true :=
    List.all_eq_true.mpr fun _ inside => isDigit_of_mem_digitsOf inside
  simp [readInteger?, taken, filled, digits, readDigits_digitsOf]

/-- An integer is read back from its decimal text. -/
theorem readInteger?_integerText (number : Int) :
    readInteger? (integerText number).toList = some number := by
  cases number with
  | ofNat natural =>
    rw [integerText, String.toList_ofList]
    have unsigned : takeSign (digitsOf natural) = (false, digitsOf natural) := by
      cases digits : digitsOf natural with
      | nil => exact absurd digits Nat.toDigits_ne_nil
      | cons first rest =>
        have listed : first ∈ digitsOf natural := by simp [digits]
        exact takeSign_of_isDigit (isDigit_of_mem_digitsOf listed)
    exact readInteger?_of_takeSign unsigned
  | negSucc less =>
    rw [integerText, String.toList_ofList]
    have signed : takeSign ('-' :: digitsOf (less + 1)) = (true, digitsOf (less + 1)) := rfl
    exact readInteger?_of_takeSign signed

/-- The decimal text of an integer has no blank space. -/
theorem unblank_integerText (number : Int) :
    ∀ char ∈ (integerText number).toList, Text.isBlank char = false := by
  have digits (natural : Nat) : ∀ char ∈ digitsOf natural, Text.isBlank char = false :=
    fun _ inside => Text.isBlank_of_isDigit (isDigit_of_mem_digitsOf inside)
  cases number with
  | ofNat natural =>
    rw [integerText, String.toList_ofList]
    exact digits natural
  | negSucc less =>
    rw [integerText, String.toList_ofList]
    exact List.forall_mem_cons.mpr ⟨by decide, digits _⟩

end Decimal

/-! ## Converting twice -/

namespace Value

variable {kind : ScalarKind} {value fitted : Value}

/-- An integer of 64 bits is read back from its decimal text. -/
theorem readInt?_intText (number : Int64) : readInt? (intText number) = some number := by
  rw [readInt?, intText, Text.stripBlank_of_unblank (Decimal.unblank_integerText _),
    Decimal.readInteger?_integerText]
  simp [fitsInt64_toInt, Int64.ofInt_toInt]

/-- Null converts to null. -/
theorem convert?_null (kind : ScalarKind) : Value.null.convert? kind = some .null := by
  cases kind <;> rfl

/-- A scalar converts to its own kind as it is. -/
theorem convert?_of_isOfKind (own : value.isOfKind kind = true) :
    value.convert? kind = some value := by
  cases kind <;> cases value <;> first | rfl | cases own

/-- What is converted to a kind is null or a scalar of that kind. -/
theorem isOfKind_of_convert? (converted : value.convert? kind = some fitted) :
    fitted = .null ∨ fitted.isOfKind kind = true := by
  cases kind <;> cases value <;>
    simp only [convert?, toInt?, toFloat?, toString?, toBoolean?, toId?, Option.map_eq_some_iff,
      Option.some.injEq, reduceCtorEq] at converted <;>
    grind [isOfKind]

/-- An integer is the same again after it was written as a text. -/
theorem int_of_text (number : Int64) {kind : ScalarKind} (text : kind = .string ∨ kind = .id) :
    ((Value.int number).convert? kind).bind (·.convert? .int) = some (.int number) := by
  have written : (Value.int number).convert? kind = some (.string (intText number)) := by
    rcases text with rfl | rfl <;> rfl
  have read : (Value.string (intText number)).convert? .int = some (.int number) := by
    simp [convert?, toInt?, readInt?_intText]
  rw [written, Option.bind_some, read]

/-- A boolean is the same again after it was written as a text or as a number. -/
theorem bool_of_written (truth : Bool) {kind : ScalarKind}
    (written : kind = .string ∨ kind = .int) :
    ((Value.bool truth).convert? kind).bind (·.convert? .boolean) = some (.bool truth) := by
  rcases written with rfl | rfl <;> cases truth <;> rfl

end Value

/-! ## Reading a variable again -/

namespace ArgumentSet

variable {field : String} {table : List Binding} {request : Request} {supplied : Variables}
  {arguments : ArgumentSet} {member : String} {source : VariableSource} {kind : ScalarKind}

/-- The compiled read of a variable that was bound with a scalar type gives what the binding
    that reads the variable made of its value. -/
theorem evaluate_expr_of_scalar {raw fitted : Value}
    (known : arguments.sources.value? member = some source)
    (scalar : source.type.scalarKind? = some kind)
    (old : supplied.value? source.origin = some raw)
    (coerced : source.type.coerce? raw = some fitted) {slot : Placeholder} {env : Environment}
    (given : env.value? slot = some supplied.toValue) (provider : Provider) :
    ((arguments.readVariablesFrom slot).expr member).evaluate provider env = pure fitted := by
  have reads : ((Expr.read slot).get source.origin).evaluate provider env = pure raw := by
    rw [evaluate_readVariable given, old, Option.getD_some]
  simp only [expr, variableRead?_of_source known]
  rw [evaluate_convertRead coerced reads, scalar]
  rfl

/-- What conversion of scalars keeps.

    What was converted to a kind converts to that kind as it is. Integers survive being written
    as texts or identifiers, and booleans being written as texts or numbers. What a scalar type
    makes of a value is what conversion to its kind makes of it. So the compiled read of a
    variable that was bound with a scalar type gives the value that the last binding of the
    member that reads a variable has fitted; and that is the value of the member, if no later
    binding of it takes anything. -/
theorem scalar_conversion_lossless :
    (∀ (kind : ScalarKind) (value fitted : Value), value.convert? kind = some fitted →
      fitted.convert? kind = some fitted) ∧
    (∀ (number : Int64) (kind : ScalarKind), kind = .string ∨ kind = .id →
      ((Value.int number).convert? kind).bind (·.convert? .int) = some (.int number)) ∧
    (∀ (truth : Bool) (kind : ScalarKind), kind = .string ∨ kind = .int →
      ((Value.bool truth).convert? kind).bind (·.convert? .boolean) = some (.bool truth)) ∧
    (∀ (type : ArgumentType) (kind : ScalarKind) (value fitted : Value),
      type.scalarKind? = some kind → type.coerce? value = some fitted →
        value.convert? kind = some fitted) ∧
    ∀ (field : String) (table : List Binding) (request : Request) (supplied : Variables)
      (arguments : ArgumentSet), bind field table request (some supplied) = .ok arguments →
      ∀ member source kind, arguments.sources.value? member = some source →
        source.type.scalarKind? = some kind →
        ∃ binding after raw fitted,
          LastOf (Binding.ReadsVariable request) table member binding after ∧
          source.type = binding.type ∧ supplied.value? source.origin = some raw ∧
          source.type.coerce? raw = some fitted ∧
          (∀ (slot : Placeholder) (env : Environment) (provider : Provider),
            env.value? slot = some supplied.toValue →
            ((arguments.readVariablesFrom slot).expr member).evaluate provider env =
              pure fitted) ∧
          ∀ rest, LastOf (Binding.Takes request) table member binding rest →
            arguments.value? member = some fitted := by
  refine ⟨?_, fun number _ => Value.int_of_text number, fun truth _ => Value.bool_of_written truth,
    fun _ _ _ _ => ArgumentType.convert?_of_coerce?, ?_⟩
  · intro kind value fitted converted
    rcases Value.isOfKind_of_convert? converted with rfl | own
    · exact Value.convert?_null kind
    · exact Value.convert?_of_isOfKind own
  · intro field table request supplied arguments bound member source kind known scalar
    obtain ⟨binding, after, raw, fitted, reads, same, old, coerced, held⟩ :=
      exists_reading bound known
    refine ⟨binding, after, raw, fitted, reads, same, old, coerced, ?_, held⟩
    intro slot env provider given
    exact evaluate_expr_of_scalar known scalar old coerced given provider

/-- A film whose number is bound as an identifier is read as the same text again, when the
    number is the least of 64 bits; and the text is that number as an integer. -/
theorem scalar_conversion_lossless_leastFilm :
    let supplied : Variables := ⟨[("film", .int Int64.minValue)]⟩
    ∃ arguments, bind "films" filmTable filmRequest (some supplied) = .ok arguments ∧
      arguments.value? "id" = some (.string "-9223372036854775808") ∧
      ((arguments.readVariablesFrom ⟨0, "vars", .any⟩).expr "id").evaluate Provider.none
        [(0, supplied.toValue)] = pure (.string "-9223372036854775808") ∧
      (Value.string "-9223372036854775808").convert? .id =
        some (.string "-9223372036854775808") ∧
      (Value.string "-9223372036854775808").convert? .int = some (.int Int64.minValue) := by
  intro supplied
  obtain ⟨stable, integers, -, agrees, reads⟩ := scalar_conversion_lossless
  have text : Value.intText Int64.minValue = "-9223372036854775808" := by decide +kernel
  have fits : (ArgumentType.scalar .id ⟨true, none⟩).coerce? (.int Int64.minValue) =
      some (.string "-9223372036854775808") := by
    rw [← text]
    rfl
  have bound : bind "films" filmTable filmRequest (some supplied) =
      .ok ⟨[("id", .string "-9223372036854775808"), ("take", .int 10)],
        [("id", ⟨"film", .scalar .id ⟨true, none⟩⟩)], none⟩ := by
    rw [← text]
    rfl
  obtain ⟨binding, after, raw, fitted, -, -, old, coerced, evaluated, -⟩ :=
    reads _ _ _ _ _ bound "id" _ .id rfl rfl
  obtain rfl : Value.int Int64.minValue = raw := Option.some.inj old
  obtain rfl := Option.some.inj (fits.symm.trans coerced)
  have converted := agrees _ .id _ _ rfl fits
  have back := integers Int64.minValue .id (.inr rfl)
  rw [converted, Option.bind_some] at back
  exact ⟨_, bound, rfl, evaluated _ _ _ rfl, stable .id _ _ converted, back⟩

end ArgumentSet

end StagedQuery
