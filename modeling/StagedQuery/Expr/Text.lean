import StagedQuery.Expr.Basic
import StagedQuery.Value.Json

/-!
# The text of an expression

A readable form of expressions. It shows placeholders by name only, so different
expressions may have the same text.
-/

namespace StagedQuery.Expr

mutual

/-- The text of an expression. -/
def text : Expr → String
  | .read slot => "$" ++ slot.name
  | .constant value => value.display
  | .member target name _ => target.text ++ "." ++ name
  | .service capability method arguments _ _ =>
    capability.shortName ++ "::" ++ method ++ "(" ++ ", ".intercalate (texts arguments) ++ ")"
  | .binary op left right => "(" ++ left.text ++ " " ++ op.sign ++ " " ++ right.text ++ ")"
  | .conditional test whenTrue whenFalse =>
    "if " ++ test.text ++ " then " ++ whenTrue.text ++ " else " ++ whenFalse.text
  | .convert operand kind => operand.text ++ " as " ++ kind.name
  | .object name fields => name ++ " \x7b " ++ ", ".intercalate (fieldTexts fields) ++ " \x7d"
  | .scope slot value body => "let $" ++ slot.name ++ " = " ++ value.text ++ " in " ++ body.text
  | .map source slot body => source.text ++ ".map(|$" ++ slot.name ++ "| " ++ body.text ++ ")"
  | .filter source slot test =>
    source.text ++ ".filter(|$" ++ slot.name ++ "| " ++ test.text ++ ")"
  | .find source slot test => source.text ++ ".find(|$" ++ slot.name ++ "| " ++ test.text ++ ")"
  | .sort source slot keys =>
    source.text ++ ".sort_by(|$" ++ slot.name ++ "| " ++ ", ".intercalate (keyTexts keys) ++ ")"
  | .slice source skip take =>
    source.text ++ ".slice(" ++ toString skip
      ++ (match take with
        | some count => ", " ++ toString count
        | none => "")
      ++ ")"

/-- The texts of some expressions. -/
def texts : List Expr → List String
  | [] => []
  | expr :: rest => expr.text :: texts rest

/-- The texts of the fields of an object. -/
def fieldTexts : List (String × Expr) → List String
  | [] => []
  | (name, field) :: rest => (name ++ ": " ++ field.text) :: fieldTexts rest

/-- The texts of sort keys. -/
def keyTexts : List (Expr × Direction) → List String
  | [] => []
  | (key, .ascending) :: rest => key.text :: keyTexts rest
  | (key, .descending) :: rest => (key.text ++ " desc") :: keyTexts rest

end

end StagedQuery.Expr
