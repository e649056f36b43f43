import StagedQuery.Text.LetterCase

/-!
# Names exposed in a schema

A member may be exposed under another name. The usual choice writes
`snake_case` and `PascalCase` members in `camelCase`.
-/

namespace StagedQuery.SchemaName

/-- The part of a camel case name after its first character. An underscore is
    dropped and raises the next character that is none. -/
def camelTail (raise : Bool) : List Char → List Char
  | [] => []
  | '_' :: rest => camelTail true rest
  | char :: rest =>
    if raise then Text.upperCase char ++ camelTail false rest else char :: camelTail false rest

/-- The camel case of a name: the first character is lowered, and a leading
    underscore is kept. -/
def camelCase (name : String) : String :=
  match name.toList with
  | [] => ""
  | first :: rest => String.ofList (Text.lowerCase first ++ camelTail false rest)

example : camelCase "release_year" = "releaseYear" := by decide +kernel

example : camelCase "__x" = "_X" := by decide +kernel

end StagedQuery.SchemaName
