import StagedQuery.Expr.Basic

/-!
# Member chains and the names that carry them

A chain over a placeholder is a read of it followed by member accesses. The value
of a chain is carried from one stage to the next under a name made from its
members. The name starts with two underscores, joins the members by dots, puts a
backslash before a dot or a backslash inside a member, and writes an empty member
as a backslash and a zero; so a name determines its chain.

`extract` lists the maximal chains of an expression that calls a service: the
reads from which its services can be fed.
-/

namespace StagedQuery

/-- One member inside the name of a chain. -/
def escapedMember (member : List Char) : List Char :=
  if member.isEmpty then ['\\', '0']
  else member.flatMap fun char => if char = '.' ∨ char = '\\' then ['\\', char] else [char]

/-- The members of a chain, joined. -/
def joinedMembers : List String → List Char
  | [] => []
  | [last] => escapedMember last.toList
  | first :: rest => escapedMember first.toList ++ '.' :: joinedMembers rest

/-- The name under which the chain with these members is carried between stages. -/
def extractedName (path : List String) : String :=
  String.ofList ('_' :: '_' :: joinedMembers path)

namespace Expr

/-- The members of a chain over a placeholder, none for any other expression. -/
def chain? (root : Placeholder) : Expr → Option (List String)
  | .read slot => if slot.is root then some [] else none
  | .member target name _ => (target.chain? root).map (· ++ [name])
  | _ => none

/-- The maximal chains over a placeholder by name, each once, in order of first
    occurrence; none if the expression calls no service or reads no chain. -/
def extract? (expr : Expr) (root : Placeholder) : Option (Members Expr) :=
  if !expr.hasServices then none
  else
    let reads := (expr.walk fun node => (node.chain? root).isNone).filterMap fun node =>
      (node.chain? root).map fun path => (extractedName path, node)
    match Members.firsts reads with
    | [] => none
    | found => some found

end Expr

example : extractedName ["release", "year"] = "__release.year" := by decide +kernel

example : extractedName ["a\\.b"] = "__a\\\\\\.b" := by decide +kernel

example : extractedName [""] = "__\\0" := by decide +kernel

end StagedQuery
