import ProseSchema.Json.Read
import ProseSchema.Numeric.Digits
import ProseSchema.Problem.Basic

/-!
# Catalogs of messages

A catalog gives each kind of problem a template, in which a number in braces stands for an argument.
Arguments are copied as they are: braces inside them mean nothing.
-/

namespace ProseSchema

structure Catalog where
  template : ProblemKind → String

namespace Catalog

def english : Catalog := ⟨ProblemKind.english⟩

/-- The catalog with another template for one kind. -/
def set (catalog : Catalog) (kind : ProblemKind) (template : String) : Catalog :=
  ⟨fun other => if other = kind then template else catalog.template other⟩

/-- The catalog with the templates that the members of an object give; a later member overrides an
earlier one, and a member that names no kind or holds no text spoils them all. -/
def override (catalog : Catalog) : List (String × Json) → Option Catalog
  | [] => some catalog
  | (name, .string template) :: members => do
    let kind ← ProblemKind.ofName? name
    (catalog.set kind template).override members
  | _ :: _ => none

/-- The catalog of a JSON object from kinds to templates, English where it says nothing. Every member of the
text is looked at, also one that a later member of its name overrides. -/
def ofJson? (text : String) : Option Catalog := do
  let members ← (← Json.parseAsWritten? text).object?
  english.override members

/-- Do two catalogs hold the same templates? -/
def same (a b : Catalog) : Bool :=
  ProblemKind.all.all fun kind => a.template kind = b.template kind

/-- A number of arguments, which may have a plus sign in front. -/
def argumentNumber? (digits : List Char) : Option Nat :=
  let digits := match digits with
    | '+' :: rest => rest
    | _ => digits
  if !digits.isEmpty && digits.all Char.isDigit then some (natOfDigits digits) else none

/-- The argument that a placeholder stands for, given the text behind its opening brace, and the length
of the placeholder without that brace. -/
def placeholder? (args : List String) (text : List Char) : Option (String × Nat) := do
  let number := text.takeWhile (· ≠ '}')
  if number.length = text.length then none
  else do
    let arg ← args[← argumentNumber? number]?
    pure (arg, number.length + 1)

/-- A template with its placeholders filled in; one without an argument is left as written. `skip` counts
the characters of a placeholder that are still to be passed over. -/
def fill (args : List String) : (skip : Nat) → List Char → List Char
  | _, [] => []
  | skip + 1, _ :: text => fill args skip text
  | 0, c :: text =>
    match if c = '{' then placeholder? args text else none with
    | some (arg, length) => arg.toList ++ fill args length text
    | none => c :: fill args 0 text

/-- The message of a kind with some arguments. -/
def render (catalog : Catalog) (kind : ProblemKind) (args : List String) : String :=
  String.ofList (fill args 0 (catalog.template kind).toList)

/-- The message of a problem. -/
def message (catalog : Catalog) (problem : Problem) : String :=
  catalog.render problem.kind problem.args

end Catalog

end ProseSchema
