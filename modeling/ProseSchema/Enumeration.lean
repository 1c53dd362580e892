import ProseSchema.Text.CharClass
import ProseSchema.Text.Reader

/-!
# Enumerations

Lists as prose has them: `X`, `X or Y`, and with a comma before the last one `X, Y, or Z`. A reader
takes a whole list from the start of a text; the extractors recover the items from the text of a list.
-/

namespace ProseSchema

namespace Enumeration

open Reader

variable {α : Type}

/-- The indefinite article and the white space behind it. -/
def article : Reader Unit := do
  literal ['a']
  let _ ← optional (literal ['n'])
  blanks

/-- The items between the first and the last, each behind a comma, and the comma behind them. -/
def middle (item : Reader α) : Reader (List α) := do
  let items ← many1 (do literal [',']; blanks; item)
  literal [',']
  pure items

/-- What follows the first item of a list of two or more. -/
def tail (connector : String) (item : Reader α) : Reader (List α) := do
  let others ← optional (middle item)
  blanks
  literal (chars connector)
  blanks
  let last ← item
  pure (others.getD [] ++ [last])

def list (connector : String) (item : Reader α) : Reader (List α) := do
  let first ← item
  let others ← optional (tail connector item)
  pure (first :: others.getD [])

def item (withArticle : Bool) (particle : Reader α) : Reader α :=
  if withArticle then article >>= fun _ => particle else particle

/-- One of some names, tried in the order given. Without any names, the empty text. -/
def oneOf (names : List String) : Reader String :=
  firstOf ((if names.isEmpty then [""] else names).map fun name => keyword name name)

/-- The texts between quotes, left to right. `inside` holds what is read since an opening quote, last
character first. -/
def quotedFrom : (inside : Option (List Char)) → List Char → List String
  | _, [] => []
  | none, c :: text => quotedFrom (if c = '"' then some [] else none) text
  | some inside, c :: text =>
    if c = '"' then String.ofList inside.reverse :: quotedFrom none text
    else quotedFrom (some (c :: inside)) text

def quotedItems (text : List Char) : List String :=
  quotedFrom none text

/-- A name behind its article, and the comma and white space that may follow. -/
def mention (names : List String) : Reader String := do
  article
  let name ← oneOf names
  let _ ← optional (do literal [',']; blanks)
  pure name

/-- The names that are mentioned, left to right, where a mention starts a word. `before` is the character
in front, and `skip` counts the characters that the last mention still covers. -/
def mentionsFrom (names : List String) : (before : Option Char) → (skip : Nat) → List Char → List String
  | _, _, [] => []
  | _, skip + 1, c :: text => mentionsFrom names (some c) skip text
  | before, 0, c :: text =>
    match if before.any isWordChar then none else (mention names (c :: text)).head? with
    | some (name, rest) => name :: mentionsFrom names (some c) (text.length - rest.length) text
    | none => mentionsFrom names (some c) 0 text

def mentions (names : List String) (text : List Char) : List String :=
  mentionsFrom names none 0 text

end Enumeration

end ProseSchema
