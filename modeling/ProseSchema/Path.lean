import ProseSchema.Text.CharClass
import ProseSchema.Text.Reader

/-!
# Paths into documents

A path starts at the root `$` and goes on in steps. A reference path points at a single node: every
step is a name, and each name is followed by at most one index.
-/

namespace ProseSchema

inductive PathStep
  /-- A dotted name `.name`, or `..name` to search at any depth. -/
  | field (deep : Bool) (name : List Char)
  /-- Any field, `.*` or `..*`. -/
  | anyField (deep : Bool)
  /-- A name in brackets, `['name']`. -/
  | bracketField (name : List Char)
  /-- One index or several, `[1]` or `[1, 2]`; the numbers are kept as digits. -/
  | indices (first : List Char) (others : List (List Char))
  /-- Any element, `[*]`. -/
  | anyIndex
  /-- A range of indices, `[1:2]`, where both numbers may be negative or left out. -/
  | slice (first last : Option (List Char))
  deriving DecidableEq

namespace PathStep

open Reader

/-- A letter and what may follow it in a name. -/
def name : Reader (List Char) := do
  let first ← char isNameStart
  let others ← span isNameChar
  pure (first :: others)

def digits : Reader (List Char) :=
  span1 Char.isDigit

def signedDigits : Reader (List Char) := do
  let sign ← optional (literal ['-'])
  let number ← digits
  pure (if sign.isSome then '-' :: number else number)

def dots : Reader Bool := do
  literal ['.']
  let second ← optional (literal ['.'])
  pure second.isSome

def dotted : Reader PathStep := do
  let deep ← dots
  firstOf [field deep <$> name, keyword "*" (anyField deep)]

def bracketedName : Reader PathStep := do
  literal ['[', '\'']
  let name ← name
  literal ['\'', ']']
  pure (bracketField name)

/-- Another number of a list of indices, after a comma and any number of plain spaces. -/
def nextIndex : Reader (List Char) := do
  literal [',']
  let _ ← span (· = ' ')
  digits

def bracketedIndex : Reader PathStep := do
  literal ['[']
  let step ← firstOf [
    do
      let first ← digits
      let others ← many nextIndex
      pure (indices first others),
    keyword "*" anyIndex,
    do
      let first ← optional signedDigits
      literal [':']
      let last ← optional signedDigits
      pure (slice first last)]
  literal [']']
  pure step

def step : Reader PathStep :=
  firstOf [dotted, bracketedName, bracketedIndex]

def dottedName : Reader PathStep := do
  let deep ← dots
  field deep <$> name

/-- One number in brackets. -/
def singleIndex : Reader PathStep := do
  literal ['[']
  let number ← digits
  literal [']']
  pure (indices number [])

/-- A step of a reference path: a name, and an index or none. -/
def referenceStep : Reader (List PathStep) := do
  let named ← firstOf [dottedName, bracketedName]
  let index ← optional singleIndex
  pure (named :: index.toList)

end PathStep

namespace Path

open Reader

def reader : Reader (List PathStep) := do
  literal ['$']
  many PathStep.step

def parse? (text : String) : Option (List PathStep) :=
  whole? reader text.toList

def referenceReader : Reader (List (List PathStep)) := do
  literal ['$']
  many PathStep.referenceStep

end Path

def isPath (text : String) : Bool :=
  (Path.parse? text).isSome

/-- Is the text a path that points at a single node? -/
def isReferencePath (text : String) : Bool :=
  Reader.accepts Path.referenceReader text.toList

/-- The paths of payload templates and of input and output filters. A second `$` in front addresses the
context object, and there any path will do; elsewhere it must be a reference path. -/
def isPayloadPath (text : String) : Bool :=
  match text.toList with
  | '$' :: '$' :: rest => isPath (String.ofList ('$' :: rest))
  | _ => isReferencePath text

def intrinsicFunctions : List String :=
  ["JsonToString", "Format", "StringToJson", "Array"]

/-- Is the text a call of an intrinsic function, with something on one line between its parentheses? -/
def isIntrinsicCall (text : String) : Bool :=
  intrinsicFunctions.any fun name =>
    let opening := "States.".toList ++ name.toList ++ ['(']
    let rest := text.toList.drop opening.length
    opening.isPrefixOf text.toList && rest.getLast? = some ')' &&
      !rest.dropLast.isEmpty && !rest.dropLast.contains '\n'

end ProseSchema
