import ProseSchema.Json.Basic
import ProseSchema.Numeric.Decimal
import ProseSchema.Numeric.Digits

/-!
# Literals

Values as they are written in rules: quoted text, the three keywords, numbers, and any other word, which
stands for itself as text.
-/

namespace ProseSchema

inductive Literal
  | string (text : String)
  | bool (value : Bool)
  | null
  | integer (value : Int)
  | float (value : Binary64)
  deriving DecidableEq

namespace Literal

/-- What stands between a quote at each end of a token on one line. -/
def unquoted? : List Char → Option (List Char)
  | '"' :: rest =>
    let content := rest.dropLast
    if rest.getLast? = some '"' && !content.contains '\n' then some content else none
  | _ => none

/-- A sign and the digits before and behind the point of a number, if the token is one. -/
def numeral? (token : List Char) : Option (Bool × List Char × Option (List Char)) :=
  let (negative, token) := match token with
    | '-' :: rest => (true, rest)
    | _ => (false, token)
  let (whole, rest) := token.span Char.isDigit
  if whole.isEmpty then none
  else match rest with
    | [] => some (negative, whole, none)
    | '.' :: fraction =>
      if !fraction.isEmpty && fraction.all Char.isDigit then some (negative, whole, some fraction)
      else none
    | _ => none

/-- An integer that is too large for 64 bits is read as a floating-point number. -/
def ofNumeral (negative : Bool) (whole : List Char) (fraction : Option (List Char)) : Literal :=
  match fraction with
  | none =>
    let n := natOfDigits whole
    let i : Int := if negative then -n else n
    if Number.leastInt64 ≤ i && i ≤ Number.greatestInt64 then .integer i
    else .float (Binary64.ofDecimal negative n 0)
  | some digits =>
    .float (Binary64.ofDecimal negative (natOfDigits (whole ++ digits)) (-digits.length))

def ofToken (token : String) : Literal :=
  match unquoted? token.toList with
  | some text => .string (String.ofList text)
  | none =>
    if token = "true" then .bool true
    else if token = "false" then .bool false
    else if token = "null" then .null
    else match numeral? token.toList with
      | some (negative, whole, fraction) => ofNumeral negative whole fraction
      | none => .string token

/-- The text of a literal. A quote inside a quoted text is not marked in any way. -/
def text : Literal → String
  | .string s => "\"" ++ s ++ "\""
  | .bool b => if b then "true" else "false"
  | .null => "null"
  | .integer i => toString i
  | .float x => DecimalStyle.plain.write x ++ if x.isWhole then ".0" else ""

def toBinary64? : Literal → Option Binary64
  | .integer i => some (Binary64.ofInt i)
  | .float x => some x
  | _ => none

/-- Does the value equal the literal?  Numbers are compared by their rounded values, so it makes no
difference whether one is written as an integer. -/
def holds (literal : Literal) (value : Json) : Bool :=
  match literal, value with
  | .string s, .string t => t = s
  | .bool a, .bool b => b = a
  | .null, .null => true
  | .integer i, .number n => n.toBinary64.rank = (Binary64.ofInt i).rank
  | .float x, .number n => n.toBinary64.rank = x.rank
  | _, _ => false

end Literal

end ProseSchema
