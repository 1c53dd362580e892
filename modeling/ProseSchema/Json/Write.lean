import ProseSchema.Json.Basic
import ProseSchema.Numeric.Decimal

/-!
# Writing JSON

Compact text: no white space, members in their order, and only the characters escaped that have to be.
-/

namespace ProseSchema

/-- Numbers in JSON text have a digit behind the point, and an exponent below a hundred thousandth and
from ten to the sixteenth on. -/
def DecimalStyle.json : DecimalStyle := ⟨.toEven, ".0", some (-4, 16)⟩

def Number.write : Number → List Char
  | .integer i => (toString i).toList
  | .float x => (DecimalStyle.json.write x).toList

namespace Json

def writeChar (c : Char) : List Char :=
  match c with
  | '"' => ['\\', '"']
  | '\\' => ['\\', '\\']
  | '\x08' => ['\\', 'b']
  | '\x0c' => ['\\', 'f']
  | '\n' => ['\\', 'n']
  | '\r' => ['\\', 'r']
  | '\t' => ['\\', 't']
  | c =>
    if c.toNat < 32 then
      ['\\', 'u', '0', '0', Nat.digitChar (c.toNat / 16), Nat.digitChar (c.toNat % 16)]
    else [c]

def writeString (text : String) : List Char :=
  '"' :: text.toList.flatMap writeChar ++ ['"']

mutual

def write : Json → List Char
  | .null => "null".toList
  | .bool b => (if b then "true" else "false").toList
  | .number n => n.write
  | .string s => writeString s
  | .array elements => '[' :: writeElements elements
  | .object members => '{' :: writeMembers members

/-- The elements with commas between them, and the closing bracket. -/
def writeElements : List Json → List Char
  | [] => [']']
  | [value] => write value ++ [']']
  | value :: values => write value ++ ',' :: writeElements values

/-- The members with commas between them, and the closing brace. -/
def writeMembers : List (String × Json) → List Char
  | [] => ['}']
  | [(key, value)] => writeString key ++ ':' :: write value ++ ['}']
  | (key, value) :: members => writeString key ++ ':' :: write value ++ ',' :: writeMembers members

end

def text (value : Json) : String :=
  String.ofList value.write

end Json

end ProseSchema
