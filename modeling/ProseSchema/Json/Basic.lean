import ProseSchema.Numeric.Binary64

/-!
# JSON values

A document is a JSON value. Members of an object keep the order in which they are written, and a
number keeps whether it was written as an integer.
-/

namespace ProseSchema

inductive Number
  /-- Written without fraction and exponent, within 64 bits with or without a sign. -/
  | integer (value : Int)
  /-- Any other number, rounded. -/
  | float (value : Binary64)
  deriving DecidableEq

namespace Number

def toBinary64 : Number → Binary64
  | .integer i => Binary64.ofInt i
  | .float x => x

/-- Is the number a whole one, however it is written? -/
def isWhole : Number → Bool
  | .integer _ => true
  | .float x => x.isWhole

def leastInt64 : Int := -9223372036854775808

def greatestInt64 : Int := 9223372036854775807

/-- The number as an integer of 64 bits: toward zero, and at most at the ends of the range. -/
def toInt64 : Number → Int
  | .integer i =>
    if leastInt64 ≤ i && i ≤ greatestInt64 then i else clamp (Binary64.ofInt i).truncate
  | .float x => clamp x.truncate
where
  clamp (i : Int) : Int := max leastInt64 (min i greatestInt64)

end Number

inductive Json
  | null
  | bool (value : Bool)
  | number (value : Number)
  | string (value : String)
  | array (elements : List Json)
  | object (members : List (String × Json))

namespace Json

/-- The field of an object; other values have none. -/
def get? (name : String) : Json → Option Json
  | .object members => members.lookup name
  | _ => none

def hasField (name : String) (value : Json) : Bool :=
  (value.get? name).isSome

def isNull : Json → Bool
  | .null => true
  | _ => false

def string? : Json → Option String
  | .string text => some text
  | _ => none

def array? : Json → Option (List Json)
  | .array elements => some elements
  | _ => none

def object? : Json → Option (List (String × Json))
  | .object members => some members
  | _ => none

def number? : Json → Option Binary64
  | .number n => some n.toBinary64
  | _ => none

end Json

end ProseSchema
