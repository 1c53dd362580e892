import ProseSchema.Json.Type

/-!
# Type phrases

The hyphenated words by which a sentence gives the type of a field, for instance
`nullable-positive-integer-array`.
-/

namespace ProseSchema

inductive Sign
  | positive
  | negative
  | nonnegative
  deriving DecidableEq

namespace Sign

def all : List Sign := [positive, negative, nonnegative]

def token : Sign → String
  | positive => "positive"
  | negative => "negative"
  | nonnegative => "nonnegative"

end Sign

inductive NumberType
  | float
  | integer
  | numeric
  deriving DecidableEq

namespace NumberType

def all : List NumberType := [float, integer, numeric]

def toJsonType : NumberType → JsonType
  | float => .float
  | integer => .integer
  | numeric => .numeric

end NumberType

/-- The type of a single value. -/
inductive BaseType
  | plain (type : JsonType)
  | signed (sign : Sign) (type : NumberType)
  deriving DecidableEq

namespace BaseType

def all : List BaseType :=
  JsonType.all.map plain ++ NumberType.all.flatMap fun type => Sign.all.map fun sign => signed sign type

def token : BaseType → String
  | plain type => type.token
  | signed sign type => sign.token ++ "-" ++ type.toJsonType.token

def toJsonType : BaseType → JsonType
  | plain type => type
  | signed _ type => type.toJsonType

def sign? : BaseType → Option Sign
  | plain _ => none
  | signed sign _ => some sign

end BaseType

/-- One value, or an array of such values that may have to hold one at least. -/
inductive Arrangement
  | single
  | array (nonempty : Bool)
  deriving DecidableEq

structure TypePhrase where
  nullable : Bool
  arrangement : Arrangement
  base : BaseType
  deriving DecidableEq

namespace TypePhrase

def all : List TypePhrase :=
  [false, true].flatMap fun nullable =>
    [Arrangement.single, .array false, .array true].flatMap fun arrangement =>
      BaseType.all.map fun base => ⟨nullable, arrangement, base⟩

def token (phrase : TypePhrase) : String :=
  let word := match phrase.arrangement with
    | .single => phrase.base.token
    | .array false => phrase.base.token ++ "-array"
    | .array true => "nonempty-" ++ phrase.base.token ++ "-array"
  if phrase.nullable then "nullable-" ++ word else word

/-- The phrases that say nothing about what is inside the value: `object` and `array`. -/
def isOpen (phrase : TypePhrase) : Bool :=
  phrase = ⟨false, .single, .plain .object⟩ || phrase = ⟨false, .single, .plain .array⟩

end TypePhrase

end ProseSchema
