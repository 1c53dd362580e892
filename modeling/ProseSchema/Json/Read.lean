import ProseSchema.Json.Basic
import ProseSchema.Numeric.Digits

/-!
# Reading JSON

Strict JSON: one value with white space around it. Nothing is read from a text that holds a lone half
of a surrogate pair, a control character inside a string, or a number too large to round. Repeated keys
are merged once the whole text is read.
-/

namespace ProseSchema

namespace Json

def isBlankChar (c : Char) : Bool :=
  c == ' ' || c == '\t' || c == '\n' || c == '\r'

def skipBlanks (text : List Char) : List Char :=
  text.dropWhile isBlankChar

/-- The parts of a string: characters, and the sixteen-bit units that escapes stand for. -/
inductive StringPart
  | char (c : Char)
  | unit (n : Nat)

def hexDigit? (c : Char) : Option Nat :=
  if '0' ≤ c && c ≤ '9' then some (c.toNat - '0'.toNat)
  else if 'a' ≤ c && c ≤ 'f' then some (c.toNat - 'a'.toNat + 10)
  else if 'A' ≤ c && c ≤ 'F' then some (c.toNat - 'A'.toNat + 10)
  else none

def hexUnit? (a b c d : Char) : Option Nat := do
  pure ((← hexDigit? a) * 4096 + (← hexDigit? b) * 256 + (← hexDigit? c) * 16 + (← hexDigit? d))

def escaped? : Char → Option Char
  | '"' => some '"'
  | '\\' => some '\\'
  | '/' => some '/'
  | 'b' => some '\x08'
  | 'f' => some '\x0c'
  | 'n' => some '\n'
  | 'r' => some '\r'
  | 't' => some '\t'
  | _ => none

/-- The parts of a string up to its closing quote, and the text behind that. -/
def stringParts : List Char → Option (List StringPart × List Char)
  | [] => none
  | '"' :: text => some ([], text)
  | '\\' :: 'u' :: a :: b :: c :: d :: text => do
    let n ← hexUnit? a b c d
    let (parts, rest) ← stringParts text
    pure (.unit n :: parts, rest)
  | '\\' :: c :: text => do
    let c ← escaped? c
    let (parts, rest) ← stringParts text
    pure (.char c :: parts, rest)
  | c :: text =>
    if c.toNat < 32 || c = '\\' then none
    else do
      let (parts, rest) ← stringParts text
      pure (.char c :: parts, rest)

/-- The characters that parts of a string stand for. A first half of a surrogate pair needs the second
one right behind it. -/
def joinParts : List StringPart → Option (List Char)
  | [] => some []
  | .char c :: parts => (c :: ·) <$> joinParts parts
  | .unit high :: .unit low :: parts =>
    if 0xD800 ≤ high && high < 0xDC00 then
      if 0xDC00 ≤ low && low < 0xE000 then
        (Char.ofNat (0x10000 + (high - 0xD800) * 1024 + (low - 0xDC00)) :: ·) <$> joinParts parts
      else none
    else if 0xDC00 ≤ high && high < 0xE000 then none
    else (Char.ofNat high :: ·) <$> joinParts (.unit low :: parts)
  | .unit n :: parts =>
    if 0xD800 ≤ n && n < 0xE000 then none
    else (Char.ofNat n :: ·) <$> joinParts parts

def readString (text : List Char) : Option (String × List Char) := do
  let (parts, rest) ← stringParts text
  let chars ← joinParts parts
  pure (String.ofList chars, rest)

def readDigits (text : List Char) : Option (List Char × List Char) :=
  match text.span Char.isDigit with
  | ([], _) => none
  | (digits, rest) => some (digits, rest)

/-- The digits behind a decimal point, if there is one. -/
def readFraction : List Char → Option (Option (List Char) × List Char)
  | '.' :: text => do
    let (digits, rest) ← readDigits text
    pure (some digits, rest)
  | text => some (none, text)

/-- The exponent behind its mark, if there is one. -/
def readExponent : List Char → Option (Option Int × List Char)
  | mark :: text =>
    if mark = 'e' || mark = 'E' then do
      let (negative, text) := match text with
        | '-' :: text => (true, text)
        | '+' :: text => (false, text)
        | text => (false, text)
      let (digits, rest) ← readDigits text
      let exponent : Int := natOfDigits digits
      pure (some (if negative then -exponent else exponent), rest)
    else some (none, mark :: text)
  | [] => some (none, [])

/-- The integers that are kept as such. -/
def isInteger64 (i : Int) : Bool :=
  Number.leastInt64 ≤ i && i < 18446744073709551616

/-- A number from its written parts; none when it is too large to round. -/
def numberOf (negative : Bool) (whole : List Char) (fraction : Option (List Char))
    (exponent : Option Int) : Option Number :=
  let digits := fraction.getD []
  let rounded := Binary64.ofDecimal negative (natOfDigits (whole ++ digits))
    (exponent.getD 0 - digits.length)
  let float := match rounded with
    | .infinite _ => none
    | x => some (Number.float x)
  match fraction, exponent with
  | none, none =>
    let n := natOfDigits whole
    let i : Int := if negative then -n else n
    if isInteger64 i && !(negative && n = 0) then some (.integer i) else float
  | _, _ => float

def readNumber (text : List Char) : Option (Number × List Char) := do
  let (negative, text) := match text with
    | '-' :: text => (true, text)
    | text => (false, text)
  let (whole, text) ← readDigits text
  if whole.head? = some '0' && whole.length ≠ 1 then none
  else do
    let (fraction, text) ← readFraction text
    let (exponent, text) ← readExponent text
    let n ← numberOf negative whole fraction exponent
    pure (n, text)

mutual

/-- A value at the start of a text. `bound` limits how deep the calls go; one more than twice the length of
the text is always enough. -/
def readValue : (bound : Nat) → List Char → Option (Json × List Char)
  | 0, _ => none
  | bound + 1, text =>
    match skipBlanks text with
    | '{' :: text =>
      match skipBlanks text with
      | '}' :: rest => some (.object [], rest)
      | text => do
        let (members, rest) ← readMembers bound text
        pure (.object members, rest)
    | '[' :: text =>
      match skipBlanks text with
      | ']' :: rest => some (.array [], rest)
      | text => do
        let (elements, rest) ← readElements bound text
        pure (.array elements, rest)
    | '"' :: text => do
      let (s, rest) ← readString text
      pure (.string s, rest)
    | 't' :: 'r' :: 'u' :: 'e' :: rest => some (.bool true, rest)
    | 'f' :: 'a' :: 'l' :: 's' :: 'e' :: rest => some (.bool false, rest)
    | 'n' :: 'u' :: 'l' :: 'l' :: rest => some (.null, rest)
    | text => do
      let (n, rest) ← readNumber text
      pure (.number n, rest)

/-- At least one element, and the closing bracket. -/
def readElements : (bound : Nat) → List Char → Option (List Json × List Char)
  | 0, _ => none
  | bound + 1, text => do
    let (value, rest) ← readValue bound text
    match skipBlanks rest with
    | ',' :: rest => do
      let (values, rest) ← readElements bound rest
      pure (value :: values, rest)
    | ']' :: rest => some ([value], rest)
    | _ => none

/-- At least one member, and the closing brace. -/
def readMembers : (bound : Nat) → List Char → Option (List (String × Json) × List Char)
  | 0, _ => none
  | bound + 1, text =>
    match skipBlanks text with
    | '"' :: text => do
      let (key, rest) ← readString text
      match skipBlanks rest with
      | ':' :: rest => do
        let (value, rest) ← readValue bound rest
        match skipBlanks rest with
        | ',' :: rest => do
          let (members, rest) ← readMembers bound rest
          pure ((key, value) :: members, rest)
        | '}' :: rest => some ([(key, value)], rest)
        | _ => none
      | _ => none
    | _ => none

end

/-- The value of a text as it is written, where a key may be repeated. -/
def parseAsWritten? (text : String) : Option Json :=
  let text := text.toList
  match readValue (2 * text.length + 1) text with
  | some (value, rest) => if (skipBlanks rest).isEmpty then some value else none
  | none => none

/-! Repeated keys. An object has a single member of each name, which stands where the key was written first and has
the value that was written last. -/

/-- Members with one more, which replaces the value of a member of its name. -/
def insertMember (name : String) (value : Json) : List (String × Json) → List (String × Json)
  | [] => [(name, value)]
  | (other, old) :: members =>
    if other = name then (name, value) :: members else (other, old) :: insertMember name value members

mutual

/-- The value with the repeated keys of its objects merged, at any depth. -/
def merged : Json → Json
  | .array elements => .array (mergedElements elements)
  | .object members => .object (mergedMembers [] members)
  | value => value

def mergedElements : List Json → List Json
  | [] => []
  | element :: elements => merged element :: mergedElements elements

def mergedMembers : (before members : List (String × Json)) → List (String × Json)
  | before, [] => before
  | before, (name, value) :: members => mergedMembers (insertMember name (merged value) before) members

end

def parse? (text : String) : Option Json :=
  (parseAsWritten? text).map merged

end Json

end ProseSchema
