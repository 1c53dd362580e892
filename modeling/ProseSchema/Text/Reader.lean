import ProseSchema.Text.Chars
import ProseSchema.Text.Space

/-!
# Readers

A reader lists every way to read a value at the start of a text, the preferred way first, each with
the text it leaves over. A sequence tries every way of its first part, and a choice lists the ways
of its left side before those of its right side, so the first way that leaves nothing over is the one
a matcher with ordered alternatives and backtracking would find.
-/

namespace ProseSchema

def Reader (α : Type) : Type :=
  List Char → List (α × List Char)

namespace Reader

variable {α β : Type}

instance : Monad Reader where
  pure a := fun text => [(a, text)]
  bind r f := fun text => (r text).flatMap fun way => f way.1 way.2

/-- The ways of the first reader come before those of the second. -/
def orElse (r q : Reader α) : Reader α :=
  fun text => r text ++ q text

def fail : Reader α :=
  fun _ => []

def firstOf (rs : List (Reader α)) : Reader α :=
  rs.foldr orElse fail

def char (p : Char → Bool) : Reader Char
  | [] => []
  | c :: text => if p c then [(c, text)] else []

def literal (expected : List Char) : Reader Unit :=
  fun text => if expected.isPrefixOf text then [((), text.drop expected.length)] else []

def keyword (expected : String) (value : α) : Reader α :=
  literal (chars expected) >>= fun _ => pure value

/-- Prefers to read the value over leaving it out. -/
def optional (r : Reader α) : Reader (Option α) :=
  orElse (some <$> r) (pure none)

/-- At most `count` values, as many as possible first. -/
def upTo (r : Reader α) : Nat → Reader (List α)
  | 0 => pure []
  | count + 1 => orElse (r >>= fun a => (a :: ·) <$> upTo r count) (pure [])

/-- Any number of values, as many as possible first. Each value is meant to take up some text, so there
are never more values than characters. -/
def many (r : Reader α) : Reader (List α) :=
  fun text => upTo r text.length text

def many1 (r : Reader α) : Reader (List α) := do
  let first ← r
  let others ← many r
  pure (first :: others)

/-- All the characters of a class that stand at the start, none of them given back. This is meant for
classes that what is read next cannot start with. -/
def span (p : Char → Bool) : Reader (List Char) :=
  fun text => [(text.takeWhile p, text.dropWhile p)]

def span1 (p : Char → Bool) : Reader (List Char) := do
  let first ← char p
  let others ← span p
  pure (first :: others)

/-- Characters of a class, any number of them, the longest run first. -/
def run (p : Char → Bool) : Reader (List Char)
  | [] => [([], [])]
  | c :: text =>
    if p c then (run p text).map (fun way => (c :: way.1, way.2)) ++ [([], c :: text)]
    else [([], c :: text)]

def run1 (p : Char → Bool) : Reader (List Char) := do
  let first ← char p
  let others ← run p
  pure (first :: others)

def blanks : Reader Unit :=
  (fun _ => ()) <$> run1 isSpace

def phrase : List String → Reader Unit
  | [] => pure ()
  | [word] => literal (chars word)
  | word :: words => do
    literal (chars word)
    blanks
    phrase words

/-- A text between double quotes, which holds no double quote. -/
def quoted : Reader (List Char) := do
  literal ['"']
  let content ← span (· ≠ '"')
  literal ['"']
  pure content

def quotedNonempty : Reader (List Char) := do
  literal ['"']
  let content ← span1 (· ≠ '"')
  literal ['"']
  pure content

/-- What a reader reads together with the text it takes up. -/
def withText (r : Reader α) : Reader (α × List Char) :=
  fun text => (r text).map fun way => ((way.1, text.take (text.length - way.2.length)), way.2)

def atEnd : Reader Unit
  | [] => [((), [])]
  | _ :: _ => []

/-- The preferred way to read some start of the text. -/
def first? (r : Reader α) (text : List Char) : Option α :=
  (r text).head?.map Prod.fst

/-- The preferred way to read something at the first place where that is possible. -/
def search? (r : Reader α) : List Char → Option α
  | [] => first? r []
  | c :: text => (first? r (c :: text)).or (search? r text)

/-- The preferred way to read the whole text. -/
def whole? (r : Reader α) (text : List Char) : Option α :=
  first? (r >>= fun a => (fun _ => a) <$> atEnd) text

def accepts (r : Reader α) (text : List Char) : Bool :=
  (whole? r text).isSome

end Reader

end ProseSchema
