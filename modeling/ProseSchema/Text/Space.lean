/-!
# White space and lines

White space is what Unicode lists under `White_Space`, twenty-five characters. A text falls into
lines at line feeds, and a carriage return right before a line feed belongs to the line end.
-/

namespace ProseSchema

def isSpace (c : Char) : Bool :=
  ('\t' ≤ c && c ≤ '\r') || c == ' ' || c == '\u0085' || c == '\u00a0' || c == '\u1680' ||
    ('\u2000' ≤ c && c ≤ '\u200a') || c == '\u2028' || c == '\u2029' || c == '\u202f' ||
    c == '\u205f' || c == '\u3000'

def isBlank (line : List Char) : Bool :=
  line.all isSpace

/-- The lines of a text. A line end at the very end of the text opens no further line, and a
carriage return that no line feed follows stays in its line. -/
def lines : List Char → List (List Char)
  | [] => []
  | '\n' :: text => [] :: lines text
  | '\r' :: '\n' :: text => [] :: lines text
  | c :: text =>
    match lines text with
    | [] => [[c]]
    | line :: rest => (c :: line) :: rest

end ProseSchema
