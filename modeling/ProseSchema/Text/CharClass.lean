import ProseSchema.Text.Category

/-!
# Character classes

Which characters may stand in a name, which make up words, and which are shown as they are when a
text is quoted for a reader.
-/

namespace ProseSchema

def inRanges (ranges : List (Nat × Nat)) (c : Char) : Bool :=
  ranges.any fun range => range.1 ≤ c.toNat && c.toNat ≤ range.2

/-- A name starts with a letter or a letter number. -/
def isNameStart (c : Char) : Bool :=
  inRanges Category.letters c

/-- A name goes on with letters, combining marks that do not surround, decimal digits and
connecting punctuation. -/
def isNameChar (c : Char) : Bool :=
  isNameStart c || inRanges Category.nonspacingMarks c || inRanges Category.spacingMarks c ||
    inRanges Category.decimalDigits c || inRanges Category.connectors c

/-- Symbols that count as alphabetic, circled and squared capitals among them, and the two
joiners. -/
def alphabeticSymbols : List (Nat × Nat) :=
  [(0x200C, 0x200D), (0x24B6, 0x24E9), (0x1F130, 0x1F149), (0x1F150, 0x1F169), (0x1F170, 0x1F189)]

/-- A word character is a name character, a surrounding mark, an alphabetic symbol or a joiner; a
word ends where such a character meets another one or the end of the text. -/
def isWordChar (c : Char) : Bool :=
  isNameChar c || inRanges Category.enclosingMarks c || inRanges alphabeticSymbols c

/-- Spacing marks that still extend the character before them: marks that may change places with
their neighbours, marks that a composed letter takes in, and marks composed of extending ones alone.
The halfwidth sound marks are letters with a place of their own and stay out. -/
def spacingExtenders : List (Nat × Nat) :=
  [(0x9BE, 0x9BE), (0x9D7, 0x9D7), (0xB3E, 0xB3E), (0xB57, 0xB57), (0xBBE, 0xBBE), (0xBD7, 0xBD7),
    (0xCC0, 0xCC0), (0xCC2, 0xCC2), (0xCC7, 0xCC8), (0xCCA, 0xCCB), (0xCD5, 0xCD6), (0xD3E, 0xD3E),
    (0xD57, 0xD57), (0xDCF, 0xDCF), (0xDDF, 0xDDF), (0x1715, 0x1715), (0x1734, 0x1734),
    (0x1B35, 0x1B35), (0x1B3B, 0x1B3B), (0x1B3D, 0x1B3D), (0x1B43, 0x1B44), (0x1BAA, 0x1BAA),
    (0x1BF2, 0x1BF3), (0x302E, 0x302F), (0xA953, 0xA953), (0xA9C0, 0xA9C0), (0x111C0, 0x111C0),
    (0x11235, 0x11235), (0x1133E, 0x1133E), (0x1134D, 0x1134D), (0x11357, 0x11357),
    (0x113B8, 0x113B8), (0x113C2, 0x113C2), (0x113C5, 0x113C5), (0x113C7, 0x113C9),
    (0x113CF, 0x113CF), (0x114B0, 0x114B0), (0x114BD, 0x114BD), (0x115AF, 0x115AF),
    (0x116B6, 0x116B6), (0x11930, 0x11930), (0x1193D, 0x1193D), (0x11F41, 0x11F41),
    (0x16FF0, 0x16FF1), (0x1D165, 0x1D166), (0x1D16D, 0x1D172)]

/-- A character that joins on to the one before it and cannot be seen alone. -/
def extendsPrevious (c : Char) : Bool :=
  inRanges Category.nonspacingMarks c || inRanges Category.enclosingMarks c ||
    inRanges spacingExtenders c

/-- Letters that hold an empty place in a syllable block and show nothing. -/
def fillers : List (Nat × Nat) :=
  [(0x115F, 0x1160), (0x3164, 0x3164), (0xFFA0, 0xFFA0)]

/-- A character that shows something, or the plain space. -/
def isPrintable (c : Char) : Bool :=
  !inRanges Category.unprintable c && !inRanges fillers c

end ProseSchema
