import ProseSchema.Rules.Entries
import ProseSchema.Sentence.Grammar

/-!
# Rule sets

A rule text starts with the declaration of its root, and each further line that is not blank is one
sentence over the roles that the lines before it have introduced. The patterns of these sentences are built anew
for each role that is introduced.
-/

namespace ProseSchema

/-- A library that builds the patterns of a grammar, or refuses them with a message, as where they grow too
large for it. -/
structure PatternLibrary where
  refusal? : Grammar → Option String

/-- A library that refuses nothing. -/
def PatternLibrary.unlimited : PatternLibrary :=
  ⟨fun _ => none⟩

/-- What a rule text says. -/
structure RuleSet where
  /-- The role of whole documents, and the name of their location. -/
  root : String
  tables : RuleTables
  deriving DecidableEq

/-- What the lines read so far say, and the roles that they introduce. -/
structure Draft where
  root : String
  roles : List String
  tables : RuleTables
  deriving DecidableEq

namespace Draft

def start (root : String) : Draft :=
  ⟨root, [root], {}⟩

def grammar (draft : Draft) : Grammar :=
  Grammar.ofRoles draft.roles

def learn (draft : Draft) (role : String) : Draft :=
  if draft.roles.contains role then draft else { draft with roles := draft.roles ++ [role] }

/-- The draft itself, once the patterns of its grammar are built. -/
def built (library : PatternLibrary) (draft : Draft) : Except RuleError Draft :=
  match library.refusal? draft.grammar with
  | none => .ok draft
  | some message => .error (.grammar message)

/-- Makes a role known; for a role that is known already nothing is built. -/
def introduce (library : PatternLibrary) (draft : Draft) (role : String) : Except RuleError Draft :=
  if draft.roles.contains role then .ok draft else (draft.learn role).built library

def addOne (library : PatternLibrary) (draft : Draft) (number : Nat) (line : List Char) :
    Option Sentence → Except RuleError Draft
  | some (.constraint s) =>
    match s.enter number draft.tables with
    | (.ok roles, tables) => roles.foldlM (introduce library) { draft with tables := tables }
    | (.error e, _) => .error e
  | some (.onlyOneOf role fields) =>
    .ok { draft with tables := draft.tables.insert (onlyOneOfEntry role fields) }
  | some (.roleDefinition d) =>
    ({ draft with tables := draft.tables.insert d.entry } : Draft).introduce library d.newRole
  | some (.eachOf ..) | none => .error (.unrecognizedLine number (String.ofList line))

/-- The line by which a trailer is said of a role. -/
def spokenOf (role trailer : String) : List Char :=
  'A' :: ' ' :: chars role ++ ' ' :: chars trailer

def addLine (library : PatternLibrary) (draft : Draft) (number : Nat) (line : List Char) :
    Except RuleError Draft :=
  draft.addOne library number line (draft.grammar.parse? line)

/-- Enters a line; a sentence about each of several roles stands for one line per role, and a role that
one of these introduces is known to the next. -/
def add (library : PatternLibrary) (draft : Draft) (number : Nat) (line : List Char) :
    Except RuleError Draft :=
  match draft.grammar.parse? line with
  | some (.eachOf roles trailer) =>
    roles.foldlM (fun draft role => draft.addLine library number (spokenOf role trailer)) draft
  | sentence => draft.addOne library number line sentence

end Draft

namespace RuleSet

variable (library : PatternLibrary)

/-- Reads one line; there is no draft before the root is declared. -/
def step (draft : Option Draft) (number : Nat) (line : List Char) : Except RuleError (Option Draft) :=
  if isBlank line then .ok draft
  else match rootRole? line, draft with
    | some root, none => some <$> (Draft.start root).built library
    | some _, some _ => .error (.duplicateRoot number)
    | none, some draft => some <$> draft.add library number line
    | none, none => .error (.missingRoot number)

def read (draft : Option Draft) (number : Nat) : List (List Char) → Except RuleError (Option Draft)
  | [] => .ok draft
  | line :: rest => do
    let draft ← step library draft number line
    read draft (number + 1) rest

def ofLines (text : List (List Char)) : Except RuleError RuleSet := do
  match ← read library none 1 text with
  | some draft => .ok ⟨draft.root, draft.tables⟩
  | none => .error (.missingRoot 0)

/-- The rules that a text says, with its patterns built by some library. -/
def compileWith (text : String) : Except RuleError RuleSet :=
  ofLines library (lines text.toList)

/-- The rules that a text says. -/
def compile (text : String) : Except RuleError RuleSet :=
  compileWith .unlimited text

theorem compile_eq_chars (text : String) : compile text = ofLines .unlimited (lines (chars text)) := by
  rw [compile, compileWith, chars_eq_toList]

end RuleSet

end ProseSchema
