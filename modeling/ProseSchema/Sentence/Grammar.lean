import ProseSchema.Enumeration
import ProseSchema.Sentence.Basic

/-!
# The grammar of sentences

How lines are read as sentences. A sentence speaks of roles that are known already, so a grammar is made
for a set of roles. Which form a line has is decided by its start: a line that starts as a constraint
or as a choice of fields is nothing else, even when it does not go on as one. A definition of a role is
looked for only in a line that ends as one.
-/

namespace ProseSchema

/-- The role that a root declaration names; any text may surround the declaration. -/
def rootRole? (line : List Char) : Option String :=
  Reader.search? (do
    Reader.phrase ["This", "document", "specifies", "a", "JSON", "object", "called"]
    Reader.blanks
    Enumeration.article
    let role ← Reader.quotedNonempty
    Reader.literal ['.']
    pure (String.ofList role)) line

/-- Is the first name to be tried before the second?  Longer names are, and names of one length are tried
in their order. -/
def precedes (a b : String) : Bool :=
  if a.utf8ByteSize = b.utf8ByteSize then a < b else b.utf8ByteSize < a.utf8ByteSize

def insertName (name : String) : List String → List String
  | [] => [name]
  | other :: names =>
    if name = other then other :: names
    else if precedes name other then name :: other :: names
    else other :: insertName name names

/-- The known roles, longest first, so that a role is never taken for one that it starts with. -/
structure Grammar where
  roles : List String

namespace Grammar

open Reader Enumeration

/-- The grammar for some roles, in which neither their order nor repetitions matter. -/
def ofRoles (roles : List String) : Grammar :=
  ⟨roles.foldr insertName []⟩

/-- A capital article, the role a sentence is about, and white space. -/
def subject (g : Grammar) : Reader String := do
  literal ['A']
  let _ ← optional (literal ['n'])
  blanks
  let role ← oneOf g.roles
  blanks
  pure role

def roleList (g : Grammar) (connector : String) : Reader (List Char) :=
  Prod.snd <$> withText (list connector (item true (oneOf g.roles)))

def quotedList (connector : String) (particle : Reader (List Char)) : Reader (List Char) :=
  Prod.snd <$> withText (list connector particle)

def exclusion (g : Grammar) : Reader (List String) := do
  phrase ["which", "is", "not"]
  blanks
  let roles ← g.roleList "or"
  blanks
  pure (mentions g.roles roles)

def modal : Reader Modal :=
  firstOf [keyword "MUST NOT" .mustNot, keyword "MUST" .must, keyword "MAY" .may]

def constraintStart (g : Grammar) : Reader (String × List String × Modal) := do
  let role ← g.subject
  let excluded ← optional g.exclusion
  let modal ← modal
  blanks
  literal (chars "have")
  blanks
  article
  pure (role, excluded.getD [], modal)

def typePhrase : Reader TypePhrase := do
  let phrase ← firstOf (TypePhrase.all.map fun phrase => keyword phrase.token phrase)
  blanks
  pure phrase

def fieldNames : Reader FieldNames := do
  phrase ["field", "named"]
  blanks
  firstOf [
    (fun name => .single (String.ofList name)) <$> quotedNonempty,
    do
      phrase ["one", "of"]
      blanks
      let names ← quotedList "or" quotedNonempty
      pure (.oneOf (quotedItems names))]

def relational : Reader Predicate := do
  let relation ← firstOf (Relation.all.map fun relation => keyword relation.words relation)
  blanks
  let target ← firstOf [Prod.snd <$> withText quoted, run1 fun c => !isSpace c]
  pure (.relation relation (String.ofList target))

def valueList : Reader Predicate := do
  phrase ["one", "of"]
  blanks
  let values ← quotedList "or" quoted
  pure (.oneOf (quotedItems values))

def predicate : Reader Predicate := do
  blanks
  phrase ["whose", "value", "MUST", "be"]
  blanks
  firstOf [relational, valueList]

def childClause : Reader ChildClause := do
  literal [';']
  blanks
  let clause ← firstOf [
    do
      phrase ["its", "value"]
      pure ChildClause.value,
    do
      literal (chars "each")
      blanks
      firstOf [literal (chars "field"), literal (chars "element")]
      pure ChildClause.each]
  blanks
  literal (chars "is")
  blanks
  article
  let role ← quotedNonempty
  pure (clause (String.ofList role))

def ending : Reader Unit := do
  literal ['.']
  let _ ← span isSpace

def constraint (g : Grammar) : Reader ConstraintSentence := do
  let (role, excluded, modal) ← g.constraintStart
  let type ← optional typePhrase
  let fields ← fieldNames
  let predicate ← optional predicate
  let child ← optional childClause
  ending
  pure ⟨role, excluded, modal, type, fields, predicate, child⟩

def onlyOneStart (g : Grammar) : Reader String := do
  let role ← g.subject
  phrase ["MUST", "have", "only"]
  blanks
  pure role

def onlyOneOf (g : Grammar) : Reader Sentence := do
  let role ← g.onlyOneStart
  phrase ["one", "of"]
  blanks
  let names ← quotedList "and" quotedNonempty
  ending
  pure (.onlyOneOf role (quotedItems names))

def eachOf (g : Grammar) : Reader Sentence := do
  phrase ["Each", "of"]
  blanks
  let roles ← g.roleList "and"
  blanks
  let trailer ← span (· ≠ '\n')
  pure (.eachOf (mentions g.roles roles) (String.ofList trailer))

def valueCondition : Reader RoleCondition := do
  literal (chars "whose")
  blanks
  let field ← quotedNonempty
  blanks
  phrase ["field's", "value", "is"]
  blanks
  let token ← firstOf [
    Prod.snd <$> withText quoted,
    do
      let first ← char fun c => c ≠ '"' && !isSpace c
      let others ← span fun c => !isSpace c
      pure (first :: others)]
  blanks
  pure (.fieldValue (String.ofList field) (String.ofList token))

def presenceCondition : Reader RoleCondition := do
  literal (chars "with")
  blanks
  article
  let field ← quotedNonempty
  blanks
  literal (chars "field")
  blanks
  pure (.fieldPresence (String.ofList field))

def roleDefinition (g : Grammar) : Reader RoleDefinition := do
  let role ← g.subject
  let condition ← optional (firstOf [valueCondition, presenceCondition])
  literal (chars "is")
  blanks
  article
  let newRole ← quotedNonempty
  ending
  pure ⟨role, condition.getD .always, String.ofList newRole⟩

/-- What a definition of a role ends in; it may stand behind any text. -/
def definitionTail : Reader Unit := do
  literal (chars "is")
  blanks
  article
  let _ ← quoted
  ending
  atEnd

/-- The sentence that a line is, if it is one. -/
def parse? (g : Grammar) (line : List Char) : Option Sentence :=
  if (first? g.constraintStart line).isSome then (whole? g.constraint line).map .constraint
  else if (first? g.onlyOneStart line).isSome then whole? g.onlyOneOf line
  else (whole? g.eachOf line).or
    (if (search? definitionTail line).isSome then (whole? g.roleDefinition line).map .roleDefinition else none)

end Grammar

end ProseSchema
