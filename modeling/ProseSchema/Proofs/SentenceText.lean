import Mathlib.Data.List.Infix
import Mathlib.Tactic.Lemma
import ProseSchema.Proofs.ReaderOutcome
import ProseSchema.Sentence.Grammar

/-!
# Sentences as text

How a sentence is written as a line, with single blanks and enumerations as prose has them, and which
sentences can be written over some known roles. A wording settles what the grammar leaves open: the article
before each word, and whether what is in a field is called its fields or its elements.

A longer known role may stand where a role was written. Whether it is read there depends on what the grammar
makes of the text behind it.
-/

namespace ProseSchema

namespace Enumeration

/-- What stands behind an item when the others are still to come. The last one stands behind the connector,
and has a comma in front of that unless it is the second. -/
def behind (connector : String) : (comma : Bool) → List (List Char) → List Char
  | _, [] => []
  | comma, [last] => (if comma then [','] else []) ++ ' ' :: chars connector ++ ' ' :: last
  | _, item :: others => ',' :: ' ' :: item ++ behind connector true others

/-- Items in a row: `X`, `X or Y`, or `X, Y, or Z`. -/
def text (connector : String) : List (List Char) → List Char
  | [] => []
  | first :: others => first ++ behind connector false others

/-- Where an item stands in a list. -/
inductive Place where
  | first
  | inner
  | last

/-- The place of an item in front of the others. With `comma` it is not the first one. -/
def Place.of {α : Type} : (comma : Bool) → (others : List α) → Place
  | false, _ => first
  | true, [] => last
  | true, _ :: _ => inner

/-- Each item has the property at its place, in front of the text behind it. -/
def Along {α : Type} (connector : String) (write : α → List Char) (P : Place → α → List Char → Prop)
    (after : List Char) : (comma : Bool) → List α → Prop
  | _, [] => True
  | comma, item :: others =>
    P (.of comma others) item (behind connector comma (others.map write) ++ after) ∧
      Along connector write P after true others

section

open Reader

variable {α : Type}

def commaItem (item : Reader α) : Reader α := do
  literal [',']
  blanks
  item

/-- The last item, behind a comma and the connector. -/
def lastItem (connector : String) (item : Reader α) : Reader α := do
  literal [',']
  blanks
  literal (chars connector)
  blanks
  item

/-- The rest of a list behind one of its items. -/
def remainder (connector : String) (item : Reader α) : Place → Reader Unit
  | .first => do
    let _ ← optional (tail connector item)
    pure ()
  | .inner => do
    let _ ← many (commaItem item)
    let _ ← lastItem connector item
    pure ()
  | .last => pure ()

end

end Enumeration

def quote (name : String) : List Char :=
  '"' :: chars name ++ ['"']

def Modal.words : Modal → String
  | must => "MUST"
  | may => "MAY"
  | mustNot => "MUST NOT"

def FieldNames.text : FieldNames → List Char
  | single name => chars "field named " ++ quote name
  | oneOf names => chars "field named one of " ++ Enumeration.text "or" (names.map quote)

def Predicate.text : Predicate → List Char
  | relation r target => chars " whose value MUST be " ++ chars r.words ++ ' ' :: chars target
  | oneOf values => chars " whose value MUST be one of " ++ Enumeration.text "or" (values.map quote)

structure Wording where
  /-- Does the article before the word end in an "n"? -/
  an : String → Bool
  /-- Are the values in a field called fields, and not elements? -/
  asFields : Bool

namespace Wording

variable (w : Wording)

def article (word : String) : List Char :=
  'a' :: (if w.an word then ['n'] else []) ++ [' ']

def item (role : String) : List Char :=
  w.article role ++ chars role

def subject (role : String) : List Char :=
  'A' :: (if w.an role then ['n'] else []) ++ ' ' :: chars role ++ [' ']

def excludedRoles (excluded : List String) : List Char :=
  Enumeration.text "or" (excluded.map w.item)

def exclusion (excluded : List String) : List Char :=
  if excluded.isEmpty then [] else chars "which is not " ++ w.excludedRoles excluded ++ [' ']

def typePhrase : Option TypePhrase → List Char
  | none => w.article "field"
  | some phrase => w.article phrase.token ++ chars phrase.token ++ [' ']

def childClause : ChildClause → List Char
  | .value role => chars "; its value is " ++ w.article role ++ quote role
  | .each role =>
    chars "; each " ++ chars (if w.asFields then "field" else "element") ++ chars " is " ++
      w.article role ++ quote role

def condition : RoleCondition → List Char
  | .always => []
  | .fieldValue field token =>
    chars "whose " ++ quote field ++ chars " field's value is " ++ chars token ++ [' ']
  | .fieldPresence field => chars "with " ++ w.article field ++ quote field ++ chars " field "

/-- What a constraint says of its subject. -/
def said (s : ConstraintSentence) : List Char :=
  w.exclusion s.excluded ++ chars s.modal.words ++ chars " have " ++ w.typePhrase s.type ++ s.fields.text ++
    (s.predicate.map Predicate.text).getD [] ++ (s.child.map w.childClause).getD [] ++ ['.']

def constraint (s : ConstraintSentence) : List Char :=
  w.subject s.role ++ w.said s

def onlyOneOf (role : String) (fields : List String) : List Char :=
  w.subject role ++ chars "MUST have only one of " ++ Enumeration.text "and" (fields.map quote) ++ ['.']

def eachOf (roles : List String) (trailer : String) : List Char :=
  chars "Each of " ++ Enumeration.text "and" (roles.map w.item) ++ ' ' :: chars trailer

def roleDefinition (d : RoleDefinition) : List Char :=
  w.subject d.role ++ w.condition d.condition ++ chars "is " ++ w.article d.newRole ++ quote d.newRole ++
    ['.']

/-- The line that says the sentence. -/
def line : Sentence → List Char
  | .constraint s => w.constraint s
  | .onlyOneOf role fields => w.onlyOneOf role fields
  | .eachOf roles trailer => w.eachOf roles trailer
  | .roleDefinition d => w.roleDefinition d

end Wording

/-! What can be written. -/

/-- A name of a role that cannot be mistaken for the words around it: it holds no quote and none of the modal
verbs, and no white space at its ends. -/
structure IsRoleName (role : String) : Prop where
  nonempty : chars role ≠ []
  quoteless : '"' ∉ chars role
  first : Solid (chars role)
  last : Solid (chars role).reverse
  must : ¬chars "MUST" <:+: chars role
  may : ¬chars "MAY" <:+: chars role

/-- A name that can stand between quotes. -/
def IsQuotable (name : String) : Prop :=
  chars name ≠ [] ∧ '"' ∉ chars name

/-- A value as it is written outside of quotes or with its quotes. -/
def IsToken (token : String) : Prop :=
  (∃ content, '"' ∉ content ∧ chars token = '"' :: content ++ ['"']) ∨
    (chars token ≠ [] ∧ '"' ∉ chars token ∧ Spaceless (chars token))

def Predicate.IsWritable : Predicate → Prop
  | relation _ target => IsToken target
  | oneOf values => values ≠ [] ∧ ∀ value ∈ values, '"' ∉ chars value

def RoleCondition.IsWritable : RoleCondition → Prop
  | always => True
  | fieldValue field token => IsQuotable field ∧ IsToken token
  | fieldPresence field => IsQuotable field

structure ConstraintSentence.IsOver (roles : List String) (s : ConstraintSentence) : Prop where
  role : s.role ∈ roles
  excluded : ∀ role ∈ s.excluded, role ∈ roles
  fields : s.fields.names ≠ [] ∧ ∀ name ∈ s.fields.names, IsQuotable name
  predicate : ∀ predicate ∈ s.predicate, predicate.IsWritable
  child : ∀ clause ∈ s.child, IsQuotable clause.role

/-- What can be said of each of several roles starts with a verb and stays on its line. -/
def IsTrailer (trailer : String) : Prop :=
  (∃ verb ∈ ["MUST", "MAY", "is"], chars verb <+: chars trailer) ∧ '\n' ∉ chars trailer

/-- The sentence speaks of known roles, and its names can be written. -/
def Sentence.IsOver (roles : List String) : Sentence → Prop
  | constraint s => s.IsOver roles
  | onlyOneOf role fields => role ∈ roles ∧ fields ≠ [] ∧ ∀ field ∈ fields, IsQuotable field
  | eachOf listed trailer => listed ≠ [] ∧ (∀ role ∈ listed, role ∈ roles) ∧ IsTrailer trailer
  | roleDefinition d => d.role ∈ roles ∧ d.condition.IsWritable ∧ IsQuotable d.newRole

/-! Longer roles. -/

/-- No known role goes on with the text behind the role, so the role is the longest one that stands there. -/
def IsLongest (roles : List String) (role : String) (rest : List Char) : Prop :=
  ∀ other ∈ roles, ∀ more, chars other = chars role ++ more → more <+: rest → more = []

/-- The roles of a list are the longest ones within it. -/
def Sentence.ListsLongest (w : Wording) (roles : List String) : Sentence → Prop
  | constraint s => Enumeration.Along "or" w.item (fun _ => IsLongest roles) [] false s.excluded
  | eachOf listed _ => Enumeration.Along "and" w.item (fun _ => IsLongest roles) [] false listed
  | onlyOneOf _ _ => True
  | roleDefinition _ => True

/-- A longer known role stands in place of the role, in front of the text behind it. -/
def Displaces (roles : List String) (role : String) (rest : List Char) (other : String) (behind : List Char) : Prop :=
  other ∈ roles ∧ ∃ more, chars other = chars role ++ more ∧ more ≠ [] ∧ rest = more ++ behind

/-- No longer known role stands in place of the role where the line can be read to its end behind that one. -/
def IsOwn {α : Type} (roles : List String) (read : String → Reader α) (role : String) (rest : List Char) : Prop :=
  ∀ other behind, Displaces roles role rest other behind → Reader.whole? (read other) behind = none

namespace Grammar

open Reader Enumeration

/-- What a constraint says of the role that it is about. -/
def said (g : Grammar) (role : String) : Reader ConstraintSentence := do
  let excluded ← optional g.exclusion
  let modal ← modal
  blanks
  literal (chars "have")
  blanks
  article
  let type ← optional typePhrase
  let fields ← fieldNames
  let predicate ← optional predicate
  let child ← optional childClause
  ending
  pure ⟨role, excluded.getD [], modal, type, fields, predicate, child⟩

/-- The rest of a constraint behind its subject. -/
def constraintBehind (g : Grammar) (role : String) : Reader ConstraintSentence := do
  blanks
  g.said role

/-- The rest of a sentence about several roles behind one of them. -/
def eachOfBehind (g : Grammar) (place : Place) : Reader Unit := do
  remainder "and" (item true (oneOf g.roles)) place
  blanks
  let _ ← span (· ≠ '\n')
  pure ()

end Grammar

/-- The sentence is not also one with a longer role in place of its subject or of a role that it lists. -/
def Sentence.IsClear (w : Wording) (roles : List String) : Sentence → Prop
  | constraint s =>
    s.excluded ≠ [] → IsOwn roles (Grammar.ofRoles roles).constraintBehind s.role (' ' :: w.said s)
  | eachOf listed trailer =>
    Enumeration.Along "and" w.item (fun place => IsOwn roles fun _ => (Grammar.ofRoles roles).eachOfBehind place)
      (' ' :: chars trailer) false listed
  | onlyOneOf _ _ => True
  | roleDefinition _ => True

/-! All of this can be decided. -/

instance (role : String) : Decidable (IsRoleName role) :=
  decidable_of_iff (chars role ≠ [] ∧ '"' ∉ chars role ∧ Solid (chars role) ∧
      Solid (chars role).reverse ∧ ¬chars "MUST" <:+: chars role ∧ ¬chars "MAY" <:+: chars role)
    ⟨fun ⟨h₁, h₂, h₃, h₄, h₅, h₆⟩ => ⟨h₁, h₂, h₃, h₄, h₅, h₆⟩,
      fun h => ⟨h.nonempty, h.quoteless, h.first, h.last, h.must, h.may⟩⟩

instance (name : String) : Decidable (IsQuotable name) :=
  inferInstanceAs (Decidable (_ ∧ _))

lemma exists_content_iff (text : List Char) : (∃ content, '"' ∉ content ∧ text = '"' :: content ++ ['"']) ↔
    '"' ∉ text.tail.dropLast ∧ text = '"' :: text.tail.dropLast ++ ['"'] := by
  constructor
  · rintro ⟨content, hq, rfl⟩
    simpa using hq
  · exact fun h => ⟨_, h⟩

instance (token : String) : Decidable (IsToken token) :=
  have := decidable_of_iff _ (exists_content_iff (chars token)).symm
  inferInstanceAs (Decidable (_ ∨ _))

instance (p : Predicate) : Decidable p.IsWritable :=
  match p with
  | .relation _ target => inferInstanceAs (Decidable (IsToken target))
  | .oneOf _ => inferInstanceAs (Decidable (_ ∧ _))

instance (condition : RoleCondition) : Decidable condition.IsWritable :=
  match condition with
  | .always => inferInstanceAs (Decidable True)
  | .fieldValue _ _ => inferInstanceAs (Decidable (_ ∧ _))
  | .fieldPresence field => inferInstanceAs (Decidable (IsQuotable field))

instance (roles : List String) (s : ConstraintSentence) : Decidable (s.IsOver roles) :=
  decidable_of_iff (s.role ∈ roles ∧ (∀ role ∈ s.excluded, role ∈ roles) ∧
      (s.fields.names ≠ [] ∧ ∀ name ∈ s.fields.names, IsQuotable name) ∧
      (∀ predicate ∈ s.predicate, predicate.IsWritable) ∧ ∀ clause ∈ s.child, IsQuotable clause.role)
    ⟨fun ⟨h₁, h₂, h₃, h₄, h₅⟩ => ⟨h₁, h₂, h₃, h₄, h₅⟩,
      fun h => ⟨h.role, h.excluded, h.fields, h.predicate, h.child⟩⟩

instance (trailer : String) : Decidable (IsTrailer trailer) :=
  inferInstanceAs (Decidable (_ ∧ _))

instance (roles : List String) (s : Sentence) : Decidable (s.IsOver roles) :=
  match s with
  | .constraint s => inferInstanceAs (Decidable (s.IsOver roles))
  | .onlyOneOf _ _ => inferInstanceAs (Decidable (_ ∧ _ ∧ _))
  | .eachOf _ _ => inferInstanceAs (Decidable (_ ∧ _ ∧ _))
  | .roleDefinition _ => inferInstanceAs (Decidable (_ ∧ _ ∧ _))

lemma forall_more_iff {a b : List Char} {P : List Char → Prop} :
    (∀ more, b = a ++ more → P more) ↔ (a <+: b → P (b.drop a.length)) := by
  constructor
  · rintro h ⟨more, rfl⟩
    rw [List.drop_left]
    exact h more rfl
  · rintro h more rfl
    have := h (List.prefix_append a more)
    rwa [List.drop_left] at this

instance (roles : List String) (role : String) (rest : List Char) : Decidable (IsLongest roles role rest) :=
  decidable_of_iff (∀ other ∈ roles, chars role <+: chars other →
      (chars other).drop (chars role).length <+: rest → (chars other).drop (chars role).length = [])
    (by simp only [IsLongest, forall_more_iff])

lemma isOwn_iff {α : Type} {roles : List String} {read : String → Reader α} {role : String} {rest : List Char} :
    IsOwn roles read role rest ↔ ∀ other ∈ roles, ∀ more, chars other = chars role ++ more → more ≠ [] →
      ∀ behind, rest = more ++ behind → Reader.whole? (read other) behind = none := by
  constructor
  · exact fun h other ho more hmore hne behind hrest => h other behind ⟨ho, more, hmore, hne, hrest⟩
  · exact fun h other behind ⟨ho, more, hmore, hne, hrest⟩ => h other ho more hmore hne behind hrest

instance {α : Type} (roles : List String) (read : String → Reader α) (role : String) (rest : List Char) :
    Decidable (IsOwn roles read role rest) :=
  decidable_of_iff (∀ other ∈ roles, chars role <+: chars other →
      (chars other).drop (chars role).length ≠ [] → (chars other).drop (chars role).length <+: rest →
        Reader.whole? (read other) (rest.drop ((chars other).drop (chars role).length).length) = none)
    (by simp only [isOwn_iff, forall_more_iff])

instance Enumeration.decidableAlong {α : Type} (connector : String) (write : α → List Char)
    (P : Place → α → List Char → Prop) [∀ place item rest, Decidable (P place item rest)] (after : List Char) :
    ∀ comma items, Decidable (Along connector write P after comma items)
  | _, [] => inferInstanceAs (Decidable True)
  | _, _ :: others =>
    have := decidableAlong connector write P after true others
    inferInstanceAs (Decidable (_ ∧ _))

instance (w : Wording) (roles : List String) (s : Sentence) : Decidable (s.ListsLongest w roles) :=
  match s with
  | .constraint s => inferInstanceAs (Decidable (Enumeration.Along "or" w.item _ [] false s.excluded))
  | .eachOf listed _ => inferInstanceAs (Decidable (Enumeration.Along "and" w.item _ [] false listed))
  | .onlyOneOf _ _ => inferInstanceAs (Decidable True)
  | .roleDefinition _ => inferInstanceAs (Decidable True)

instance (w : Wording) (roles : List String) (s : Sentence) : Decidable (s.IsClear w roles) :=
  match s with
  | .constraint _ => inferInstanceAs (Decidable (_ → _))
  | .eachOf listed trailer =>
    inferInstanceAs (Decidable (Enumeration.Along "and" w.item _ (' ' :: chars trailer) false listed))
  | .onlyOneOf _ _ => inferInstanceAs (Decidable True)
  | .roleDefinition _ => inferInstanceAs (Decidable True)

end ProseSchema
