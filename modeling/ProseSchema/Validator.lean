import ProseSchema.Conformance
import ProseSchema.Problem.Catalog
import ProseSchema.StatesLanguage.Rules
import ProseSchema.StatesLanguage.Walk

/-!
# Validation

The problems of a document: those with respect to the rules, and then, unless that is turned off, those
of the state machines in it. The wording of the messages is chosen by a catalog.
-/

namespace ProseSchema

/-- A problem with the message that it is shown by. -/
structure Report where
  kind : ProblemKind
  args : List String
  message : String
  deriving DecidableEq

namespace Catalog

def report (catalog : Catalog) (problem : Problem) : Report :=
  ⟨problem.kind, problem.args, catalog.message problem⟩

end Catalog

structure Validator where
  catalog : Catalog := .english
  /-- Are the state machines in a document checked? -/
  machineChecks : Bool := true

namespace Validator

def problems (validator : Validator) (rules : RuleSet) (document : Json) : List Problem :=
  rules.problems document ++
  if validator.machineChecks then StatesLanguage.machineProblems document (.ofRoot rules.root) else []

/-- The reports on a document; there are none when it is valid. -/
def validate (validator : Validator) (rules : RuleSet) (document : Json) : List Report :=
  (validator.problems rules document).map validator.catalog.report

end Validator

/-- The messages about a document under the default settings. -/
def messages (rules : RuleSet) (document : Json) : List String :=
  (Validator.validate {} rules document).map Report.message

end ProseSchema
