/-!
# Errors in rule texts
-/

namespace ProseSchema

/-- Why a rule text says nothing. Lines are numbered from one, and patterns are refused for no line. -/
inductive RuleError
  /-- A sentence stands before the root declaration, or there is none at all, which counts as line zero. -/
  | missingRoot (line : Nat)
  | duplicateRoot (line : Nat)
  /-- The line is no sentence over the roles known there. -/
  | unrecognizedLine (line : Nat) (text : String)
  /-- A value is compared with something that is not a number. -/
  | nonNumericTarget (line : Nat) (target : String)
  /-- The patterns of sentences over the known roles cannot be built. -/
  | grammar (message : String)
  deriving DecidableEq

namespace RuleError

def line? : RuleError → Option Nat
  | missingRoot line => some line
  | duplicateRoot line => some line
  | unrecognizedLine line _ => some line
  | nonNumericTarget line _ => some line
  | grammar _ => none

/-- What is wrong, without the line. -/
def reason : RuleError → String
  | missingRoot _ => "rule file does not start with a root declaration"
  | duplicateRoot _ => "only one root declaration is allowed"
  | unrecognizedLine _ text => "unrecognized rule: " ++ text
  | nonNumericTarget _ target => "relation target is not a number: " ++ target
  | grammar message => "sentence grammar failed to compile: " ++ message

def message (e : RuleError) : String :=
  match e.line? with
  | some line => "line " ++ toString line ++ ": " ++ e.reason
  | none => e.reason

end RuleError

end ProseSchema
