import ProseSchema.Rules.Tables

/-!
# Closure of roles

All the roles that a node plays, given some of them and the content of the node. The rules that hold
always come first, then those about the presence of fields, then those about their values; the outcome of
a rule counts for the rules of its own family and of the later ones.
-/

namespace ProseSchema

def targets (edges : List (String × String)) (role : String) : List String :=
  (edges.filter fun edge => edge.1 = role).map Prod.snd

def edgesBeside (edges : List (String × String)) (role : String) : List (String × String) :=
  edges.filter fun edge => edge.1 ≠ role

theorem length_edgesBeside (edges : List (String × String)) (role : String) :
    (edgesBeside edges role).length + (targets edges role).length = edges.length := by
  induction edges with
  | nil => rfl
  | cons edge edges ih =>
    by_cases h : edge.1 = role <;> simp [edgesBeside, targets, h] at ih ⊢ <;> omega

/-- The roles reached from a list of them over edges, the list itself first. Every role is expanded where
it first stands in the outcome, by all its edges at once, which are then used up. -/
def expand (edges : List (String × String)) : List String → List String
  | [] => []
  | role :: roles => role :: expand (edgesBeside edges role) (roles ++ targets edges role)
termination_by roles => edges.length + roles.length
decreasing_by
  have := length_edgesBeside edges role
  simp only [List.length_append, List.length_cons]
  omega

namespace RuleTables

/-- The edges of the rules about presence whose field the node has. -/
def presenceEdges (t : RuleTables) (node : Json) : List (String × String) :=
  (t.presence.filter fun rule => node.hasField rule.2.1).map fun rule => (rule.1, rule.2.2)

/-- The edges of the rules about values that the node meets. -/
def valueEdges (t : RuleTables) (node : Json) : List (String × String) :=
  (t.value.filter fun rule => (node.get? rule.2.1).any rule.2.2.1.holds).map fun rule =>
    (rule.1, rule.2.2.2)

/-- All the roles of a node that plays some. -/
def close (t : RuleTables) (node : Json) (roles : List String) : List String :=
  expand (t.valueEdges node) (expand (t.presenceEdges node) (expand t.isA roles))

end RuleTables

end ProseSchema
