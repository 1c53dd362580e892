import ProseSchema.Proofs.RoundedIntegers
import ProseSchema.Rules.Closure

/-!
# Integers as literals

A literal integer is compared with a number of a document by what the two are rounded to. So it accepts another
integer, as an enumeration, as the value of a rule about roles or by itself, as soon as one is rounded to the same
number.
-/

namespace ProseSchema

/-- Without edges no role is added. -/
lemma expand_nil (roles : List String) : expand [] roles = roles := by
  induction roles with
  | nil => rw [expand]
  | cons role roles ih =>
    have htargets : targets [] role = [] := rfl
    have hbeside : edgesBeside [] role = [] := rfl
    rw [expand, htargets, hbeside, List.append_nil, ih]

namespace Literal

variable {i j : Int}

lemma holds_integer_iff (i j : Int) : (integer i).holds (.number (.integer j)) = true ↔
    (Binary64.ofInt j).rank = (Binary64.ofInt i).rank := by
  rw [holds, decide_eq_true_eq, Number.toBinary64]

section Fields

variable {field : String} {node value : Json}

/-- An enumeration of one literal has no problem with a field that equals it. -/
lemma fieldAmong_singleton_iff (hv : node.get? field = some value) (literal : Literal) (place : Location) :
    (Requirement.fieldAmong field [literal]).problems node place = [] ↔ literal.holds value = true := by
  simp [Requirement.problems, hv]

/-- A rule about the value of a field gives its new role where the field equals the literal. -/
lemma close_insert_value_iff (hv : node.get? field = some value) (role : String) (literal : Literal)
    (newRole : String) : (RuleTables.insert {} (.value role field literal newRole)).close node [role] =
      [role, newRole] ↔ literal.holds value = true := by
  have hedges : (RuleTables.insert {} (.value role field literal newRole)).valueEdges node =
      if literal.holds value then [(role, newRole)] else [] := by
    cases h : literal.holds value <;>
      simp [RuleTables.valueEdges, RuleTables.insert, hv, h]
  have hclose : (RuleTables.insert {} (.value role field literal newRole)).close node [role] =
      expand (if literal.holds value then [(role, newRole)] else []) [role] := by
    have hpresence : (RuleTables.insert {} (.value role field literal newRole)).presenceEdges node = [] := rfl
    have hisA : (RuleTables.insert {} (.value role field literal newRole)).isA = [] := rfl
    rw [RuleTables.close, hedges, hpresence, hisA, expand_nil, expand_nil]
  rw [hclose]
  cases literal.holds value with
  | false => simp [expand_nil]
  | true =>
    rw [if_pos rfl, expand]
    simp [targets, edgesBeside, expand_nil]

end Fields

lemma isToldApart_iff (hlow : Number.leastInt64 ≤ i) (hhigh : i ≤ Number.greatestInt64) :
    Binary64.IsToldApart i.natAbs ↔ ∀ j, Json.isInteger64 j = true →
      ((integer i).holds (.number (.integer j)) = true ↔ i = j) := by
  constructor
  · intro h j _
    rw [holds_integer_iff]
    constructor
    · intro he
      exact (Binary64.eq_of_rank_ofInt_eq h he).symm
    · rintro rfl
      rfl
  · intro h
    by_contra hnot
    obtain ⟨j, hne, hj, he⟩ := Binary64.exists_rank_ofInt_eq_of_not hnot hlow hhigh
    exact hne ((h j hj).mp ((holds_integer_iff i j).mpr he)).symm

/-- A literal integer of 64 bits accepts no integer but itself, out of those that documents have, exactly if no
other is rounded to the same number: up to the fifty-third power of two and, below the next one, if it is twice
an odd number. The same goes for an enumeration of the literal and for a rule that gives a role where a field
has the value. -/
theorem integer_accepts_itself_only_iff (hlow : Number.leastInt64 ≤ i) (hhigh : i ≤ Number.greatestInt64) :
    (Binary64.IsToldApart i.natAbs ↔ ∀ j, Json.isInteger64 j = true →
      ((integer i).holds (.number (.integer j)) = true ↔ i = j)) ∧
    (Binary64.IsToldApart i.natAbs ↔ ∀ j, Json.isInteger64 j = true →
      ∀ field node place, node.get? field = some (.number (.integer j)) →
        ((Requirement.fieldAmong field [integer i]).problems node place = [] ↔ i = j)) ∧
    (Binary64.IsToldApart i.natAbs ↔ ∀ j, Json.isInteger64 j = true →
      ∀ field node role newRole, node.get? field = some (.number (.integer j)) →
        ((RuleTables.insert {} (.value role field (integer i) newRole)).close node [role] = [role, newRole] ↔
          i = j)) := by
  have happly := isToldApart_iff hlow hhigh
  refine ⟨happly, ?_, ?_⟩
  · rw [happly]
    constructor
    · intro h j hj field node place hv
      rw [fieldAmong_singleton_iff hv, h j hj]
    · intro h j hj
      have hv : Json.get? "value" (.object [("value", .number (.integer j))]) = some (.number (.integer j)) := rfl
      rw [← fieldAmong_singleton_iff hv, h j hj _ _ (.ofRoot "") hv]
  · rw [happly]
    constructor
    · intro h j hj field node role newRole hv
      rw [close_insert_value_iff hv, h j hj]
    · intro h j hj
      have hv : Json.get? "value" (.object [("value", .number (.integer j))]) = some (.number (.integer j)) := rfl
      rw [← close_insert_value_iff hv "role" _ "new role", h j hj _ _ _ _ hv]

/-- The literal lies beyond the fifty-third power of two, and its neighbours are rounded to others. -/
theorem twice_odd_accepts_itself_only :
    Number.leastInt64 ≤ 9007199254740994 ∧ 9007199254740994 ≤ Number.greatestInt64 ∧
    ∀ j, Json.isInteger64 j = true →
      ((integer 9007199254740994).holds (.number (.integer j)) = true ↔ 9007199254740994 = j) := by
  have hlow : Number.leastInt64 ≤ 9007199254740994 := by decide
  have hhigh : 9007199254740994 ≤ Number.greatestInt64 := by decide
  exact ⟨hlow, hhigh, (integer_accepts_itself_only_iff hlow hhigh).1.mp (by decide)⟩

/-- The integer right above the fifty-third power of two accepts that power, by itself and in an enumeration. -/
theorem accepts_neighbour :
    (integer 9007199254740993).holds (.number (.integer 9007199254740992)) = true ∧
    ∀ place, (Requirement.fieldAmong "serial" [integer 9007199254740993]).problems
      (.object [("serial", .number (.integer 9007199254740992))]) place = [] := by
  have hnearest : Binary64.nearestNat 9007199254740993 = Binary64.nearestNat 9007199254740992 := by
    obtain ⟨w, hw, hbelow, habove, heven⟩ :=
      Binary64.exists_nearestNat_eq (n := 9007199254740993) (by decide) (by decide)
    have hself : Binary64.nearestNat 9007199254740992 = 9007199254740992 := Binary64.nearestNat_of_le (by decide)
    omega
  have hholds : (integer 9007199254740993).holds (.number (.integer 9007199254740992)) = true := by
    have habove : Int.natAbs 9007199254740993 = 9007199254740993 := rfl
    have hbelow : Int.natAbs 9007199254740992 = 9007199254740992 := rfl
    rw [holds_integer_iff, Binary64.rank_ofInt, Binary64.rank_ofInt, if_neg (by decide), if_neg (by decide),
      Binary64.placeOf, Binary64.placeOf, habove, hbelow, hnearest]
  exact ⟨hholds, fun place => (fieldAmong_singleton_iff rfl _ place).mpr hholds⟩

end Literal

end ProseSchema
