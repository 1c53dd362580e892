import Mathlib.Logic.Relation
import Mathlib.Tactic.Lemma
import ProseSchema.Rules.Closure

namespace ProseSchema

/-- An edge leads from one role to the other. -/
abbrev Leads (edges : List (String × String)) (a b : String) : Prop :=
  (a, b) ∈ edges

/-- A path of edges leads from one role to the other. -/
abbrev Reaches (edges : List (String × String)) : String → String → Prop :=
  Relation.ReflTransGen (Leads edges)

lemma mem_targets {edges : List (String × String)} {a b : String} :
    b ∈ targets edges a ↔ Leads edges a b := by
  simp [targets, Leads]

lemma leads_edgesBeside {edges : List (String × String)} {role a b : String} :
    Leads (edgesBeside edges role) a b ↔ Leads edges a b ∧ a ≠ role := by
  simp [edgesBeside, Leads]

/-- A path from a role or from another one need not come back to the role. -/
lemma reaches_beside {edges : List (String × String)} {role : String} {roles : List String} {start b : String}
    (hs : start ∈ role :: roles) (h : Reaches edges start b) :
    b = role ∨ ∃ other ∈ roles ++ targets edges role, Reaches (edgesBeside edges role) other b := by
  induction h with
  | refl =>
    rcases List.mem_cons.mp hs with rfl | hs
    · exact .inl rfl
    · exact .inr ⟨_, List.mem_append_left _ hs, .refl⟩
  | @tail y z _ hyz ih =>
    -- A last edge that leaves the role makes the path before it needless.
    by_cases hy : y = role
    · subst hy
      exact .inr ⟨z, List.mem_append_right _ (mem_targets.mpr hyz), .refl⟩
    · obtain ⟨other, ho, hr⟩ := ih.resolve_left hy
      exact .inr ⟨other, ho, hr.tail (leads_edgesBeside.mpr ⟨hyz, hy⟩)⟩

/-- The roles of an expansion are those that are reached from the roles at the start. -/
theorem mem_expand_iff (edges : List (String × String)) (roles : List String) (b : String) :
    b ∈ expand edges roles ↔ ∃ start ∈ roles, Reaches edges start b := by
  induction edges, roles using expand.induct with
  | case1 edges => simp [expand]
  | case2 edges role roles ih =>
    rw [expand, List.mem_cons, ih]
    constructor
    · rintro (rfl | ⟨other, ho, hr⟩)
      · exact ⟨b, List.mem_cons_self, .refl⟩
      · have hr' : Reaches edges other b :=
          Relation.ReflTransGen.mono (fun _ _ h => (leads_edgesBeside.mp h).1) _ _ hr
        rcases List.mem_append.mp ho with ho | ho
        · exact ⟨other, List.mem_cons_of_mem _ ho, hr'⟩
        · exact ⟨role, List.mem_cons_self, .head (mem_targets.mp ho) hr'⟩
    · rintro ⟨start, hs, hr⟩
      exact reaches_beside hs hr

/-- From a role that no edge leaves, only the role itself is reached. -/
lemma reaches_of_no_edge {edges : List (String × String)} {a b : String}
    (h : ∀ edge ∈ edges, edge.1 ≠ a) : Reaches edges a b ↔ b = a := by
  constructor
  · intro hr
    rcases Relation.ReflTransGen.cases_head hr with rfl | ⟨c, hc, _⟩
    · rfl
    · exact absurd rfl (h _ hc)
  · rintro rfl
    exact .refl

/-- Where all edges leave one role, one edge is enough. -/
lemma reaches_of_one_source {edges : List (String × String)} {a b : String}
    (h : ∀ edge ∈ edges, edge.1 = a) : Reaches edges a b ↔ b = a ∨ Leads edges a b := by
  constructor
  · intro hr
    rcases Relation.ReflTransGen.cases_tail hr with rfl | ⟨c, _, hc⟩
    · exact .inl rfl
    · exact .inr (h _ hc ▸ hc)
  · rintro (rfl | hl)
    · exact .refl
    · exact .single hl

namespace RuleTables

/-- A role of a closure is reached in three stages. -/
lemma mem_close_iff (t : RuleTables) (node : Json) (given : List String) (b : String) :
    b ∈ t.close node given ↔ ∃ start ∈ given, ∃ x, Reaches t.isA start x ∧
      ∃ y, Reaches (t.presenceEdges node) x y ∧ Reaches (t.valueEdges node) y b := by
  simp only [close, mem_expand_iff]
  constructor
  · rintro ⟨y, ⟨x, ⟨start, hs, hx⟩, hy⟩, hb⟩
    exact ⟨start, hs, x, hx, y, hy, hb⟩
  · rintro ⟨start, hs, x, hx, y, hy, hb⟩
    exact ⟨y, ⟨x, ⟨start, hs, hx⟩, hy⟩, hb⟩

lemma leads_presenceEdges {t : RuleTables} {node : Json} {a b : String} :
    Leads (t.presenceEdges node) a b ↔ ∃ field, (a, field, b) ∈ t.presence ∧ node.hasField field = true := by
  simp only [Leads, presenceEdges, List.mem_map, List.mem_filter, Prod.mk.injEq, Prod.exists]
  constructor
  · rintro ⟨_, field, _, ⟨h, hf⟩, rfl, rfl⟩
    exact ⟨field, h, hf⟩
  · rintro ⟨field, h, hf⟩
    exact ⟨a, field, b, ⟨h, hf⟩, rfl, rfl⟩

lemma leads_valueEdges {t : RuleTables} {node : Json} {a b : String} :
    Leads (t.valueEdges node) a b ↔ ∃ field literal, (a, field, literal, b) ∈ t.value ∧
      ∃ value, node.get? field = some value ∧ literal.holds value = true := by
  simp only [Leads, valueEdges, List.mem_map, List.mem_filter, Prod.mk.injEq, Prod.exists,
    Option.any_eq_true]
  constructor
  · rintro ⟨_, field, literal, _, ⟨h, hf⟩, rfl, rfl⟩
    exact ⟨field, literal, h, hf⟩
  · rintro ⟨field, literal, h, hf⟩
    exact ⟨a, field, literal, b, ⟨h, hf⟩, rfl, rfl⟩

end RuleTables

end ProseSchema
