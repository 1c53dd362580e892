import Mathlib.Data.List.Nodup
import Mathlib.Data.Set.Basic
import ProseSchema.Json.Lemmas
import ProseSchema.Proofs.RoleReach

/-!
# Walks along roles

A family of rules walks along a list of roles that grows while it is walked. A walk comes to its end, also where
edges lead in a circle, for a role is expanded where it is met for the first time and never again. Main
statement: the closure of some roles is the outcome of three walks, one for each family of rules, and each of
them adds what the rules give for every role that it reaches exactly once.
-/

namespace ProseSchema

/-- Where a walk along a list of roles stands. -/
structure RoleWalk where
  passed : List String
  ahead : List String
  /-- The roles that were met so far, the latest first. -/
  expanded : List String

namespace RoleWalk

variable {edges : List (String × String)}

def start (roles : List String) : RoleWalk :=
  ⟨[], roles, []⟩

/-- The walk passes the next role. Where the role is met for the first time, the targets of its edges join the
end of the list. -/
def step (edges : List (String × String)) : RoleWalk → Option RoleWalk
  | ⟨_, [], _⟩ => none
  | ⟨passed, role :: ahead, expanded⟩ =>
    if role ∈ expanded then some ⟨passed ++ [role], ahead, expanded⟩
    else some ⟨passed ++ [role], ahead ++ targets edges role, role :: expanded⟩

/-- Some steps lead from the one walk to the other. -/
abbrev Runs (edges : List (String × String)) : RoleWalk → RoleWalk → Prop :=
  Relation.ReflTransGen fun walk next => walk.step edges = some next

/-- The list consists of the roles at the start and of what the expanded roles have added to it, and the roles
that were passed are those that were expanded. -/
structure Kept (edges : List (String × String)) (given : List String) (walk : RoleWalk) : Prop where
  nodup : walk.expanded.Nodup
  mem_expanded : ∀ role, role ∈ walk.expanded ↔ role ∈ walk.passed
  list_eq : walk.passed ++ walk.ahead = given ++ walk.expanded.reverse.flatMap (targets edges)

lemma kept_start (given : List String) : Kept edges given (start given) :=
  ⟨List.nodup_nil, by simp [start], by simp [start]⟩

lemma Kept.step {given : List String} {walk next : RoleWalk} (hk : Kept edges given walk)
    (h : walk.step edges = some next) : Kept edges given next := by
  obtain ⟨passed, ahead, expanded⟩ := walk
  obtain ⟨hn, hm, hl⟩ := hk
  cases ahead with
  | nil => exact absurd h (by simp [RoleWalk.step])
  | cons role ahead =>
    rw [RoleWalk.step] at h
    split at h
    · next hr =>
      obtain rfl := Option.some.inj h
      refine ⟨hn, fun other => ?_, by simpa using hl⟩
      rw [hm, List.mem_append, List.mem_singleton]
      constructor
      · exact .inl
      · rintro (ho | rfl)
        · exact ho
        · exact (hm other).mp hr
    · next hr =>
      obtain rfl := Option.some.inj h
      refine ⟨List.nodup_cons.mpr ⟨hr, hn⟩, fun other => ?_, ?_⟩
      · rw [List.mem_cons, hm, List.mem_append, List.mem_singleton, or_comm]
      · calc passed ++ [role] ++ (ahead ++ targets edges role)
            = passed ++ role :: ahead ++ targets edges role := by simp
          _ = given ++ expanded.reverse.flatMap (targets edges) ++ targets edges role := by rw [hl]
          _ = given ++ (role :: expanded).reverse.flatMap (targets edges) := by simp

lemma Kept.runs {given : List String} {walk last : RoleWalk} (hk : Kept edges given walk)
    (h : Runs edges walk last) : Kept edges given last := by
  induction h with
  | refl => exact hk
  | tail _ hs ih => exact ih.step hs

/-- The edges that do not leave a role that was expanded. -/
def edgesLeft (edges : List (String × String)) (expanded : List String) : List (String × String) :=
  edges.filter fun edge => edge.1 ∉ expanded

lemma edgesLeft_nil : edgesLeft edges [] = edges := by
  simp [edgesLeft]

lemma edgesLeft_cons (role : String) (expanded : List String) :
    edgesLeft edges (role :: expanded) = edgesBeside (edgesLeft edges expanded) role := by
  simp [edgesLeft, edgesBeside, List.filter_filter]

lemma edgesBeside_edgesLeft {role : String} {expanded : List String} (h : role ∈ expanded) :
    edgesBeside (edgesLeft edges expanded) role = edgesLeft edges expanded := by
  rw [edgesBeside, List.filter_eq_self]
  intro edge he
  have hn : edge.1 ∉ expanded := by simpa using (List.mem_filter.mp he).2
  rw [decide_eq_true_eq]
  rintro rfl
  exact hn h

lemma targets_edgesLeft_of_mem {role : String} {expanded : List String} (h : role ∈ expanded) :
    targets (edgesLeft edges expanded) role = [] := by
  rw [targets, List.map_eq_nil_iff, List.filter_eq_nil_iff]
  intro edge he
  have hn : edge.1 ∉ expanded := by simpa using (List.mem_filter.mp he).2
  rw [decide_eq_true_eq]
  rintro rfl
  exact hn h

lemma targets_edgesLeft_of_not_mem {role : String} {expanded : List String} (h : role ∉ expanded) :
    targets (edgesLeft edges expanded) role = targets edges role := by
  rw [targets, targets, edgesLeft, List.filter_filter]
  congr 1
  apply List.filter_congr
  intro edge _
  by_cases he : edge.1 = role <;> simp [he, h]

/-- Wherever a walk stands it comes to its end, with all the roles that are expanded over the edges left. -/
lemma exists_end (edges : List (String × String)) (passed ahead expanded : List String) :
    ∃ last, Runs edges ⟨passed, ahead, expanded⟩ last ∧ last.ahead = [] ∧
      last.passed = passed ++ expand (edgesLeft edges expanded) ahead := by
  generalize hleft : edgesLeft edges expanded = left
  induction left, ahead using expand.induct generalizing passed expanded with
  | case1 left => exact ⟨_, .refl, rfl, by simp [expand]⟩
  | case2 left role ahead ih =>
    subst hleft
    by_cases hr : role ∈ expanded
    · have hs : step edges ⟨passed, role :: ahead, expanded⟩ = some ⟨passed ++ [role], ahead, expanded⟩ :=
        if_pos hr
      rw [targets_edgesLeft_of_mem hr, List.append_nil] at ih
      obtain ⟨last, hrun, hend, hp⟩ := ih (passed ++ [role]) expanded (edgesBeside_edgesLeft hr).symm
      refine ⟨last, .head hs hrun, hend, ?_⟩
      rw [hp, expand, targets_edgesLeft_of_mem hr, List.append_nil, List.append_assoc, List.singleton_append]
    · have hs : step edges ⟨passed, role :: ahead, expanded⟩ =
          some ⟨passed ++ [role], ahead ++ targets edges role, role :: expanded⟩ := if_neg hr
      rw [targets_edgesLeft_of_not_mem hr] at ih
      obtain ⟨last, hrun, hend, hp⟩ := ih (passed ++ [role]) (role :: expanded) (edgesLeft_cons role expanded)
      refine ⟨last, .head hs hrun, hend, ?_⟩
      rw [hp, expand, targets_edgesLeft_of_not_mem hr, List.append_assoc, List.singleton_append]

end RoleWalk

/-- The roles that steps from one role to the next reach from some roles. -/
def reachedFrom (leads : String → String → Prop) (roles : Set String) : Set String :=
  {role | ∃ start ∈ roles, Relation.ReflTransGen leads start role}

/-- A family of rules, given as the edges of the rules that apply, turns the one list of roles into the other:
its walk comes to an end there, on the way it adds the targets of every role that it reaches exactly once, and
it reaches no other roles than these. -/
structure Expands (edges : List (String × String)) (given outcome : List String) : Prop where
  ends : ∃ expanded, RoleWalk.Runs edges (.start given) ⟨outcome, [], expanded⟩
  adds : ∃ distinct : List String, distinct.Nodup ∧
    (∀ role, role ∈ distinct ↔ role ∈ reachedFrom (Leads edges) {role | role ∈ given}) ∧
    outcome = given ++ distinct.flatMap (targets edges)
  mem_iff : ∀ role, role ∈ outcome ↔ role ∈ reachedFrom (Leads edges) {role | role ∈ given}

theorem expands_expand (edges : List (String × String)) (given : List String) :
    Expands edges given (expand edges given) := by
  have hmem (role : String) : role ∈ expand edges given ↔
      role ∈ reachedFrom (Leads edges) {role | role ∈ given} := mem_expand_iff edges given role
  obtain ⟨⟨outcome, ahead, expanded⟩, hrun, rfl, hp⟩ := RoleWalk.exists_end edges [] given []
  obtain rfl : outcome = expand edges given := by rwa [RoleWalk.edgesLeft_nil] at hp
  obtain ⟨hn, hm, hl⟩ := (RoleWalk.kept_start given).runs hrun
  refine ⟨⟨expanded, hrun⟩, ⟨expanded.reverse, List.nodup_reverse.mpr hn, fun role => ?_, ?_⟩, hmem⟩
  · rw [List.mem_reverse, ← hmem]
    exact hm role
  · simpa using hl

namespace Expands

variable {edges : List (String × String)} {given outcome : List String}

lemma keeps_given (h : Expands edges given outcome) : given <+: outcome := by
  obtain ⟨distinct, -, -, ho⟩ := h.adds
  rw [ho]
  exact List.prefix_append _ _

lemma countP_mem_cons {role : String} {distinct : List String} (h : role ∉ distinct) :
    (edges.countP fun edge => edge.1 ∈ role :: distinct) =
      (edges.countP fun edge => edge.1 = role) + edges.countP fun edge => edge.1 ∈ distinct := by
  induction edges with
  | nil => rfl
  | cons edge edges ih =>
    rw [List.countP_cons, List.countP_cons, List.countP_cons, ih]
    by_cases he : edge.1 = role
    · simp [he, h]
      omega
    · simp [he]
      omega

lemma length_flatMap_targets {distinct : List String} (h : distinct.Nodup) :
    (distinct.flatMap (targets edges)).length = edges.countP fun edge => edge.1 ∈ distinct := by
  induction distinct with
  | nil => simp
  | cons role distinct ih =>
    obtain ⟨hr, hn⟩ := List.nodup_cons.mp h
    have ht : (targets edges role).length = edges.countP fun edge => edge.1 = role := by
      rw [targets, List.length_map, List.countP_eq_length_filter]
    rw [List.flatMap_cons, List.length_append, ih hn, ht, countP_mem_cons hr]

open scoped Classical in
/-- The outcome is longer by the edges that leave its roles. -/
lemma length_eq (h : Expands edges given outcome) {roles : Set String} (hr : {role | role ∈ outcome} = roles) :
    outcome.length = given.length + edges.countP fun edge => edge.1 ∈ roles := by
  obtain ⟨distinct, hn, hm, ho⟩ := h.adds
  have hmem (role : String) : role ∈ distinct ↔ role ∈ roles := by
    rw [hm, ← h.mem_iff, ← hr]
    rfl
  rw [ho, List.length_append, length_flatMap_targets hn]
  simp only [hmem]

end Expands

namespace RuleTables

/-- The field of the node holds the value of the literal. -/
def Holds (node : Json) (field : String) (literal : Literal) : Prop :=
  ∃ value, node.get? field = some value ∧ literal.holds value = true

variable (t : RuleTables) (node : Json) (given : List String)

/-- The roles reached by the rules that hold always. -/
def byIsA : Set String :=
  reachedFrom (fun a b => (a, b) ∈ t.isA) {role | role ∈ given}

/-- The roles reached from those by the rules about fields that the node has. -/
def byPresence : Set String :=
  reachedFrom (fun a b => ∃ field, (a, field, b) ∈ t.presence ∧ node.Has field) (t.byIsA given)

/-- The roles reached from those by the rules about values that the node holds. -/
def byValue : Set String :=
  reachedFrom (fun a b => ∃ field literal, (a, field, literal, b) ∈ t.value ∧ Holds node field literal)
    (t.byPresence node given)

variable {t node given}

lemma byIsA_eq {outcome : List String} (h : Expands t.isA given outcome) :
    {role | role ∈ outcome} = t.byIsA given :=
  Set.ext h.mem_iff

lemma byPresence_eq {before outcome : List String} (hb : {role | role ∈ before} = t.byIsA given)
    (h : Expands (t.presenceEdges node) before outcome) :
    {role | role ∈ outcome} = t.byPresence node given := by
  have hl : Leads (t.presenceEdges node) = fun a b => ∃ field, (a, field, b) ∈ t.presence ∧ node.Has field := by
    funext a b
    simp only [leads_presenceEdges, Json.hasField_iff]
  rw [byPresence, ← hb, ← hl]
  exact Set.ext h.mem_iff

lemma byValue_eq {before outcome : List String} (hb : {role | role ∈ before} = t.byPresence node given)
    (h : Expands (t.valueEdges node) before outcome) :
    {role | role ∈ outcome} = t.byValue node given := by
  have hl : Leads (t.valueEdges node) =
      fun a b => ∃ field literal, (a, field, literal, b) ∈ t.value ∧ Holds node field literal := by
    funext a b
    exact propext leads_valueEdges
  rw [byValue, ← hb, ← hl]
  exact Set.ext h.mem_iff

open scoped Classical in
lemma countP_presenceEdges (roles : Set String) : ((t.presenceEdges node).countP fun edge => edge.1 ∈ roles) =
    t.presence.countP fun rule => rule.1 ∈ roles ∧ node.Has rule.2.1 := by
  rw [presenceEdges, List.countP_map, List.countP_filter]
  apply List.countP_congr
  intro rule _
  simp only [Function.comp_apply, Bool.and_eq_true, decide_eq_true_eq, Json.hasField_iff]

open scoped Classical in
lemma countP_valueEdges (roles : Set String) : ((t.valueEdges node).countP fun edge => edge.1 ∈ roles) =
    t.value.countP fun rule => rule.1 ∈ roles ∧ Holds node rule.2.1 rule.2.2.1 := by
  rw [valueEdges, List.countP_map, List.countP_filter]
  apply List.countP_congr
  intro rule _
  simp only [Function.comp_apply, Bool.and_eq_true, decide_eq_true_eq, Option.any_eq_true]
  rfl

open scoped Classical in
/-- A closure of roles takes three walks, one for each family of rules, that all come to an end. The roles given
stay in front. The roles of the closure are those reached by rules that hold always, then by rules about
presence, then by rules about values; and besides the roles given there is one for each rule of a role reached
that the node meets. -/
theorem close_by_families (t : RuleTables) (node : Json) (given : List String) :
    (∃ first second, Expands t.isA given first ∧ Expands (t.presenceEdges node) first second ∧
      Expands (t.valueEdges node) second (t.close node given)) ∧
    given <+: t.close node given ∧
    (∀ role, role ∈ t.close node given ↔ role ∈ t.byValue node given) ∧
    (t.close node given).length = given.length + (t.isA.countP fun rule => rule.1 ∈ t.byIsA given) +
      (t.presence.countP fun rule => rule.1 ∈ t.byPresence node given ∧ node.Has rule.2.1) +
      t.value.countP fun rule => rule.1 ∈ t.byValue node given ∧ Holds node rule.2.1 rule.2.2.1 := by
  have hfirst := expands_expand t.isA given
  have hsecond := expands_expand (t.presenceEdges node) (expand t.isA given)
  have hthird : Expands (t.valueEdges node) _ (t.close node given) := expands_expand _ _
  have hI := byIsA_eq hfirst
  have hP := byPresence_eq hI hsecond
  have hV := byValue_eq hP hthird
  refine ⟨⟨_, _, hfirst, hsecond, hthird⟩, ?_, fun role => ?_, ?_⟩
  · exact hfirst.keeps_given.trans (hsecond.keeps_given.trans hthird.keeps_given)
  · rw [← hV]
    rfl
  · rw [hthird.length_eq hV, hsecond.length_eq hP, hfirst.length_eq hI, countP_presenceEdges, countP_valueEdges]

end RuleTables

end ProseSchema
