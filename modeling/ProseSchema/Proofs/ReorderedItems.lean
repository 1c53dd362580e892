import ProseSchema.Proofs.LevelOrder
import ProseSchema.Proofs.Reordering
import ProseSchema.Validator

namespace ProseSchema

/-- The arguments of a kind without those that show the order of members: the text of a value, and the places
at which a name is found again. -/
def ProblemKind.orderFreeArgs (kind : ProblemKind) (args : List String) : List String :=
  match kind with
  | fieldValueEnum => args.eraseIdx 2
  | duplicateStateName => args.take 1
  | _ => args

/-- What a report says whatever the order of members is. -/
def Report.outline (report : Report) : ProblemKind × List String :=
  (report.kind, report.kind.orderFreeArgs report.args)

def Problem.outline (p : Problem) : ProblemKind × List String :=
  (p.kind, p.kind.orderFreeArgs p.args)

def outlines (problems : List Problem) : Multiset (ProblemKind × List String) :=
  (problems.map Problem.outline : Multiset (ProblemKind × List String))

lemma outlines_append (problems later : List Problem) :
    outlines (problems ++ later) = outlines problems + outlines later := by
  rw [outlines, List.map_append, ← Multiset.coe_add]
  rfl

lemma outlines_perm {problems others : List Problem} (h : problems.Perm others) :
    outlines problems = outlines others :=
  Multiset.coe_eq_coe.mpr (h.map _)

lemma outlines_flatMap {α β : Type} {related : α → β → Prop} {as : List α} {bs : List β}
    {f : α → List Problem} {g : β → List Problem}
    (h : Multiset.Rel related (as : Multiset α) (bs : Multiset β))
    (hfg : ∀ a b, related a b → outlines (f a) = outlines (g b)) :
    outlines (as.flatMap f) = outlines (bs.flatMap g) := by
  simp only [outlines, List.map_flatMap]
  rw [← Multiset.rel_eq]
  exact rel_flatMap h fun a b hab => Multiset.rel_eq.mpr (hfg a b hab)

lemma outlines_map {α β : Type} {related : α → β → Prop} {as : List α} {bs : List β} {f : α → Problem}
    {g : β → Problem} (h : Multiset.Rel related (as : Multiset α) (bs : Multiset β))
    (hfg : ∀ a b, related a b → (f a).outline = (g b).outline) :
    outlines (as.map f) = outlines (bs.map g) := by
  rw [outlines, outlines, List.map_map, List.map_map, ← Multiset.rel_eq]
  exact rel_map h hfg

open Json

namespace Requirement

variable {a b : Json} (h : Alike a b)

include h

lemma typeProblems_alike (type : JsonType) (place : Location) :
    typeProblems type a place = typeProblems type b place := by
  rw [typeProblems, typeProblems, h.hasType_eq, h.types_eq]

omit h in
lemma elementProblems_alike {as bs : List Json} (h : List.Forall₂ Alike as bs) (type : JsonType)
    (place : Location) (start : Nat) :
    elementProblems type place start as = elementProblems type place start bs := by
  induction h generalizing start with
  | nil => rfl
  | cons hab _ ih => rw [elementProblems, elementProblems, typeProblems_alike hab, ih]

lemma fieldTypeProblems_alike (type : JsonType) (inArray nullable : Bool) (place : Location) :
    fieldTypeProblems type inArray nullable a place = fieldTypeProblems type inArray nullable b place := by
  cases h.reordered with
  | array => simp only [fieldTypeProblems, h.isNull_eq, elementProblems_alike h.elements, typeProblems_alike h]
  | object => simp only [fieldTypeProblems, h.isNull_eq, h.types_eq, typeProblems_alike h]
  | _ => rfl

lemma rangeProblems_alike (range : Range) (field : String) (place : Location) :
    rangeProblems range field a place = rangeProblems range field b place := by
  cases h.reordered <;> rfl

/-- Nodes that are alike break a requirement in the same way. -/
lemma outlines_problems (requirement : Requirement) (place : Location) :
    outlines (requirement.problems a place) = outlines (requirement.problems b place) := by
  cases requirement with
  | hasField names | lacksField name | onlyOneOf names =>
    simp only [problems, h.hasType_eq, h.hasField_eq]
  | fieldType field type inArray nullable =>
    rcases h.get? field with ⟨ha, hb⟩ | ⟨v, w, ha, hb, hv⟩
    · simp only [problems, ha, hb]
    · simp only [problems, ha, hb, fieldTypeProblems_alike hv]
  | fieldAmong field allowed =>
    rcases h.get? field with ⟨ha, hb⟩ | ⟨v, w, ha, hb, hv⟩
    · simp only [problems, ha, hb]
    · simp only [problems, ha, hb, hv.holds_eq]
      split <;> rfl
  | fieldRange field range =>
    rcases h.get? field with ⟨ha, hb⟩ | ⟨v, w, ha, hb, hv⟩
    · simp only [problems, ha, hb]
    · simp only [problems, ha, hb, rangeProblems_alike hv]
  | nonEmptyArray field =>
    rcases h.get? field with ⟨ha, hb⟩ | ⟨v, w, ha, hb, hv⟩
    · simp only [problems, ha, hb]
    · simp only [problems, ha, hb]
      cases hv.reordered with
      | array he => cases he <;> rfl
      | _ => rfl

end Requirement

lemma RuleTables.close_alike {a b : Json} (h : Alike a b) (t : RuleTables) (roles : List String) :
    t.close a roles = t.close b roles := by
  have hv (field : String) (literal : Literal) : (a.get? field).any literal.holds = (b.get? field).any literal.holds := by
    rcases h.get? field with ⟨ha, hb⟩ | ⟨v, w, ha, hb, hv⟩
    · rw [ha, hb]
    · rw [ha, hb, Option.any_some, Option.any_some, hv.holds_eq]
  simp only [close, presenceEdges, valueEdges, h.hasField_eq, hv]

/-- Members in order, with those of the other value that have their names. -/
lemma Json.Alike.object_members {a b : Json} (h : Alike a b) :
    Multiset.Rel (SameName Alike) (a.members : Multiset (String × Json)) (b.members : Multiset (String × Json)) := by
  cases h.reordered with
  | object => exact h.members
  | _ => exact .zero

lemma Json.Alike.rel_parts {a b : Json} (h : Alike a b) :
    Multiset.Rel (fun part other => part.1 = other.1 ∧ Alike part.2 other.2)
      (a.parts : Multiset (LocationStep × Json)) (b.parts : Multiset (LocationStep × Json)) := by
  cases h.reordered with
  | object =>
    apply rel_map h.members
    rintro _ _ ⟨name, hv⟩
    exact ⟨rfl, hv⟩
  | array =>
    have hz (start : Nat) {as bs : List Json} (h : List.Forall₂ Alike as bs) :
        List.Forall₂ (fun a b => a.2 = b.2 ∧ Alike a.1 b.1) (as.zipIdx start) (bs.zipIdx start) := by
      induction h generalizing start with
      | nil => exact .nil
      | cons hab _ ih => exact .cons ⟨rfl, hab⟩ (ih _)
    apply rel_map (rel_of_forall₂ (hz 0 h.elements))
    intro a b hab
    exact ⟨congrArg LocationStep.index hab.1, hab.2⟩
  | _ => exact .zero

namespace Item

/-- Items at one place with the same roles, whose values are alike. -/
structure Reordered (i j : Item) : Prop where
  place : i.place = j.place
  roles : i.roles = j.roles
  node : Json.Alike i.node j.node

namespace Reordered

variable {i j : Item} (h : Reordered i j) (t : RuleTables)

include h

lemma allRoles_eq : i.allRoles t = j.allRoles t := by
  rw [allRoles, allRoles, h.roles, RuleTables.close_alike h.node]

/-- They have the same problems, up to order and the values that are shown. -/
lemma outlines_problems : outlines (i.problems t) = outlines (j.problems t) := by
  rw [problems, problems, outlines_append, outlines_append]
  congr 1
  · rw [constraintProblems, constraintProblems, h.allRoles_eq, h.place]
    apply outlines_flatMap Multiset.rel_eq_refl
    rintro role _ rfl
    apply outlines_flatMap Multiset.rel_eq_refl
    rintro constraint _ rfl
    exact constraint.requirement.outlines_problems h.node j.place
  · rw [unknownFields_eq, unknownFields_eq, h.allRoles_eq, h.place]
    apply outlines_map (rel_filter h.node.object_members _)
    · intro m n hmn
      rw [hmn.name_eq]
    · intro m n hmn
      rw [hmn.name_eq]

lemma rel_below {m n : String × Json} (hmn : SameName Json.Alike m n) :
    Multiset.Rel Reordered (i.below t m : Multiset Item) (j.below t n : Multiset Item) := by
  rw [below, below, h.allRoles_eq, h.place, hmn.name_eq]
  apply rel_append
  · split
    · exact .zero
    · exact rel_of_forall₂ (.cons ⟨rfl, rfl, hmn.value⟩ .nil)
  · split
    · exact .zero
    · apply rel_map hmn.value.rel_parts
      intro part other hp
      rw [hp.1]
      exact ⟨rfl, rfl, hp.2⟩

end Reordered

end Item

lemma rel_nextLevel (t : RuleTables) {items others : List Item}
    (h : Multiset.Rel Item.Reordered (items : Multiset Item) (others : Multiset Item)) :
    Multiset.Rel Item.Reordered (nextLevel t items : Multiset Item) (nextLevel t others : Multiset Item) := by
  apply rel_flatMap h
  intro i j hij
  apply rel_flatMap hij.node.object_members
  intro m n hmn
  exact hij.rel_below t hmn

lemma sweep_level (t : RuleTables) (items : List Item) :
    sweep t items = items.flatMap (Item.problems t) ++ sweep t (nextLevel t items) := by
  rw [sweep_eq_taken, taken_level, List.flatMap_append, ← sweep_eq_taken]

/-- Sweeps over items that are equal up to order report the same. -/
theorem outlines_sweep (t : RuleTables) {items others : List Item}
    (h : Multiset.Rel Item.Reordered (items : Multiset Item) (others : Multiset Item)) :
    outlines (sweep t items) = outlines (sweep t others) := by
  induction hw : queueWeight items using Nat.strongRecOn generalizing items others with
  | ind weight ih =>
    cases items with
    | nil =>
      rw [Multiset.coe_nil, Multiset.rel_zero_left, Multiset.coe_eq_zero] at h
      rw [h]
    | cons item items =>
      have hlt := queueWeight_nextLevel t (item :: items)
      rw [List.length_cons] at hlt
      rw [sweep_level, sweep_level t others, outlines_append, outlines_append]
      congr 1
      · exact outlines_flatMap h fun i j hij => hij.outlines_problems t
      · exact ih _ (by omega) (rel_nextLevel t h) rfl

end ProseSchema
