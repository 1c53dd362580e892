import Mathlib.Data.List.Basic
import Mathlib.Logic.Function.Iterate
import Mathlib.Tactic.Lemma
import ProseSchema.Conformance
import ProseSchema.Json.Lemmas

/-!
# The order of the items

The queue of the check is emptied level by level. A level is described without the queue, by what the items
of the level before hold. The loop takes the items of the levels one after the other, in their order and without
any other item between them, and it ends because the levels do.
-/

namespace ProseSchema

/-- The location one step further on. -/
def Location.step (place : Location) (last : LocationStep) : Location :=
  ⟨place.root, place.steps ++ [last]⟩

/-- The members of an object or the elements of an array, each with the step that leads to it. -/
def Json.parts : Json → List (LocationStep × Json)
  | .object members => members.map fun member => (.key member.1, member.2)
  | .array elements => elements.zipIdx.map fun element => (.index element.2, element.1)
  | _ => []

namespace Item

/-- What a member of the node is checked as: its value in the child roles, if there are any, and each part
of the value in the grandchild roles, if there are any and none of them may have any field. -/
def below (t : RuleTables) (item : Item) (member : String × Json) : List Item :=
  let place := item.place.step (.key member.1)
  let own := t.childRoles (item.allRoles t) member.1
  let inner := t.grandchildRoles (item.allRoles t) member.1
  (if own = [] then [] else [⟨member.2, place, own⟩]) ++
  if inner = [] ∨ ∃ role ∈ inner, role ∈ t.anyField then []
  else member.2.parts.map fun part => ⟨part.2, place.step part.1, inner⟩

end Item

/-- What the items of a level hold, item by item and member by member. -/
def nextLevel (t : RuleTables) (items : List Item) : List Item :=
  items.flatMap fun item => item.node.members.flatMap (item.below t)

/-- The items at some depth; at depth zero there is the document alone, in the role of the root. -/
def RuleSet.level (rules : RuleSet) (document : Json) (depth : Nat) : List Item :=
  (nextLevel rules.tables)^[depth] [⟨document, .ofRoot rules.root, [rules.root]⟩]

/-- The queue and the problems found so far. -/
structure SweepState where
  queue : List Item
  found : List Problem

/-- One turn of the loop; with an empty queue there is nothing left to do. -/
def SweepState.turn (t : RuleTables) : SweepState → SweepState
  | ⟨[], found⟩ => ⟨[], found⟩
  | ⟨item :: queue, found⟩ => ⟨queue ++ item.next t, found ++ item.problems t⟩

/-- The items that a sweep takes from the queue, in the order in which it takes them. -/
def taken (t : RuleTables) : List Item → List Item
  | [] => []
  | item :: queue => item :: taken t (queue ++ item.next t)
termination_by queue => queueWeight queue
decreasing_by
  have := queueWeight_next_lt t item
  rw [queueWeight_append, queueWeight]
  omega

section

variable (t : RuleTables)

/-! What an item puts at the end of the queue. -/

lemma Item.ofElements_eq_map_zipIdx (place : Location) (roles : List String) (start : Nat)
    (elements : List Json) :
    ofElements place roles start elements =
      (elements.zipIdx start).map fun element => ⟨element.1, place.step (.index element.2), roles⟩ := by
  induction elements generalizing start with
  | nil => rfl
  | cons element elements ih =>
    rw [ofElements, ih, List.zipIdx_cons, List.map_cons]
    rfl

lemma Item.inside_eq_map_parts (place : Location) (roles : List String) (value : Json) :
    inside place roles value =
      value.parts.map fun part => ⟨part.2, place.step part.1, roles⟩ := by
  cases value with
  | object members => simp [inside, Json.parts, Location.key, Location.step]
  | array elements => simp [inside, Json.parts, ofElements_eq_map_zipIdx]
  | _ => rfl

lemma Item.ofMember_eq_below (item : Item) (member : String × Json) :
    ofMember t item.place (item.allRoles t) member = item.below t member := by
  have ha (roles : List String) : (roles.isEmpty || t.allowsAny roles) = true ↔
      roles = [] ∨ ∃ role ∈ roles, role ∈ t.anyField := by
    simp [RuleTables.allowsAny]
  simp only [ofMember, below, inside_eq_map_parts, List.isEmpty_iff, ha]
  rfl

lemma Item.next_eq_below (item : Item) :
    item.next t = item.node.members.flatMap (item.below t) := by
  obtain ⟨node, place, roles⟩ := item
  cases node with
  | object members => exact List.flatMap_congr fun member _ => Item.ofMember_eq_below t _ member
  | _ => rfl

lemma Item.unknownFields_eq (item : Item) :
    item.unknownFields t = (item.node.members.filter fun member => !t.allows (item.allRoles t) member.1).map
      fun member => .unknownField member.1 item.place := by
  obtain ⟨node, place, roles⟩ := item
  cases node <;> rfl

lemma nextLevel_eq (items : List Item) : nextLevel t items = items.flatMap (Item.next t) :=
  List.flatMap_congr fun item _ => (item.next_eq_below t).symm

/-- A level that is not empty outweighs the one after it. -/
lemma queueWeight_nextLevel (items : List Item) :
    queueWeight (nextLevel t items) + items.length ≤ queueWeight items := by
  rw [nextLevel_eq]
  induction items with
  | nil => exact Nat.le_refl _
  | cons item items ih =>
    have := queueWeight_next_lt t item
    rw [List.flatMap_cons, queueWeight_append, queueWeight, List.length_cons]
    omega

/-! The queue between two levels. -/

/-- While the front of the queue is taken, what it gives rise to gathers behind the rest. -/
lemma taken_append (front rest : List Item) :
    taken t (front ++ rest) = front ++ taken t (rest ++ nextLevel t front) := by
  rw [nextLevel_eq]
  induction front generalizing rest with
  | nil => simp
  | cons item front ih =>
    rw [List.cons_append, taken, List.append_assoc, ih, List.flatMap_cons, List.append_assoc,
      List.cons_append]

/-- A level is taken as a whole before the next one. -/
lemma taken_level (items : List Item) : taken t items = items ++ taken t (nextLevel t items) := by
  simpa using taken_append t items []

/-- The sweep takes level after level until one is empty. -/
lemma exists_taken_eq_levels (items : List Item) :
    ∃ depth, (nextLevel t)^[depth] items = [] ∧
      taken t items = (List.range depth).flatMap fun k => (nextLevel t)^[k] items := by
  induction hw : queueWeight items using Nat.strongRecOn generalizing items with
  | ind weight ih =>
    cases items with
    | nil => exact ⟨0, rfl, by rw [taken]; rfl⟩
    | cons item items =>
      have hlt := queueWeight_nextLevel t (item :: items)
      rw [List.length_cons] at hlt
      obtain ⟨depth, he, ht⟩ := ih _ (by omega) (nextLevel t (item :: items)) rfl
      refine ⟨depth + 1, he, ?_⟩
      rw [taken_level, ht, List.range_succ_eq_map, List.flatMap_cons, List.flatMap_map]
      rfl

/-- The problems of a sweep are those of the items that it takes. -/
lemma sweep_eq_taken (queue : List Item) : sweep t queue = (taken t queue).flatMap (Item.problems t) := by
  induction queue using sweep.induct t with
  | case1 => simp [sweep, taken]
  | case2 item queue ih => rw [sweep, taken, List.flatMap_cons, ih]

/-- After some turns that many items are taken, their problems are found, and the others are still to
come. -/
lemma turns_eq (turns : Nat) (queue : List Item) (found : List Problem) :
    ∃ rest, (SweepState.turn t)^[turns] ⟨queue, found⟩ =
        ⟨rest, found ++ ((taken t queue).take turns).flatMap (Item.problems t)⟩ ∧
      taken t rest = (taken t queue).drop turns := by
  induction turns generalizing queue found with
  | zero => exact ⟨queue, by simp, rfl⟩
  | succ turns ih =>
    cases queue with
    | nil =>
      obtain ⟨rest, hr, ht⟩ := ih [] found
      refine ⟨rest, ?_, ?_⟩
      · rw [Function.iterate_succ_apply, SweepState.turn, hr]
        simp [taken]
      · simpa [taken] using ht
    | cons item queue =>
      obtain ⟨rest, hr, ht⟩ := ih (queue ++ item.next t) (found ++ item.problems t)
      refine ⟨rest, ?_, ?_⟩
      · rw [Function.iterate_succ_apply, SweepState.turn, hr, taken]
        simp
      · rw [ht, taken, List.drop_succ_cons]

lemma head?_taken (queue : List Item) : (taken t queue).head? = queue.head? := by
  cases queue <;> simp [taken]

lemma taken_eq_nil_iff (queue : List Item) : taken t queue = [] ↔ queue = [] := by
  cases queue <;> simp [taken]

end

namespace RuleSet

/-- The check goes through the document level by level. The loop ends, the items stand first in the queue one
after the other in the order of the levels, none left out and none besides them, and the problems are
theirs in this order. -/
theorem problems_levelOrder (rules : RuleSet) (document : Json) :
    ∃ depth, rules.level document depth = [] ∧
      let items := (List.range depth).flatMap (rules.level document)
      let state := fun turns => (SweepState.turn rules.tables)^[turns] ⟨rules.level document 0, []⟩
      (∀ turns, (state turns).queue.head? = items[turns]?) ∧
      state items.length = ⟨[], rules.problems document⟩ ∧
      rules.problems document = items.flatMap (Item.problems rules.tables) := by
  obtain ⟨depth, he, ht⟩ := exists_taken_eq_levels rules.tables (rules.level document 0)
  refine ⟨depth, he, ?_⟩
  intro items state
  replace ht : taken rules.tables (rules.level document 0) = items := ht
  have hp : rules.problems document = items.flatMap (Item.problems rules.tables) := by
    rw [← ht, ← sweep_eq_taken]
    rfl
  refine ⟨?_, ?_, hp⟩
  · intro turns
    obtain ⟨rest, hr, hd⟩ := turns_eq rules.tables turns (rules.level document 0) []
    rw [show state turns = _ from hr, ← head?_taken rules.tables, hd, ht, List.head?_drop]
  · obtain ⟨rest, hr, hd⟩ := turns_eq rules.tables items.length (rules.level document 0) []
    rw [ht, List.drop_length, taken_eq_nil_iff] at hd
    rw [show state items.length = _ from hr, hd, ht, List.take_length, List.nil_append, hp]

end RuleSet

end ProseSchema
