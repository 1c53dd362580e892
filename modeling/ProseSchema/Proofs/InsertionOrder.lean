import Mathlib.Data.List.Perm.Basic
import ProseSchema.Proofs.Conforms
import ProseSchema.Proofs.RoleReach

/-!
# The order of the entries

Two tables with the same entries, inserted in whatever orders, give a node the same roles, and items that
are alike but for the order of their roles stay alike from level to level. So the problems of a document are the
same for both, except for their order.
-/

namespace ProseSchema

/-- The same roles, in whatever order and however often. -/
def SameRoles (a b : List String) : Prop :=
  ∀ role, role ∈ a ↔ role ∈ b

lemma SameRoles.isEmpty_eq {a b : List String} (h : SameRoles a b) : a.isEmpty = b.isEmpty := by
  rw [Bool.eq_iff_iff]
  simp only [List.isEmpty_iff, List.eq_nil_iff_forall_not_mem, h _]

lemma nodup_eraseDups {α : Type} [BEq α] [LawfulBEq α] (l : List α) : l.eraseDups.Nodup := by
  induction hn : l.length using Nat.strongRecOn generalizing l with
  | ind n ih =>
    cases l with
    | nil => simp
    | cons a l =>
      have hl := List.length_filter_le (fun b => !b == a) l
      rw [List.length_cons] at hn
      rw [List.eraseDups_cons, List.nodup_cons]
      refine ⟨by simp [List.mem_eraseDups], ?_⟩
      exact ih _ (by omega) _ rfl

lemma SameRoles.eraseDups_perm {a b : List String} (h : SameRoles a b) :
    a.eraseDups.Perm b.eraseDups := by
  rw [List.perm_ext_iff_of_nodup (nodup_eraseDups a) (nodup_eraseDups b)]
  intro role
  rw [List.mem_eraseDups, List.mem_eraseDups, h role]

lemma Constraint.applies_congr (constraint : Constraint) {a b : List String} (h : SameRoles a b) :
    constraint.applies a = constraint.applies b := by
  rw [Bool.eq_iff_iff]
  simp only [applies_iff, h _]

namespace RuleTables

/-- The tables of one entry after those of the other. -/
def append (t u : RuleTables) : RuleTables where
  isA := t.isA ++ u.isA
  presence := t.presence ++ u.presence
  value := t.value ++ u.value
  child := t.child ++ u.child
  grandchild := t.grandchild ++ u.grandchild
  constraints := t.constraints ++ u.constraints
  allowed := t.allowed ++ u.allowed
  anyField := t.anyField ++ u.anyField

lemma insert_eq_append (t : RuleTables) (entry : Entry) : t.insert entry = t.append (insert {} entry) := by
  cases entry <;> simp [insert, append]

/-- Each table holds the same entries as often, in whatever order. -/
structure SameEntries (t u : RuleTables) : Prop where
  isA : t.isA.Perm u.isA
  presence : t.presence.Perm u.presence
  value : t.value.Perm u.value
  child : t.child.Perm u.child
  grandchild : t.grandchild.Perm u.grandchild
  constraints : t.constraints.Perm u.constraints
  allowed : t.allowed.Perm u.allowed
  anyField : t.anyField.Perm u.anyField

namespace SameEntries

lemma refl (t : RuleTables) : SameEntries t t := by
  constructor <;> exact List.Perm.refl _

lemma trans {t u v : RuleTables} (h : SameEntries t u) (k : SameEntries u v) : SameEntries t v where
  isA := h.isA.trans k.isA
  presence := h.presence.trans k.presence
  value := h.value.trans k.value
  child := h.child.trans k.child
  grandchild := h.grandchild.trans k.grandchild
  constraints := h.constraints.trans k.constraints
  allowed := h.allowed.trans k.allowed
  anyField := h.anyField.trans k.anyField

lemma append_right {t u : RuleTables} (h : SameEntries t u) (a : RuleTables) :
    SameEntries (t.append a) (u.append a) where
  isA := h.isA.append_right _
  presence := h.presence.append_right _
  value := h.value.append_right _
  child := h.child.append_right _
  grandchild := h.grandchild.append_right _
  constraints := h.constraints.append_right _
  allowed := h.allowed.append_right _
  anyField := h.anyField.append_right _

lemma append_swap (t a b : RuleTables) :
    SameEntries ((t.append a).append b) ((t.append b).append a) := by
  have key {α : Type} (l x y : List α) : (l ++ x ++ y).Perm (l ++ y ++ x) := by
    rw [List.append_assoc, List.append_assoc]
    exact List.perm_append_comm.append_left l
  constructor <;> exact key _ _ _

lemma insert {t u : RuleTables} (h : SameEntries t u) (entry : Entry) :
    SameEntries (t.insert entry) (u.insert entry) := by
  rw [insert_eq_append t, insert_eq_append u]
  exact h.append_right _

lemma insertAll {t u : RuleTables} (h : SameEntries t u) (entries : List Entry) :
    SameEntries (t.insertAll entries) (u.insertAll entries) := by
  induction entries generalizing t u with
  | nil => exact h
  | cons entry entries ih => exact ih (h.insert entry)

end SameEntries

lemma insert_swap (t : RuleTables) (a b : Entry) :
    SameEntries ((t.insert a).insert b) ((t.insert b).insert a) := by
  rw [insert_eq_append (t.insert a), insert_eq_append (t.insert b), insert_eq_append t a,
    insert_eq_append t b]
  exact SameEntries.append_swap t _ _

/-- Permuted insertions fill the tables with the same entries. -/
lemma insertAll_perm {entries others : List Entry} (h : entries.Perm others) (t : RuleTables) :
    SameEntries (t.insertAll entries) (t.insertAll others) := by
  induction h generalizing t with
  | nil => exact .refl t
  | cons entry _ ih => exact ih (t.insert entry)
  | swap a b entries => exact (insert_swap t b a).insertAll entries
  | trans _ _ ih₁ ih₂ => exact (ih₁ t).trans (ih₂ t)

namespace SameEntries

variable {t u : RuleTables} (h : SameEntries t u)

include h

/-! What is read off the tables. -/

lemma leads_isA : Leads t.isA = Leads u.isA := by
  funext a b
  exact propext h.isA.mem_iff

lemma leads_presenceEdges (node : Json) : Leads (t.presenceEdges node) = Leads (u.presenceEdges node) := by
  funext a b
  simp only [RuleTables.leads_presenceEdges, h.presence.mem_iff]

lemma leads_valueEdges (node : Json) : Leads (t.valueEdges node) = Leads (u.valueEdges node) := by
  funext a b
  simp only [RuleTables.leads_valueEdges, h.value.mem_iff]

/-- A node plays the same roles under both tables. -/
lemma close (node : Json) {given others : List String} (hg : SameRoles given others) :
    SameRoles (t.close node given) (u.close node others) := by
  intro role
  simp only [mem_close_iff, Reaches, h.leads_isA, h.leads_presenceEdges, h.leads_valueEdges, hg _]

lemma constraintsOf (role : String) : (t.constraintsOf role).Perm (u.constraintsOf role) :=
  (h.constraints.filter _).map _

variable {roles others : List String} (hr : SameRoles roles others)

include hr

lemma allowsAny : t.allowsAny roles = u.allowsAny others := by
  rw [Bool.eq_iff_iff]
  simp only [allowsAny_iff, h.anyField.mem_iff, hr _]

lemma allows (field : String) : t.allows roles field = u.allows others field := by
  rw [Bool.eq_iff_iff]
  simp only [allows_iff, h.anyField.mem_iff, h.allowed.mem_iff, hr _]

omit h in
lemma childrenIn {entries entries' : List (String × String × String)} (he : entries.Perm entries')
    (field : String) :
    SameRoles (RuleTables.childrenIn entries roles field) (RuleTables.childrenIn entries' others field) := by
  intro role
  simp only [RuleTables.childrenIn, List.mem_eraseDups, List.mem_flatMap, List.mem_map, List.mem_filter,
    he.mem_iff, hr _]

lemma childRoles (field : String) : SameRoles (t.childRoles roles field) (u.childRoles others field) :=
  childrenIn hr h.child field

lemma grandchildRoles (field : String) :
    SameRoles (t.grandchildRoles roles field) (u.grandchildRoles others field) :=
  childrenIn hr h.grandchild field

end SameEntries

end RuleTables

/-- The same value at the same place, with the same roles. -/
structure Item.Alike (a b : Item) : Prop where
  node : a.node = b.node
  place : a.place = b.place
  roles : SameRoles a.roles b.roles

namespace Item

variable {t u : RuleTables} (h : RuleTables.SameEntries t u)

include h

lemma Alike.allRoles {a b : Item} (hab : Alike a b) : SameRoles (a.allRoles t) (b.allRoles u) := by
  rw [Item.allRoles, Item.allRoles, hab.node]
  exact h.close b.node hab.roles

/-- Items that are alike have the same problems. -/
lemma Alike.problems {a b : Item} (hab : Alike a b) : (a.problems t).Perm (b.problems u) := by
  have hr := hab.allRoles h
  have hc : (a.constraintProblems t).Perm (b.constraintProblems u) := by
    simp only [constraintProblems, hab.node, hab.place, Constraint.applies_congr _ hr]
    apply hr.eraseDups_perm.flatMap
    intro role _
    exact ((h.constraintsOf role).filter _).flatMap_right _
  have hu : a.unknownFields t = b.unknownFields u := by
    simp only [unknownFields, hab.node, hab.place, h.allows hr]
  rw [Item.problems, Item.problems, hu]
  exact hc.append_right _

omit h in
lemma forall₂_ofElements (place : Location) {roles others : List String} (hr : SameRoles roles others)
    (start : Nat) (elements : List Json) :
    List.Forall₂ Alike (ofElements place roles start elements) (ofElements place others start elements) := by
  induction elements generalizing start with
  | nil => exact .nil
  | cons element elements ih => exact .cons ⟨rfl, rfl, hr⟩ (ih _)

omit h in
lemma forall₂_inside (place : Location) {roles others : List String} (hr : SameRoles roles others)
    (value : Json) : List.Forall₂ Alike (inside place roles value) (inside place others value) := by
  cases value with
  | object members =>
    simp only [inside, List.forall₂_map_left_iff, List.forall₂_map_right_iff, List.forall₂_same]
    intro member _
    exact ⟨rfl, rfl, hr⟩
  | array elements => exact forall₂_ofElements place hr 0 elements
  | _ => exact .nil

lemma forall₂_ofMember (place : Location) {roles others : List String} (hr : SameRoles roles others)
    (member : String × Json) :
    List.Forall₂ Alike (ofMember t place roles member) (ofMember u place others member) := by
  have hc := h.childRoles hr member.1
  have hg := h.grandchildRoles hr member.1
  simp only [ofMember, hc.isEmpty_eq, hg.isEmpty_eq, h.allowsAny hg]
  apply List.rel_append
  · split
    · exact .nil
    · exact .cons ⟨rfl, rfl, hc⟩ .nil
  · split
    · exact .nil
    · exact forall₂_inside _ hg member.2

/-- What items that are alike give rise to is alike, item by item. -/
lemma Alike.next {a b : Item} (hab : Alike a b) : List.Forall₂ Alike (a.next t) (b.next u) := by
  have hr := hab.allRoles h
  rw [Item.next, Item.next, ← hab.node, ← hab.place]
  cases a.node with
  | object members =>
    apply List.rel_flatMap (R := Eq)
    · exact List.forall₂_same.mpr fun _ _ => rfl
    · rintro member _ rfl
      exact forall₂_ofMember h a.place hr member
  | _ => exact .nil

end Item

/-- Queues that are alike, item by item, have the same problems. -/
theorem sweep_perm {t u : RuleTables} (h : RuleTables.SameEntries t u) {queue others : List Item}
    (hq : List.Forall₂ Item.Alike queue others) : (sweep t queue).Perm (sweep u others) := by
  induction queue using sweep.induct t generalizing others with
  | case1 =>
    cases hq
    rw [sweep, sweep]
  | case2 item queue ih =>
    obtain ⟨other, others, hi, hq', rfl⟩ := List.forall₂_cons_left_iff.mp hq
    rw [sweep, sweep]
    exact (hi.problems h).append (ih (List.rel_append hq' (hi.next h)))

namespace RuleSet

/-- The order of insertion does not matter. Tables that are filled by the same entries in two orders close
any roles of a node to the same roles, and find the same problems in a document, each as often. -/
theorem insertion_order_irrelevant {entries others : List Entry} (h : entries.Perm others) :
    (∀ node given given', SameRoles given given' →
      SameRoles ((RuleTables.insertAll {} entries).close node given)
        ((RuleTables.insertAll {} others).close node given')) ∧
    ∀ root document,
      (RuleSet.problems ⟨root, RuleTables.insertAll {} entries⟩ document).Perm
        (RuleSet.problems ⟨root, RuleTables.insertAll {} others⟩ document) := by
  have ht := RuleTables.insertAll_perm h {}
  constructor
  · intro node given given' hg
    exact ht.close node hg
  · intro root document
    apply sweep_perm ht
    exact .cons ⟨rfl, rfl, fun _ => Iff.rfl⟩ .nil

/-- Entries that a parcel is judged by: it is a thing and a load, and each of these lacks a field. -/
def parcelEntries : List Entry :=
  [.isA "Parcel" "Thing", .isA "Parcel" "Load", .presence "Thing" "Name" "Named",
    .constraint "Thing" (.of (.lacksField "Weight")), .constraint "Load" (.of (.lacksField "Name"))]

def parcel : Json :=
  .object [("Name", .null), ("Weight", .null)]

/-- The two constraints are broken in one order by the entries as they are and in the other by their
reverse. -/
theorem parcel_insertion_order :
    parcelEntries.Perm parcelEntries.reverse ∧ SameRoles ["Parcel", "Load"] ["Load", "Parcel"] ∧
    SameRoles ((RuleTables.insertAll {} parcelEntries).close parcel ["Parcel", "Load"])
      ((RuleTables.insertAll {} parcelEntries.reverse).close parcel ["Load", "Parcel"]) ∧
    (RuleSet.problems ⟨"Parcel", RuleTables.insertAll {} parcelEntries⟩ parcel).Perm
      (RuleSet.problems ⟨"Parcel", RuleTables.insertAll {} parcelEntries.reverse⟩ parcel) := by
  have h : parcelEntries.Perm parcelEntries.reverse := by decide
  have hs : SameRoles ["Parcel", "Load"] ["Load", "Parcel"] := by simp [SameRoles, or_comm]
  exact ⟨h, hs, (insertion_order_irrelevant h).1 parcel _ _ hs,
    (insertion_order_irrelevant h).2 "Parcel" parcel⟩

end RuleSet

end ProseSchema
