import Mathlib.Data.List.Destutter
import Mathlib.Data.List.Sort
import Mathlib.Data.Prod.Lex
import Mathlib.Data.String.Basic
import ProseSchema.Proofs.RoleReading

/-!
# Known roles

The names of roles stand in a single order in which no two of them share a place. A grammar lists the known roles
in this order and without repetitions, so it is the same however often and in whatever order they are given.
-/

namespace ProseSchema

/-- The place of a name among others: by length in bytes, longest first, and then by its text. -/
def namePlace (name : String) : ℕᵒᵈ ×ₗ String :=
  toLex (OrderDual.toDual name.utf8ByteSize, name)

lemma namePlace_injective : Function.Injective namePlace := by
  intro a b h
  exact congrArg (fun place => (ofLex place).2) h

lemma precedes_iff (a b : String) : precedes a b = true ↔ namePlace a < namePlace b := by
  rw [namePlace, namePlace, Prod.Lex.toLex_lt_toLex, precedes, OrderDual.toDual_lt_toDual, OrderDual.toDual_inj]
  split
  · next h => simp [h]
  · next h => simp [h]

lemma not_precedes_iff (a b : String) : (!precedes b a) = true ↔ namePlace a ≤ namePlace b := by
  rw [Bool.not_eq_true', ← Bool.not_eq_true, precedes_iff, not_lt]

/-- Names in their order, each of them once. -/
def IsInOrder (names : List String) : Prop :=
  names.Pairwise fun a b => namePlace a < namePlace b

lemma isInOrder_insertName (name : String) {names : List String} (h : IsInOrder names) :
    IsInOrder (insertName name names) := by
  induction names with
  | nil => exact List.pairwise_singleton _ _
  | cons first names ih =>
    obtain ⟨hfirst, hnames⟩ := List.pairwise_cons.mp h
    rw [insertName]
    split
    · exact h
    · next hne =>
      split
      · next hp =>
        rw [precedes_iff] at hp
        apply List.pairwise_cons.mpr ⟨_, h⟩
        intro other ho
        rcases List.mem_cons.mp ho with rfl | ho
        · exact hp
        · exact hp.trans (hfirst other ho)
      · next hp =>
        rw [precedes_iff, not_lt] at hp
        have hlt := hp.lt_of_ne fun he => hne (namePlace_injective he).symm
        apply List.pairwise_cons.mpr ⟨_, ih hnames⟩
        intro other ho
        rcases Grammar.mem_insertName.mp ho with rfl | ho
        · exact hlt
        · exact hfirst other ho

/-- Names in their order are determined by which names they are. -/
lemma IsInOrder.eq_of_mem_iff {names others : List String} (hn : IsInOrder names) (ho : IsInOrder others)
    (h : ∀ name, name ∈ names ↔ name ∈ others) : names = others := by
  have hirrefl : Std.Irrefl fun a b => namePlace a < namePlace b := ⟨fun a => lt_irrefl (namePlace a)⟩
  have hantisymm : Std.Antisymm fun a b => namePlace a < namePlace b :=
    ⟨fun a b hab hba => absurd (hab.trans hba) (lt_irrefl (namePlace a))⟩
  exact List.Pairwise.eq_of_mem_iff hn ho h

/-- The names sorted, and a name that stands behind itself left out. -/
def sortedOnce (names : List String) : List String :=
  (names.mergeSort fun a b => !precedes b a).destutter (· ≠ ·)

lemma pairwise_mergeSort_names (names : List String) :
    (names.mergeSort fun a b => !precedes b a).Pairwise fun a b => namePlace a ≤ namePlace b := by
  have htrans : ∀ a b c : String, (!precedes b a) = true → (!precedes c b) = true → (!precedes c a) = true := by
    intro a b c hab hbc
    rw [not_precedes_iff] at hab hbc ⊢
    exact hab.trans hbc
  have htotal : ∀ a b : String, (!precedes b a || !precedes a b) = true := by
    intro a b
    rw [Bool.or_eq_true, not_precedes_iff, not_precedes_iff]
    exact le_total _ _
  apply (List.pairwise_mergeSort htrans htotal names).imp
  intro a b
  exact (not_precedes_iff a b).mp

/-- In a sorted list a name that occurs twice stands behind itself. -/
lemma sortedOnce_eq_dedup (names : List String) :
    sortedOnce names = (names.mergeSort fun a b => !precedes b a).dedup := by
  have hantisymm : Std.Antisymm fun a b => namePlace a ≤ namePlace b :=
    ⟨fun a b hab hba => namePlace_injective (le_antisymm hab hba)⟩
  exact (pairwise_mergeSort_names names).destutter_eq_dedup

lemma mem_sortedOnce {name : String} {names : List String} : name ∈ sortedOnce names ↔ name ∈ names := by
  rw [sortedOnce_eq_dedup, List.mem_dedup, List.mem_mergeSort]

lemma isInOrder_sortedOnce (names : List String) : IsInOrder (sortedOnce names) := by
  have hsorted := (pairwise_mergeSort_names names).sublist (List.dedup_sublist _)
  have hnodup := List.nodup_dedup (names.mergeSort fun a b => !precedes b a)
  rw [sortedOnce_eq_dedup]
  apply (hsorted.and hnodup).imp
  rintro a b ⟨hle, hne⟩
  exact hle.lt_of_ne fun he => hne (namePlace_injective he)

namespace Grammar

lemma isInOrder_ofRoles (roles : List String) : IsInOrder (ofRoles roles).roles := by
  change IsInOrder (roles.foldr insertName [])
  induction roles with
  | nil => exact List.Pairwise.nil
  | cons role roles ih => exact isInOrder_insertName role ih

/-- Inserting the roles one by one comes to the same as sorting them all at once. -/
lemma roles_ofRoles (roles : List String) : (ofRoles roles).roles = sortedOnce roles := by
  apply (isInOrder_ofRoles roles).eq_of_mem_iff (isInOrder_sortedOnce roles)
  intro role
  rw [mem_ofRoles, mem_sortedOnce]

lemma ofRoles_eq_of_mem_iff {roles others : List String} (h : ∀ role, role ∈ roles ↔ role ∈ others) :
    ofRoles roles = ofRoles others := by
  have hmem : ∀ role, role ∈ (ofRoles roles).roles ↔ role ∈ (ofRoles others).roles := by
    intro role
    rw [mem_ofRoles, mem_ofRoles, h]
  exact congrArg Grammar.mk ((isInOrder_ofRoles roles).eq_of_mem_iff (isInOrder_ofRoles others) hmem)

/-- Roles given in another order, or more than once, make the same grammar. It tries the roles as they stand
when they are sorted, longest first and then by their text, and each role that stands behind itself is left
out; so each known role is tried once, and every line is read alike. -/
theorem parse?_of_same_roles {roles others : List String} (h : ∀ role, role ∈ roles ↔ role ∈ others) :
    (ofRoles roles).roles = sortedOnce roles ∧ IsInOrder (ofRoles roles).roles ∧
      (∀ role, role ∈ (ofRoles roles).roles ↔ role ∈ roles) ∧
      ∀ line, (ofRoles roles).parse? line = (ofRoles others).parse? line := by
  refine ⟨roles_ofRoles roles, isInOrder_ofRoles roles, fun role => mem_ofRoles, ?_⟩
  intro line
  rw [ofRoles_eq_of_mem_iff h]

/-- A line about a role whose name starts with another one's, whichever of the two is known first. -/
theorem stateMachine_read_alike :
    let roles := ["State", "State Machine", "State"]
    let others := ["State Machine", "State"]
    let line := chars "A State Machine MUST have a string field named \"StartAt\"."
    (∀ role, role ∈ roles ↔ role ∈ others) ∧ sortedOnce roles = others ∧
      (ofRoles roles).parse? line = some (.constraint
        ⟨"State Machine", [], .must, some ⟨false, .single, .plain .string⟩, .single "StartAt", none, none⟩) ∧
      (ofRoles roles).parse? line = (ofRoles others).parse? line := by
  intro roles others line
  have hsame : ∀ role, role ∈ roles ↔ role ∈ others := by
    intro role
    simp only [roles, others, List.mem_cons, List.not_mem_nil]
    tauto
  have hgrammar : (ofRoles roles).roles = others := by decide +kernel
  obtain ⟨hsorted, -, -, hlines⟩ := parse?_of_same_roles hsame
  refine ⟨hsame, hsorted.symm.trans hgrammar, ?_, hlines line⟩
  decide +kernel

end Grammar

end ProseSchema
