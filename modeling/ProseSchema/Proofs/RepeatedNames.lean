import Mathlib.Data.Finset.Dedup
import Mathlib.Data.Finset.Insert
import Mathlib.Data.Finset.Card
import ProseSchema.Proofs.WalkOverTrails

/-!
# Repeated names

The walk notes the names of states as it enters their machines. A name that is noted already is reported with the
place where it was noted, each time that it turns up. So there are as many reports as names, less the different
ones.
-/

namespace ProseSchema

lemma Problem.isRepeatedName_iff (p : Problem) : p.isRepeatedName = true ↔ p.kind = .duplicateStateName := by
  cases p with
  | outOfRange _ _ _ relation _ => cases relation <;> simp [isRepeatedName, kind, Relation.problemKind]
  | _ => simp [isRepeatedName, kind]

namespace StatesLanguage

/-- The problems of the names that stand among those in front of them, each with the first place of the name. -/
def repetitions (pairs : List (String × Location)) : List Problem :=
  pairs.zipIdx.filterMap fun pair =>
    ((pairs.take pair.2).lookup pair.1.1).map (Problem.duplicateState pair.1.1 pair.1.2 ·)

/-- What is remembered of a name is where it was noted first. -/
lemma lookup_noteAll (pairs firstSites : List (String × Location)) (name : String) :
    (noteAll pairs firstSites).2.lookup name = (firstSites.lookup name).or (pairs.lookup name) := by
  induction pairs generalizing firstSites with
  | nil => simp [noteAll]
  | cons pair pairs ih =>
    obtain ⟨other, place⟩ := pair
    rw [noteAll]
    cases hl : firstSites.lookup other with
    | some first =>
      rw [ih, List.lookup_cons]
      cases he : name == other with
      | true =>
        obtain rfl := eq_of_beq he
        rw [hl, Option.some_or, Option.some_or]
      | false => rfl
    | none =>
      rw [ih, List.lookup_cons, List.lookup_cons]
      cases he : name == other with
      | true =>
        obtain rfl := eq_of_beq he
        rw [hl, Option.some_or, Option.none_or]
      | false => rfl

/-- What the last name adds. -/
lemma noteAll_concat (pairs : List (String × Location)) (name : String) (place : Location) :
    (noteAll (pairs ++ [(name, place)]) []).1 =
      (noteAll pairs []).1 ++ ((pairs.lookup name).map (Problem.duplicateState name place ·)).toList := by
  rw [noteAll_append, noteAll, lookup_noteAll, List.lookup_nil, Option.none_or]
  cases pairs.lookup name <;> rfl

lemma repetitions_concat (pairs : List (String × Location)) (name : String) (place : Location) :
    repetitions (pairs ++ [(name, place)]) =
      repetitions pairs ++ ((pairs.lookup name).map (Problem.duplicateState name place ·)).toList := by
  have hfront : ∀ pair ∈ pairs.zipIdx, (pairs ++ [(name, place)]).take pair.2 = pairs.take pair.2 := by
    intro pair hp
    exact List.take_append_of_le_length (List.snd_lt_of_mem_zipIdx hp).le
  have hlast : [(name, place)].zipIdx (0 + pairs.length) = [((name, place), pairs.length)] := by
    rw [Nat.zero_add, List.zipIdx_singleton]
  rw [repetitions, List.zipIdx_append, List.filterMap_append, repetitions, hlast]
  congr 1
  · exact List.filterMap_congr fun pair hp => by rw [hfront pair hp]
  · rw [List.filterMap_cons, List.filterMap_nil, List.take_left]
    cases pairs.lookup name <;> rfl

/-- The reports of the names that were noted before. -/
lemma noteAll_eq_repetitions (pairs : List (String × Location)) : (noteAll pairs []).1 = repetitions pairs := by
  induction pairs using List.reverseRecOn with
  | nil => rfl
  | append_singleton pairs pair ih => rw [noteAll_concat, repetitions_concat, ih]

/-- Each name is either reported or the first one of its kind. -/
lemma length_repetitions (pairs : List (String × Location)) :
    (repetitions pairs).length + (pairs.map Prod.fst).toFinset.card = pairs.length := by
  induction pairs using List.reverseRecOn with
  | nil => rfl
  | append_singleton pairs pair ih =>
    obtain ⟨name, place⟩ := pair
    have hn : (pairs.lookup name).isSome = true ↔ name ∈ (pairs.map Prod.fst).toFinset := by
      rw [Json.isSome_lookup_iff, List.mem_toFinset]
    have hnames : (((pairs ++ [(name, place)]).map Prod.fst).toFinset : Finset String) =
        insert name (pairs.map Prod.fst).toFinset := by
      ext other
      simp
    rw [repetitions_concat, List.length_append, List.length_append, hnames]
    cases hl : pairs.lookup name with
    | some first =>
      rw [hl, Option.isSome_some] at hn
      rw [Finset.insert_eq_of_mem (hn.mp rfl), Option.map_some, Option.toList_some, List.length_singleton,
        List.length_singleton]
      omega
    | none =>
      rw [hl, Option.isSome_none] at hn
      rw [Finset.card_insert_of_notMem fun hm => absurd (hn.mpr hm) (by decide), Option.map_none,
        Option.toList_none, List.length_nil, List.length_singleton]
      omega

/-- The reports of repeated names, in the order of the walk, and how many there are. The arguments of each are the
name, the place of the states that it stands among here, and the place of those that it stood among first. -/
theorem repeatedNames (document : Json) (root : Location) :
    (machineProblems document root).filter (·.kind = .duplicateStateName) =
        repetitions ((visits root document).flatMap sightings) ∧
      ((machineProblems document root).filter (·.kind = .duplicateStateName)).length =
        ((visits root document).flatMap sightings).length -
          (((visits root document).flatMap sightings).map Prod.fst).toFinset.card := by
  have hr : (machineProblems document root).filter (·.kind = .duplicateStateName) =
      repetitions ((visits root document).flatMap sightings) := by
    rw [← noteAll_eq_repetitions]
    refine Eq.trans ?_ (visit_document_effect document root).repeated_eq
    refine List.filter_congr fun p _ => ?_
    rw [Bool.eq_iff_iff, decide_eq_true_eq, Problem.isRepeatedName_iff]
  refine ⟨hr, ?_⟩
  rw [hr]
  exact Nat.eq_sub_of_add_eq (length_repetitions _)

end StatesLanguage

end ProseSchema
