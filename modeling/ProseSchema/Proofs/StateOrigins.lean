import Mathlib.Data.Set.Finite.List
import Mathlib.Order.WellFounded
import ProseSchema.Proofs.CleanMachines

/-!
# Where states are led to from

A state counts as led to when something in its machine names it, and what names it need not be reached itself.
Whoever goes back from a state along the names comes to the start, to a state that is named outside of all states,
or round to a state that leads back to itself.
-/

namespace ProseSchema

/-- In a finite set where each element is a source or has one before it, each element is reached from a source
or from a cycle. -/
lemma exists_source_or_cycle {α : Type} {before : α → α → Prop} {source : α → Prop} {elements : List α}
    (h : ∀ b ∈ elements, source b ∨ ∃ a ∈ elements, before a b) {b : α} (hb : b ∈ elements) :
    ∃ a ∈ elements, Relation.ReflTransGen before a b ∧ (source a ∨ Relation.TransGen before a a) := by
  by_contra hno
  -- Without a cycle there is a first one among the elements from which this one is reached.
  let reaching : Set α := {a | a ∈ elements ∧ Relation.ReflTransGen before a b}
  have hfinite : reaching.Finite := (List.finite_toSet elements).subset fun a ha => ha.1
  have : Finite reaching := hfinite
  let earlier : reaching → reaching → Prop := fun x y => Relation.TransGen before x.1 y.1
  have : IsTrans reaching earlier := ⟨fun _ _ _ hxy hyz => hxy.trans hyz⟩
  have : Std.Irrefl earlier := ⟨fun x hx => hno ⟨x.1, x.2.1, x.2.2, .inr hx⟩⟩
  have hwf : WellFounded earlier := Finite.wellFounded_of_trans_of_irrefl earlier
  obtain ⟨first, -, hfirst⟩ := hwf.has_min Set.univ ⟨⟨b, hb, .refl⟩, trivial⟩
  rcases h first.1 first.2.1 with hsource | ⟨a, ha, hlt⟩
  · exact hno ⟨first.1, first.2.1, first.2.2, .inl hsource⟩
  · exact hfirst ⟨a, ha, .head hlt first.2.2⟩ trivial (.single hlt)

namespace StatesLanguage

section

variable (site : Site) (outer : Trail) (states : List (String × Json))

/-- The trails of the objects that are visited in the value of a state. -/
def trailsInState (state : String × Json) : List Trail :=
  fieldTrails (⟨site.place.key "States", states⟩ :: site :: outer) (site.place.key "States") state.1 state.2

/-- Inside the state of the first name, an object of the machine leads to the second name. -/
def LeadsOn (name next : String) : Prop :=
  ∃ value, (name, value) ∈ states ∧
    next ∈ targetsIn (site :: outer) (trailsInState site outer states (name, value))

/-- An object of the machine leads to the name, and stands inside none of the states. -/
def NamedBesides (name : String) : Prop :=
  ∃ trail ∈ trailsFrom (site :: outer), innermost trail = site :: outer ∧
    (∀ state ∈ states, trail ∉ trailsInState site outer states state) ∧ name ∈ targets trail

end

/-- Each state of a machine that nothing is reported of is the start, or something outside of the states or
inside one of them leads to it. -/
lemma start_or_led_to {document : Json} {root : Location} (h : machineProblems document root = [])
    {site : Site} {outer : Trail} {states : List (String × Json)}
    (hv : Visited document root (site :: outer)) (hs : statesOf? site.members = some states) :
    ∀ name ∈ states.map Prod.fst, (startOf? site.members = some name ∨ NamedBesides site outer states name) ∨
      ∃ other ∈ states.map Prod.fst, LeadsOn site outer states other name := by
  intro name hm
  rcases start_or_target h hv hs name hm with hstart | ⟨trail, ht, hi, hname⟩
  · exact .inl (.inl hstart)
  · have hfrom : trail ∈ trailsFrom (site :: outer) :=
      ht.mem_trailsFrom_of_suffix (hi ▸ innermost_suffix trail)
    by_cases hin : ∃ state ∈ states, trail ∈ trailsInState site outer states state
    · obtain ⟨state, hstate, htrail⟩ := hin
      exact .inr ⟨state.1, List.mem_map_of_mem hstate, state.2, hstate,
        mem_targetsIn.mpr ⟨trail, htrail, hi, hname⟩⟩
    · refine .inl (.inr ⟨trail, hfrom, hi, ?_, hname⟩)
      intro state hstate htrail
      exact hin ⟨state, hstate, htrail⟩

/-- In a document that is a machine and has no problem, each state is reached from the start, from a state that
is named outside of all states, or from a state that leads back to itself. -/
theorem state_origin (root : Location) {members states : List (String × Json)}
    (hs : statesOf? members = some states) (h : machineProblems (.object members) root = []) :
    ∀ name ∈ states.map Prod.fst, ∃ origin ∈ states.map Prod.fst,
      Relation.ReflTransGen (LeadsOn ⟨root, members⟩ [] states) origin name ∧
        (startOf? members = some origin ∨ NamedBesides ⟨root, members⟩ [] states origin ∨
          Relation.TransGen (LeadsOn ⟨root, members⟩ [] states) origin origin) := by
  intro name hm
  have hv : Visited (.object members) root [⟨root, members⟩] := ⟨members, rfl, .refl⟩
  obtain ⟨origin, ho, hr, hcases⟩ := exists_source_or_cycle (start_or_led_to h hv hs) hm
  exact ⟨origin, ho, hr, or_assoc.mp hcases⟩

/-- Two states that lead to each other only, and a state that is named in a comment only. -/
def strayStates : List (String × Json) :=
  [("A", .object [("Type", .string "Succeed")]), ("B", .object [("Type", .string "Pass"), ("Next", .string "C")]),
    ("C", .object [("Type", .string "Pass"), ("Next", .string "B")]), ("D", .object [("Type", .string "Fail")])]

def strayMembers : List (String × Json) :=
  [("StartAt", .string "A"), ("States", .object strayStates), ("Comment", .object [("Next", .string "D")])]

lemma strayMembers_clean : machineProblems (.object strayMembers) (.ofRoot "r") = [] :=
  List.isEmpty_iff.mp (by decide)

theorem strayStates_origins : statesOf? strayMembers = some strayStates ∧
    machineProblems (.object strayMembers) (.ofRoot "r") = [] ∧
    ∃ origin ∈ strayStates.map Prod.fst,
      Relation.ReflTransGen (LeadsOn ⟨.ofRoot "r", strayMembers⟩ [] strayStates) origin "C" ∧
        (startOf? strayMembers = some origin ∨ NamedBesides ⟨.ofRoot "r", strayMembers⟩ [] strayStates origin ∨
          Relation.TransGen (LeadsOn ⟨.ofRoot "r", strayMembers⟩ [] strayStates) origin origin) :=
  ⟨rfl, strayMembers_clean, state_origin (.ofRoot "r") rfl strayMembers_clean "C" (by decide)⟩

/-- Nothing is reported of the machine, and yet none but its first state is reached from the start. -/
theorem strayStates_not_reached : statesOf? strayMembers = some strayStates ∧
    startOf? strayMembers = some "A" ∧ machineProblems (.object strayMembers) (.ofRoot "r") = [] ∧
    ∀ name ∈ ["B", "C", "D"], name ∈ strayStates.map Prod.fst ∧
      ¬Relation.ReflTransGen (LeadsOn ⟨.ofRoot "r", strayMembers⟩ [] strayStates) "A" name := by
  have hend (next : String) : ¬LeadsOn ⟨.ofRoot "r", strayMembers⟩ [] strayStates "A" next := by
    rintro ⟨value, hm, hn⟩
    obtain rfl : value = .object [("Type", .string "Succeed")] := by simpa [strayStates] using hm
    exact absurd hn List.not_mem_nil
  refine ⟨rfl, rfl, strayMembers_clean, ?_⟩
  intro name hm
  refine ⟨(by decide : ∀ name ∈ ["B", "C", "D"], name ∈ strayStates.map Prod.fst) name hm, ?_⟩
  intro hr
  rcases Relation.ReflTransGen.cases_head hr with rfl | ⟨next, hn, -⟩
  · exact absurd hm (by decide)
  · exact hend next hn

end StatesLanguage

end ProseSchema
