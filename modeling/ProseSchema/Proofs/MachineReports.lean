import ProseSchema.Proofs.WalkOverTrails

namespace ProseSchema.StatesLanguage

lemma mem_targetsIn {machine : Trail} {found : List Trail} {name : String} :
    name ∈ targetsIn machine found ↔ ∃ trail ∈ found, innermost trail = machine ∧ name ∈ targets trail := by
  simp only [targetsIn, List.mem_flatMap]
  apply exists_congr
  intro trail
  apply and_congr_right
  intro _
  by_cases h : innermost trail = machine <;> simp [h]

/-- The objects of a visited machine are found from the machine on. -/
lemma mem_targetsIn_trailsFrom {document : Json} {root : Location} {site : Site} {outer : Trail}
    (hv : site :: outer ∈ visits root document) (name : String) :
    name ∈ targetsIn (site :: outer) (trailsFrom (site :: outer)) ↔
      name ∈ targetsIn (site :: outer) (visits root document) := by
  rw [mem_visits_iff] at hv
  rw [mem_targetsIn, mem_targetsIn]
  apply exists_congr
  intro trail
  apply and_congr_left
  rintro ⟨hi, _⟩
  rw [mem_visits_iff]
  constructor
  · exact hv.of_mem_trailsFrom
  · intro h
    apply h.mem_trailsFrom_of_suffix
    rw [← hi]
    exact innermost_suffix trail

lemma reports_trailsFrom {document : Json} {root : Location} {trail : Trail}
    (hv : trail ∈ visits root document) :
    reports (trailsFrom trail) trail = reports (visits root document) trail := by
  cases trail with
  | nil => rfl
  | cons site outer => simp only [reports, unreachableReports, mem_targetsIn_trailsFrom hv]

/-- The problems of machines and transitions are, up to their order, those of the visited objects, taken
one by one: an object is listed exactly when it is visited, and only once. -/
theorem machineProblems_perm_reports (document : Json) (root : Location) :
    (∀ trail, trail ∈ visits root document ↔ Visited document root trail) ∧
      (document.KeysDistinct → (visits root document).Nodup) ∧
      ((machineProblems document root).filter Problem.isMachineLevel).Perm
        ((visits root document).flatMap (reports (visits root document))) := by
  refine ⟨mem_visits_iff document root, fun h => visits_nodup h root, ?_⟩
  have hr := (visit_document_effect document root).reports_perm
  have ha : allReports (visits root document) =
      (visits root document).flatMap (reports (visits root document)) :=
    List.flatMap_congr fun trail hv => reports_trailsFrom hv
  rwa [ha] at hr

end ProseSchema.StatesLanguage
