import TagLint.Proofs.JsonRoundTrip
import TagLint.Report

/-! What a JSON report tells. The paths and findings can be had back from what a reader of
JSON makes of it, so different reports never look the same. -/

namespace TagLint

namespace Json

def textAt? (key : String) (json : Json) : Option String :=
  (json.field? key).bind asText?

def numberAt? (key : String) (json : Json) : Option Nat :=
  (json.field? key).bind asNumber?

def flagAt? (key : String) (json : Json) : Option Bool :=
  (json.field? key).bind asFlag?

def listAt? (key : String) (json : Json) : Option (List Json) :=
  (json.field? key).bind asList?

end Json

/-- The finding that an object tells by its keys, in any order. -/
def Finding.ofJson? (json : Json) : Option Finding := do
  match ← json.textAt? "kind" with
  | "UnexpectedClose" =>
    return .unexpectedClose (← json.numberAt? "line") (← json.textAt? "name")
  | "Mismatched" =>
    return .mismatched (← json.numberAt? "line") (← json.textAt? "expected")
      (← json.textAt? "found") (← json.numberAt? "opened_at")
  | "UnclosedAtEof" => return .unclosed (← json.textAt? "name") (← json.numberAt? "opened_at")
  | _ => none

def Report.ofJson? (json : Json) : Option Report := do
  let path ← json.textAt? "path"
  let findings ← (← json.listAt? "diagnostics").mapM Finding.ofJson?
  return ⟨path, ⟨findings⟩⟩

theorem Finding.ofJson?_toJson (finding : Finding) : ofJson? finding.toJson = some finding := by
  cases finding <;> rfl

theorem Finding.mapM_ofJson?_toJson (findings : List Finding) :
    (findings.map toJson).mapM ofJson? = some findings := by
  induction findings with
  | nil => rfl
  | cons finding findings ih => simp [ofJson?_toJson, ih]

theorem Report.ofJson?_toJson (report : Report) : ofJson? report.toJson = some report := by
  have hpath : report.toJson.textAt? "path" = some report.path := rfl
  have hfindings : report.toJson.listAt? "diagnostics" =
      some (report.validation.findings.map Finding.toJson) := rfl
  rw [ofJson?, hpath, hfindings]
  simp only [Option.bind_eq_bind, Option.bind_some, Finding.mapM_ofJson?_toJson]
  rfl

theorem Report.flagAt?_toJson (report : Report) :
    report.toJson.flagAt? "balanced" = some report.validation.findings.isEmpty :=
  rfl

namespace Report

theorem renderJson_eq (reports : List Report) :
    renderJson reports = String.ofList ((Json.list (reports.map toJson)).write 0) ++ "\n" := by
  rw [renderJson, String.ofList_append]

theorem ofText?_renderJson (reports : List Report) :
    Json.ofText? (renderJson reports) = some (.list (reports.map toJson)) :=
  Json.ofText?_write _ (List.forall_mem_singleton.mpr rfl)

theorem ofText?_array (reports : List Report) :
    Json.ofText? (String.ofList ((Json.list (reports.map toJson)).write 0)) =
      some (.list (reports.map toJson)) := by
  have hread := Json.ofText?_write (.list (reports.map toJson)) (List.forall_mem_nil _)
  rwa [List.append_nil] at hread

theorem map_ofJson?_toJson (reports : List Report) :
    (reports.map toJson).map ofJson? = reports.map some := by
  rw [List.map_map]
  exact List.map_congr_left fun report _ => report.ofJson?_toJson

theorem renderJson_injective : Function.Injective renderJson := by
  intro reports others h
  have hread : some (Json.list (reports.map toJson)) = some (.list (others.map toJson)) := by
    rw [← ofText?_renderJson, h, ofText?_renderJson]
  have hobjects : reports.map toJson = others.map toJson := by simpa using hread
  have hback : reports.map some = others.map some := by
    rw [← map_ofJson?_toJson, hobjects, map_ofJson?_toJson]
  exact List.map_injective_iff.mpr (fun _ _ => Option.some.inj) hback

end Report

/-- A JSON report is one array and a line end. Read back, it has an object for each report
in order, with its path, its findings, and whether there are none. No two lists of
reports are written alike. -/
theorem renderJson_lossless (reports : List Report) :
    (∃ array objects, Report.renderJson reports = array ++ "\n" ∧
      Json.ofText? array = some (.list objects) ∧
      Json.ofText? (Report.renderJson reports) = some (.list objects) ∧
      objects.map Report.ofJson? = reports.map some ∧
      objects.map (Json.flagAt? "balanced") =
        reports.map fun report => some report.validation.findings.isEmpty) ∧
    ∀ others, Report.renderJson reports = Report.renderJson others ↔ reports = others := by
  refine ⟨⟨_, reports.map Report.toJson, Report.renderJson_eq reports,
    Report.ofText?_array reports, Report.ofText?_renderJson reports,
    Report.map_ofJson?_toJson reports, ?_⟩, fun others => Report.renderJson_injective.eq_iff⟩
  rw [List.map_map]
  exact List.map_congr_left fun report _ => report.flagAt?_toJson

end TagLint
