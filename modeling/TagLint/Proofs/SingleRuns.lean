import TagLint.Proofs.JsonReport
import TagLint.Proofs.ReportLines
import TagLint.Proofs.RunOutcome

/-! A run on several files against the runs on each of them alone. The check of a file
hands nothing on to the next but the news of its failure, and a report in text or JSON is
put together from those on single files. -/

namespace TagLint

/-- The same run on one file alone. -/
def Config.only (config : Config) (path : String) : Config :=
  { config with paths := [path] }

namespace Config

variable {config : Config} {compiler : PatternCompiler} {files : Files} {scanner : Scanner}
  {failure : Failure}

theorem only_run_result
    (h : (config.tagSource.loadScanner compiler files).outcome = .ok scanner) (path : String) :
    ((config.only path).run compiler files).result =
      (checkFile files scanner path).outcome.map
        fun report => Report.render [report] config.format := by
  rw [@run_result_of_scanner_ok (config.only path) _ _ _ h]
  cases hcheck : (checkFile files scanner path).outcome with
  | error failure => exact congrArg (Except.map _) (checkFiles_cons_error hcheck [])
  | ok report => exact congrArg (Except.map _) (checkFiles_cons_ok hcheck)

theorem exists_scanner_of_only_run {path output : String}
    (h : ((config.only path).run compiler files).result = .ok output) :
    ∃ scanner, (config.tagSource.loadScanner compiler files).outcome = .ok scanner := by
  cases hload : (config.tagSource.loadScanner compiler files).outcome with
  | error failure => cases (@run_result_of_scanner_error (config.only path) _ _ _ hload).symm.trans h
  | ok scanner => exact ⟨scanner, rfl⟩

theorem exists_report_of_only_run {path output : String}
    (hload : (config.tagSource.loadScanner compiler files).outcome = .ok scanner)
    (h : ((config.only path).run compiler files).result = .ok output) :
    ∃ report, (checkFile files scanner path).outcome = .ok report ∧
      Report.render [report] config.format = output := by
  rw [only_run_result hload] at h
  cases hcheck : (checkFile files scanner path).outcome with
  | error failure => simp [hcheck, Except.map] at h
  | ok report => exact ⟨report, rfl, by simpa [hcheck, Except.map] using h⟩

theorem checkFile_of_only_run {path : String}
    (hload : (config.tagSource.loadScanner compiler files).outcome = .ok scanner)
    (h : ((config.only path).run compiler files).result = .error failure) :
    (checkFile files scanner path).outcome = .error failure := by
  rw [only_run_result hload] at h
  cases hcheck : (checkFile files scanner path).outcome with
  | error other => simpa [hcheck, Except.map] using h
  | ok report => simp [hcheck, Except.map] at h

/-- Runs on single files that all succeed are renderings of one report each, and the run on
all files renders these reports. -/
theorem exists_reports_of_only_runs {output : String → String} (hne : config.paths ≠ [])
    (h : ∀ path ∈ config.paths, ((config.only path).run compiler files).result = .ok (output path)) :
    ∃ report : String → Report,
      (∀ path ∈ config.paths, (report path).path = path ∧
        Report.render [report path] config.format = output path) ∧
      (config.run compiler files).result =
        .ok (Report.render (config.paths.map report) config.format) := by
  obtain ⟨first, hfirst⟩ := List.exists_mem_of_ne_nil _ hne
  obtain ⟨scanner, hload⟩ := exists_scanner_of_only_run (h first hfirst)
  have : Nonempty Report := ⟨⟨first, ⟨[]⟩⟩⟩
  choose! report hcheck hrender using
    fun path hpath => exists_report_of_only_run hload (h path hpath)
  refine ⟨report, fun path hpath => ⟨path_of_checkFile (hcheck path hpath), hrender path hpath⟩, ?_⟩
  rw [run_result_of_scanner_ok hload, checkFiles_ok hcheck]
  rfl

theorem run_text_of_only_runs {output : String → String} (hformat : config.format = .text)
    (hmany : 2 ≤ config.paths.length)
    (h : ∀ path ∈ config.paths, ((config.only path).run compiler files).result = .ok (output path)) :
    (config.run compiler files).result = .ok (String.join (config.paths.map fun path =>
      "==> " ++ path ++ " <==\n" ++ if output path = "" then "OK\n" else output path)) := by
  obtain ⟨report, hreport, hrun⟩ :=
    exists_reports_of_only_runs (List.ne_nil_of_length_pos (by omega)) h
  simp only [hformat, Report.render] at hreport hrun
  rw [hrun, Report.renderText_eq_join_blocks (by simpa using hmany), List.map_map]
  congr 2
  refine List.map_congr_left fun path hpath => ?_
  rw [Function.comp_apply, (hreport path hpath).1, (hreport path hpath).2]

theorem run_json_of_only_runs {output : String → String} (hformat : config.format = .json)
    (hne : config.paths ≠ [])
    (h : ∀ path ∈ config.paths, ((config.only path).run compiler files).result = .ok (output path)) :
    ∃ (object : String → Json) (text : String),
      (∀ path ∈ config.paths, Json.ofText? (output path) = some (.list [object path])) ∧
      (config.run compiler files).result = .ok text ∧
      Json.ofText? text = some (.list (config.paths.map object)) := by
  obtain ⟨report, hreport, hrun⟩ := exists_reports_of_only_runs hne h
  simp only [hformat, Report.render] at hreport hrun
  refine ⟨fun path => (report path).toJson, _, fun path hpath => ?_, hrun, ?_⟩
  · rw [← (hreport path hpath).2, Report.ofText?_renderJson, List.map_singleton]
  · rw [Report.ofText?_renderJson, List.map_map]
    rfl

theorem run_error_of_only_run {front back : List String} {path : String}
    (hpaths : config.paths = front ++ path :: back)
    (hfront : ∀ earlier ∈ front, ∃ output,
      ((config.only earlier).run compiler files).result = .ok output)
    (h : ((config.only path).run compiler files).result = .error failure) :
    (config.run compiler files).result = .error failure := by
  cases hload : (config.tagSource.loadScanner compiler files).outcome with
  | error other =>
    rw [@run_result_of_scanner_error (config.only path) _ _ _ hload] at h
    rw [run_result_of_scanner_error hload, h]
  | ok scanner =>
    have hchecks : ∀ earlier ∈ front, ∃ report,
        (checkFile files scanner earlier).outcome = .ok report := by
      intro earlier hearlier
      obtain ⟨output, houtput⟩ := hfront earlier hearlier
      obtain ⟨report, hreport, _⟩ := exists_report_of_only_run hload houtput
      exact ⟨report, hreport⟩
    rw [run_result_of_scanner_ok hload, hpaths,
      checkFiles_error hchecks (checkFile_of_only_run hload h)]
    rfl

end Config

/-- What a run on several files gives, by what it gives on each of them alone. If all of these
succeed, the texts are joined below their headlines, and the JSON lists into one. Else the run
fails as the first of them that fails. -/
theorem run_of_single_runs (config : Config) (compiler : PatternCompiler) (files : Files)
    (h : 2 ≤ config.paths.length) :
    (∀ output : String → String,
      (∀ path ∈ config.paths, ((config.only path).run compiler files).result = .ok (output path)) →
      (config.format = .text →
        (config.run compiler files).result = .ok (String.join (config.paths.map fun path =>
          "==> " ++ path ++ " <==\n" ++ if output path = "" then "OK\n" else output path))) ∧
      (config.format = .json →
        ∃ (object : String → Json) (text : String),
          (∀ path ∈ config.paths, Json.ofText? (output path) = some (.list [object path])) ∧
          (config.run compiler files).result = .ok text ∧
          Json.ofText? text = some (.list (config.paths.map object)))) ∧
    ((∃ path ∈ config.paths, ∃ failure,
        ((config.only path).run compiler files).result = .error failure) →
      ∃ front path back failure, config.paths = front ++ path :: back ∧
        (∀ earlier ∈ front, ∃ output, ((config.only earlier).run compiler files).result = .ok output) ∧
        ((config.only path).run compiler files).result = .error failure ∧
        (config.run compiler files).result = .error failure) := by
  have hne : config.paths ≠ [] := List.ne_nil_of_length_pos (by omega)
  refine ⟨fun output houtput => ⟨fun hformat => ?_, fun hformat => ?_⟩, fun hfails => ?_⟩
  · exact Config.run_text_of_only_runs hformat h houtput
  · exact Config.run_json_of_only_runs hformat hne houtput
  · obtain ⟨front, path, back, failure, hpaths, hfront, hpath⟩ := exists_first_error hfails
    exact ⟨front, path, back, failure, hpaths, hfront, hpath,
      Config.run_error_of_only_run hpaths hfront hpath⟩

theorem run_of_single_runs_two_files :
    (Config.run ⟨["a.html", "b.html"], .names ["div"], .text⟩ .sizeLimited
      ⟨fun path => .ok (if path = "a.html" then "<div></div>" else "</div>").toUTF8, none⟩).result =
    .ok "==> a.html <==\nOK\n==> b.html <==\nError: Unexpected closing tag </div> at line 1\n" := by
  let config : Config := ⟨["a.html", "b.html"], .names ["div"], .text⟩
  let files : Files :=
    ⟨fun path => .ok (if path = "a.html" then "<div></div>" else "</div>").toUTF8, none⟩
  let output : String → String := fun path =>
    if path = "a.html" then "" else "Error: Unexpected closing tag </div> at line 1\n"
  have hfirst : ((config.only "a.html").run .sizeLimited files).result = .ok (output "a.html") := by
    decide +kernel
  have hsecond : ((config.only "b.html").run .sizeLimited files).result = .ok (output "b.html") := by
    decide +kernel
  have h := ((run_of_single_runs config .sizeLimited files (by decide)).1 output
    (List.forall_mem_cons.mpr ⟨hfirst, List.forall_mem_singleton.mpr hsecond⟩)).1 rfl
  have htext : String.join (config.paths.map fun path =>
      "==> " ++ path ++ " <==\n" ++ if output path = "" then "OK\n" else output path) =
    "==> a.html <==\nOK\n==> b.html <==\nError: Unexpected closing tag </div> at line 1\n" := by
    decide +kernel
  rw [← htext]
  exact h

end TagLint
