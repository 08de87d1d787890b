import TagLint.Program
import TagLint.Proofs.LevelIndependence
import TagLint.Proofs.LogLevels
import TagLint.Proofs.ReportLines
import TagLint.Proofs.RunFailures

/-! What can be seen of the whole program from the outside. A line that is no proper one has no
run, and what there is to see of a run is its outcome and the part of its log that is let through. -/

namespace TagLint

namespace Report

variable {reports : List Report} {c : Char}

theorem head?_of_mem_headedTextLines {report : Report} {line : String}
    (h : line ∈ report.headedTextLines) (hc : line.toList.head? = some c) :
    c ∈ ['=', 'O', 'E', ' '] := by
  rw [headedTextLines] at h
  rcases List.mem_cons.mp h with rfl | h
  · have hhead : some '=' = some c := by simpa using hc
    simp [← Option.some.inj hhead]
  · split at h
    · rw [List.mem_singleton.mp h] at hc
      have hhead : some 'O' = some c := by simpa using hc
      simp [← Option.some.inj hhead]
    · rcases head?_of_mem_textLines h with hhead | hhead <;>
        simp [← Option.some.inj (hhead.symm.trans hc)]

theorem head?_renderText (h : (renderText reports).toList.head? = some c) :
    c ∈ ['=', 'O', 'E', ' '] := by
  unfold renderText at h
  split at h
  · rw [String.toList_join, List.head?_flatMap] at h
    obtain ⟨line, hline, hc⟩ := List.exists_of_findSome?_eq_some h
    rcases head?_of_mem_textLines hline with hhead | hhead <;>
      simp [← Option.some.inj (hhead.symm.trans hc)]
  · rw [String.toList_join, List.head?_flatMap] at h
    obtain ⟨line, hline, hc⟩ := List.exists_of_findSome?_eq_some h
    obtain ⟨report, _, hmem⟩ := List.mem_flatMap.mp hline
    exact head?_of_mem_headedTextLines hmem hc

theorem head?_renderJson (reports : List Report) :
    (renderJson reports).toList.head? = some '[' := by
  rw [renderJson, String.toList_ofList, Json.write, Json.bracketed]
  split <;> rfl

end Report

theorem exists_reports_of_run {config : Config} {compiler : PatternCompiler} {files : Files}
    {output : String} (h : (config.run compiler files).result = .ok output) :
    ∃ reports, output = Report.render reports config.format := by
  rw [Config.run_result] at h
  cases hcheck : (config.check compiler files).outcome with
  | error failure =>
    rw [hcheck] at h
    cases h
  | ok reports =>
    rw [hcheck] at h
    exact ⟨reports, (Except.ok.inj h).symm⟩

/-- However a run ends, its log tells which set it tracks. -/
theorem tracking_mem_log {config : Config} {compiler : PatternCompiler} {files : Files}
    {set : TagSet} (h : (config.tagSource.load files).outcome = .ok set) :
    .tracking set ∈ (config.run compiler files).log := by
  have hemit : Event.tracking set ∈ (Run.emit [.tracking set, .scannerReady set.scanner]).log :=
    List.mem_cons_self
  have hscanner : Event.tracking set ∈ (config.tagSource.loadScanner compiler files).log := by
    rw [TagSource.loadScanner, Run.bind_log_ok h]
    exact List.mem_append_right _ (Run.mem_bind_log hemit)
  exact Run.mem_bind_log (Run.mem_bind_log hscanner)

theorem head?_toList_append {first : String} {c : Char} (h : first.toList.head? = some c)
    (later : String) : (first ++ later).toList.head? = some c := by
  rw [String.toList_append, List.head?_append, h, Option.some_or]

theorem head?_helpText : helpText.toList.head? = some 'C' := by
  unfold helpText
  iterate 13 apply head?_toList_append
  simp

theorem head?_versionText : versionText.toList.head? = some 'n' := by
  simp [versionText]

theorem Request.text_injective {request other : Request} (h : request.text = other.text) :
    request = other := by
  have hne : helpText ≠ versionText := by
    intro heq
    have hhead := head?_helpText
    rw [heq, head?_versionText] at hhead
    exact absurd (Option.some.inj hhead) (by decide)
  cases request <;> cases other
  · rfl
  · exact absurd h hne
  · exact absurd h.symm hne
  · rfl

/-- No report can be taken for one of the texts that the program shows about itself. -/
theorem output_ne_text {config : Config} {compiler : PatternCompiler} {files : Files}
    {output : String} (h : (config.run compiler files).result = .ok output) (request : Request) :
    output ≠ request.text := by
  obtain ⟨reports, rfl⟩ := exists_reports_of_run h
  intro heq
  obtain ⟨c, hhead, hc⟩ : ∃ c, request.text.toList.head? = some c ∧
      c ∉ ['[', '=', 'O', 'E', ' '] := by
    cases request with
    | help => exact ⟨'C', head?_helpText, by decide⟩
    | version => exact ⟨'n', head?_versionText, by decide⟩
  rw [← heq] at hhead
  cases hformat : config.format with
  | text =>
    rw [hformat] at hhead
    exact hc (List.mem_cons_of_mem _ (Report.head?_renderText hhead))
  | json =>
    rw [hformat, Report.render, Report.head?_renderJson] at hhead
    exact hc (Option.some.inj hhead ▸ List.mem_cons_self)

section Outcomes

variable {compiler : PatternCompiler} {line : List String} {files : Files}
  {environmentFilter? : Option String}

theorem execute_request {request : Request} (h : Arguments.parse line = .error request.stop) :
    execute compiler line files environmentFilter? = ⟨0, request.text, [], none⟩ := by
  cases request <;> simp only [execute, h, Request.stop] <;> rfl

theorem execute_usage {error : UsageError} (h : Arguments.parse line = .error (.usage error)) :
    execute compiler line files environmentFilter? = ⟨2, "", [], some error.message⟩ := by
  simp only [execute, h]

theorem execute_failure {arguments : Arguments} {failure : Failure}
    (hline : Arguments.parse line = .ok arguments)
    (h : ((Config.ofArguments arguments files).run compiler files).result = .error failure) :
    (execute compiler line files environmentFilter?).exitCode = 1 ∧
      (execute compiler line files environmentFilter?).output = "" := by
  have houtcome := Run.result_eq_error_iff.mp h
  simp only [execute, hline, houtcome, Config.run_written_of_error houtcome, and_self]

theorem execute_success {arguments : Arguments} {output : String}
    (hline : Arguments.parse line = .ok arguments)
    (h : ((Config.ofArguments arguments files).run compiler files).result = .ok output) :
    (execute compiler line files environmentFilter?).exitCode = 0 ∧
      (execute compiler line files environmentFilter?).output = output := by
  obtain ⟨houtcome, hwritten⟩ := Run.result_eq_ok_iff.mp h
  simp only [execute, hline, houtcome, hwritten, and_self]

theorem execute_log {arguments : Arguments} (hline : Arguments.parse line = .ok arguments) :
    (execute compiler line files environmentFilter?).log =
      ((Config.ofArguments arguments files).run compiler files).log.filter
        (LogFilter.ofText (environmentFilter?.getD arguments.logLevel)).admits := by
  simp only [execute, hline]
  split <;> rfl

theorem parse_cases (line : List String) :
    (∃ request, AsksFor request line) ∨
      (∃ error, Arguments.parse line = .error (.usage error)) ∨
      ∃ given, Spells line given ∧ IsProper given := by
  cases hline : Arguments.parse line with
  | error stop =>
    cases hrequest : stop.request? with
    | some request =>
      rw [Stop.request?_eq_some_iff.mp hrequest] at hline
      exact .inl ⟨request, parse_eq_request_iff.mp hline⟩
    | none =>
      obtain ⟨error, rfl⟩ := exists_usage_of_request? hrequest
      exact .inr (.inl ⟨error, rfl⟩)
  | ok arguments =>
    obtain ⟨given, hspells, hproper, _⟩ := parse_eq_ok_iff.mp hline
    exact .inr (.inr ⟨given, hspells, hproper⟩)

theorem execute_alike {other : List String} (h : AlikeLines line other)
    (otherFilter? : Option String) :
    (execute compiler other files otherFilter?).exitCode =
        (execute compiler line files environmentFilter?).exitCode ∧
      (execute compiler other files otherFilter?).output =
        (execute compiler line files environmentFilter?).output := by
  have hresults := parse_alike h
  generalize hline : Arguments.parse line = result at hresults
  generalize hother : Arguments.parse other = otherResult at hresults
  cases hresults with
  | request request => rw [execute_request hline, execute_request hother]; exact ⟨rfl, rfl⟩
  | usage error otherError => rw [execute_usage hline, execute_usage hother]; exact ⟨rfl, rfl⟩
  | run arguments level =>
    have hconfig : Config.ofArguments { arguments with logLevel := level } files =
        Config.ofArguments arguments files := rfl
    cases hrun : ((Config.ofArguments arguments files).run compiler files).result with
    | error failure =>
      obtain ⟨hexit, houtput⟩ := execute_failure hline hrun
      obtain ⟨hexit', houtput'⟩ := execute_failure hother (hconfig ▸ hrun)
      exact ⟨hexit'.trans hexit.symm, houtput'.trans houtput.symm⟩
    | ok output =>
      obtain ⟨hexit, houtput⟩ := execute_success hline hrun
      obtain ⟨hexit', houtput'⟩ := execute_success hother (hconfig ▸ hrun)
      exact ⟨hexit'.trans hexit.symm, houtput'.trans houtput.symm⟩

theorem not_proper_of_error {stop : Stop} (h : Arguments.parse line = .error stop) :
    ¬ ∃ given, Spells line given ∧ IsProper given := by
  rintro ⟨given, hspells, hproper⟩
  cases h.symm.trans (parse_eq_ok_iff.mpr ⟨given, hspells, hproper, rfl⟩)

theorem not_asksFor_of_usage {error : UsageError} (h : Arguments.parse line = .error (.usage error))
    (request : Request) : ¬ AsksFor request line := by
  intro hasks
  have hstop := h.symm.trans (parse_eq_request_iff.mpr hasks)
  cases request <;> cases hstop

theorem asksFor_unique {request other : Request} (h : AsksFor request line)
    (hother : AsksFor other line) : request = other := by
  have hstop := (parse_eq_request_iff.mpr h).symm.trans (parse_eq_request_iff.mpr hother)
  cases request <;> cases other <;> first | rfl | cases hstop

theorem execute_usage_iff :
    (execute compiler line files environmentFilter?).exitCode = 2 ∧
        (execute compiler line files environmentFilter?).output = "" ↔
      (∀ request, ¬ AsksFor request line) ∧ ¬ ∃ given, Spells line given ∧ IsProper given := by
  rcases parse_cases line with ⟨request, hasks⟩ | ⟨error, hline⟩ | ⟨given, hspells, hproper⟩
  · rw [execute_request (parse_eq_request_iff.mpr hasks)]
    exact iff_of_false (by simp) fun h => h.1 request hasks
  · rw [execute_usage hline]
    exact iff_of_true ⟨rfl, rfl⟩ ⟨not_asksFor_of_usage hline, not_proper_of_error hline⟩
  · refine iff_of_false ?_ fun h => h.2 ⟨given, hspells, hproper⟩
    have hline := parse_eq_ok_iff.mpr ⟨given, hspells, hproper, rfl⟩
    cases hrun : ((Config.ofArguments (argumentsOf given) files).run compiler files).result with
    | error failure => simp [(execute_failure hline hrun).1]
    | ok output => simp [(execute_success hline hrun).1]

theorem execute_request_iff {request : Request} :
    (execute compiler line files environmentFilter?).exitCode = 0 ∧
        (execute compiler line files environmentFilter?).output = request.text ↔
      AsksFor request line := by
  rcases parse_cases line with ⟨other, hasks⟩ | ⟨error, hline⟩ | ⟨given, hspells, hproper⟩
  · rw [execute_request (parse_eq_request_iff.mpr hasks)]
    constructor
    · rintro ⟨_, htext⟩
      exact Request.text_injective htext ▸ hasks
    · intro h
      rw [asksFor_unique h hasks]
      exact ⟨rfl, rfl⟩
  · rw [execute_usage hline]
    exact iff_of_false (by simp) (not_asksFor_of_usage hline request)
  · have hline := parse_eq_ok_iff.mpr ⟨given, hspells, hproper, rfl⟩
    refine iff_of_false ?_ fun h => ?_
    · rintro ⟨hexit, htext⟩
      cases hrun : ((Config.ofArguments (argumentsOf given) files).run compiler files).result with
      | error failure => cases (execute_failure hline hrun).1.symm.trans hexit
      | ok output =>
        exact output_ne_text hrun request ((execute_success hline hrun).2.symm.trans htext)
    · cases hline.symm.trans (parse_eq_request_iff.mpr h)

theorem execute_run_iff {arguments : Arguments} (hline : Arguments.parse line = .ok arguments) :
    ((execute compiler line files environmentFilter?).exitCode = 1 ∧
        (execute compiler line files environmentFilter?).output = "" ↔
      ∃ failure,
        ((Config.ofArguments arguments files).run compiler files).outcome = .error failure) ∧
    ∀ output, (execute compiler line files environmentFilter?).exitCode = 0 ∧
        (execute compiler line files environmentFilter?).output = output ↔
      ((Config.ofArguments arguments files).run compiler files).result = .ok output := by
  simp only [← Run.result_eq_error_iff]
  cases hrun : ((Config.ofArguments arguments files).run compiler files).result with
  | error failure =>
    obtain ⟨hexit, houtput⟩ := execute_failure hline hrun
    exact ⟨iff_of_true ⟨hexit, houtput⟩ ⟨failure, rfl⟩, fun output => by simp [hexit]⟩
  | ok result =>
    obtain ⟨hexit, houtput⟩ := @execute_success compiler line files environmentFilter? _ _ hline hrun
    refine ⟨by simp [hexit], fun output => ?_⟩
    rw [hexit, houtput]
    simp

theorem execute_log_eq_filter_shows {arguments : Arguments}
    (hline : Arguments.parse line = .ok arguments)
    (h : IsSingleWord (environmentFilter?.getD arguments.logLevel)) :
    (execute compiler line files environmentFilter?).log =
      ((Config.ofArguments arguments files).run compiler files).log.filter fun event =>
        Shows (trimmed (environmentFilter?.getD arguments.logLevel)) event := by
  rw [execute_log hline]
  refine List.filter_congr fun event _ => ?_
  rw [Bool.eq_iff_iff, decide_eq_true_eq]
  exact LogFilter.admits_iff_shows h

theorem execute_log_of_no_run (h : ¬ ∃ given, Spells line given ∧ IsProper given) :
    (execute compiler line files environmentFilter?).log = [] := by
  rcases parse_cases line with ⟨request, hasks⟩ | ⟨error, hline⟩ | hproper
  · rw [execute_request (parse_eq_request_iff.mpr hasks)]
  · rw [execute_usage hline]
  · exact absurd hproper h

end Outcomes

/-- What the program shows is decided by the command line and by how the run ends. The level only
decides which messages of the run are shown. -/
theorem execute_outcome_and_log (compiler : PatternCompiler) (line : List String) (files : Files)
    (environmentFilter? : Option String) :
    let seen := execute compiler line files environmentFilter?
    (seen.exitCode = 2 ∧ seen.output = "" ↔
      (∀ request, ¬ AsksFor request line) ∧ ¬ ∃ given, Spells line given ∧ IsProper given) ∧
    (∀ request, seen.exitCode = 0 ∧ seen.output = request.text ↔ AsksFor request line) ∧
    (∀ given, Spells line given → IsProper given →
      let arguments := argumentsOf given
      let run := (Config.ofArguments arguments files).run compiler files
      let filter := environmentFilter?.getD arguments.logLevel
      (seen.exitCode = 1 ∧ seen.output = "" ↔ ∃ failure, run.outcome = .error failure) ∧
      (∀ output, seen.exitCode = 0 ∧ seen.output = output ↔ run.result = .ok output) ∧
      seen.log = run.log.filter (LogFilter.ofText filter).admits ∧
      (IsSingleWord filter →
        seen.log = run.log.filter fun event => Shows (trimmed filter) event)) ∧
    ((¬ ∃ given, Spells line given ∧ IsProper given) → seen.log = []) ∧
    ∀ other otherFilter?, AlikeLines line other →
      (execute compiler other files otherFilter?).exitCode = seen.exitCode ∧
        (execute compiler other files otherFilter?).output = seen.output := by
  refine ⟨execute_usage_iff, fun request => execute_request_iff, fun given hspells hproper => ?_,
    execute_log_of_no_run, fun other otherFilter? h => execute_alike h otherFilter?⟩
  have hline := parse_eq_ok_iff.mpr ⟨given, hspells, hproper, rfl⟩
  obtain ⟨hfailure, hsuccess⟩ := execute_run_iff hline
  exact ⟨hfailure, hsuccess, execute_log hline, execute_log_eq_filter_shows hline⟩

theorem execute_outcome_and_log_missing_file :
    let files : Files := ⟨fun _ => .error .notFound, none⟩
    let seen := execute .sizeLimited ["--log-level=warn", "a.html"] files (some "Debug")
    seen.exitCode = 1 ∧ seen.output = "" ∧
      seen.log = ((Config.ofArguments ⟨["a.html"], none, none, .text, "warn"⟩ files).run
        .sizeLimited files).log.filter (fun event => Shows "Debug" event) ∧
      (execute .sizeLimited ["--log-level", "off", "a.html"] files none).exitCode = seen.exitCode ∧
      (execute .sizeLimited ["--log-level=trace"] files none).log = [] := by
  intro files seen
  let given : List Given := [.value .logLevel "warn", .path "a.html"]
  have hspells : Spells ["--log-level=warn", "a.html"] given :=
    .joined .logLevel "warn" (.path (by simp [IsPlain]) .nothing)
  have hproper : IsProper given :=
    ⟨by decide, by decide, fun option _ => by cases option <;> decide, by decide,
      fun text htext => by cases htext⟩
  have halike : AlikeLines ["--log-level=warn", "a.html"] ["--log-level", "off", "a.html"] :=
    @AlikeLines.level [] _ _ ["a.html"] List.not_mem_nil (.inl ⟨"warn", rfl⟩)
      (.inr ⟨"off", by simp [IsPlain], rfl⟩)
  have hword : IsSingleWord "Debug" := by simp [IsSingleWord]
  have htrimmed : trimmed "Debug" = "Debug" := by decide
  have harguments : argumentsOf given = ⟨["a.html"], none, none, .text, "warn"⟩ := by decide
  obtain ⟨_, _, hrun, _, hsame⟩ :=
    execute_outcome_and_log .sizeLimited ["--log-level=warn", "a.html"] files (some "Debug")
  obtain ⟨hfailure, _, _, hlog⟩ := hrun given hspells hproper
  have hfails : (Config.ofArguments (argumentsOf given) files).Fails .sizeLimited files
      (.fileUnreadable "a.html" .notFound) := by
    rw [harguments]
    exact @Config.Fails.document _ _ files [] [] _ _ (fun _ h => by cases h)
      (not_patternRefused_builtin files) rfl (List.forall_mem_nil _) (.noContent rfl)
  obtain ⟨hexit, houtput⟩ := hfailure.mpr ⟨_, Config.run_eq_error_iff.mpr hfails⟩
  have hlog := hlog hword
  simp only [Option.getD_some, htrimmed, harguments] at hlog
  have hnoPath : Arguments.parse ["--log-level=trace"] = .error (.usage .noPath) := by decide
  exact ⟨hexit, houtput, hlog, (hsame _ none halike).1,
    (execute_outcome_and_log .sizeLimited _ files none).2.2.2.1 (not_proper_of_error hnoPath)⟩

/-- A word that is no level may still show messages. -/
theorem execute_log_of_topic_word :
    ¬ IsLevelWord "t" ∧
      (execute .sizeLimited ["--log-level", "t", "a.html"]
        ⟨fun _ => .error .notFound, none⟩ none).log ≠ [] := by
  refine ⟨by decide, ?_⟩
  have hline : Arguments.parse ["--log-level", "t", "a.html"] =
      .ok ⟨["a.html"], none, none, .text, "t"⟩ := by decide
  have hadmits : (LogFilter.ofText "t").admits (.tracking .builtin) = true := by decide +kernel
  rw [execute_log hline]
  exact List.ne_nil_of_mem (List.mem_filter.mpr ⟨tracking_mem_log rfl, hadmits⟩)

end TagLint
