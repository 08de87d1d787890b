import TagLint.Program

/-! What a run comes to. The outcome of a run is that of its tag set, its pattern and its files,
one after the other, and each file answers for itself. Nothing is written before the last of them,
so a run that fails has written nothing. -/

namespace TagLint

theorem exists_first_error {ε α β : Type} {f : α → Except ε β} {xs : List α}
    (h : ∃ x ∈ xs, ∃ error, f x = .error error) :
    ∃ front x back error, xs = front ++ x :: back ∧ (∀ y ∈ front, ∃ value, f y = .ok value) ∧
      f x = .error error := by
  induction xs with
  | nil => simp at h
  | cons x xs ih =>
    cases hx : f x with
    | error error => exact ⟨[], x, xs, error, rfl, List.forall_mem_nil _, hx⟩
    | ok value =>
      have hlater : ∃ y ∈ xs, ∃ error, f y = .error error := by simpa [hx] using h
      obtain ⟨front, y, back, error, rfl, hfront, hy⟩ := ih hlater
      exact ⟨x :: front, y, back, error, rfl, List.forall_mem_cons.mpr ⟨⟨value, hx⟩, hfront⟩, hy⟩

namespace Run

variable {α β ε : Type} {run : Run α} {next : α → Run β} {value : α} {failure : Failure}

theorem bind_outcome_ok (h : run.outcome = .ok value) :
    (run >>= next).outcome = (next value).outcome := by
  change (run.bind next).outcome = _
  simp only [bind, h]

theorem bind_outcome_error (h : run.outcome = .error failure) :
    (run >>= next).outcome = .error failure := by
  change (run.bind next).outcome = _
  simp only [bind, h]

theorem exists_of_bind_outcome_ok {result : β} (h : (run >>= next).outcome = .ok result) :
    ∃ value, run.outcome = .ok value ∧ (next value).outcome = .ok result := by
  cases hrun : run.outcome with
  | error failure => simp [bind_outcome_error hrun] at h
  | ok value => exact ⟨value, rfl, bind_outcome_ok hrun ▸ h⟩

theorem bind_log_ok (h : run.outcome = .ok value) :
    (run >>= next).log = run.log ++ (next value).log := by
  change (run.bind next).log = _
  simp only [bind, h]

theorem mem_bind_log {event : Event} (h : event ∈ run.log) : event ∈ (run >>= next).log := by
  cases hrun : run.outcome with
  | error failure =>
    change event ∈ (run.bind next).log
    simpa only [bind, hrun] using h
  | ok value =>
    rw [bind_log_ok hrun]
    exact List.mem_append_left _ h

theorem bind_written_ok (h : run.outcome = .ok value) :
    (run >>= next).written = run.written ++ (next value).written := by
  change (run.bind next).written = _
  simp only [bind, h]

theorem bind_written_error (h : run.outcome = .error failure) :
    (run >>= next).written = run.written := by
  change (run.bind next).written = _
  simp only [bind, h]

theorem bind_written_eq_empty (h : run.written = "") (hnext : ∀ value, (next value).written = "") :
    (run >>= next).written = "" := by
  cases hrun : run.outcome with
  | error failure => rw [bind_written_error hrun, h]
  | ok value => rw [bind_written_ok hrun, h, hnext value, String.empty_append]

theorem result_eq_error_iff {run : Run Unit} :
    run.result = .error failure ↔ run.outcome = .error failure := by
  unfold result
  cases run.outcome <;> simp [Except.map]

theorem result_eq_ok_iff {run : Run Unit} {output : String} :
    run.result = .ok output ↔ run.outcome = .ok () ∧ run.written = output := by
  unfold result
  cases run.outcome <;> simp [Except.map]

theorem ofExcept_outcome_ok {result : Except ε α} (h : result = .ok value) (failure : ε → Failure) :
    (ofExcept failure result).outcome = .ok value := by
  rw [h]
  rfl

theorem ofExcept_outcome_error {result : Except ε α} {error : ε} (h : result = .error error)
    (failure : ε → Failure) : (ofExcept failure result).outcome = .error (failure error) := by
  rw [h]
  rfl

end Run

/-- The content is a text. -/
def HoldsText (content : Except ReadError ByteArray) : Prop :=
  ∃ text : String, content = .ok text.toUTF8

/-- There is no content, or it is no text. -/
inductive CannotBeRead (content : Except ReadError ByteArray) : ReadError → Prop
  | noContent {error : ReadError} (h : content = .error error) : CannotBeRead content error
  | noText {bytes : ByteArray} (h : content = .ok bytes)
      (hbytes : ∀ text : String, bytes ≠ text.toUTF8) : CannotBeRead content .invalidData

section Reading

variable {content : Except ReadError ByteArray}

theorem decodeText_toUTF8 (text : String) : decodeText text.toUTF8 = .ok text := by
  have hvalid : text.toUTF8.IsValidUTF8 := text.isValidUTF8
  simp only [decodeText, String.fromUTF8?, dif_pos hvalid]
  rfl

theorem decodeText_of_no_text {bytes : ByteArray} (h : ∀ text : String, bytes ≠ text.toUTF8) :
    decodeText bytes = .error .invalidData := by
  have hinvalid : ¬ bytes.IsValidUTF8 := fun hvalid => h (String.fromUTF8 bytes hvalid) rfl
  simp only [decodeText, String.fromUTF8?, dif_neg hinvalid]

theorem read_eq_ok_iff {text : String} :
    content.bind decodeText = .ok text ↔ content = .ok text.toUTF8 := by
  constructor
  · intro h
    cases content with
    | error error => cases h
    | ok bytes =>
      by_cases hbytes : ∃ text : String, bytes = text.toUTF8
      · obtain ⟨other, rfl⟩ := hbytes
        have hother := (decodeText_toUTF8 other).symm.trans h
        rw [Except.ok.inj hother]
      · cases (decodeText_of_no_text (not_exists.mp hbytes)).symm.trans h
  · rintro rfl
    exact decodeText_toUTF8 text

theorem read_eq_error_iff {error : ReadError} :
    content.bind decodeText = .error error ↔ CannotBeRead content error := by
  constructor
  · intro h
    cases content with
    | error fault =>
      cases h
      exact .noContent rfl
    | ok bytes =>
      have hbytes : ∀ text : String, bytes ≠ text.toUTF8 := by
        rintro text rfl
        cases (decodeText_toUTF8 text).symm.trans h
      cases (decodeText_of_no_text hbytes).symm.trans h
      exact .noText rfl hbytes
  · rintro (h | ⟨h, hbytes⟩)
    · rw [h]
      rfl
    · rw [h]
      exact decodeText_of_no_text hbytes

theorem not_holdsText_iff : ¬ HoldsText content ↔ ∃ error, CannotBeRead content error := by
  simp only [HoldsText, ← read_eq_ok_iff, ← read_eq_error_iff]
  cases content.bind decodeText <;> simp

end Reading

section

variable {files : Files} {scanner : Scanner} {path : String} {failure : Failure}

theorem checkFile_text {text : String} (h : files.read path = .ok text.toUTF8) :
    (checkFile files scanner path).outcome = .ok ⟨path, scanner.validateDocument text⟩ := by
  unfold checkFile
  rw [Run.bind_outcome_ok (Run.ofExcept_outcome_ok (read_eq_ok_iff.mpr h) _)]
  rfl

theorem checkFile_unreadable {error : ReadError} (h : CannotBeRead (files.read path) error) :
    (checkFile files scanner path).outcome = .error (.fileUnreadable path error) :=
  Run.bind_outcome_error (Run.ofExcept_outcome_error (read_eq_error_iff.mpr h) _)

theorem path_of_checkFile {report : Report}
    (h : (checkFile files scanner path).outcome = .ok report) : report.path = path := by
  obtain ⟨content, _, h⟩ := Run.exists_of_bind_outcome_ok h
  obtain ⟨_, _, h⟩ := Run.exists_of_bind_outcome_ok h
  exact Except.ok.inj h ▸ rfl

theorem checkFiles_cons_ok {report : Report} {paths : List String}
    (h : (checkFile files scanner path).outcome = .ok report) :
    (checkFiles files scanner (path :: paths)).outcome =
      (checkFiles files scanner paths).outcome.map (report :: ·) := by
  rw [checkFiles, Run.bind_outcome_ok h]
  cases hrest : (checkFiles files scanner paths).outcome with
  | error failure => exact Run.bind_outcome_error hrest
  | ok reports => exact Run.bind_outcome_ok hrest

theorem checkFiles_cons_error (h : (checkFile files scanner path).outcome = .error failure)
    (paths : List String) :
    (checkFiles files scanner (path :: paths)).outcome = .error failure := by
  rw [checkFiles, Run.bind_outcome_error h]

theorem checkFiles_ok {paths : List String} {report : String → Report}
    (h : ∀ path ∈ paths, (checkFile files scanner path).outcome = .ok (report path)) :
    (checkFiles files scanner paths).outcome = .ok (paths.map report) := by
  induction paths with
  | nil => rfl
  | cons path paths ih =>
    rw [List.forall_mem_cons] at h
    rw [checkFiles_cons_ok h.1, ih h.2]
    rfl

theorem checkFiles_error {front : List String}
    (hfront : ∀ earlier ∈ front, ∃ report, (checkFile files scanner earlier).outcome = .ok report)
    (h : (checkFile files scanner path).outcome = .error failure) (back : List String) :
    (checkFiles files scanner (front ++ path :: back)).outcome = .error failure := by
  induction front with
  | nil => exact checkFiles_cons_error h back
  | cons earlier front ih =>
    rw [List.forall_mem_cons] at hfront
    obtain ⟨report, hreport⟩ := hfront.1
    rw [List.cons_append, checkFiles_cons_ok hreport, ih hfront.2]
    rfl

theorem exists_reports_of_texts {paths : List String}
    (h : ∀ path ∈ paths, HoldsText (files.read path)) :
    ∃ reports, (checkFiles files scanner paths).outcome = .ok reports := by
  induction paths with
  | nil => exact ⟨[], rfl⟩
  | cons path paths ih =>
    rw [List.forall_mem_cons] at h
    obtain ⟨text, htext⟩ := h.1
    obtain ⟨reports, hreports⟩ := ih h.2
    exact ⟨_, by rw [checkFiles_cons_ok (checkFile_text htext), hreports]; rfl⟩

theorem checkFiles_unreadable {front : List String} {error : ReadError}
    (hfront : ∀ earlier ∈ front, HoldsText (files.read earlier))
    (h : CannotBeRead (files.read path) error) (back : List String) :
    (checkFiles files scanner (front ++ path :: back)).outcome =
      .error (.fileUnreadable path error) := by
  refine checkFiles_error (fun earlier hearlier => ?_) (checkFile_unreadable h) back
  obtain ⟨text, htext⟩ := hfront earlier hearlier
  exact ⟨_, checkFile_text htext⟩

theorem exists_first_unreadable {paths : List String}
    (h : ∃ path ∈ paths, ¬ HoldsText (files.read path)) :
    ∃ front path back error, paths = front ++ path :: back ∧
      (∀ earlier ∈ front, HoldsText (files.read earlier)) ∧
      CannotBeRead (files.read path) error := by
  simp only [not_holdsText_iff, ← read_eq_error_iff] at h
  obtain ⟨front, path, back, error, hpaths, hfront, hpath⟩ := exists_first_error h
  exact ⟨front, path, back, error, hpaths,
    fun earlier hearlier => (hfront earlier hearlier).imp fun _ => read_eq_ok_iff.mp,
    read_eq_error_iff.mp hpath⟩

theorem unreadable_of_checkFiles {paths : List String}
    (h : (checkFiles files scanner paths).outcome = .error failure) :
    ∃ path ∈ paths, ∃ error, failure = .fileUnreadable path error := by
  by_cases htexts : ∀ path ∈ paths, HoldsText (files.read path)
  · obtain ⟨reports, hreports⟩ := @exists_reports_of_texts files scanner paths htexts
    cases hreports.symm.trans h
  · obtain ⟨front, path, back, error, rfl, hfront, hpath⟩ :=
      exists_first_unreadable (by simpa using htexts)
    cases (checkFiles_unreadable hfront hpath back).symm.trans h
    exact ⟨path, List.mem_append_right _ List.mem_cons_self, error, rfl⟩

end

section Compiling

variable {compiler : PatternCompiler} {set : TagSet}

theorem TagSet.compile_of_fault {fault : String}
    (h : compiler.fault? set.scanner.pattern = some fault) : set.compile compiler = .error fault := by
  rw [compile, h]

theorem TagSet.compile_of_no_fault (h : compiler.fault? set.scanner.pattern = none) :
    set.compile compiler = .ok set.scanner := by
  rw [compile, h]

variable {source : TagSource} {files : Files}

theorem TagSource.loadScanner_of_load_error {failure : Failure}
    (h : (source.load files).outcome = .error failure) :
    (source.loadScanner compiler files).outcome = .error failure :=
  Run.bind_outcome_error h

theorem TagSource.loadScanner_of_load_ok (h : (source.load files).outcome = .ok set) :
    (source.loadScanner compiler files).outcome =
      (set.compile compiler).mapError .patternRefused := by
  have hemit : (Run.emit [.tracking set, .scannerReady set.scanner]).outcome = .ok () := rfl
  rw [loadScanner, Run.bind_outcome_ok h, Run.bind_outcome_ok hemit]
  rfl

end Compiling

section Writing

variable {files : Files} {compiler : PatternCompiler}

theorem loadTagFile_written (path : String) (content : Except ReadError ByteArray) :
    (loadTagFile path content).written = "" :=
  Run.bind_written_eq_empty rfl fun _ => Run.bind_written_eq_empty rfl fun _ =>
    Run.bind_written_eq_empty rfl fun _ => rfl

theorem TagSource.load_written (source : TagSource) : (source.load files).written = "" := by
  cases source with
  | names _ => rfl
  | file path => exact loadTagFile_written path _
  | userFile file => exact loadTagFile_written file.path _
  | builtin => rfl

theorem TagSource.loadScanner_written (source : TagSource) :
    (source.loadScanner compiler files).written = "" :=
  Run.bind_written_eq_empty source.load_written fun _ => Run.bind_written_eq_empty rfl fun _ => rfl

theorem checkFile_written (scanner : Scanner) (path : String) :
    (checkFile files scanner path).written = "" :=
  Run.bind_written_eq_empty rfl fun _ => Run.bind_written_eq_empty rfl fun _ => rfl

theorem checkFiles_written (scanner : Scanner) (paths : List String) :
    (checkFiles files scanner paths).written = "" := by
  induction paths with
  | nil => rfl
  | cons path paths ih =>
    exact Run.bind_written_eq_empty (checkFile_written scanner path) fun _ =>
      Run.bind_written_eq_empty ih fun _ => rfl

theorem Config.check_written (config : Config) : (config.check compiler files).written = "" :=
  Run.bind_written_eq_empty config.tagSource.loadScanner_written fun scanner =>
    checkFiles_written scanner config.paths

end Writing

namespace Config

variable {config : Config} {compiler : PatternCompiler} {files : Files} {scanner : Scanner}
  {failure : Failure}

theorem run_result (config : Config) (compiler : PatternCompiler) (files : Files) :
    (config.run compiler files).result =
      (config.check compiler files).outcome.map (Report.render · config.format) := by
  cases hcheck : (config.check compiler files).outcome with
  | error failure => exact Run.result_eq_error_iff.mpr (Run.bind_outcome_error hcheck)
  | ok reports =>
    have houtcome : (config.run compiler files).outcome = .ok () := Run.bind_outcome_ok hcheck
    have hwritten : (config.run compiler files).written = Report.render reports config.format := by
      rw [run, Run.bind_written_ok hcheck, check_written, String.empty_append]
      rfl
    rw [Run.result, houtcome, hwritten]
    rfl

theorem run_written_of_error (h : (config.run compiler files).outcome = .error failure) :
    (config.run compiler files).written = "" := by
  cases hcheck : (config.check compiler files).outcome with
  | error failure => rw [run, Run.bind_written_error hcheck, check_written]
  | ok reports =>
    have houtcome : (config.run compiler files).outcome = .ok () := Run.bind_outcome_ok hcheck
    cases houtcome.symm.trans h

theorem run_result_of_scanner_error
    (h : (config.tagSource.loadScanner compiler files).outcome = .error failure) :
    (config.run compiler files).result = .error failure := by
  rw [run_result, check, Run.bind_outcome_error h]
  rfl

theorem run_result_of_scanner_ok
    (h : (config.tagSource.loadScanner compiler files).outcome = .ok scanner) :
    (config.run compiler files).result =
      (checkFiles files scanner config.paths).outcome.map (Report.render · config.format) := by
  rw [run_result, check, Run.bind_outcome_ok h]

end Config

end TagLint
