import TagLint.Proofs.PatternSize

/-! When a run fails and what it says then. The tag set comes first, then its pattern, then the
files in their order, and the first of them that cannot be read decides. -/

namespace TagLint

/-- Why a run fails. What stands behind the unreadable file makes no difference, nor does what
is found in those before it. -/
inductive Config.Fails (config : Config) (compiler : PatternCompiler) (files : Files) :
    Failure → Prop
  | tagSet {failure : Failure} (h : config.tagSource.Fails files failure) :
      Fails config compiler files failure
  | pattern {fault : String} (h : config.tagSource.PatternRefused compiler files fault) :
      Fails config compiler files (.patternRefused fault)
  | document {front back : List String} {path : String} {error : ReadError}
      (hsource : ∀ failure, ¬ config.tagSource.Fails files failure)
      (hpattern : ∀ fault, ¬ config.tagSource.PatternRefused compiler files fault)
      (hpaths : config.paths = front ++ path :: back)
      (hfront : ∀ earlier ∈ front, HoldsText (files.read earlier))
      (h : CannotBeRead (files.read path) error) :
      Fails config compiler files (.fileUnreadable path error)

/-- The file that a failure is about. -/
def Failure.path? : Failure → Option String
  | namesRejected _ => none
  | tagFileUnreadable path _ => some path
  | tagFileFaulty path _ => some path
  | patternRefused _ => none
  | fileUnreadable path _ => some path

def TagSource.path? : TagSource → Option String
  | names _ => none
  | file path => some path
  | userFile tagFile => some tagFile.path
  | builtin => none

theorem infix_append (front text back : String) :
    text.toList <:+: (front ++ text ++ back).toList := by
  rw [String.toList_append, String.toList_append]
  exact List.infix_append _ _ _

theorem Failure.path_infix_message {failure : Failure} {path : String}
    (h : failure.path? = some path) : path.toList <:+: failure.message.toList := by
  cases failure with
  | namesRejected _ => cases h
  | tagFileUnreadable _ error =>
    cases h
    have hinfix := infix_append "failed to read tag set file " path (": " ++ error.name)
    rwa [← String.append_assoc] at hinfix
  | tagFileFaulty _ fault =>
    cases h
    have hinfix := infix_append "failed to load tag set from " path (": " ++ fault.message)
    rwa [← String.append_assoc] at hinfix
  | patternRefused _ => cases h
  | fileUnreadable _ error =>
    cases h
    have hinfix := infix_append "failed to read " path (": " ++ error.name)
    rwa [← String.append_assoc] at hinfix

theorem TagFileFails.path?_eq {path : String} {content : Except ReadError ByteArray}
    {failure : Failure} (h : TagFileFails path content failure) : failure.path? = some path := by
  cases h <;> rfl

theorem TagSource.Fails.path?_eq {source : TagSource} {files : Files} {failure : Failure}
    (h : source.Fails files failure) : failure.path? = source.path? := by
  cases h with
  | names _ => rfl
  | file h => exact h.path?_eq
  | userFile h => exact h.path?_eq

namespace Config

variable {config : Config} {compiler : PatternCompiler} {files : Files} {failure : Failure}

theorem Fails.run (h : config.Fails compiler files failure) :
    (config.run compiler files).result = .error failure := by
  cases h with
  | tagSet h => exact run_result_of_scanner_error h.loadScanner
  | pattern h => exact run_result_of_scanner_error h.loadScanner
  | document hsource hpattern hpaths hfront h =>
    obtain ⟨scanner, hscanner⟩ := TagSource.exists_scanner hsource hpattern
    rw [run_result_of_scanner_ok hscanner, hpaths, checkFiles_unreadable hfront h]
    rfl

theorem exists_fails_iff : (∃ failure, config.Fails compiler files failure) ↔
    (∃ failure, config.tagSource.Fails files failure) ∨
      (∃ fault, config.tagSource.PatternRefused compiler files fault) ∨
        ∃ path ∈ config.paths, ¬ HoldsText (files.read path) := by
  constructor
  · rintro ⟨failure, h⟩
    cases h with
    | tagSet h => exact .inl ⟨failure, h⟩
    | pattern h => exact .inr (.inl ⟨_, h⟩)
    | document _ _ hpaths _ h =>
      exact .inr (.inr ⟨_, hpaths ▸ List.mem_append_right _ List.mem_cons_self,
        not_holdsText_iff.mpr ⟨_, h⟩⟩)
  · intro h
    by_cases hsource : ∃ failure, config.tagSource.Fails files failure
    · exact hsource.imp fun _ => .tagSet
    by_cases hpattern : ∃ fault, config.tagSource.PatternRefused compiler files fault
    · obtain ⟨fault, hfault⟩ := hpattern
      exact ⟨_, .pattern hfault⟩
    obtain ⟨front, path, back, error, hpaths, hfront, hpath⟩ :=
      exists_first_unreadable ((h.resolve_left hsource).resolve_left hpattern)
    exact ⟨_, .document (not_exists.mp hsource) (not_exists.mp hpattern) hpaths hfront hpath⟩

theorem exists_output_of_not_fails (h : ¬ ∃ failure, config.Fails compiler files failure) :
    ∃ output, (config.run compiler files).result = .ok output := by
  rw [exists_fails_iff, not_or, not_or, not_exists, not_exists] at h
  obtain ⟨hsource, hpattern, hpaths⟩ := h
  obtain ⟨scanner, hscanner⟩ := TagSource.exists_scanner hsource hpattern
  obtain ⟨reports, hreports⟩ := @exists_reports_of_texts files scanner config.paths
    (by simpa using hpaths)
  exact ⟨_, by rw [run_result_of_scanner_ok hscanner, hreports]; rfl⟩

theorem run_eq_error_iff : (config.run compiler files).outcome = .error failure ↔
    config.Fails compiler files failure := by
  rw [← Run.result_eq_error_iff]
  refine ⟨fun h => ?_, Fails.run⟩
  by_cases hfails : ∃ failure, config.Fails compiler files failure
  · obtain ⟨other, hother⟩ := hfails
    cases hother.run.symm.trans h
    exact hother
  · obtain ⟨output, houtput⟩ := exists_output_of_not_fails hfails
    cases houtput.symm.trans h

end Config

/-- A run fails because its tag set cannot be loaded, or else because the pattern of the set is
refused, or else because of the first file that cannot be read. The message names the file, and
nothing is written. -/
theorem run_fails_at_first_culprit (config : Config) (compiler : PatternCompiler) (files : Files) :
    ((∃ failure, (config.run compiler files).outcome = .error failure) ↔
      (∃ failure, config.tagSource.Fails files failure) ∨
        (∃ fault, config.tagSource.PatternRefused compiler files fault) ∨
          ∃ path ∈ config.paths, ¬ HoldsText (files.read path)) ∧
    (∀ failure, (config.run compiler files).outcome = .error failure ↔
      config.Fails compiler files failure) ∧
    (∀ failure : Failure, config.tagSource.Fails files failure →
      failure.path? = config.tagSource.path?) ∧
    (∀ fault, (Failure.patternRefused fault).path? = none) ∧
    (∀ (failure : Failure) (path : String), failure.path? = some path →
      path.toList <:+: failure.message.toList) ∧
    ((∃ failure, (config.run compiler files).outcome = .error failure) →
      (config.run compiler files).written = "") := by
  refine ⟨?_, fun _ => Config.run_eq_error_iff, fun _ => TagSource.Fails.path?_eq, fun _ => rfl,
    fun _ _ => Failure.path_infix_message, fun ⟨_, h⟩ => Config.run_written_of_error h⟩
  simp only [Config.run_eq_error_iff]
  exact Config.exists_fails_iff

/-- The first file has a finding, the second is ill-encoded, and the third is missing. -/
theorem run_fails_at_first_culprit_ill_encoded :
    let run := Config.run ⟨["a.html", "b.html", "c.html"], .builtin, .text⟩ .sizeLimited
      ⟨fun path => if path = "a.html" then .ok "</div>".toUTF8
        else if path = "b.html" then .ok ⟨#[0xff]⟩ else .error .notFound, none⟩
    run.outcome = .error (.fileUnreadable "b.html" .invalidData) ∧ run.written = "" := by
  let files : Files := ⟨fun path => if path = "a.html" then .ok "</div>".toUTF8
    else if path = "b.html" then .ok ⟨#[0xff]⟩ else .error .notFound, none⟩
  obtain ⟨_, hfails, _, _, _, hwritten⟩ := run_fails_at_first_culprit
    ⟨["a.html", "b.html", "c.html"], .builtin, .text⟩ .sizeLimited files
  have hread : CannotBeRead (files.read "b.html") .invalidData := by
    refine .noText rfl fun text htext => ?_
    have hvalid := text.isValidUTF8
    have hbytes : ¬ (⟨#[0xff]⟩ : ByteArray).IsValidUTF8 := by decide
    exact hbytes (htext ▸ hvalid)
  have hrun := (hfails _).mpr (@Config.Fails.document _ _ files ["a.html"] ["c.html"] _ _
    (fun _ h => by cases h) (not_patternRefused_builtin files) rfl
    (List.forall_mem_singleton.mpr ⟨"</div>", rfl⟩) hread)
  exact ⟨hrun, hwritten ⟨_, hrun⟩⟩

/-- The tag file is sound and the document can be read, but a name is too long for a pattern. -/
theorem run_fails_of_long_name :
    let config : Config := ⟨["a.html"], .file "t.toml", .text⟩
    let files : Files := ⟨fun path =>
      .ok (if path = "t.toml" then longNameFile 500000 else "<div></div>\n".toUTF8), none⟩
    ¬ ((∃ failure, (config.run .sizeLimited files).outcome = .error failure) ↔
      (∃ failure, config.tagSource.Fails files failure) ∨
        ∃ path ∈ config.paths, ¬ HoldsText (files.read path)) := by
  intro config files hiff
  have hgives : config.tagSource.Gives files [longName 500000] :=
    .file (listsNames_longNameFile 500000)
  obtain ⟨fault, hfault⟩ := patternRefused_longName hgives (by decide)
  rcases hiff.mp ⟨_, Config.run_eq_error_iff.mpr (.pattern hfault)⟩ with ⟨failure, h⟩ | h
  · cases h.loadScanner.symm.trans hfault.loadScanner
    cases h with
    | file h => cases h
  · obtain ⟨path, hpath, hread⟩ := h
    rw [List.mem_singleton.mp hpath] at hread
    exact hread ⟨"<div></div>\n", rfl⟩

end TagLint
