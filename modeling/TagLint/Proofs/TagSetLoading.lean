import TagLint.Proofs.RunOutcome

/-! Loading a tag set and compiling its pattern. Loading fails for one of four reasons, each with
its own message. The scanner that comes of it depends on the names alone: a file that lists names
gives what the list of these names gives. -/

namespace TagLint

/-- The content is a tag file with these elements. -/
def ListsNames (content : Except ReadError ByteArray) (names : List String) : Prop :=
  ∃ text entry, content = .ok text.toUTF8 ∧ TagSetEntry.ofText? text = some entry ∧
    entry.elements = names

inductive TagFileFails (path : String) (content : Except ReadError ByteArray) : Failure → Prop
  | unreadable {error : ReadError} (h : CannotBeRead content error) :
      TagFileFails path content (.tagFileUnreadable path error)
  | malformed {text : String} (h : content = .ok text.toUTF8)
      (hentry : TagSetEntry.ofText? text = none) :
      TagFileFails path content (.tagFileFaulty path .malformed)
  | rejected {names : List String} {rejection : Rejection} (h : ListsNames content names)
      (hnames : TagSet.ofNames names = .error rejection) :
      TagFileFails path content (.tagFileFaulty path (.rejected rejection))

/-- Why a tag set cannot be loaded. The built-in one always can. -/
inductive TagSource.Fails (files : Files) : TagSource → Failure → Prop
  | names {names : List String} {rejection : Rejection}
      (h : TagSet.ofNames names = .error rejection) :
      Fails files (.names names) (.namesRejected rejection)
  | file {path : String} {failure : Failure}
      (h : TagFileFails path (files.read path) failure) : Fails files (.file path) failure
  | userFile {file : UserTagFile} {failure : Failure}
      (h : TagFileFails file.path file.content failure) : Fails files (.userFile file) failure

/-- The names that a source gives. -/
inductive TagSource.Gives (files : Files) : TagSource → List String → Prop
  | names (names : List String) : Gives files (.names names) names
  | file {path : String} {names : List String} (h : ListsNames (files.read path) names) :
      Gives files (.file path) names
  | userFile {file : UserTagFile} {names : List String} (h : ListsNames file.content names) :
      Gives files (.userFile file) names
  | builtin : Gives files .builtin TagSet.builtin.names

/-- The names of a source make up a set, but its pattern is refused. -/
def TagSource.PatternRefused (source : TagSource) (compiler : PatternCompiler) (files : Files)
    (fault : String) : Prop :=
  ∃ names set, source.Gives files names ∧ TagSet.ofNames names = .ok set ∧
    compiler.fault? set.scanner.pattern = some fault

section TagFile

variable {path : String} {content : Except ReadError ByteArray} {names : List String}

theorem toTagSet_of_ok {entry : TagSetEntry} {set : TagSet}
    (h : TagSet.ofNames entry.elements = .ok set) :
    entry.toTagSet = .ok { set with name? := entry.name?, description? := entry.description? } := by
  rw [TagSetEntry.toTagSet, h]
  rfl

theorem toTagSet_of_error {entry : TagSetEntry} {rejection : Rejection}
    (h : TagSet.ofNames entry.elements = .error rejection) : entry.toTagSet = .error rejection := by
  rw [TagSetEntry.toTagSet, h]
  rfl

theorem TagSet.ofToml_of_entry {text : String} {entry : TagSetEntry}
    (h : TagSetEntry.ofText? text = some entry) :
    TagSet.ofToml text = entry.toTagSet.mapError .rejected := by
  rw [TagSet.ofToml, h]

theorem loadTagFile_of_error {text : String} {fault : TagSetFault}
    (h : content = .ok text.toUTF8) (hfault : TagSet.ofToml text = .error fault) :
    (loadTagFile path content).outcome = .error (.tagFileFaulty path fault) := by
  rw [loadTagFile, Run.bind_outcome_ok (Run.ofExcept_outcome_ok (read_eq_ok_iff.mpr h) _),
    Run.bind_outcome_error (Run.ofExcept_outcome_error hfault _)]

theorem loadTagFile_of_ok {text : String} {set : TagSet} (h : content = .ok text.toUTF8)
    (hset : TagSet.ofToml text = .ok set) : (loadTagFile path content).outcome = .ok set := by
  rw [loadTagFile, Run.bind_outcome_ok (Run.ofExcept_outcome_ok (read_eq_ok_iff.mpr h) _),
    Run.bind_outcome_ok (Run.ofExcept_outcome_ok hset _)]
  rfl

theorem loadTagFile_of_listed_ok {set : TagSet} (h : ListsNames content names)
    (hset : TagSet.ofNames names = .ok set) :
    ∃ loaded, (loadTagFile path content).outcome = .ok loaded ∧ loaded.names = set.names := by
  obtain ⟨text, entry, hcontent, hentry, rfl⟩ := h
  have hload : TagSet.ofToml text =
      .ok { set with name? := entry.name?, description? := entry.description? } := by
    rw [TagSet.ofToml_of_entry hentry, toTagSet_of_ok hset]
    rfl
  exact ⟨_, loadTagFile_of_ok hcontent hload, rfl⟩

theorem TagFileFails.load {failure : Failure} (h : TagFileFails path content failure) :
    (loadTagFile path content).outcome = .error failure := by
  cases h with
  | unreadable h =>
    exact Run.bind_outcome_error (Run.ofExcept_outcome_error (read_eq_error_iff.mpr h) _)
  | malformed h hentry =>
    refine loadTagFile_of_error h ?_
    rw [TagSet.ofToml, hentry]
  | rejected h hnames =>
    obtain ⟨text, entry, hcontent, hentry, rfl⟩ := h
    refine loadTagFile_of_error hcontent ?_
    rw [TagSet.ofToml_of_entry hentry, toTagSet_of_error hnames]
    rfl

theorem listsNames_or_fails (path : String) (content : Except ReadError ByteArray) :
    (∃ names set, ListsNames content names ∧ TagSet.ofNames names = .ok set) ∨
      ∃ failure, TagFileFails path content failure := by
  by_cases htext : HoldsText content
  · obtain ⟨text, htext⟩ := htext
    cases hentry : TagSetEntry.ofText? text with
    | none => exact .inr ⟨_, .malformed htext hentry⟩
    | some entry =>
      have hlists : ListsNames content entry.elements := ⟨text, entry, htext, hentry, rfl⟩
      cases hnames : TagSet.ofNames entry.elements with
      | error rejection => exact .inr ⟨_, .rejected hlists hnames⟩
      | ok set => exact .inl ⟨_, set, hlists, hnames⟩
  · obtain ⟨error, herror⟩ := not_holdsText_iff.mp htext
    exact .inr ⟨_, .unreadable herror⟩

end TagFile

theorem TagSet.compile_congr {set other : TagSet} (h : set.names = other.names)
    (compiler : PatternCompiler) : set.compile compiler = other.compile compiler := by
  simp only [compile, scanner, h]

theorem ofNames_builtin : TagSet.ofNames TagSet.builtin.names =
    .ok { TagSet.builtin with name? := none, description? := none } :=
  rfl

namespace TagSource

variable {source : TagSource} {compiler : PatternCompiler} {files : Files} {names : List String}
  {set : TagSet} {failure : Failure}

theorem gives_or_fails (source : TagSource) (files : Files) :
    (∃ names set, source.Gives files names ∧ TagSet.ofNames names = .ok set) ∨
      ∃ failure, source.Fails files failure := by
  cases source with
  | names names =>
    cases hnames : TagSet.ofNames names with
    | error rejection => exact .inr ⟨_, .names hnames⟩
    | ok set => exact .inl ⟨names, set, .names names, hnames⟩
  | file path =>
    rcases listsNames_or_fails path (files.read path) with ⟨names, set, hlists, hset⟩ | ⟨failure, h⟩
    · exact .inl ⟨names, set, .file hlists, hset⟩
    · exact .inr ⟨failure, .file h⟩
  | userFile file =>
    rcases listsNames_or_fails file.path file.content with ⟨names, set, hlists, hset⟩ | ⟨failure, h⟩
    · exact .inl ⟨names, set, .userFile hlists, hset⟩
    · exact .inr ⟨failure, .userFile h⟩
  | builtin => exact .inl ⟨_, _, .builtin, ofNames_builtin⟩

theorem Gives.load (h : source.Gives files names) (hset : TagSet.ofNames names = .ok set) :
    ∃ loaded, (source.load files).outcome = .ok loaded ∧ loaded.names = set.names := by
  cases h with
  | names => exact ⟨set, Run.ofExcept_outcome_ok hset _, rfl⟩
  | file h => exact loadTagFile_of_listed_ok h hset
  | userFile h => exact loadTagFile_of_listed_ok h hset
  | builtin =>
    cases ofNames_builtin.symm.trans hset
    exact ⟨TagSet.builtin, rfl, rfl⟩

theorem Gives.loadScanner (h : source.Gives files names) (hset : TagSet.ofNames names = .ok set) :
    (source.loadScanner compiler files).outcome =
      (set.compile compiler).mapError .patternRefused := by
  obtain ⟨loaded, hload, hnames⟩ := h.load hset
  rw [loadScanner_of_load_ok hload, TagSet.compile_congr hnames]

theorem Fails.load (h : source.Fails files failure) :
    (source.load files).outcome = .error failure := by
  cases h with
  | names h => exact Run.ofExcept_outcome_error h _
  | file h => exact h.load
  | userFile h => exact h.load

theorem Fails.loadScanner (h : source.Fails files failure) :
    (source.loadScanner compiler files).outcome = .error failure :=
  loadScanner_of_load_error h.load

theorem PatternRefused.loadScanner {fault : String}
    (h : source.PatternRefused compiler files fault) :
    (source.loadScanner compiler files).outcome = .error (.patternRefused fault) := by
  obtain ⟨names, set, hnames, hset, hfault⟩ := h
  rw [hnames.loadScanner hset, TagSet.compile_of_fault hfault]
  rfl

theorem exists_scanner (hsource : ∀ failure, ¬ source.Fails files failure)
    (hpattern : ∀ fault, ¬ source.PatternRefused compiler files fault) :
    ∃ scanner, (source.loadScanner compiler files).outcome = .ok scanner := by
  obtain ⟨names, set, hnames, hset⟩ :=
    (source.gives_or_fails files).resolve_right (not_exists.mpr hsource)
  cases hfault : compiler.fault? set.scanner.pattern with
  | some fault => exact absurd ⟨names, set, hnames, hset, hfault⟩ (hpattern fault)
  | none => exact ⟨_, by rw [hnames.loadScanner hset, TagSet.compile_of_no_fault hfault]; rfl⟩

end TagSource

end TagLint
