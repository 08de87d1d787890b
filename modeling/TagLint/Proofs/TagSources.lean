import TagLint.Proofs.AcceptedArguments
import TagLint.Proofs.PatternSize

/-! The ways of giving a tag set against each other. A list of names, a file that lists them and
the file of the user lead to the same run, and a way that is not taken is not looked at. -/

namespace TagLint

def Arguments.run (arguments : Arguments) (compiler : PatternCompiler) (files : Files) :
    Run Unit :=
  (Config.ofArguments arguments files).run compiler files

/-- The result of the run that a command line leads to. -/
def lineResult? (compiler : PatternCompiler) (line : List String) (files : Files) :
    Option (Except Failure String) :=
  match Arguments.parse line with
  | .ok arguments => some (arguments.run compiler files).result
  | .error _ => none

/-- Reading one of the paths gives the same in both. -/
def SameFiles (paths : List String) (files other : Files) : Prop :=
  ∀ path ∈ paths, files.read path = other.read path

/-- The results of three runs whose names come from a list, from a file, and from the file of
the user. Only the fault of a name is told differently: a file is named in front of it. -/
inductive Agree (paths : List String) (file userFile : String) :
    Except Failure String → Except Failure String → Except Failure String → Prop
  | success (output : String) : Agree paths file userFile (.ok output) (.ok output) (.ok output)
  | rejected (rejection : Rejection) : Agree paths file userFile (.error (.namesRejected rejection))
      (.error (.tagFileFaulty file (.rejected rejection)))
      (.error (.tagFileFaulty userFile (.rejected rejection)))
  | unreadable {path : String} (hpath : path ∈ paths) (error : ReadError) :
      Agree paths file userFile (.error (.fileUnreadable path error))
        (.error (.fileUnreadable path error)) (.error (.fileUnreadable path error))

/-- The three runs fail because the pattern of these names is refused. -/
def AllRefused (compiler : PatternCompiler) (names : List String)
    (ofNames ofFile ofUser : Except Failure String) : Prop :=
  ∃ set fault, TagSet.ofNames names = .ok set ∧
    compiler.fault? set.scanner.pattern = some fault ∧
    ofNames = .error (.patternRefused fault) ∧ ofFile = .error (.patternRefused fault) ∧
    ofUser = .error (.patternRefused fault)

section SameFiles

variable {compiler : PatternCompiler} {files other : Files} {scanner : Scanner}
  {paths : List String}

theorem checkFile_congr {path : String} (h : files.read path = other.read path) :
    checkFile files scanner path = checkFile other scanner path := by
  simp only [checkFile, h]

theorem checkFiles_congr (h : SameFiles paths files other) :
    checkFiles files scanner paths = checkFiles other scanner paths := by
  induction paths with
  | nil => rfl
  | cons path paths ih =>
    rw [SameFiles, List.forall_mem_cons] at h
    simp only [checkFiles, checkFile_congr h.1, ih h.2]

theorem Config.run_congr {config : Config}
    (hload : config.tagSource.load files = config.tagSource.load other)
    (h : SameFiles config.paths files other) :
    config.run compiler files = config.run compiler other := by
  simp only [Config.run, Config.check, TagSource.loadScanner, hload, checkFiles_congr h]

end SameFiles

namespace Arguments

variable {arguments : Arguments} {compiler : PatternCompiler} {files other : Files}

theorem run_of_tags {names : List String} (htags : arguments.tags? = some names) :
    arguments.run compiler files =
      Config.run ⟨arguments.paths, .names names, arguments.format⟩ compiler files := by
  simp only [run, Config.ofArguments, htags]

theorem run_of_tagsFile {path : String} (htags : arguments.tags? = none)
    (hfile : arguments.tagsFile? = some path) :
    arguments.run compiler files =
      Config.run ⟨arguments.paths, .file path, arguments.format⟩ compiler files := by
  simp only [run, Config.ofArguments, htags, hfile]

theorem run_of_userTags {userFile : UserTagFile} (htags : arguments.tags? = none)
    (hfile : arguments.tagsFile? = none) (huser : files.userTags? = some userFile) :
    arguments.run compiler files =
      Config.run ⟨arguments.paths, .userFile userFile, arguments.format⟩ compiler files := by
  simp only [run, Config.ofArguments, htags, hfile, huser]

theorem run_tags_congr {names : List String} (htags : arguments.tags? = some names)
    (tagsFile? : Option String) (h : SameFiles arguments.paths files other) :
    ({ arguments with tagsFile? := tagsFile? }).run compiler files =
      arguments.run compiler other := by
  rw [@run_of_tags { arguments with tagsFile? := tagsFile? } _ _ _ htags, run_of_tags htags]
  exact Config.run_congr rfl h

theorem run_tagsFile_congr {path : String} (htags : arguments.tags? = none)
    (hfile : arguments.tagsFile? = some path) (h : SameFiles (path :: arguments.paths) files other) :
    arguments.run compiler files = arguments.run compiler other := by
  rw [SameFiles, List.forall_mem_cons] at h
  rw [run_of_tagsFile htags hfile, run_of_tagsFile htags hfile]
  exact Config.run_congr (congrArg (loadTagFile path) h.1) h.2

end Arguments

section CommandLine

variable {line : List String} {arguments : Arguments} {given : List Given} {option : OptionName}
  {text : String}

theorem IsProper.cons_value (h : IsProper given) (hvalues : givenValues option given = [])
    (haccepts : option.accepts text = true) : IsProper (.value option text :: given) := by
  refine isProper_iff.mpr ⟨h.has_path, isAllowed_value.mpr ⟨.inr List.not_mem_nil, haccepts, ?_⟩⟩
  obtain ⟨hpaths, honce, haccepted⟩ := (isProper_iff.mp h).2
  refine ⟨hpaths, fun other hother => ?_, haccepted⟩
  by_cases heq : other = option
  · subst heq
    simp [hvalues]
  · simpa [heq] using honce other hother

theorem parse_tags_cons (h : Arguments.parse line = .ok arguments) (htags : arguments.tags? = none)
    (text : String) :
    Arguments.parse (("--tags=" ++ text) :: line) =
      .ok { arguments with tags? := some (splitNames text) } := by
  obtain ⟨given, hspells, hproper, rfl⟩ := parse_eq_ok_iff.mp h
  have hvalues : givenValues .tags given = [] := by simpa [argumentsOf] using htags
  refine parse_eq_ok_iff.mpr ⟨.value .tags text :: given, .joined .tags text hspells,
    hproper.cons_value hvalues rfl, ?_⟩
  simp [argumentsOf, hvalues]

theorem parse_tagsFile_cons (h : Arguments.parse line = .ok arguments)
    (hfile : arguments.tagsFile? = none) {path : String} (hpath : path ≠ "") :
    Arguments.parse (("--tags-file=" ++ path) :: line) =
      .ok { arguments with tagsFile? := some path } := by
  obtain ⟨given, hspells, hproper, rfl⟩ := parse_eq_ok_iff.mp h
  have hvalues : givenValues .tagsFile given = [] := by simpa [argumentsOf] using hfile
  refine parse_eq_ok_iff.mpr ⟨.value .tagsFile path :: given, .joined .tagsFile path hspells,
    hproper.cons_value hvalues (bne_iff_ne.mpr hpath), ?_⟩
  simp [argumentsOf]

end CommandLine

section Agreement

variable {compiler : PatternCompiler} {names : List String} {set : TagSet} {paths : List String}
  {format : Format} {files plain listed user : Files} {source : TagSource} {file : String}
  {userFile : UserTagFile}

theorem result_of_gives (config : Config) (hgives : config.tagSource.Gives files names)
    (hset : TagSet.ofNames names = .ok set)
    (hfault : compiler.fault? set.scanner.pattern = none)
    (h : SameFiles config.paths plain files) :
    (config.run compiler files).result =
      (checkFiles plain set.scanner config.paths).outcome.map (Report.render · config.format) := by
  have hscanner : (config.tagSource.loadScanner compiler files).outcome = .ok set.scanner := by
    rw [hgives.loadScanner hset, TagSet.compile_of_no_fault hfault]
    rfl
  rw [Config.run_result_of_scanner_ok hscanner, checkFiles_congr h]

theorem agree_map_render (outcome : Except Failure (List Report))
    (h : ∀ failure, outcome = .error failure →
      ∃ path ∈ paths, ∃ error, failure = .fileUnreadable path error) :
    let output := outcome.map (Report.render · format)
    Agree paths file userFile.path output output output := by
  cases outcome with
  | ok reports => exact .success _
  | error failure =>
    obtain ⟨path, hpath, error, rfl⟩ := h failure rfl
    exact .unreadable hpath error

theorem agree_of_lists (hlisted : ListsNames (listed.read file) names)
    (huser : ListsNames userFile.content names) (hfiles : SameFiles paths plain listed)
    (hfiles' : SameFiles paths plain user) :
    let ofNames := (Config.run ⟨paths, .names names, format⟩ compiler plain).result
    let ofFile := (Config.run ⟨paths, .file file, format⟩ compiler listed).result
    let ofUser := (Config.run ⟨paths, .userFile userFile, format⟩ compiler user).result
    Agree paths file userFile.path ofNames ofFile ofUser ∨
      AllRefused compiler names ofNames ofFile ofUser := by
  intro ofNames ofFile ofUser
  cases hnames : TagSet.ofNames names with
  | error rejection =>
    have hplain : ofNames = .error (.namesRejected rejection) :=
      Config.run_result_of_scanner_error (TagSource.Fails.names hnames).loadScanner
    have hlist : ofFile = .error (.tagFileFaulty file (.rejected rejection)) :=
      Config.run_result_of_scanner_error
        (TagSource.Fails.file (.rejected hlisted hnames)).loadScanner
    have huserFile : ofUser = .error (.tagFileFaulty userFile.path (.rejected rejection)) :=
      Config.run_result_of_scanner_error
        (TagSource.Fails.userFile (.rejected huser hnames)).loadScanner
    rw [hplain, hlist, huserFile]
    exact .inl (.rejected rejection)
  | ok set =>
    cases hfault : compiler.fault? set.scanner.pattern with
    | some fault =>
      have hrefused {source : TagSource} {files : Files} (hgives : source.Gives files names) :
          source.PatternRefused compiler files fault := ⟨names, set, hgives, hnames, hfault⟩
      exact .inr ⟨set, fault, hnames, hfault,
        Config.run_result_of_scanner_error (hrefused (.names names)).loadScanner,
        Config.run_result_of_scanner_error (hrefused (.file hlisted)).loadScanner,
        Config.run_result_of_scanner_error (hrefused (.userFile huser)).loadScanner⟩
    | none =>
      have hplain := result_of_gives ⟨paths, .names names, format⟩ (.names names) hnames hfault
        (fun path _ => (rfl : plain.read path = plain.read path))
      have hlist := result_of_gives ⟨paths, .file file, format⟩ (.file hlisted) hnames hfault hfiles
      have huserFile := result_of_gives ⟨paths, .userFile userFile, format⟩ (.userFile huser)
        hnames hfault hfiles'
      rw [show ofNames = _ from hplain, show ofFile = _ from hlist, show ofUser = _ from huserFile]
      exact .inl (agree_map_render _ fun _ => unreadable_of_checkFiles)

end Agreement

theorem lineResult?_of_parse {line : List String} {arguments : Arguments}
    (h : Arguments.parse line = .ok arguments) (compiler : PatternCompiler) (files : Files) :
    lineResult? compiler line files = some (arguments.run compiler files).result := by
  simp only [lineResult?, h]

/-- The same names give the same result, whether they stand in the command line, in a file or
in the file of the user. Names in the command line make all tag files irrelevant, and a file in
the command line that of the user. -/
theorem tag_sources_agree (compiler : PatternCompiler) :
    (∀ (names line : List String) (arguments : Arguments) (file : String) (userFile : UserTagFile)
        (plain listed user : Files),
      names ≠ [] → (∀ name ∈ names, ',' ∉ name.toList) →
      Arguments.parse line = .ok arguments → arguments.tags? = none →
      arguments.tagsFile? = none → file ≠ "" →
      ListsNames (listed.read file) names → user.userTags? = some userFile →
      ListsNames userFile.content names → SameFiles arguments.paths plain listed →
      SameFiles arguments.paths plain user →
      ∃ ofNames ofFile ofUser,
        lineResult? compiler (("--tags=" ++ ",".intercalate names) :: line) plain =
          some ofNames ∧
        lineResult? compiler (("--tags-file=" ++ file) :: line) listed = some ofFile ∧
        lineResult? compiler line user = some ofUser ∧
        (Agree arguments.paths file userFile.path ofNames ofFile ofUser ∨
          AllRefused compiler names ofNames ofFile ofUser)) ∧
    (∀ file rejection, (Failure.tagFileFaulty file (.rejected rejection)).message =
      "failed to load tag set from " ++ file ++ ": " ++
        (Failure.namesRejected rejection).message) ∧
    (∀ fault, (Failure.patternRefused fault).message =
      "failed to compile tag pattern: " ++ fault) ∧
    (∀ (arguments : Arguments) (tagsFile? : Option String) (files other : Files),
      arguments.tags? ≠ none → SameFiles arguments.paths files other →
      ({ arguments with tagsFile? := tagsFile? }).run compiler files =
        arguments.run compiler other) ∧
    ∀ (arguments : Arguments) (path : String) (files other : Files),
      arguments.tags? = none → arguments.tagsFile? = some path →
      SameFiles (path :: arguments.paths) files other →
      arguments.run compiler files = arguments.run compiler other := by
  refine ⟨?_, fun _ _ => rfl, fun _ => rfl, ?_, ?_⟩
  · intro names line arguments file userFile plain listed user hne hcomma hline htags hfile hpath
      hlisted huserFile huser hfiles hfiles'
    have hsplit : splitNames (",".intercalate names) = names :=
      splitNames_eq_iff.mpr ⟨hne, hcomma, rfl⟩
    refine ⟨_, _, _, lineResult?_of_parse (parse_tags_cons hline htags _) compiler plain,
      lineResult?_of_parse (parse_tagsFile_cons hline hfile hpath) compiler listed,
      lineResult?_of_parse hline compiler user, ?_⟩
    rw [hsplit, Arguments.run_of_tags rfl,
      @Arguments.run_of_tagsFile { arguments with tagsFile? := some file } compiler listed file
        htags rfl,
      Arguments.run_of_userTags htags hfile huserFile]
    exact agree_of_lists hlisted huser hfiles hfiles'
  · intro arguments tagsFile? files other htags hfiles
    obtain ⟨names, hnames⟩ := Option.ne_none_iff_exists'.mp htags
    exact Arguments.run_tags_congr hnames tagsFile? hfiles
  · intro arguments path files other htags hfile hfiles
    exact Arguments.run_tagsFile_congr htags hfile hfiles

theorem tag_sources_agree_quoted_name :
    let plain : Files := ⟨fun _ => .ok "<nav><x\"y>".toUTF8, none⟩
    let basic : Files := ⟨fun path => .ok (if path = "tags.toml" then
      "[tags]\nelements = [\"nav\", \"x\\\"y\"]\n" else "<nav><x\"y>").toUTF8, none⟩
    let literal : Files := ⟨fun _ => .ok "<nav><x\"y>".toUTF8,
      some ⟨"own.toml", .ok "tags.elements = ['nav', 'x\"y']".toUTF8⟩⟩
    ∃ ofNames ofFile ofUser,
      lineResult? .sizeLimited ["--tags=nav,x\"y", "a.html"] plain = some ofNames ∧
      lineResult? .sizeLimited ["--tags-file=tags.toml", "a.html"] basic = some ofFile ∧
      lineResult? .sizeLimited ["a.html"] literal = some ofUser ∧
      (Agree ["a.html"] "tags.toml" "own.toml" ofNames ofFile ofUser ∨
        AllRefused .sizeLimited ["nav", "x\"y"] ofNames ofFile ofUser) := by
  intro plain basic literal
  exact (tag_sources_agree .sizeLimited).1 ["nav", "x\"y"] ["a.html"]
    ⟨["a.html"], none, none, .text, "warn"⟩
    "tags.toml" ⟨"own.toml", .ok "tags.elements = ['nav', 'x\"y']".toUTF8⟩ plain basic literal
    (by decide) (by decide) (by decide +kernel) rfl rfl (by decide)
    ⟨_, ⟨none, none, ["nav", "x\"y"]⟩, rfl, by decide +kernel, rfl⟩ rfl
    ⟨_, ⟨none, none, ["nav", "x\"y"]⟩, rfl, by decide +kernel, rfl⟩
    (by simp [SameFiles, plain, basic]) (by simp [SameFiles, plain, literal])

section LongName

variable {n : Nat}

theorem comma_not_mem_longName (n : Nat) : ',' ∉ (longName n).toList := by
  intro h
  rw [longName, String.toList_ofList] at h
  exact absurd (List.eq_of_mem_replicate h) (by decide)

theorem result_of_longName {config : Config} {files : Files}
    (h : config.tagSource.Gives files [longName n]) (hn : maxCompiled < stateSize * n) :
    ∃ fault, (config.run .sizeLimited files).result = .error (.patternRefused fault) :=
  (patternRefused_longName h hn).imp fun _ h => Config.run_result_of_scanner_error h.loadScanner

end LongName

/-- A name that is too long for a pattern makes all three runs fail, though neither for a character
of the name nor for a document. -/
theorem not_agree_of_long_name :
    let names := [longName 500000]
    let document : Except ReadError ByteArray := .ok "<div></div>\n".toUTF8
    let plain : Files := ⟨fun _ => document, none⟩
    let listed : Files :=
      ⟨fun path => if path = "t.toml" then .ok (longNameFile 500000) else document, none⟩
    let user : Files := ⟨fun _ => document, some ⟨"own.toml", .ok (longNameFile 500000)⟩⟩
    ListsNames (listed.read "t.toml") names ∧ (∀ name ∈ names, ',' ∉ name.toList) ∧
      ∃ ofNames ofFile ofUser,
        lineResult? .sizeLimited ["--tags=" ++ ",".intercalate names, "a.html"] plain =
          some ofNames ∧
        lineResult? .sizeLimited ["--tags-file=t.toml", "a.html"] listed = some ofFile ∧
        lineResult? .sizeLimited ["a.html"] user = some ofUser ∧
        ¬ Agree ["a.html"] "t.toml" "own.toml" ofNames ofFile ofUser := by
  intro names document plain listed user
  have hcomma : ∀ name ∈ names, ',' ∉ name.toList :=
    List.forall_mem_singleton.mpr (comma_not_mem_longName 500000)
  have hline : Arguments.parse ["a.html"] = .ok ⟨["a.html"], none, none, .text, "warn"⟩ := by
    decide
  have hfile : Arguments.parse ["--tags-file=t.toml", "a.html"] =
      .ok ⟨["a.html"], none, some "t.toml", .text, "warn"⟩ := by
    decide
  have hsplit : splitNames (",".intercalate names) = names :=
    splitNames_eq_iff.mpr ⟨List.cons_ne_nil _ _, hcomma, rfl⟩
  have hnames := parse_tags_cons hline rfl (",".intercalate names)
  rw [hsplit] at hnames
  obtain ⟨fault, hfault⟩ := @result_of_longName 500000
    (Config.ofArguments ⟨["a.html"], some names, none, .text, "warn"⟩ plain) plain
    (.names names) (by decide)
  refine ⟨listsNames_longNameFile 500000, hcomma, _, _, _,
    lineResult?_of_parse hnames .sizeLimited plain,
    lineResult?_of_parse hfile .sizeLimited listed,
    lineResult?_of_parse hline .sizeLimited user, fun h => ?_⟩
  rw [Arguments.run, hfault] at h
  cases h

end TagLint
