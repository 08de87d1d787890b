import TagLint.Proofs.FindingNames
import TagLint.Proofs.ReportLines
import TagLint.Proofs.TextBlocks

/-! What a text report tells. No line of it can be taken for one of another kind, and a
name ends at its closing bracket, so the findings can be told from the text up to the
line where the element of a mismatched tag was opened. -/

namespace TagLint

namespace Finding

/-- What a text report shows of a finding. -/
def shown : Finding → Finding
  | mismatched line expected found _ => mismatched line expected found 0
  | finding => finding

def HasProperNames (finding : Finding) : Prop :=
  ∀ name ∈ finding.names, IsName name

instance (finding : Finding) : Decidable finding.HasProperNames :=
  inferInstanceAs (Decidable (∀ name ∈ _, _))

end Finding

section Names

variable {name other : String} {number : Nat}

theorem IsName.lineFeed_not_mem (h : IsName name) : '\n' ∉ name.toList :=
  h.not_mem (by decide)

/-- A name ends at the bracket that closes its tag. -/
theorem IsName.eq_of_bracket_eq {back back' : List Char} (h : IsName name) (hother : IsName other)
    (heq : name.toList ++ '>' :: back = other.toList ++ '>' :: back') :
    name = other ∧ back = back' :=
  (eq_of_append_cons_eq (h.not_mem (by decide)) (hother.not_mem (by decide)) heq).imp_left
    String.toList_inj.mp

end Names

namespace Finding

theorem isLine_faultText {fault : Finding} (hkind : fault.kind ≠ .unclosed)
    (hnames : fault.HasProperNames) : IsLine fault.faultText := by
  cases fault with
  | unexpectedClose line name =>
    have hname : '\n' ∉ name.toList := (hnames name (by simp [names])).lineFeed_not_mem
    have hline : '\n' ∉ Nat.toDigits 10 line := not_mem_toDigits rfl line
    refine ⟨"Error: Unexpected closing tag </".toList ++ (name.toList ++ '>' ::
      (" at line ".toList ++ Nat.toDigits 10 line)), ?_, ?_⟩
    · simp [hname, hline]
    · simp only [toList_faultText_unexpectedClose, List.append_assoc, List.cons_append]
  | mismatched line expected found openedAt =>
    have hexpected : '\n' ∉ expected.toList := (hnames expected (by simp [names])).lineFeed_not_mem
    have hfound : '\n' ∉ found.toList := (hnames found (by simp [names])).lineFeed_not_mem
    have hline : '\n' ∉ Nat.toDigits 10 line := not_mem_toDigits rfl line
    refine ⟨"Error: Mismatched tag. Expected </".toList ++ (expected.toList ++ '>' ::
      (" but found </".toList ++ (found.toList ++ '>' ::
        (" at line ".toList ++ Nat.toDigits 10 line)))), ?_, ?_⟩
    · simp [hexpected, hfound, hline]
    · simp only [toList_faultText_mismatched, List.append_assoc, List.cons_append]
  | unclosed => exact absurd rfl hkind

theorem isLine_leftOpenText {finding : Finding} (hkind : finding.kind = .unclosed)
    (hnames : finding.HasProperNames) : IsLine finding.leftOpenText := by
  cases finding with
  | unclosed name openedAt =>
    have hname : '\n' ∉ name.toList := (hnames name (by simp [names])).lineFeed_not_mem
    have hline : '\n' ∉ Nat.toDigits 10 openedAt := not_mem_toDigits rfl openedAt
    refine ⟨" - <".toList ++ (name.toList ++ '>' ::
      (" (opened at line ".toList ++ (Nat.toDigits 10 openedAt ++ [')']))), ?_, ?_⟩
    · simp [hname, hline]
    · simp only [toList_leftOpenText, List.append_assoc, List.cons_append, List.nil_append]
  | _ => cases hkind

theorem shown_eq_of_faultText_eq {fault other : Finding} (hkind : fault.kind ≠ .unclosed)
    (hkind' : other.kind ≠ .unclosed) (hnames : fault.HasProperNames)
    (hnames' : other.HasProperNames) (h : fault.faultText = other.faultText) :
    fault.shown = other.shown := by
  rw [← String.toList_inj] at h
  cases fault with
  | unexpectedClose line name =>
    cases other with
    | unexpectedClose line' name' =>
      rw [toList_faultText_unexpectedClose, toList_faultText_unexpectedClose] at h
      obtain ⟨rfl, hback⟩ := IsName.eq_of_bracket_eq (hnames name (by simp [names]))
        (hnames' name' (by simp [names])) (List.append_cancel_left h)
      have hline := toDigits_injective (List.append_cancel_right (List.append_cancel_left hback))
      rw [hline]
    | mismatched line' expected found openedAt =>
      simp [toList_faultText_unexpectedClose, toList_faultText_mismatched] at h
    | unclosed => exact absurd rfl hkind'
  | mismatched line expected found openedAt =>
    cases other with
    | unexpectedClose line' name' =>
      simp [toList_faultText_unexpectedClose, toList_faultText_mismatched] at h
    | mismatched line' expected' found' openedAt' =>
      rw [toList_faultText_mismatched, toList_faultText_mismatched] at h
      obtain ⟨rfl, hfound⟩ := IsName.eq_of_bracket_eq (hnames expected (by simp [names]))
        (hnames' expected' (by simp [names])) (List.append_cancel_left h)
      obtain ⟨rfl, hback⟩ := IsName.eq_of_bracket_eq (hnames found (by simp [names]))
        (hnames' found' (by simp [names])) (List.append_cancel_left hfound)
      have hline := toDigits_injective (List.append_cancel_right (List.append_cancel_left hback))
      rw [hline, shown, shown]
    | unclosed => exact absurd rfl hkind'
  | unclosed => exact absurd rfl hkind

theorem eq_of_leftOpenText_eq {finding other : Finding} (hkind : finding.kind = .unclosed)
    (hkind' : other.kind = .unclosed) (hnames : finding.HasProperNames)
    (hnames' : other.HasProperNames) (h : finding.leftOpenText = other.leftOpenText) :
    finding = other := by
  rw [← String.toList_inj] at h
  cases finding with
  | unclosed name openedAt =>
    cases other with
    | unclosed name' openedAt' =>
      rw [toList_leftOpenText, toList_leftOpenText] at h
      obtain ⟨rfl, hback⟩ := IsName.eq_of_bracket_eq (hnames name (by simp [names]))
        (hnames' name' (by simp [names])) (List.append_cancel_left h)
      have hline := toDigits_injective (List.append_cancel_right (List.append_cancel_left hback))
      rw [hline]
    | _ => cases hkind'
  | _ => cases hkind

end Finding

namespace Report

def HasProperNames (report : Report) : Prop :=
  ∀ finding ∈ report.validation.findings, finding.HasProperNames

instance (report : Report) : Decidable report.HasProperNames :=
  inferInstanceAs (Decidable (∀ finding ∈ _, _))

def pathLine (report : Report) : String :=
  "==> " ++ report.path ++ " <==\n"

def startsBlock (line : String) : Bool :=
  line.toList.head? == some '='

def tellsFault (line : String) : Bool :=
  line.toList.head? == some 'E' && line != unclosedHeading

def tellsLeftOpen (line : String) : Bool :=
  line.toList.head? == some ' '

theorem HasProperNames.fault {report : Report} (h : report.HasProperNames) {fault : Finding}
    (hfault : fault ∈ report.validation.faults) : fault.HasProperNames :=
  h fault (List.mem_filter.mp hfault).1

theorem HasProperNames.leftOpen {report : Report} (h : report.HasProperNames) {finding : Finding}
    (hfinding : finding ∈ report.validation.unclosed) : finding.HasProperNames :=
  h finding (List.mem_filter.mp hfinding).1

theorem isLine_of_mem_textLines {report : Report} (h : report.HasProperNames) {line : String}
    (hline : line ∈ report.textLines) : IsLine line := by
  rcases line_of_mem_textLines hline with ⟨fault, hfault, rfl⟩ | rfl | ⟨finding, hfinding, rfl⟩
  · exact Finding.isLine_faultText (Validation.kind_of_mem_faults hfault) (h.fault hfault)
  · exact ⟨"Error: Unclosed tags at end of file:".toList, by decide, by decide⟩
  · exact Finding.isLine_leftOpenText (Validation.kind_of_mem_unclosed hfinding)
      (h.leftOpen hfinding)

theorem isLine_pathLine {report : Report} (h : '\n' ∉ report.path.toList) :
    IsLine report.pathLine :=
  ⟨"==> ".toList ++ (report.path.toList ++ " <==".toList), by simp [h], by simp [pathLine]⟩

theorem isLine_of_mem_headedTextLines {report : Report} (hpath : '\n' ∉ report.path.toList)
    (h : report.HasProperNames) {line : String} (hline : line ∈ report.headedTextLines) :
    IsLine line := by
  rw [headedTextLines] at hline
  rcases List.mem_cons.mp hline with rfl | hline
  · exact isLine_pathLine hpath
  · split at hline
    · rw [List.mem_singleton.mp hline]
      exact ⟨"OK".toList, by decide, by decide⟩
    · exact isLine_of_mem_textLines h hline

theorem tellsFault_faultText {fault : Finding} (h : fault.kind ≠ .unclosed) :
    tellsFault fault.faultText = true := by
  have hne : fault.faultText ≠ unclosedHeading := by
    rw [ne_eq, ← String.toList_inj, unclosedHeading]
    cases fault with
    | unexpectedClose => simp [Finding.toList_faultText_unexpectedClose]
    | mismatched => simp [Finding.toList_faultText_mismatched]
    | unclosed => exact absurd rfl h
  simp [tellsFault, Finding.head?_faultText, hne]

theorem tellsLeftOpen_faultText (fault : Finding) : tellsLeftOpen fault.faultText = false := by
  simp [tellsLeftOpen, Finding.head?_faultText]

theorem tellsFault_leftOpenText {finding : Finding} (h : finding.kind = .unclosed) :
    tellsFault finding.leftOpenText = false := by
  simp [tellsFault, Finding.head?_leftOpenText h]

theorem tellsLeftOpen_leftOpenText {finding : Finding} (h : finding.kind = .unclosed) :
    tellsLeftOpen finding.leftOpenText = true := by
  simp [tellsLeftOpen, Finding.head?_leftOpenText h]

theorem filter_tellsFault_textLines (report : Report) :
    report.textLines.filter tellsFault = report.validation.faults.map Finding.faultText := by
  have hfaults : ∀ line ∈ report.validation.faults.map Finding.faultText,
      tellsFault line = true :=
    List.forall_mem_map.mpr fun _ hfault =>
      tellsFault_faultText (Validation.kind_of_mem_faults hfault)
  have hopen : ∀ line ∈ report.leftOpenLines, ¬ tellsFault line = true := by
    intro line hline
    rcases line_of_mem_leftOpenLines hline with rfl | ⟨finding, hfinding, rfl⟩
    · decide
    · simp [tellsFault_leftOpenText (Validation.kind_of_mem_unclosed hfinding)]
  rw [textLines, List.filter_append, faultLines_eq, List.filter_eq_self.mpr hfaults,
    List.filter_eq_nil_iff.mpr hopen, List.append_nil]

theorem filter_tellsLeftOpen_textLines (report : Report) :
    report.textLines.filter tellsLeftOpen = report.validation.unclosed.map Finding.leftOpenText := by
  have hfaults : ∀ line ∈ report.validation.faults.map Finding.faultText,
      ¬ tellsLeftOpen line = true :=
    List.forall_mem_map.mpr fun fault _ => by simp [tellsLeftOpen_faultText fault]
  have hopen : ∀ line ∈ report.validation.unclosed.map Finding.leftOpenText,
      tellsLeftOpen line = true :=
    List.forall_mem_map.mpr fun _ hfinding =>
      tellsLeftOpen_leftOpenText (Validation.kind_of_mem_unclosed hfinding)
  rw [textLines, List.filter_append, faultLines_eq, List.filter_eq_nil_iff.mpr hfaults,
    List.nil_append, leftOpenLines_eq]
  cases hlines : report.validation.unclosed.map Finding.leftOpenText with
  | nil => rfl
  | cons first rest =>
    rw [List.filter_cons_of_neg (by decide), List.filter_eq_self.mpr (hlines ▸ hopen)]

theorem eq_of_pathLine_eq {report other : Report} (h : report.pathLine = other.pathLine) :
    report.path = other.path := by
  rw [pathLine, pathLine] at h
  exact (String.append_right_inj _).mp ((String.append_left_inj _).mp h)

theorem ok_not_mem_textLines (report : Report) : "OK\n" ∉ report.textLines := by
  intro h
  simpa using head?_of_mem_textLines h

theorem eq_of_headedTextLines_eq {report other : Report}
    (h : report.headedTextLines = other.headedTextLines) :
    report.path = other.path ∧ report.textLines = other.textLines := by
  obtain ⟨hpath, hbody⟩ := List.cons.inj h
  refine ⟨eq_of_pathLine_eq hpath, ?_⟩
  split at hbody
  · next hreport =>
    split at hbody
    · next hother => rw [report.textLines_eq_nil_iff.mpr hreport, other.textLines_eq_nil_iff.mpr hother]
    · exact absurd (hbody ▸ List.mem_singleton_self _) other.ok_not_mem_textLines
  · split at hbody
    · exact absurd (hbody ▸ List.mem_singleton_self _) report.ok_not_mem_textLines
    · exact hbody

theorem block_headedTextLines (report : Report) :
    ∃ first rest, report.headedTextLines = first :: rest ∧ startsBlock first = true ∧
      ∀ line ∈ rest, startsBlock line = false := by
  refine ⟨report.pathLine, _, rfl, by simp [startsBlock, pathLine], fun line hline => ?_⟩
  split at hline
  · rw [List.mem_singleton.mp hline]
    decide
  · rcases head?_of_mem_textLines hline with h | h <;> simp [startsBlock, h]

theorem eq_of_textLines_eq {report other : Report} (hnames : report.HasProperNames)
    (hnames' : other.HasProperNames) (h : report.textLines = other.textLines) :
    report.validation.faults.map Finding.shown = other.validation.faults.map Finding.shown ∧
      report.validation.unclosed = other.validation.unclosed := by
  have hfaults := congrArg (List.filter tellsFault) h
  have hopen := congrArg (List.filter tellsLeftOpen) h
  rw [filter_tellsFault_textLines, filter_tellsFault_textLines] at hfaults
  rw [filter_tellsLeftOpen_textLines, filter_tellsLeftOpen_textLines] at hopen
  refine ⟨map_eq_of_map_eq (fun fault hfault fault' hfault' hline => ?_) hfaults, ?_⟩
  · exact Finding.shown_eq_of_faultText_eq (Validation.kind_of_mem_faults hfault)
      (Validation.kind_of_mem_faults hfault') (hnames.fault hfault) (hnames'.fault hfault') hline
  · have hids := map_eq_of_map_eq (g := id) (fun finding hfinding finding' hfinding' hline =>
      Finding.eq_of_leftOpenText_eq (Validation.kind_of_mem_unclosed hfinding)
        (Validation.kind_of_mem_unclosed hfinding') (hnames.leftOpen hfinding)
        (hnames'.leftOpen hfinding') hline) hopen
    simpa only [List.map_id] using hids

section

variable {reports others : List Report}

theorem map_headedTextLines_eq (hpaths : ∀ report ∈ reports ++ others, '\n' ∉ report.path.toList)
    (hnames : ∀ report ∈ reports ++ others, report.HasProperNames)
    (h : String.join (reports.flatMap headedTextLines) =
      String.join (others.flatMap headedTextLines)) :
    reports.map headedTextLines = others.map headedTextLines := by
  have hlines : ∀ report ∈ reports ++ others, ∀ line ∈ report.headedTextLines, IsLine line :=
    fun report hreport _ => isLine_of_mem_headedTextLines (hpaths report hreport)
      (hnames report hreport)
  rw [List.forall_mem_append] at hlines
  exact map_eq_of_flatMap_eq block_headedTextLines <|
    eq_of_join_eq (List.forall_mem_flatMap.mpr hlines.1) (List.forall_mem_flatMap.mpr hlines.2) h

theorem textLines_eq_of_join_eq {report other : Report} (hnames : report.HasProperNames)
    (hnames' : other.HasProperNames)
    (h : String.join report.textLines = String.join other.textLines) :
    report.textLines = other.textLines :=
  eq_of_join_eq (fun _ => isLine_of_mem_textLines hnames) (fun _ => isLine_of_mem_textLines hnames')
    h

theorem paths_and_lines_of_renderText_eq
    (hsize : 2 ≤ reports.length ∧ 2 ≤ others.length ∨ reports.length = 1 ∧ others.length = 1)
    (hpaths : ∀ report ∈ reports ++ others, '\n' ∉ report.path.toList)
    (hnames : ∀ report ∈ reports ++ others, report.HasProperNames)
    (htext : renderText reports = renderText others) :
    (2 ≤ reports.length → reports.map path = others.map path) ∧
      reports.map textLines = others.map textLines := by
  rcases hsize with ⟨hreports, hothers⟩ | ⟨hreports, hothers⟩
  · rw [renderText_of_many hreports, renderText_of_many hothers] at htext
    have hblocks := map_headedTextLines_eq hpaths hnames htext
    exact ⟨fun _ => map_eq_of_map_eq (fun _ _ _ _ h => (eq_of_headedTextLines_eq h).1) hblocks,
      map_eq_of_map_eq (fun _ _ _ _ h => (eq_of_headedTextLines_eq h).2) hblocks⟩
  · obtain ⟨report, rfl⟩ := List.length_eq_one_iff.mp hreports
    obtain ⟨other, rfl⟩ := List.length_eq_one_iff.mp hothers
    rw [renderText_singleton, renderText_singleton] at htext
    refine ⟨fun h => absurd h (by simp), ?_⟩
    rw [List.map_singleton, List.map_singleton,
      textLines_eq_of_join_eq (hnames report (by simp)) (hnames other (by simp)) htext]

theorem findings_of_renderText_eq
    (hsize : 2 ≤ reports.length ∧ 2 ≤ others.length ∨ reports.length = 1 ∧ others.length = 1)
    (hpaths : ∀ report ∈ reports ++ others, '\n' ∉ report.path.toList)
    (hnames : ∀ report ∈ reports ++ others, report.HasProperNames)
    (htext : renderText reports = renderText others) {α : Type} {told : Report → α}
    (htold : ∀ report ∈ reports, ∀ other ∈ others,
      report.validation.faults.map Finding.shown = other.validation.faults.map Finding.shown →
      report.validation.unclosed = other.validation.unclosed → told report = told other) :
    reports.map told = others.map told := by
  refine map_eq_of_map_eq (fun report hreport other hother hlines => ?_)
    (paths_and_lines_of_renderText_eq hsize hpaths hnames htext).2
  obtain ⟨hfaults, hopen⟩ := eq_of_textLines_eq (hnames report (List.mem_append_left _ hreport))
    (hnames other (List.mem_append_right _ hother)) hlines
  exact htold report hreport other hother hfaults hopen

end

theorem hasProperNames_of_validate {report : Report} {set : TagSet} {lines : List String}
    (h : report.validation = set.scanner.validate lines) : report.HasProperNames := by
  intro finding hfinding name hname
  rw [h] at hfinding
  exact set.isName name (set.name_of_mem_validate hfinding name hname)

theorem shown_findings_of_validate {report : Report} {set : TagSet} {lines : List String}
    (h : report.validation = set.scanner.validate lines) :
    report.validation.findings.map Finding.shown =
      report.validation.faults.map Finding.shown ++
        report.validation.unclosed.map Finding.shown := by
  rw [h, ← List.map_append, Scanner.faults_append_unclosed]

end Report

/-- Two texts, both for one file or both for several, are the same only if they tell the same
paths and findings in the same order. For one file the path is not told. Of what a check
finds only the line is left out where the element of a mismatched tag was opened. -/
theorem renderText_unambiguous {reports others : List Report}
    (hsize : 2 ≤ reports.length ∧ 2 ≤ others.length ∨ reports.length = 1 ∧ others.length = 1)
    (hpaths : ∀ report ∈ reports ++ others, '\n' ∉ report.path.toList)
    (htext : Report.renderText reports = Report.renderText others) :
    ((∀ report ∈ reports ++ others, report.HasProperNames) →
      reports.length = others.length ∧
      (2 ≤ reports.length → reports.map Report.path = others.map Report.path) ∧
      reports.map (·.validation.faults.map Finding.shown) =
        others.map (·.validation.faults.map Finding.shown) ∧
      reports.map (·.validation.unclosed) = others.map (·.validation.unclosed)) ∧
    ((∀ report ∈ reports ++ others, ∃ (set : TagSet) (lines : List String),
        report.validation = set.scanner.validate lines) →
      reports.length = others.length ∧
      (2 ≤ reports.length → reports.map Report.path = others.map Report.path) ∧
      reports.map (·.validation.findings.map Finding.shown) =
        others.map (·.validation.findings.map Finding.shown)) := by
  have htold : (∀ report ∈ reports ++ others, report.HasProperNames) →
      reports.length = others.length ∧
        (2 ≤ reports.length → reports.map Report.path = others.map Report.path) := by
    intro hnames
    obtain ⟨hpath, hlines⟩ := Report.paths_and_lines_of_renderText_eq hsize hpaths hnames htext
    exact ⟨by simpa using congrArg List.length hlines, hpath⟩
  refine ⟨fun hnames => ?_, fun hchecks => ?_⟩
  · exact ⟨(htold hnames).1, (htold hnames).2,
      Report.findings_of_renderText_eq hsize hpaths hnames htext fun _ _ _ _ hfaults _ => hfaults,
      Report.findings_of_renderText_eq hsize hpaths hnames htext fun _ _ _ _ _ hopen => hopen⟩
  · have hnames : ∀ report ∈ reports ++ others, report.HasProperNames := by
      intro report hreport
      obtain ⟨set, lines, hcheck⟩ := hchecks report hreport
      exact Report.hasProperNames_of_validate hcheck
    refine ⟨(htold hnames).1, (htold hnames).2,
      Report.findings_of_renderText_eq hsize hpaths hnames htext
        fun report hreport other hother hfaults hopen => ?_⟩
    obtain ⟨set, lines, hcheck⟩ := hchecks report (List.mem_append_left _ hreport)
    obtain ⟨set', lines', hcheck'⟩ := hchecks other (List.mem_append_right _ hother)
    rw [Report.shown_findings_of_validate hcheck, Report.shown_findings_of_validate hcheck',
      hfaults, hopen]

theorem renderText_two_files :
    ([⟨"a.html", ⟨[.mismatched 3 "div" "main" 1]⟩⟩, ⟨"b.html", ⟨[.unclosed "main" 1]⟩⟩] :
        List Report).map (·.validation.faults.map Finding.shown) =
      ([⟨"a.html", ⟨[.mismatched 3 "div" "main" 2]⟩⟩, ⟨"b.html", ⟨[.unclosed "main" 1]⟩⟩] :
        List Report).map (·.validation.faults.map Finding.shown) ∧
    ([⟨"a.html", ⟨[.mismatched 3 "div" "main" 1]⟩⟩, ⟨"b.html", ⟨[.unclosed "main" 1]⟩⟩] :
        List Report).map (·.validation.findings.map Finding.shown) =
      ([⟨"a.html", ⟨[.mismatched 3 "div" "main" 2]⟩⟩, ⟨"b.html", ⟨[.unclosed "main" 1]⟩⟩] :
        List Report).map (·.validation.findings.map Finding.shown) := by
  let set : TagSet := ⟨none, none, ["main", "div"], by decide, by decide, by decide⟩
  have hscanner : set.scanner = ⟨["main", "div"]⟩ :=
    congrArg Scanner.mk (List.mergeSort_of_pairwise (by decide))
  have hopened : ⟨[.mismatched 3 "div" "main" 1]⟩ =
      set.scanner.validate ["<div>", "", "</main>"] := by
    rw [hscanner]
    decide +kernel
  have hlater : ⟨[.mismatched 3 "div" "main" 2]⟩ =
      set.scanner.validate ["", "<div>", "</main>"] := by
    rw [hscanner]
    decide +kernel
  have hleft : ⟨[.unclosed "main" 1]⟩ = set.scanner.validate ["<main>"] := by
    rw [hscanner]
    decide +kernel
  have h := @renderText_unambiguous
    [⟨"a.html", ⟨[.mismatched 3 "div" "main" 1]⟩⟩, ⟨"b.html", ⟨[.unclosed "main" 1]⟩⟩]
    [⟨"a.html", ⟨[.mismatched 3 "div" "main" 2]⟩⟩, ⟨"b.html", ⟨[.unclosed "main" 1]⟩⟩]
    (.inl ⟨by simp, by simp⟩) (by simp) rfl
  refine ⟨(h.1 (by decide)).2.2.1, (h.2 ?_).2.2⟩
  simp only [List.cons_append, List.nil_append, List.forall_mem_cons]
  exact ⟨⟨_, _, hopened⟩, ⟨_, _, hleft⟩, ⟨_, _, hlater⟩, ⟨_, _, hleft⟩, List.forall_mem_nil _⟩

end TagLint
