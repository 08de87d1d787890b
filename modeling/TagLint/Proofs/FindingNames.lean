import TagLint.Proofs.NestingRun
import TagLint.Proofs.TagPositions

/-! Where the names in findings come from. A walk takes them from its tags and from the
elements that it starts with, so a check speaks of no names but those of its tag set. -/

namespace TagLint

def Finding.names : Finding → List String
  | unexpectedClose _ name => [name]
  | mismatched _ expected found _ => [expected, found]
  | unclosed name _ => [name]

section

variable {P : String → Prop}

namespace NestingStack

theorem finding?_names {stack : NestingStack} {tag : Tag} {fault : Finding}
    (hstack : ∀ element ∈ stack, P element.name) (htag : P tag.name)
    (h : stack.finding? tag = some fault) : ∀ name ∈ fault.names, P name := by
  obtain ⟨_, ⟨_, rfl⟩ | ⟨element, outer, rfl, _, rfl⟩⟩ := finding?_eq_some_iff.mp h
  · exact List.forall_mem_singleton.mpr htag
  · exact List.forall_mem_cons.mpr
      ⟨hstack element List.mem_cons_self, List.forall_mem_singleton.mpr htag⟩

theorem after_names {stack : NestingStack} {tag : Tag}
    (hstack : ∀ element ∈ stack, P element.name) (htag : P tag.name) :
    ∀ element ∈ stack.after tag, P element.name := by
  cases hkind : tag.kind with
  | opening =>
    rw [after_opening hkind]
    exact List.forall_mem_cons.mpr ⟨htag, hstack⟩
  | closing =>
    rw [after_closing hkind]
    exact fun element he => hstack element (List.mem_of_mem_tail he)

theorem findings_names {stack : NestingStack} {tags : List Tag}
    (hstack : ∀ element ∈ stack, P element.name) (htags : ∀ tag ∈ tags, P tag.name) :
    ∀ fault ∈ stack.findings tags, ∀ name ∈ fault.names, P name := by
  induction tags generalizing stack with
  | nil => exact List.forall_mem_nil _
  | cons tag tags ih =>
    rw [List.forall_mem_cons] at htags
    intro fault hfault
    rw [findings_cons, List.mem_append, Option.mem_toList] at hfault
    rcases hfault with hfault | hfault
    · exact finding?_names hstack htags.1 hfault
    · exact ih (after_names hstack htags.1) htags.2 fault hfault

theorem afterAll_names {stack : NestingStack} {tags : List Tag}
    (hstack : ∀ element ∈ stack, P element.name) (htags : ∀ tag ∈ tags, P tag.name) :
    ∀ element ∈ stack.afterAll tags, P element.name := by
  induction tags generalizing stack with
  | nil => exact hstack
  | cons tag tags ih =>
    rw [List.forall_mem_cons] at htags
    rw [afterAll_cons]
    exact ih (after_names hstack htags.1) htags.2

theorem unclosed_names {stack : NestingStack} (hstack : ∀ element ∈ stack, P element.name) :
    ∀ finding ∈ stack.unclosed, ∀ name ∈ finding.names, P name := by
  intro finding hfinding
  obtain ⟨element, helement, rfl⟩ := List.mem_map.mp hfinding
  exact List.forall_mem_singleton.mpr (hstack element (List.mem_reverse.mp helement))

end NestingStack

theorem Scanner.names_validate {scanner : Scanner} {lines : List String}
    (htags : ∀ tag ∈ scanner.scanLines lines, P tag.name) :
    ∀ finding ∈ (scanner.validate lines).findings, ∀ name ∈ finding.names, P name := by
  intro finding hfinding
  rw [validate_findings, List.mem_append] at hfinding
  rcases hfinding with hfinding | hfinding
  · exact NestingStack.findings_names (List.forall_mem_nil _) htags finding hfinding
  · exact NestingStack.unclosed_names
      (NestingStack.afterAll_names (List.forall_mem_nil _) htags) finding hfinding

end

namespace TagSet

theorem name_of_tagBefore? {set : TagSet} {line : Nat} {text : List Char} {tag : Tag}
    (h : set.tagBefore? line text = some tag) : tag.name ∈ set.names := by
  rw [tagBefore?_eq_map, Option.map_eq_some_iff] at h
  obtain ⟨name, hname, rfl⟩ := h
  exact (isLongest_of_longestName? hname).mem

theorem name_of_mem_scanLine {set : TagSet} {text : String} {line : Nat} {tag : Tag}
    (h : tag ∈ set.scanner.scanLine text line) : tag.name ∈ set.names := by
  rw [Scanner.scanLine, scan_eq_tagsByPosition] at h
  obtain ⟨position, _, hposition⟩ := List.mem_filterMap.mp h
  rw [tagAt?] at hposition
  split at hposition
  · exact name_of_tagBefore? hposition
  · simp at hposition

theorem name_of_mem_scanLines {set : TagSet} {lines : List String} {tag : Tag}
    (h : tag ∈ set.scanner.scanLines lines) : tag.name ∈ set.names := by
  obtain ⟨numbered, _, hline⟩ := List.mem_flatMap.mp h
  exact name_of_mem_scanLine hline

theorem name_of_mem_validate {set : TagSet} {lines : List String} {finding : Finding}
    (h : finding ∈ (set.scanner.validate lines).findings) :
    ∀ name ∈ finding.names, name ∈ set.names :=
  Scanner.names_validate (fun _ => name_of_mem_scanLines) finding h

end TagSet

end TagLint
