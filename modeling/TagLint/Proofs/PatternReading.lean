import TagLint.Proofs.LongestName
import TagLint.Scanner

/-! The pattern of a scanner read back. A backslash makes the next character literal and every other
bar parts two alternatives, so the alternatives are the tracked names, whatever characters they
hold: the longest first, and no name behind one that begins it. -/

namespace TagLint

/-- A character of an alternative, as it is read. -/
structure PatternChar where
  char : Char
  isEscaped : Bool
deriving DecidableEq, Repr

/-- The alternatives that a text writes. A backslash at its end is malformed. -/
def readAlternatives? : List Char → Option (List (List PatternChar))
  | [] => some [[]]
  | ['\\'] => none
  | '\\' :: c :: rest => (readAlternatives? rest).map (List.modifyHead (⟨c, true⟩ :: ·))
  | '|' :: rest => (readAlternatives? rest).map ([] :: ·)
  | c :: rest => (readAlternatives? rest).map (List.modifyHead (⟨c, false⟩ :: ·))

/-- The characters that mean something in a pattern, unless a backslash stands before them. -/
def patternOperators : List Char :=
  "\\.+*?()|[]\x7b\x7d^$#&-~".toList

/-- Names in the order in which they are tried: by size, those of one size as they were listed, and
none behind a name that begins it. -/
structure TriesLongestFirst (names tried : List String) : Prop where
  perm : tried.Perm names
  by_size : tried.Pairwise fun name later => later.utf8ByteSize ≤ name.utf8ByteSize
  in_order : ∀ size, tried.filter (·.utf8ByteSize = size) = names.filter (·.utf8ByteSize = size)
  extensions_first : tried.Pairwise fun name later =>
    ¬ (name.toList <+: later.toList ∧ name ≠ later)

theorem longestFirst_in_order (names : List String) (size : Nat) :
    (longestFirst names).filter (·.utf8ByteSize = size) =
      names.filter (·.utf8ByteSize = size) := by
  have hsame : (names.filter (·.utf8ByteSize = size)).Pairwise fun a b =>
      decide (b.utf8ByteSize ≤ a.utf8ByteSize) = true := by
    refine List.pairwise_of_forall_mem_list fun a ha b hb => ?_
    have hsize : a.utf8ByteSize = size := by simpa using List.of_mem_filter ha
    have hsize' : b.utf8ByteSize = size := by simpa using List.of_mem_filter hb
    rw [decide_eq_true_eq]
    omega
  have hsub : (names.filter (·.utf8ByteSize = size)).Sublist (longestFirst names) :=
    List.sublist_mergeSort size_le_trans size_le_total hsame List.filter_sublist
  have hkept : (names.filter (·.utf8ByteSize = size)).Sublist
      ((longestFirst names).filter (·.utf8ByteSize = size)) := by
    simpa [List.filter_filter] using hsub.filter (·.utf8ByteSize = size)
  have hlength := ((longestFirst_perm names).filter (·.utf8ByteSize = size)).length_eq
  exact (hkept.eq_of_length hlength.symm).symm

/-- Names of different sizes are tried in one order only. -/
theorem longestFirst_eq_of_perm {names other : List String}
    (hsize : ∀ name ∈ names, ∀ later ∈ names,
      name.utf8ByteSize = later.utf8ByteSize → name = later)
    (h : names.Perm other) : longestFirst names = longestFirst other := by
  have hnames := longestFirst_perm names
  have hother := longestFirst_perm other
  refine List.Perm.eq_of_pairwise ?_ (longestFirst_pairwise names) (longestFirst_pairwise other)
    (hnames.trans (h.trans hother.symm))
  intro name later hname hlater hle hge
  have hmem : later ∈ names := h.mem_iff.mpr (hother.mem_iff.mp hlater)
  exact hsize name (hnames.mem_iff.mp hname) later hmem (Nat.le_antisymm hge hle)

theorem triesLongestFirst_longestFirst (names : List String) :
    TriesLongestFirst names (longestFirst names) where
  perm := longestFirst_perm names
  by_size := longestFirst_pairwise names
  in_order := longestFirst_in_order names
  extensions_first := by
    refine (longestFirst_pairwise names).imp fun hsize hbegins => ?_
    have hlt := utf8ByteSize_lt_of_prefix hbegins.1 hbegins.2
    omega

/-- A character of a name, as it is read in the pattern. -/
def PatternChar.written (c : Char) : PatternChar :=
  ⟨c, isOperator c⟩

/-- What the names are written as, between the two parts of the pattern that are always the same. -/
def Scanner.patternBody (scanner : Scanner) : List Char :=
  ['|'].intercalate (scanner.alternatives.map fun name => escapeOperators name.toList)

theorem readAlternatives?_plain {c : Char} (h : isOperator c = false) (rest : List Char) :
    readAlternatives? (c :: rest) =
      (readAlternatives? rest).map (List.modifyHead (⟨c, false⟩ :: ·)) := by
  have hbackslash : c ≠ '\\' := by
    rintro rfl
    exact absurd h (by decide)
  have hbar : c ≠ '|' := by
    rintro rfl
    exact absurd h (by decide)
  rw [readAlternatives?]
  all_goals simp [hbackslash, hbar]

theorem readAlternatives?_char (c : Char) (rest : List Char) :
    readAlternatives? ((if isOperator c then ['\\', c] else [c]) ++ rest) =
      (readAlternatives? rest).map (List.modifyHead (.written c :: ·)) := by
  rw [PatternChar.written]
  cases h : isOperator c with
  | false => exact readAlternatives?_plain h rest
  | true =>
    change readAlternatives? ('\\' :: c :: rest) = _
    rw [readAlternatives?]

theorem readAlternatives?_name (name rest : List Char) :
    readAlternatives? (escapeOperators name ++ rest) =
      (readAlternatives? rest).map (List.modifyHead (name.map .written ++ ·)) := by
  induction name with
  | nil =>
    change readAlternatives? rest = (readAlternatives? rest).map (List.modifyHead id)
    rw [List.modifyHead_id, Option.map_id, id]
  | cons c name ih =>
    have hname : escapeOperators (c :: name) =
        (if isOperator c then ['\\', c] else [c]) ++ escapeOperators name := List.flatMap_cons
    rw [hname, List.append_assoc, readAlternatives?_char, ih, Option.map_map]
    congr 1
    funext alternatives
    exact List.modifyHead_modifyHead

theorem readAlternatives?_names {names : List (List Char)} (h : names ≠ []) :
    readAlternatives? (['|'].intercalate (names.map escapeOperators)) =
      some (names.map (·.map .written)) := by
  induction names with
  | nil => exact absurd rfl h
  | cons name names ih =>
    cases names with
    | nil =>
      have hread := readAlternatives?_name name []
      rw [List.append_nil] at hread
      simp [hread, readAlternatives?]
    | cons other names =>
      have hbar : ∀ rest, readAlternatives? ('|' :: rest) =
          (readAlternatives? rest).map ([] :: ·) := by
        intro rest
        rw [readAlternatives?]
      rw [List.map_cons, List.map_cons, List.intercalate_cons_cons, List.append_assoc,
        readAlternatives?_name, List.singleton_append, hbar, ← List.map_cons,
        ih (List.cons_ne_nil other names)]
      simp

theorem Scanner.pattern_eq (scanner : Scanner) :
    scanner.pattern = "<(/?)(" ++ String.ofList scanner.patternBody ++ ")" :=
  rfl

theorem Scanner.patternBody_injective {scanner other : Scanner}
    (h : scanner.pattern = other.pattern) : scanner.patternBody = other.patternBody := by
  rw [pattern_eq, pattern_eq, ← String.toList_inj] at h
  simpa using h

/-- The name that an alternative stands for. -/
def readName (alternative : List PatternChar) : String :=
  String.ofList (alternative.map PatternChar.char)

theorem map_readName_written (names : List String) :
    (names.map fun name => name.toList.map .written).map readName = names := by
  have hname : ∀ name ∈ names, readName (name.toList.map .written) = id name := by
    intro name _
    have hchars : PatternChar.char ∘ PatternChar.written = id := rfl
    rw [readName, List.map_map, hchars, List.map_id, String.ofList_toList, id]
  rw [List.map_map]
  exact (List.map_congr_left hname).trans (List.map_id names)

theorem not_mem_written {c : Char} (h : c ∈ patternOperators) (name : List Char) :
    ⟨c, false⟩ ∉ name.map PatternChar.written := by
  intro hmem
  obtain ⟨d, _, hread⟩ := List.mem_map.mp hmem
  rw [PatternChar.written, PatternChar.mk.injEq] at hread
  obtain ⟨rfl, hplain⟩ := hread
  have hoperator : isOperator d = true := List.contains_iff_mem.mpr h
  rw [hoperator] at hplain
  exact Bool.noConfusion hplain

namespace TagSet

theorem alternatives_ne_nil (set : TagSet) : set.scanner.alternatives ≠ [] := by
  intro hnil
  have hnames : (longestFirst set.names).Perm set.names := longestFirst_perm set.names
  change longestFirst set.names = [] at hnil
  rw [hnil] at hnames
  exact set.names_ne_nil hnames.nil_eq.symm

theorem read_patternBody (set : TagSet) : readAlternatives? set.scanner.patternBody =
    some (set.scanner.alternatives.map fun name => name.toList.map .written) := by
  have hne : set.scanner.alternatives.map String.toList ≠ [] := by
    simpa using set.alternatives_ne_nil
  have hread := readAlternatives?_names hne
  rwa [List.map_map, List.map_map] at hread

/-- The alternatives that the pattern writes are those that the scanner tries, in the same order. -/
theorem scanner_read_from_pattern (set : TagSet) :
    ∃ body alternatives, set.scanner.pattern = "<(/?)(" ++ String.ofList body ++ ")" ∧
      readAlternatives? body = some alternatives ∧
      set.scanner = ⟨alternatives.map readName⟩ := by
  refine ⟨set.scanner.patternBody, _, rfl, set.read_patternBody, ?_⟩
  rw [map_readName_written]

theorem alternatives_eq_of_pattern_eq {set other : TagSet}
    (h : set.scanner.pattern = other.scanner.pattern) :
    set.scanner.alternatives = other.scanner.alternatives := by
  have hread := set.read_patternBody
  rw [Scanner.patternBody_injective h, other.read_patternBody, Option.some.injEq] at hread
  have hnames := congrArg (List.map readName) hread
  rw [map_readName_written, map_readName_written] at hnames
  exact hnames.symm

end TagSet

/-- Read back, the pattern of a scanner is the tracked names, each once and in the order in which
they are tried. No character of a name is read as an operator, so the names are all that a pattern
tells. -/
theorem pattern_reads_as_names (set : TagSet) :
    (∃ body alternatives, set.scanner.pattern = "<(/?)(" ++ String.ofList body ++ ")" ∧
      readAlternatives? body = some alternatives ∧
      TriesLongestFirst set.names (alternatives.map readName) ∧
      ∀ alternative ∈ alternatives, ∀ c ∈ patternOperators, ⟨c, false⟩ ∉ alternative) ∧
      ∀ other : TagSet, set.scanner.pattern = other.scanner.pattern →
        set.names.Perm other.names := by
  refine ⟨⟨set.scanner.patternBody, _, rfl, set.read_patternBody, ?_, ?_⟩, fun other h => ?_⟩
  · rw [map_readName_written]
    exact triesLongestFirst_longestFirst set.names
  · intro alternative halternative c hc
    obtain ⟨name, _, rfl⟩ := List.mem_map.mp halternative
    exact not_mem_written hc name.toList
  · have halternatives : longestFirst set.names = longestFirst other.names :=
      TagSet.alternatives_eq_of_pattern_eq h
    have hother := longestFirst_perm other.names
    rw [← halternatives] at hother
    exact (longestFirst_perm set.names).symm.trans hother

theorem pattern_reads_as_names_with_operators :
    let set : TagSet := ⟨none, none, ["é.|", "a|b", "\\-"], by simp, by decide, by decide⟩
    let other : TagSet := ⟨none, none, ["\\-", "é.|", "a|b"], by simp, by decide, by decide⟩
    set.scanner.pattern = "<(/?)(é\\.\\||a\\|b|\\\\\\-)" ∧
      set.scanner.pattern = other.scanner.pattern ∧ set.names.Perm other.names := by
  intro set other
  have hset : longestFirst set.names = ["é.|", "a|b", "\\-"] :=
    List.mergeSort_of_pairwise (by decide)
  have hlisted : set.names.Perm other.names := by decide
  have hsame : set.scanner.pattern = other.scanner.pattern := by
    rw [TagSet.scanner, TagSet.scanner, longestFirst_eq_of_perm (by decide) hlisted]
  refine ⟨?_, hsame, (pattern_reads_as_names set).2 other hsame⟩
  rw [TagSet.scanner, hset]
  decide +kernel

end TagLint
