import Mathlib.Data.String.Basic
import TagLint.Proofs.NameLists
import TagLint.Proofs.PatternReading
import TagLint.Proofs.WrittenTagSets

/-! How large a pattern is, and what a limit on its size means for a run. The size is a sum over the
tracked names, whatever their order. The built-in names are far below the limit, and one name that
is too long exceeds it, wherever the name comes from. -/

namespace TagLint

theorem utf8Len_perm {text other : List Char} (h : text.Perm other) :
    String.utf8Len text = String.utf8Len other := by
  induction h with
  | nil => rfl
  | cons c _ ih => rw [String.utf8Len_cons, String.utf8Len_cons, ih]
  | swap c d rest =>
    simp only [String.utf8Len_cons]
    omega
  | trans _ _ ih ih' => exact ih.trans ih'

theorem intercalate_bar_append {parts : List (List Char)} (h : parts ≠ []) :
    ['|'].intercalate parts ++ ['|'] = parts.flatMap (· ++ ['|']) := by
  induction parts with
  | nil => exact absurd rfl h
  | cons part parts ih =>
    cases parts with
    | nil => simp
    | cons other parts =>
      rw [List.intercalate_cons_cons, List.flatMap_cons, List.append_assoc,
        ih (List.cons_ne_nil other parts)]

theorem size_le_escapeOperators (name : List Char) :
    String.utf8Len name ≤ String.utf8Len (escapeOperators name) := by
  refine String.utf8Len_le_of_sublist ?_
  induction name with
  | nil => exact List.nil_sublist _
  | cons c name ih =>
    have hchar : List.Sublist [c] (if isOperator c then ['\\', c] else [c]) := by
      split
      · exact List.sublist_cons_self _ _
      · exact List.Sublist.refl _
    rw [escapeOperators, List.flatMap_cons]
    exact hchar.append ih

namespace TagSet

theorem size_pattern (set : TagSet) : set.scanner.pattern.utf8ByteSize =
    6 + String.utf8Len (set.names.flatMap fun name => escapeOperators name.toList ++ ['|']) := by
  have hne : (set.scanner.alternatives.map fun name => escapeOperators name.toList) ≠ [] := by
    simpa using set.alternatives_ne_nil
  have hbody := congrArg String.utf8Len (intercalate_bar_append hne)
  have hbar : String.utf8Len ['|'] = 1 := by decide
  rw [List.flatMap_map, String.utf8Len_append, hbar] at hbody
  have hperm : set.scanner.alternatives.Perm set.names := longestFirst_perm set.names
  have hsize := utf8Len_perm
    (hperm.flatMap_right fun name => escapeOperators name.toList ++ ['|'])
  have hopening : "<(/?)(".utf8ByteSize = 6 := by decide
  have hclosing : ")".utf8ByteSize = 1 := by decide
  have hpattern := String.utf8ByteSize_ofList set.scanner.patternBody
  rw [Scanner.patternBody] at hpattern
  rw [Scanner.pattern_eq, String.utf8ByteSize_append, String.utf8ByteSize_append,
    Scanner.patternBody]
  omega

theorem size_le_pattern {set : TagSet} {name : String} (h : name ∈ set.names) :
    name.utf8ByteSize ≤ set.scanner.pattern.utf8ByteSize := by
  obtain ⟨before, after, hnames⟩ := List.append_of_mem h
  have hescaped := size_le_escapeOperators name.toList
  rw [String.utf8Len_toList] at hescaped
  rw [size_pattern, hnames, List.flatMap_append, List.flatMap_cons, String.utf8Len_append,
    String.utf8Len_append, String.utf8Len_append]
  omega

end TagSet

theorem sizeLimited_of_small {pattern : String}
    (h : stateSize * pattern.utf8ByteSize ≤ maxCompiled) :
    PatternCompiler.sizeLimited.fault? pattern = none :=
  if_pos h

theorem sizeLimited_of_large {pattern : String}
    (h : maxCompiled < stateSize * pattern.utf8ByteSize) :
    ∃ fault, PatternCompiler.sizeLimited.fault? pattern = some fault :=
  ⟨_, if_neg (Nat.not_le.mpr h)⟩

theorem builtin_compiles :
    TagSet.builtin.compile .sizeLimited = .ok TagSet.builtin.scanner := by
  refine TagSet.compile_of_no_fault (sizeLimited_of_small ?_)
  rw [TagSet.size_pattern]
  decide

theorem not_patternRefused_builtin (files : Files) (fault : String) :
    ¬ TagSource.builtin.PatternRefused .sizeLimited files fault := by
  rintro ⟨_, set, ⟨⟩, hset, hfault⟩
  cases ofNames_builtin.symm.trans hset
  have hcompiled := (TagSet.compile_congr rfl _).trans builtin_compiles
  cases hcompiled.symm.trans (TagSet.compile_of_fault hfault)

/-- A name without any fault but its length. -/
def longName (n : Nat) : String :=
  String.ofList (List.replicate n 'a')

section

variable {n : Nat}

theorem size_longName (n : Nat) : (longName n).utf8ByteSize = n := by
  rw [longName, String.utf8ByteSize_ofList]
  induction n with
  | zero => rfl
  | succ n ih =>
    have ha : Char.utf8Size 'a' = 1 := by decide
    rw [List.replicate_succ, String.utf8Len_cons, ih, ha]

theorem isName_longName (h : n ≠ 0) : IsName (longName n) := by
  constructor
  · intro hempty
    have hsize := size_longName n
    rw [hempty] at hsize
    exact h hsize.symm
  · intro c hc
    rw [longName, String.toList_ofList] at hc
    rw [List.eq_of_mem_replicate hc]
    decide

theorem ofNames_longName (h : n ≠ 0) :
    ∃ set, TagSet.ofNames [longName n] = .ok set ∧ longName n ∈ set.names := by
  obtain ⟨set, hset, hnames⟩ := TagSet.ofNames_of_isName (List.cons_ne_nil (longName n) [])
    (List.forall_mem_singleton.mpr (isName_longName h))
  refine ⟨set, hset, ?_⟩
  rw [hnames, List.mem_eraseDups]
  exact List.mem_singleton_self _

/-- A tag file that lists the long name. -/
def longNameFile (n : Nat) : ByteArray :=
  (TagSetEntry.toToml default ⟨none, none, [longName n]⟩).toUTF8

theorem listsNames_longNameFile (n : Nat) : ListsNames (.ok (longNameFile n)) [longName n] :=
  ⟨_, ⟨none, none, [longName n]⟩, rfl, TagSetEntry.ofText?_toToml _ _, rfl⟩

theorem patternRefused_longName {source : TagSource} {files : Files}
    (h : source.Gives files [longName n]) (hn : maxCompiled < stateSize * n) :
    ∃ fault, source.PatternRefused .sizeLimited files fault := by
  have hne : n ≠ 0 := by
    rintro rfl
    exact absurd hn (by decide)
  obtain ⟨set, hset, hmem⟩ := ofNames_longName hne
  have hlong := TagSet.size_le_pattern hmem
  rw [size_longName] at hlong
  obtain ⟨fault, hfault⟩ := sizeLimited_of_large
    (Nat.lt_of_lt_of_le hn (Nat.mul_le_mul_left stateSize hlong))
  exact ⟨fault, [longName n], set, h, hset, hfault⟩

end

end TagLint
