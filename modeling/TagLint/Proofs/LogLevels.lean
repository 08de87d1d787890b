import TagLint.Log

/-! What a filter of one word shows of a log. A level shows the messages that are at most as
verbose, and any other word is taken for the beginning of the names of some topics. -/

namespace TagLint

def IsLevelWord (word : String) : Prop :=
  lowercase word = "off" ∨ ∃ level ∈ Level.all, lowercase word = lowercase level.name

instance (word : String) : Decidable (IsLevelWord word) :=
  inferInstanceAs (Decidable (_ ∨ _))

/-- The messages that a word shows. The level word for no messages shows none. -/
def Shows (word : String) (event : Event) : Prop :=
  (∃ level ∈ Level.all, lowercase word = lowercase level.name ∧
      event.level.verbosity ≤ level.verbosity) ∨
    (word ≠ "" ∧ ¬ IsLevelWord word ∧ word.toList <+: event.topic.name.toList)

instance (word : String) (event : Event) : Decidable (Shows word event) :=
  inferInstanceAs (Decidable (_ ∨ _))

/-- A filter without the marks that stand between several directives or within one. -/
def IsSingleWord (text : String) : Prop :=
  ',' ∉ text.toList ∧ '=' ∉ text.toList ∧ '/' ∉ text.toList

def trimmed (text : String) : String :=
  String.ofList (trimBlanks text.toList)

section Words

variable {word : String}

theorem eq_of_lowercase_name_eq : ∀ level ∈ Level.all, ∀ other ∈ Level.all,
    lowercase level.name = lowercase other.name → level = other := by
  decide

theorem lowercase_name_ne_off : ∀ level ∈ Level.all, lowercase level.name ≠ "off" := by
  decide

theorem verbosityOf?_off (h : lowercase word = "off") : verbosityOf? word = some 0 :=
  if_pos h

theorem verbosityOf?_level {level : Level} (hlevel : level ∈ Level.all)
    (h : lowercase word = lowercase level.name) : verbosityOf? word = some level.verbosity := by
  have hoff : lowercase word ≠ "off" := h ▸ lowercase_name_ne_off level hlevel
  have hfind : Level.all.find? (fun other => lowercase other.name == lowercase word) =
      some level := by
    cases hfound : Level.all.find? fun other => lowercase other.name == lowercase word with
    | none => exact absurd (List.find?_eq_none.mp hfound level hlevel) (by simp [h])
    | some other =>
      have hother := List.find?_some hfound
      simp only [beq_iff_eq] at hother
      rw [eq_of_lowercase_name_eq other (List.mem_of_find?_eq_some hfound) level hlevel
        (hother.trans h)]
  rw [verbosityOf?, if_neg hoff, hfind, Option.map_some]

theorem verbosityOf?_of_not_level (h : ¬ IsLevelWord word) : verbosityOf? word = none := by
  rw [IsLevelWord, not_or] at h
  rw [verbosityOf?, if_neg h.1, Option.map_eq_none_iff, List.find?_eq_none]
  intro level hlevel
  rw [beq_iff_eq]
  exact fun heq => h.2 ⟨level, hlevel, heq.symm⟩

variable {event : Event}

theorem not_shows_nothing : ¬ Shows "" event := by
  have hname : ∀ level ∈ Level.all, lowercase "" ≠ lowercase level.name := by decide
  rintro (⟨level, hlevel, heq, _⟩ | ⟨hne, _⟩)
  · exact hname level hlevel heq
  · exact hne rfl

theorem not_shows_off (h : lowercase word = "off") : ¬ Shows word event := by
  rintro (⟨level, hlevel, heq, _⟩ | ⟨_, hlevel, _⟩)
  · exact lowercase_name_ne_off level hlevel (heq ▸ h)
  · exact hlevel (.inl h)

theorem shows_level_iff {level : Level} (hlevel : level ∈ Level.all)
    (h : lowercase word = lowercase level.name) :
    Shows word event ↔ event.level.verbosity ≤ level.verbosity := by
  constructor
  · rintro (⟨other, hother, heq, hle⟩ | ⟨_, hnone, _⟩)
    · rwa [eq_of_lowercase_name_eq other hother level hlevel (heq.symm.trans h)] at hle
    · exact absurd (.inr ⟨level, hlevel, h⟩) hnone
  · exact fun hle => .inl ⟨level, hlevel, h, hle⟩

theorem shows_topic_iff (hne : word ≠ "") (h : ¬ IsLevelWord word) :
    Shows word event ↔ word.toList <+: event.topic.name.toList := by
  constructor
  · rintro (⟨level, hlevel, heq, _⟩ | ⟨_, _, hprefix⟩)
    · exact absurd (.inr ⟨level, hlevel, heq⟩) h
    · exact hprefix
  · exact fun hprefix => .inr ⟨hne, h, hprefix⟩

end Words

theorem verbosity_bounds (event : Event) :
    Level.error.verbosity < event.level.verbosity ∧
      event.level.verbosity ≤ Level.trace.verbosity := by
  cases event with
  | step step => cases step <;> simp [Event.level, Level.verbosity]
  | _ => simp [Event.level, Level.verbosity]

theorem mem_of_mem_trimBlanks {c : Char} {text : List Char} (h : c ∈ trimBlanks text) :
    c ∈ text := by
  rw [trimBlanks, List.mem_reverse] at h
  have h := (List.dropWhile_suffix _).mem h
  rw [List.mem_reverse] at h
  exact (List.dropWhile_suffix _).mem h

namespace Directive

variable {text : List Char} (h : '=' ∉ text)
include h

theorem ofText?_level {verbosity : Nat}
    (hlevel : verbosityOf? (String.ofList text) = some verbosity) :
    ofText? text = some ⟨none, verbosity⟩ := by
  rw [ofText?, List.splitOn_eq_singleton h]
  simp only [hlevel]

theorem ofText?_topic (hlevel : verbosityOf? (String.ofList text) = none) :
    ofText? text = some ⟨some (String.ofList text), Level.trace.verbosity⟩ := by
  rw [ofText?, List.splitOn_eq_singleton h]
  simp only [hlevel]

end Directive

namespace LogFilter

theorem directivesOf_nothing {text : List Char} (hcomma : ',' ∉ text) (h : trimBlanks text = []) :
    directivesOf text = [] := by
  simp [directivesOf, List.splitOn_eq_singleton hcomma, h]

theorem directivesOf_word {text : List Char} {directive : Directive} (hcomma : ',' ∉ text)
    (hne : trimBlanks text ≠ []) (h : Directive.ofText? (trimBlanks text) = some directive) :
    directivesOf text = [directive] := by
  simp [directivesOf, List.splitOn_eq_singleton hcomma, hne, h, insert]

theorem verbosity_singleton (directive : Directive) (topic : Topic) :
    verbosity ⟨[directive], none⟩ topic =
      if directive.covers topic then directive.verbosity else 0 := by
  by_cases h : directive.covers topic <;> simp [verbosity, h]

variable {text : String} {event : Event}

theorem admits_iff_shows (h : IsSingleWord text) :
    (ofText text).admits event = true ↔ Shows (trimmed text) event := by
  obtain ⟨hcomma, hequals, hslash⟩ := h
  have hword : '=' ∉ trimBlanks text.toList := fun hmem => hequals (mem_of_mem_trimBlanks hmem)
  have hfilter : ofText text = ⟨directivesOf text.toList, none⟩ := by
    rw [ofText, List.splitOn_eq_singleton hslash]
  obtain ⟨hgrave, htrace⟩ := verbosity_bounds event
  by_cases hempty : trimBlanks text.toList = []
  · have hnothing : ¬ Shows (trimmed text) event := by
      rw [trimmed, hempty]
      exact not_shows_nothing
    rw [hfilter, directivesOf_nothing hcomma hempty]
    simp [admits, verbosity, hnothing, hgrave]
  by_cases hlevel : IsLevelWord (trimmed text)
  · rcases hlevel with hoff | ⟨level, hmem, hname⟩
    · have hdirective := Directive.ofText?_level hword (verbosityOf?_off hoff)
      have hpositive : 0 < event.level.verbosity := Nat.zero_lt_of_lt hgrave
      rw [hfilter, directivesOf_word hcomma hempty hdirective]
      simp [admits, verbosity_singleton, not_shows_off hoff, Directive.covers,
        Nat.ne_of_gt hpositive]
    · have hdirective := Directive.ofText?_level hword (verbosityOf?_level hmem hname)
      rw [hfilter, directivesOf_word hcomma hempty hdirective, shows_level_iff hmem hname]
      simp [admits, verbosity_singleton, Directive.covers]
  · have hdirective := Directive.ofText?_topic hword (verbosityOf?_of_not_level hlevel)
    have hne : trimmed text ≠ "" := by simpa [trimmed] using hempty
    rw [hfilter, directivesOf_word hcomma hempty hdirective, shows_topic_iff hne hlevel]
    by_cases hprefix : trimBlanks text.toList <+: event.topic.name.toList
    · simp [admits, verbosity_singleton, Directive.covers, trimmed, hprefix, htrace]
    · have hpositive : 0 < event.level.verbosity := Nat.zero_lt_of_lt hgrave
      simp [admits, verbosity_singleton, Directive.covers, trimmed, hprefix,
        Nat.ne_of_gt hpositive]

end LogFilter

end TagLint
