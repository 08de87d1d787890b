import TagLint.Proofs.TagSetLoading
import TagLint.Proofs.WrittenDocuments

/-! Tag sets that are written as TOML, as a table with a line for each key or as an array. Loading
what was written comes down to the list of its names. -/

namespace TagLint

namespace TagSetEntry

variable (escaping : Toml.Escaping)

def quotedArray (elements : List String) : List Char :=
  Toml.arrayText (elements.map escaping.quoted)

def lines (entry : TagSetEntry) : List (List Char) :=
  Toml.headerLine "tags" ::
    ((entry.name?.map fun name => Toml.assignmentLine "name" (escaping.quoted name)).toList ++
      (entry.description?.map fun description =>
        Toml.assignmentLine "description" (escaping.quoted description)).toList ++
      [Toml.assignmentLine "elements" (quotedArray escaping entry.elements)])

def toToml (entry : TagSetEntry) : String :=
  String.ofList ((entry.lines escaping).flatMap (· ++ ['\n']))

/-- The three in an array, in their fixed order. -/
def arrayToml (name description : String) (elements : List String) : String :=
  String.ofList (Toml.assignmentLine "tags" (Toml.arrayText
    [escaping.quoted name, escaping.quoted description, quotedArray escaping elements]) ++ ['\n'])

end TagSetEntry

namespace Toml

/-- Keys that are not there yet are added to the table of the header one by one. -/
theorem foldlM_assign {header : String} (fields entries : List (String × Value))
    (h : ((entries.reverse ++ fields).map Prod.fst).Nodup) :
    (fields.map fun field => Statement.assign [field.1] field.2).foldlM Draft.add
        ⟨[header], ⟨.header, [(header, .table .header entries)]⟩⟩ =
      some ⟨[header], ⟨.header, [(header, .table .header (fields.reverse ++ entries))]⟩⟩ := by
  induction fields generalizing entries with
  | nil => rfl
  | cons field fields ih =>
    have hnew : entries.lookup field.1 = none := by
      rw [List.lookup_eq_none_iff]
      rintro entry hentry
      rw [List.map_append, List.nodup_append] at h
      have hne := h.2.2 entry.1 (List.mem_map_of_mem (List.mem_reverse.mpr hentry)) field.1
        List.mem_cons_self
      exact bne_iff_ne.mpr hne.symm
    have hadd : Draft.add ⟨[header], ⟨.header, [(header, .table .header entries)]⟩⟩
        (.assign [field.1] field.2) =
          some ⟨[header], ⟨.header, [(header, .table .header (field :: entries))]⟩⟩ := by
      simp [Draft.add, Table.descend, Table.assign, Table.define, Table.find?, Table.put,
        Table.toValue, Way.enters?, hnew]
    have hrest := ih (field :: entries) (by simpa using h)
    rw [List.map_cons, List.foldlM_cons, hadd]
    simpa using hrest

theorem Value.asTexts?_array (texts : List String) :
    (Value.array (texts.map Value.text)).asTexts? = some texts := by
  rw [Value.asTexts?]
  induction texts with
  | nil => rfl
  | cons text texts ih => simp [Value.asText?, ih]

end Toml

namespace TagSetEntry

/-- The entries of the table, in the order of their lines. -/
def fields (entry : TagSetEntry) : List (String × Toml.Value) :=
  (entry.name?.map fun name => ("name", Toml.Value.text name)).toList ++
    (entry.description?.map fun description =>
      ("description", Toml.Value.text description)).toList ++
    [("elements", .array (entry.elements.map Toml.Value.text))]

def statements (entry : TagSetEntry) : List Toml.Statement :=
  .table ["tags"] :: entry.fields.map fun field => .assign [field.1] field.2

theorem foldlM_statements (entry : TagSetEntry) :
    entry.statements.foldlM Toml.Draft.add .empty =
      some ⟨["tags"], ⟨.header, [("tags", .table .header entry.fields.reverse)]⟩⟩ := by
  have hheader : Toml.Draft.add .empty (.table ["tags"]) =
      some ⟨["tags"], ⟨.header, [("tags", .table .header [])]⟩⟩ := rfl
  have hnodup : (entry.fields.map Prod.fst).Nodup := by
    rcases entry with ⟨_ | _, _ | _, _⟩ <;> simp [fields]
  rw [statements, List.foldlM_cons, hheader]
  simpa using @Toml.foldlM_assign "tags" entry.fields [] hnodup

theorem ofTable?_fields (entry : TagSetEntry) (origin : Toml.Origin) :
    ofTable? ⟨origin, entry.fields.reverse⟩ = some entry := by
  let table : Toml.Table := ⟨origin, entry.fields.reverse⟩
  have hfit : table.othersFit ["name", "description", "elements"] = true := by
    rcases entry with ⟨_ | _, _ | _, _⟩ <;> simp [table, fields, Toml.Table.othersFit]
  have hname : optionalText? table "name" = some entry.name? := by
    rcases entry with ⟨_ | _, _ | _, _⟩ <;> rfl
  have hdescription : optionalText? table "description" = some entry.description? := by
    rcases entry with ⟨_ | _, _ | _, _⟩ <;> rfl
  have helements : table.find? "elements" = some (.array (entry.elements.map Toml.Value.text)) := by
    rcases entry with ⟨_ | _, _ | _, _⟩ <;> rfl
  change ofTable? table = some entry
  rw [ofTable?, hfit, hname, hdescription, helements]
  change ((Toml.Value.array (entry.elements.map Toml.Value.text)).asTexts?.bind fun elements =>
    some ⟨entry.name?, entry.description?, elements⟩) = some entry
  rw [Toml.Value.asTexts?_array]
  rfl

variable (escaping : Toml.Escaping)

theorem takes_quotedArray (elements : List String) (depth : Nat) :
    Toml.Takes (Toml.value (depth + 1)) (quotedArray escaping elements)
      (.array (elements.map Toml.Value.text)) := by
  refine Toml.takes_array ?_
  rw [List.forall₂_map_left_iff, List.forall₂_map_right_iff, List.forall₂_same]
  exact fun element _ => Toml.takes_quoted escaping element depth

theorem takesLine_lines (entry : TagSetEntry) :
    List.Forall₂ Toml.TakesLine (entry.lines escaping) entry.statements := by
  have hheader : Toml.TakesLine (Toml.headerLine "tags") (.table ["tags"]) :=
    Toml.takesLine_header (by decide)
  have hname (name : String) := Toml.takesLine_assignment (show Toml.IsBareKey "name" by decide)
    (Toml.takes_quoted escaping name Toml.maxDepth)
  have hdescription (description : String) := Toml.takesLine_assignment
    (show Toml.IsBareKey "description" by decide)
    (Toml.takes_quoted escaping description Toml.maxDepth)
  have helements := Toml.takesLine_assignment (show Toml.IsBareKey "elements" by decide)
    (takes_quotedArray escaping entry.elements 79)
  rcases entry with ⟨_ | name, _ | description, elements⟩ <;>
    simp [lines, statements, fields, hheader, hname, hdescription, helements]

theorem ofText?_of_document {text : String} {value : Toml.Value}
    (h : Toml.document? text = some ⟨.header, [("tags", value)]⟩) :
    ofText? text = ofValue? value := by
  have hfit : Toml.Table.othersFit ⟨.header, [("tags", value)]⟩ ["tags"] = true := by
    simp [Toml.Table.othersFit]
  rw [ofText?, h, Option.bind_eq_bind, Option.bind_some, hfit]
  rfl

theorem ofText?_toToml (entry : TagSetEntry) : ofText? (entry.toToml escaping) = some entry := by
  have hdocument := Toml.document?_lines (takesLine_lines escaping entry)
  rw [foldlM_statements, Option.map_some] at hdocument
  rw [toToml, ofText?_of_document hdocument]
  exact ofTable?_fields entry _

example : toToml default ⟨some "a\"b", none, ["nav", "x\ty", ""]⟩ =
    "[tags]\nname = \"a\\\"b\"\nelements = [\"nav\", \"x\\ty\", \"\"]\n" := by
  decide +kernel

theorem ofText?_arrayToml (name description : String) (elements : List String) :
    ofText? (arrayToml escaping name description elements) =
      some ⟨some name, some description, elements⟩ := by
  have harray : Toml.Takes (Toml.value Toml.maxDepth) (Toml.arrayText
      [escaping.quoted name, escaping.quoted description, quotedArray escaping elements])
      (.array [.text name, .text description, .array (elements.map Toml.Value.text)]) :=
    Toml.takes_array (.cons (Toml.takes_quoted escaping name _)
      (.cons (Toml.takes_quoted escaping description _)
        (.cons (takes_quotedArray escaping elements 78) .nil)))
  have hdocument := Toml.document?_lines (.cons (Toml.takesLine_assignment
    (show Toml.IsBareKey "tags" by decide) harray) .nil)
  rw [List.flatMap_singleton] at hdocument
  rw [arrayToml, ofText?_of_document hdocument]
  simp [ofValue?, ofItems?, Toml.Value.asText?, Toml.Value.asTexts?_array]

end TagSetEntry

theorem eq_withFields_iff {set plain : TagSet} {name? description? : Option String} :
    { plain with name? := name?, description? := description? } = set ↔
      set.names = plain.names ∧ set.name? = name? ∧ set.description? = description? := by
  constructor
  · rintro rfl
    exact ⟨rfl, rfl, rfl⟩
  · rintro ⟨hnames, rfl, rfl⟩
    cases set
    cases hnames
    rfl

/-- Loading a written tag set gives the set of its names, with the name and the description that
were written, or fails as the list of its names does. -/
theorem ofToml_written (escaping : Toml.Escaping) (entry : TagSetEntry) :
    let loaded := TagSet.ofToml (entry.toToml escaping)
    (∀ fault, loaded = .error fault ↔ ∃ rejection,
      TagSet.ofNames entry.elements = .error rejection ∧ fault = .rejected rejection ∧
        fault.message = rejection.message) ∧
      (∀ set, loaded = .ok set ↔ ∃ plain, TagSet.ofNames entry.elements = .ok plain ∧
        set.names = plain.names ∧ set.name? = entry.name? ∧
        set.description? = entry.description?) ∧
      ∀ name description elements,
        TagSet.ofToml (TagSetEntry.arrayToml escaping name description elements) =
          TagSet.ofToml (TagSetEntry.toToml escaping ⟨some name, some description, elements⟩) := by
  intro loaded
  have hloaded : loaded = entry.toTagSet.mapError .rejected :=
    TagSet.ofToml_of_entry (entry.ofText?_toToml escaping)
  rw [← and_assoc]
  refine ⟨?_, fun name description elements => ?_⟩
  · cases hnames : TagSet.ofNames entry.elements with
    | error rejection =>
      rw [toTagSet_of_error hnames] at hloaded
      refine ⟨fun fault => ⟨fun h => ?_, ?_⟩, fun set => ⟨fun h => ?_, ?_⟩⟩
      · cases hloaded.symm.trans h
        exact ⟨rejection, rfl, rfl, rfl⟩
      · rintro ⟨_, ⟨⟩, rfl, _⟩
        exact hloaded
      · cases hloaded.symm.trans h
      · rintro ⟨_, ⟨⟩, _⟩
    | ok plain =>
      rw [toTagSet_of_ok hnames] at hloaded
      refine ⟨fun fault => ⟨fun h => ?_, ?_⟩, fun set => ⟨fun h => ?_, ?_⟩⟩
      · cases hloaded.symm.trans h
      · rintro ⟨_, ⟨⟩, _⟩
      · have hset := Except.ok.inj (hloaded.symm.trans h)
        exact ⟨plain, rfl, eq_withFields_iff.mp hset⟩
      · rintro ⟨_, ⟨⟩, hset⟩
        rw [hloaded, ← eq_withFields_iff.mpr hset]
        rfl
  · rw [TagSet.ofToml_of_entry (TagSetEntry.ofText?_arrayToml escaping name description elements),
      TagSet.ofToml_of_entry (TagSetEntry.ofText?_toToml escaping _)]

end TagLint
