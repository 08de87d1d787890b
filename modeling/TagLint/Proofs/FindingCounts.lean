import Mathlib.Order.Bounds.Basic
import TagLint.Proofs.Concatenation
import TagLint.Proofs.DueFindings

/-! How many findings of each kind a document has. The closing tags that meet no open element are
as many as the closing tags ever lead the opening ones, and the elements left open as many as the
opening tags lead, seen from the end. All other closing tags end an element. -/

namespace TagLint

def openings (tags : List Tag) : Nat :=
  tags.countP (·.kind == .opening)

def closings (tags : List Tag) : Nat :=
  tags.countP (·.kind == .closing)

/-- How far the closing tags are ahead of the opening ones. -/
def lead (tags : List Tag) : Int :=
  closings tags - openings tags

def leads (tags : List Tag) : Set Int :=
  {n | ∃ k ≤ tags.length, n = lead (tags.take k)}

/-- The partner of the closing tag has its name. -/
def endsItsOwn (tags : List Tag) (c : Nat) : Bool :=
  (partner? (tags.map Tag.kind) c).any fun o => tags[o]?.map Tag.name == tags[c]?.map Tag.name

/-- How many pairs there are of an opening and a closing tag of one name. -/
def silentPairs (tags : List Tag) : Nat :=
  (positionsOf .closing (tags.map Tag.kind)).countP (endsItsOwn tags)

section Leads

theorem openings_append (tags more : List Tag) :
    openings (tags ++ more) = openings tags + openings more :=
  List.countP_append

theorem closings_append (tags more : List Tag) :
    closings (tags ++ more) = closings tags + closings more :=
  List.countP_append

theorem leads_nil : leads [] = {0} := by
  ext n
  simp [leads, lead, closings, openings]

theorem leads_snoc (tags : List Tag) (tag : Tag) :
    leads (tags ++ [tag]) = insert (lead (tags ++ [tag])) (leads tags) := by
  have hwhole : (tags ++ [tag]).take (tags.length + 1) = tags ++ [tag] :=
    List.take_of_length_le (by simp)
  ext n
  rw [Set.mem_insert_iff]
  constructor
  · rintro ⟨k, hk, rfl⟩
    rw [List.length_append, List.length_singleton] at hk
    rcases Nat.lt_or_ge tags.length k with hlast | hfront
    · obtain rfl : k = tags.length + 1 := by omega
      exact .inl (congrArg lead hwhole)
    · exact .inr ⟨k, hfront, by rw [List.take_append_of_le_length hfront]⟩
  · rintro (rfl | ⟨k, hk, rfl⟩)
    · exact ⟨tags.length + 1, by simp, by rw [hwhole]⟩
    · refine ⟨k, ?_, by rw [List.take_append_of_le_length hk]⟩
      rw [List.length_append]
      omega

end Leads

namespace NestingStack

/-- How many closing tags meet no open element. -/
def strays (stack : NestingStack) (tags : List Tag) : Nat :=
  (stack.findings tags).countP (·.kind == .unexpectedClose)

theorem strays_opening {tag : Tag} (h : tag.kind = .opening) (stack : NestingStack) :
    stack.strays [tag] = 0 := by
  simp [strays, findings_cons, finding?_opening h]

theorem strays_closing {tag : Tag} (h : tag.kind = .closing) (stack : NestingStack) :
    stack.strays [tag] = if stack = [] then 1 else 0 := by
  rw [strays, findings_cons, finding?_closing h, findings_nil]
  cases stack with
  | nil => rfl
  | cons element outer =>
    rw [List.head?_cons, countP_closingFault?]
    rfl

theorem strays_append (stack : NestingStack) (tags more : List Tag) :
    stack.strays (tags ++ more) = stack.strays tags + (stack.afterAll tags).strays more := by
  rw [strays, findings_append, List.countP_append]
  rfl

theorem strays_cons (stack : NestingStack) (tag : Tag) (tags : List Tag) :
    stack.strays (tag :: tags) = stack.strays [tag] + (stack.after tag).strays tags := by
  have happend := stack.strays_append [tag] tags
  rwa [afterAll_cons, afterAll_nil] at happend

/-- A tag changes the count of the open elements by its kind alone, unless it is a stray. -/
theorem length_after (stack : NestingStack) (tag : Tag) :
    (stack.after tag).length + closings [tag] =
      stack.length + openings [tag] + stack.strays [tag] := by
  cases h : tag.kind with
  | opening => simp [strays_opening h, after_opening h, closings, openings, h]
  | closing => cases stack <;> simp [strays_closing h, after_closing h, closings, openings, h]

theorem length_afterAll (stack : NestingStack) (tags : List Tag) :
    (stack.afterAll tags).length + closings tags =
      stack.length + openings tags + stack.strays tags := by
  induction tags generalizing stack with
  | nil => rfl
  | cons tag tags ih =>
    have hfirst := stack.length_after tag
    have hrest := ih (stack.after tag)
    have hopenings := openings_append [tag] tags
    have hclosings := closings_append [tag] tags
    rw [List.singleton_append] at hopenings hclosings
    rw [afterAll_cons, strays_cons]
    omega

theorem lead_eq (tags : List Tag) :
    lead tags = strays [] tags - (afterAll [] tags).length := by
  have hlength := length_afterAll [] tags
  rw [List.length_nil] at hlength
  rw [lead]
  omega

/-- The inherited elements take up the closing tags that are strays on their own. -/
theorem strays_inherited (stack : NestingStack) (tags : List Tag) :
    stack.strays tags = strays [] tags - stack.length := by
  have hafter := congrArg List.length (afterAll_inherited [] stack tags)
  have hown := length_afterAll [] tags
  have hstack := length_afterAll stack tags
  rw [List.nil_append, List.length_append, List.length_drop, ← strays] at hafter
  simp only [List.length_nil] at hown
  omega

theorem length_afterAll_inherited (stack : NestingStack) (tags : List Tag) :
    (stack.afterAll tags).length =
      (afterAll [] tags).length + (stack.length - strays [] tags) := by
  have hafter := congrArg List.length (afterAll_inherited [] stack tags)
  rwa [List.nil_append, List.length_append, List.length_drop, ← strays] at hafter

/-- A closing tag more adds a stray, or it takes away an element that would be left open. -/
theorem insert_closing (front back : List Tag) {closing : Tag} (h : closing.kind = .closing) :
    strays [] (front ++ closing :: back) = strays [] (front ++ back) + 1 ∧
        (afterAll [] (front ++ closing :: back)).length = (afterAll [] (front ++ back)).length ∨
      strays [] (front ++ closing :: back) = strays [] (front ++ back) ∧
        (afterAll [] (front ++ closing :: back)).length + 1 =
          (afterAll [] (front ++ back)).length := by
  rw [strays_append, strays_append, strays_cons, afterAll_append, afterAll_append, afterAll_cons,
    after_closing h, strays_closing h, strays_inherited (afterAll [] front) back,
    strays_inherited (afterAll [] front).tail back, length_afterAll_inherited (afterAll [] front),
    length_afterAll_inherited (afterAll [] front).tail, List.length_tail]
  cases hopen : afterAll [] front with
  | nil =>
    left
    simp
    omega
  | cons element outer =>
    simp only [reduceCtorEq, if_false, List.length_cons]
    omega

theorem isGreatest_strays (tags : List Tag) : IsGreatest (leads tags) (strays [] tags) := by
  induction tags using List.reverseRecOn with
  | nil =>
    rw [leads_nil]
    exact isGreatest_singleton
  | append_singleton tags tag ih =>
    have hlead := lead_eq (tags ++ [tag])
    have hmax : (strays [] (tags ++ [tag]) : Int) =
        max (lead (tags ++ [tag])) (strays [] tags) := by
      rw [strays_append, afterAll_append, afterAll_cons, afterAll_nil] at hlead
      rw [strays_append]
      cases h : tag.kind with
      | opening =>
        rw [strays_opening h] at hlead ⊢
        omega
      | closing =>
        rw [strays_closing h, after_closing h] at hlead
        rw [strays_closing h]
        by_cases hopen : afterAll [] tags = []
        · simp only [hopen, if_true, List.tail_nil, List.length_nil] at hlead ⊢
          omega
        · simp only [hopen, if_false] at hlead ⊢
          omega
    rw [leads_snoc, hmax]
    exact ih.insert _

theorem length_findings (tags : List Tag) :
    (findings [] tags).countP (·.kind == .mismatched) + strays [] tags =
      (findings [] tags).length := by
  have hstrays : strays [] tags =
      (findings [] tags).countP fun fault => ¬ (fault.kind == .mismatched) = true := by
    refine List.countP_congr fun fault h => ?_
    have hkind := kind_ne_unclosed_of_mem_findings h
    cases hfault : fault.kind <;> simp_all
  rw [hstrays, ← List.length_eq_countP_add_countP]

end NestingStack

section SilentPairs

variable {tags : List Tag} {c : Nat}

theorem closingDue?_eq_none_iff (h : c ∈ positionsOf .closing (tags.map Tag.kind)) :
    closingDue? tags c = none ↔ endsItsOwn tags c = true := by
  have hclosing := mem_positionsOf.mp h
  rw [List.getElem?_map, Option.map_eq_some_iff] at hclosing
  obtain ⟨closing, hclosing, _⟩ := hclosing
  rw [closingDue?_eq hclosing, closingFault?_eq_none_iff, endsItsOwn, hclosing]
  cases hpartner : partner? (tags.map Tag.kind) c with
  | none => simp
  | some o =>
    cases hopening : tags[o]? <;> simp [elementAt?, hopening]

theorem length_positionsOf_closing (tags : List Tag) :
    (positionsOf .closing (tags.map Tag.kind)).length = closings tags := by
  induction tags using List.reverseRecOn with
  | nil => rfl
  | append_singleton tags tag ih =>
    rw [List.map_append, List.map_singleton, positionsOf_snoc, List.length_append, ih,
      closings_append]
    by_cases h : tag.kind = .closing <;> simp [closings, h]

/-- At each closing tag there is a finding, or it ends an element of its name. -/
theorem length_findings_add_silentPairs (tags : List Tag) :
    (NestingStack.findings [] tags).length + silentPairs tags = closings tags := by
  have hsilent : silentPairs tags = (positionsOf .closing (tags.map Tag.kind)).countP
      (fun c => ¬ (closingDue? tags c).isSome = true) := by
    refine List.countP_congr fun c hc => ?_
    rw [← closingDue?_eq_none_iff hc]
    simp
  rw [NestingStack.findings_eq_due, List.length_filterMap_eq_countP, hsilent,
    ← List.length_eq_countP_add_countP, length_positionsOf_closing]

end SilentPairs

/-- The numbers of findings by the numbers of tags. A closing tag more, wherever it stands, is one
more that is unexpected or leaves one element less open. -/
theorem count_findings_eq_greatest_lead (set : TagSet) (lines : List String) :
    let tags := (lines.zipIdx 1).flatMap fun numbered =>
      set.scanner.scanLine numbered.1 numbered.2
    let validation := set.scanner.validate lines
    let opened (k : Nat) : Int := openings (tags.take k)
    let closed (k : Nat) : Int := closings (tags.take k)
    let n := tags.length
    IsGreatest {d | ∃ k ≤ n, d = closed k - opened k} (validation.count .unexpectedClose : Int) ∧
    IsGreatest {d | ∃ k ≤ n, d = (opened n - opened k) - (closed n - closed k)}
      (validation.count .unclosed : Int) ∧
    validation.count .mismatched + silentPairs tags + validation.count .unexpectedClose =
      closings tags ∧
    validation.count .mismatched + silentPairs tags + validation.count .unclosed = openings tags ∧
    ∀ k name line,
      let edited := (Inspection.ofTags lines.length
        (tags.take k ++ ⟨.closing, name, line⟩ :: tags.drop k)).validation
      edited.count .unexpectedClose = validation.count .unexpectedClose + 1 ∧
          edited.count .unclosed = validation.count .unclosed ∨
        edited.count .unexpectedClose = validation.count .unexpectedClose ∧
          edited.count .unclosed + 1 = validation.count .unclosed := by
  intro tags validation opened closed n
  have hstrays : validation.count .unexpectedClose = NestingStack.strays [] tags :=
    Inspection.count_ofTags (by decide) _ _
  have hmismatched : validation.count .mismatched =
      (NestingStack.findings [] tags).countP (·.kind == .mismatched) :=
    Inspection.count_ofTags (by decide) _ _
  have hunclosed : validation.count .unclosed = (NestingStack.afterAll [] tags).length :=
    Inspection.count_unclosed_ofTags _ _
  have hgreatest := NestingStack.isGreatest_strays tags
  have hlead := NestingStack.lead_eq tags
  have hlength := NestingStack.length_afterAll [] tags
  have hfindings := NestingStack.length_findings tags
  have hsilent := length_findings_add_silentPairs tags
  rw [hstrays, hmismatched, hunclosed]
  refine ⟨hgreatest, ⟨?_, ?_⟩, by omega, ?_, fun k name line => ?_⟩
  · obtain ⟨k, hk, hgreatest⟩ := hgreatest.1
    refine ⟨k, hk, ?_⟩
    simp only [opened, closed, n, List.take_length]
    simp only [lead] at hgreatest hlead
    omega
  · rintro _ ⟨k, hk, rfl⟩
    have hle := hgreatest.2 ⟨k, hk, rfl⟩
    simp only [opened, closed, n, List.take_length]
    simp only [lead] at hle hlead
    omega
  · rw [List.length_nil] at hlength
    omega
  · intro edited
    have hinsert := NestingStack.insert_closing (tags.take k) (tags.drop k)
      (show (⟨.closing, name, line⟩ : Tag).kind = .closing from rfl)
    have hedited : edited.count .unexpectedClose = NestingStack.strays [] _ :=
      Inspection.count_ofTags (by decide) _ _
    have hopen : edited.count .unclosed = (NestingStack.afterAll [] _).length :=
      Inspection.count_unclosed_ofTags _ _
    rw [List.take_append_drop] at hinsert
    rw [hedited, hopen]
    exact hinsert

end TagLint
