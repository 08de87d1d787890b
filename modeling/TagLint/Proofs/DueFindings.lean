import TagLint.Proofs.Pairing

/-! The findings of a document as they are due by the pairs of its tags. The
elements on the stack are those of the positions that are open, so each closing
tag meets the element of its partner. -/

namespace TagLint

/-- What is due at a closing tag. Nothing is if its partner has the same name. -/
def closingDue? (tags : List Tag) (c : Nat) : Option Finding := do
  let closing ← tags[c]?
  match partner? (tags.map Tag.kind) c with
  | none => some (.unexpectedClose closing.line closing.name)
  | some o =>
    let opening ← tags[o]?
    if opening.name = closing.name then none
    else some (.mismatched closing.line opening.name closing.name opening.line)

def unclosedDue? (tags : List Tag) (o : Nat) : Option Finding :=
  tags[o]?.map fun opening => .unclosed opening.name opening.line

/-- The findings that are due at the closing tags, then those at the unpaired opening tags. -/
def dueFindings (tags : List Tag) : List Finding :=
  let kinds := tags.map Tag.kind
  (positionsOf .closing kinds).filterMap (closingDue? tags) ++
    (unpaired kinds).filterMap (unclosedDue? tags)

def elementAt? (tags : List Tag) (o : Nat) : Option OpenElement :=
  tags[o]?.map fun opening => ⟨opening.name, opening.line⟩

theorem elementAt?_append {tags : List Tag} {o : Nat} (h : o < tags.length) (more : List Tag) :
    elementAt? (tags ++ more) o = elementAt? tags o := by
  rw [elementAt?, elementAt?, List.getElem?_append_left h]

theorem closingDue?_eq {tags : List Tag} {closing : Tag} {c : Nat} (h : tags[c]? = some closing) :
    closingDue? tags c =
      closingFault? closing ((partner? (tags.map Tag.kind) c).bind (elementAt? tags)) := by
  cases hp : partner? (tags.map Tag.kind) c with
  | none => simp [closingDue?, h, hp, closingFault?]
  | some o =>
    have hopening := (paired_of_partner? hp).opening
    rw [List.getElem?_map, Option.map_eq_some_iff] at hopening
    obtain ⟨opening, hopening, _⟩ := hopening
    simp [closingDue?, h, hp, closingFault?, elementAt?, hopening]

theorem closingDue?_snoc {tags : List Tag} {c : Nat}
    (h : c ∈ positionsOf .closing (tags.map Tag.kind)) (last : Tag) :
    closingDue? (tags ++ [last]) c = closingDue? tags c := by
  have hclosing := mem_positionsOf.mp h
  have htag := hclosing
  rw [List.getElem?_map, Option.map_eq_some_iff] at htag
  obtain ⟨closing, htag, _⟩ := htag
  have htag' : (tags ++ [last])[c]? = some closing := by
    rwa [List.getElem?_append_left (List.getElem?_eq_some_iff.mp htag).1]
  rw [closingDue?_eq htag, closingDue?_eq htag', List.map_append, partner?_append hclosing]
  cases hp : partner? (tags.map Tag.kind) c with
  | none => rfl
  | some o =>
    have ho := (List.getElem?_eq_some_iff.mp (paired_of_partner? hp).opening).1
    rw [List.length_map] at ho
    rw [Option.bind_some, Option.bind_some, elementAt?_append ho]

namespace NestingStack

theorem map_elementAt?_snoc (tags : List Tag) (last : Tag) :
    (openPositions (tags.map Tag.kind)).map (elementAt? (tags ++ [last])) =
      (openPositions (tags.map Tag.kind)).map (elementAt? tags) := by
  refine List.map_congr_left fun o ho => elementAt?_append ?_ [last]
  simpa using lt_length_of_mem_openPositions ho

/-- The stack holds the elements of the open positions. -/
theorem map_some_afterAll (tags : List Tag) :
    (afterAll [] tags).map some = (openPositions (tags.map Tag.kind)).map (elementAt? tags) := by
  induction tags using List.reverseRecOn with
  | nil => rfl
  | append_singleton tags last ih =>
    rw [afterAll_append, afterAll_cons, afterAll_nil, List.map_append, List.map_singleton]
    cases hkind : last.kind with
    | opening =>
      rw [after_opening hkind, openPositions_opening, List.map_cons, List.map_cons,
        map_elementAt?_snoc, ih]
      simp [elementAt?]
    | closing =>
      rw [after_closing hkind, openPositions_closing, List.map_tail, List.map_tail,
        map_elementAt?_snoc, ih]

theorem head?_afterAll (tags : List Tag) (last : Tag) :
    (afterAll [] tags).head? =
      (openPositions (tags.map Tag.kind)).head?.bind (elementAt? (tags ++ [last])) := by
  have hhead := congrArg List.head? (map_some_afterAll tags)
  rw [← map_elementAt?_snoc tags last, List.head?_map, List.head?_map] at hhead
  simpa [Option.bind_map, Function.comp_def] using congrArg (Option.bind · id) hhead

theorem findings_eq_due (tags : List Tag) :
    findings [] tags =
      (positionsOf .closing (tags.map Tag.kind)).filterMap (closingDue? tags) := by
  induction tags using List.reverseRecOn with
  | nil => rfl
  | append_singleton tags last ih =>
    rw [findings_append, findings_cons, findings_nil, List.append_nil, ih, List.map_append,
      List.map_singleton, positionsOf_snoc, List.filterMap_append,
      List.filterMap_congr fun c hc => closingDue?_snoc hc last]
    congr 1
    cases hkind : last.kind with
    | opening => simp [finding?_opening hkind]
    | closing =>
      have hpartner : partner? ((tags ++ [last]).map Tag.kind) tags.length =
          (openPositions (tags.map Tag.kind)).head? := by
        rw [partner?_eq (by simp [hkind]), List.map_append, List.take_left' (by simp)]
      have hdue : closingDue? (tags ++ [last]) tags.length =
          closingFault? last (afterAll [] tags).head? := by
        have hlast : (tags ++ [last])[tags.length]? = some last := by simp
        rw [closingDue?_eq hlast, hpartner, ← head?_afterAll]
      rw [finding?_closing hkind, ← hdue, if_pos rfl, List.length_map]
      cases hfault : closingDue? (tags ++ [last]) tags.length <;> simp [hfault]

theorem unclosed_eq_due (tags : List Tag) :
    (afterAll [] tags).unclosed =
      (unpaired (tags.map Tag.kind)).filterMap (unclosedDue? tags) := by
  have hdue : unclosedDue? tags = fun o => (elementAt? tags o).map OpenElement.finding := by
    funext o
    simp [unclosedDue?, elementAt?, OpenElement.finding, Function.comp_def]
  calc
    (afterAll [] tags).unclosed
      = (((afterAll [] tags).map some).filterMap (Option.map OpenElement.finding)).reverse := by
        simp [unclosed, outermostFirst, List.filterMap_map]
    _ = ((openPositions (tags.map Tag.kind)).filterMap (unclosedDue? tags)).reverse := by
        rw [map_some_afterAll, List.filterMap_map, hdue]
        rfl
    _ = (unpaired (tags.map Tag.kind)).filterMap (unclosedDue? tags) := by
        rw [unpaired_eq_reverse, List.filterMap_reverse]

end NestingStack

/-- The findings are those that are due by the pairs of the tags. A closing tag
has at most one partner, and every opening tag is either the partner of exactly
one closing tag or unpaired. -/
theorem validate_findings_eq_dueFindings (set : TagSet) (lines : List String) :
    let tags := (lines.zipIdx 1).flatMap fun numbered =>
      set.scanner.scanLine numbered.1 numbered.2
    let kinds := tags.map Tag.kind
    (set.scanner.validate lines).findings = dueFindings tags ∧
      (∀ o c, partner? kinds c = some o ↔ Paired kinds o c) ∧
      ((positionsOf .closing kinds).filterMap (partner? kinds) ++ unpaired kinds).Perm
        (positionsOf .opening kinds) := by
  refine ⟨?_, fun _ _ => partner?_eq_some_iff, partners_append_unpaired_perm _⟩
  rw [Scanner.validate_findings, NestingStack.findings_eq_due, NestingStack.unclosed_eq_due]
  rfl

end TagLint
