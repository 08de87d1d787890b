import TagLint.Proofs.DueFindings

/-! What a single fault does to a document that had none. A tag with a wrong name is found out
where its element ends. A tag that is missing shifts the pairs of all elements around it by one,
so that each of them is closed by the tag of its neighbour, and one tag is left over in the end. -/

namespace TagLint

structure Element where
  opening : Tag
  closing : Tag
deriving DecidableEq, Repr

namespace Element

def opened (element : Element) : OpenElement :=
  ⟨element.opening.name, element.opening.line⟩

/-- The finding where an element is closed by the closing tag of another one. -/
def closedBy? (element other : Element) : Option Finding :=
  if element.opening.name = other.opening.name then none
  else some (.mismatched other.closing.line element.opening.name other.opening.name
    element.opening.line)

end Element

/-- The position of the closing tag that is paired with an opening one. -/
def closer? (kinds : List Tag.Kind) (o : Nat) : Option Nat :=
  (List.range kinds.length).find? fun c => Paired kinds o c

def elementFrom? (tags : List Tag) (o : Nat) : Option Element := do
  let c ← closer? (tags.map Tag.kind) o
  return ⟨← tags[o]?, ← tags[c]?⟩

/-- The elements that are open right behind a position, the innermost first. -/
def elementsAround (tags : List Tag) (o : Nat) : List Element :=
  (openPositions ((tags.map Tag.kind).take (o + 1))).filterMap (elementFrom? tags)

/-- Tags that close the elements one by one, each with its own closing tag. -/
def ClosesInTurn : List Element → List Tag → Prop
  | [], tags => WellNested tags
  | element :: outer, tags => ∃ inner later, tags = inner ++ element.closing :: later ∧
      WellNested inner ∧ element.closing.kind = .closing ∧
      element.opening.name = element.closing.name ∧ ClosesInTurn outer later

theorem ClosesInTurn.append {elements : List Element} {tags more : List Tag} (h : WellNested tags)
    (h' : ClosesInTurn elements more) : ClosesInTurn elements (tags ++ more) := by
  cases elements with
  | nil => exact Nested.append h h'
  | cons element outer =>
    obtain ⟨inner, later, rfl, hinner, hrest⟩ := h'
    exact ⟨tags ++ inner, later, by simp, Nested.append h hinner, hrest⟩

section Positions

variable {tags : List Tag} {kinds : List Tag.Kind} {o c : Nat}

theorem Paired.closing_unique {c' : Nat} (h : Paired kinds o c) (h' : Paired kinds o c') :
    c = c' := by
  have hlater : ∀ {c c'}, Paired kinds o c → Paired kinds o c' → ¬ c < c' := by
    intro c c' h h' hlt
    have hopen := List.mem_of_mem_head? (paired_iff.mp h').2
    refine (mem_openPositions_iff.mp hopen).2 c (paired_iff.mpr ⟨?_, ?_⟩)
    · rw [List.getElem?_take_of_lt hlt, h.closing]
    · rw [List.take_take, Nat.min_eq_left (Nat.le_of_lt hlt)]
      exact (paired_iff.mp h).2
  have hle := hlater h h'
  have hge := hlater h' h
  omega

theorem closer?_eq (h : Paired kinds o c) : closer? kinds o = some c := by
  cases hfound : closer? kinds o with
  | none =>
    have hc := (List.getElem?_eq_some_iff.mp h.closing).1
    have hnone := List.find?_eq_none.mp hfound c (List.mem_range.mpr hc)
    exact absurd (decide_eq_true h) hnone
  | some c' =>
    have hpaired := List.find?_some hfound
    rw [(of_decide_eq_true hpaired : Paired kinds o c').closing_unique h]

theorem elementFrom?_eq {opening closing : Tag} (h : Paired (tags.map Tag.kind) o c)
    (hopening : tags[o]? = some opening) (hclosing : tags[c]? = some closing) :
    elementFrom? tags o = some ⟨opening, closing⟩ := by
  simp [elementFrom?, closer?_eq h, hopening, hclosing]

theorem WellNested.balanced (h : WellNested tags) : Balanced (tags.map Tag.kind) := by
  induction h with
  | nil => exact .nil
  | pair hmatch _ _ ihinner ihlater =>
    rw [List.map_cons, List.map_append, List.map_cons]
    exact .pair ⟨hmatch.1, hmatch.2.1⟩ ihinner ihlater

end Positions

namespace NestingStack

/-- The elements that are open have closing tags behind, if these leave nothing open. -/
theorem exists_elements {stack : NestingStack} {front back : List Tag}
    (hstack : afterAll [] front = stack) (h : stack.Closes back) :
    ∃ elements, (openPositions (front.map Tag.kind)).map (elementFrom? (front ++ back)) =
        elements.map some ∧ elements.map Element.opened = stack ∧ ClosesInTurn elements back := by
  have hpositions := map_some_afterAll front
  rw [hstack] at hpositions
  induction stack generalizing front back with
  | nil =>
    rw [List.map_nil, eq_comm, List.map_eq_nil_iff] at hpositions
    exact ⟨[], by rw [hpositions]; rfl, rfl, h⟩
  | cons element outer ih =>
    obtain ⟨inner, closing, later, rfl, hinner, hclosing, hname, hlater⟩ := h
    rw [List.map_cons] at hpositions
    obtain ⟨o, positions, hopen, hfirst, hrest⟩ := List.map_eq_cons_iff.mp hpositions.symm
    obtain ⟨opening, hopening, hopened⟩ := Option.map_eq_some_iff.mp hfirst
    have hnext : openPositions ((front ++ inner ++ [closing]).map Tag.kind) = positions := by
      rw [List.map_append, List.map_append, List.map_singleton, hclosing, openPositions_closing,
        openPositions_balanced hinner.balanced, hopen, List.tail_cons]
    have hafter : afterAll [] (front ++ inner ++ [closing]) = outer := by
      rw [afterAll_append, afterAll_append, hstack, (run_wellNested hinner _).2, afterAll_cons,
        after_closing hclosing]
      rfl
    obtain ⟨elements, helements, houter, hcloses⟩ :=
      ih hafter hlater (by rw [← hafter]; exact map_some_afterAll _)
    rw [hnext, List.append_assoc, List.append_assoc, List.singleton_append] at helements
    have hpaired : Paired ((front ++ (inner ++ closing :: later)).map Tag.kind) o
        (front ++ inner).length := by
      refine paired_iff.mpr ⟨?_, ?_⟩
      · simp [hclosing]
      · have htake : ((front ++ (inner ++ closing :: later)).map Tag.kind).take
            (front ++ inner).length = front.map Tag.kind ++ inner.map Tag.kind := by
          rw [← List.append_assoc, List.map_append, List.take_left' (by simp), List.map_append]
        rw [htake, openPositions_balanced hinner.balanced, hopen, List.head?_cons]
    have hfrom : elementFrom? (front ++ (inner ++ closing :: later)) o =
        some ⟨opening, closing⟩ := by
      have ho := (List.getElem?_eq_some_iff.mp hopening).1
      refine elementFrom?_eq hpaired ?_ ?_
      · rw [List.getElem?_append_left ho, hopening]
      · rw [← List.append_assoc]
        simp
    refine ⟨⟨opening, closing⟩ :: elements, ?_, ?_, inner, later, rfl, hinner, hclosing, ?_,
      hcloses⟩
    · rw [hopen, List.map_cons, hfrom, helements, List.map_cons]
    · rw [List.map_cons, houter, ← hopened]
      rfl
    · rw [← hname, ← hopened]

section Shifted

variable {element : Element} {outer : List Element} {inner tags : List Tag}

theorem run_to_closing {closing : Tag} (hinner : WellNested inner) (h : closing.kind = .closing)
    (stack : NestingStack) (later : List Tag) :
    stack.findings (inner ++ closing :: later) =
        (closingFault? closing stack.head?).toList ++ findings stack.tail later ∧
      stack.afterAll (inner ++ closing :: later) = afterAll stack.tail later := by
  obtain ⟨hfindings, hafter⟩ := run_wellNested hinner stack
  constructor
  · rw [findings_append, hfindings, hafter, findings_cons, finding?_closing h, after_closing h,
      List.nil_append]
  · rw [afterAll_append, hafter, afterAll_cons, after_closing h]

theorem closingFault?_opened {other : Element} (h : other.opening.name = other.closing.name) :
    closingFault? other.closing (some element.opened) = element.closedBy? other := by
  rw [Element.closedBy?, h]
  rfl

theorem run_in_turn (h : ClosesInTurn outer tags) :
    findings (outer.map Element.opened) tags = [] ∧
      afterAll (outer.map Element.opened) tags = [] := by
  induction outer generalizing tags with
  | nil => exact run_wellNested h _
  | cons next outer ih =>
    obtain ⟨inner, later, rfl, hinner, hclosing, hname, hlater⟩ := h
    obtain ⟨hfindings, hafter⟩ := run_to_closing hinner hclosing
      (next.opened :: outer.map Element.opened) later
    have hfault : closingFault? next.closing (some next.opened) = none :=
      closingFault?_eq_none_iff.mpr ⟨_, rfl, hname⟩
    rw [List.head?_cons, hfault, List.tail_cons, (ih hlater).1] at hfindings
    rw [List.tail_cons, (ih hlater).2] at hafter
    exact ⟨hfindings, hafter⟩

/-- With an element too many inside, each closing tag closes the element inside its own. -/
theorem run_one_more (h : ClosesInTurn outer tags) :
    findings (element.opened :: outer.map Element.opened) tags =
        ((element :: outer).zip outer).filterMap (fun pair => pair.1.closedBy? pair.2) ∧
      afterAll (element.opened :: outer.map Element.opened) tags =
        ((element :: outer).getLast?.map Element.opened).toList := by
  induction outer generalizing element tags with
  | nil => exact run_wellNested h _
  | cons next outer ih =>
    obtain ⟨inner, later, rfl, hinner, hclosing, hname, hlater⟩ := h
    obtain ⟨hfindings, hafter⟩ := @ih next later hlater
    obtain ⟨hfindings', hafter'⟩ := run_to_closing hinner hclosing
      (element.opened :: next.opened :: outer.map Element.opened) later
    rw [List.head?_cons, closingFault?_opened hname, List.tail_cons, hfindings] at hfindings'
    rw [List.tail_cons, hafter] at hafter'
    rw [List.map_cons, hfindings', hafter', List.zip_cons_cons]
    cases hfault : element.closedBy? next <;> simp [hfault]

/-- With the innermost element missing, each closing tag closes the element around its own. -/
theorem run_one_less (h : ClosesInTurn (element :: outer) tags) :
    findings (outer.map Element.opened) tags =
        ((element :: outer).zip outer).filterMap (fun pair => pair.2.closedBy? pair.1) ++
          ((element :: outer).getLast?.map fun last =>
            .unexpectedClose last.closing.line last.opening.name).toList ∧
      afterAll (outer.map Element.opened) tags = [] := by
  induction outer generalizing element tags with
  | nil =>
    obtain ⟨inner, later, rfl, hinner, hclosing, hname, hlater⟩ := h
    obtain ⟨hfindings, hafter⟩ := run_wellNested hlater []
    obtain ⟨hfindings', hafter'⟩ := run_to_closing hinner hclosing [] later
    rw [List.head?_nil, closingFault?_none, List.tail_nil, hfindings] at hfindings'
    rw [List.tail_nil, hafter] at hafter'
    exact ⟨by simp [hfindings', hname], hafter'⟩
  | cons next outer ih =>
    obtain ⟨inner, later, rfl, hinner, hclosing, hname, hlater⟩ := h
    obtain ⟨hfindings, hafter⟩ := ih hlater
    obtain ⟨hfindings', hafter'⟩ := run_to_closing hinner hclosing
      (next.opened :: outer.map Element.opened) later
    rw [List.head?_cons, closingFault?_opened hname, List.tail_cons, hfindings] at hfindings'
    rw [List.tail_cons, hafter] at hafter'
    rw [List.map_cons, hfindings', hafter', List.zip_cons_cons]
    cases hfault : next.closedBy? element <;> simp [hfault]

end Shifted

end NestingStack

section Edits

variable {α : Type} (front back : List α) (x : α)

theorem eraseIdx_length_front : (front ++ x :: back).eraseIdx front.length = front ++ back := by
  rw [List.eraseIdx_append_of_length_le (Nat.le_refl _)]
  simp

theorem set_length_front (y : α) :
    (front ++ x :: back).set front.length y = front ++ y :: back := by
  simp

end Edits

/-- A document without findings, cut at the two tags of an element. The elements around it are
closed in turn by what is behind it. -/
structure CleanCut (front : List Tag) (element : Element) (inner back : List Tag)
    (outer : List Element) : Prop where
  opening_kind : element.opening.kind = .opening
  closing_kind : element.closing.kind = .closing
  name_eq : element.opening.name = element.closing.name
  findings_front : NestingStack.findings [] front = []
  afterAll_front : NestingStack.afterAll [] front = outer.map Element.opened
  wellNested_inner : WellNested inner
  closesInTurn_back : ClosesInTurn outer back
  elementsAround_eq : elementsAround
    (front ++ element.opening :: (inner ++ element.closing :: back)) front.length = element :: outer

theorem opening_of_elementFrom? {tags : List Tag} {o : Nat} {element : Element}
    (h : elementFrom? tags o = some element) : tags[o]? = some element.opening := by
  obtain ⟨c, _, h⟩ := Option.bind_eq_some_iff.mp h
  obtain ⟨opening, hopening, h⟩ := Option.bind_eq_some_iff.mp h
  obtain ⟨closing, _, h⟩ := Option.bind_eq_some_iff.mp h
  cases h
  exact hopening

theorem elementsAround_eq {front rest : List Tag} {opening : Tag} {elements : List Element}
    (h : (openPositions ((front ++ [opening]).map Tag.kind)).map
      (elementFrom? (front ++ opening :: rest)) = elements.map some) :
    elementsAround (front ++ opening :: rest) front.length = elements := by
  have htake : ((front ++ opening :: rest).map Tag.kind).take (front.length + 1) =
      (front ++ [opening]).map Tag.kind := by
    rw [← List.map_take, List.append_cons, List.take_left' (by simp)]
  have hfilter := congrArg (List.filterMap id) h
  rw [elementsAround, htake]
  simpa [List.filterMap_map, Function.comp_def] using hfilter

theorem exists_cleanCut {front rest : List Tag} {opening : Tag}
    (hfindings : NestingStack.findings [] (front ++ opening :: rest) = [])
    (hafter : NestingStack.afterAll [] (front ++ opening :: rest) = [])
    (hkind : opening.kind = .opening) :
    ∃ closing inner back outer, rest = inner ++ closing :: back ∧
      CleanCut front ⟨opening, closing⟩ inner back outer := by
  have hsplit : front ++ opening :: rest = front ++ [opening] ++ rest := by simp
  rw [hsplit, NestingStack.findings_append, List.append_eq_nil_iff] at hfindings
  rw [hsplit, NestingStack.afterAll_append] at hafter
  obtain ⟨elements, helements, hopened, hturn⟩ :=
    NestingStack.exists_elements rfl (NestingStack.closes_of_run hfindings.2 hafter)
  rw [← hsplit] at helements
  have haround := elementsAround_eq helements
  rw [NestingStack.afterAll_append, NestingStack.afterAll_cons, NestingStack.after_opening hkind,
    NestingStack.afterAll_nil] at hopened
  obtain ⟨element, outer, rfl, _, houter⟩ := List.map_eq_cons_iff.mp hopened
  have hopening : element.opening = opening := by
    rw [List.map_append, List.map_singleton, hkind, openPositions_opening, List.map_cons,
      List.map_cons, List.length_map] at helements
    have hat := opening_of_elementFrom? (List.cons.inj helements).1
    simpa [eq_comm] using hat
  obtain ⟨inner, back, rfl, hinner, hclosing, hname, hback⟩ := hturn
  obtain ⟨_, closing⟩ := element
  obtain rfl : _ = opening := hopening
  rw [NestingStack.findings_append, List.append_eq_nil_iff] at hfindings
  exact ⟨closing, inner, back, outer, rfl, hkind, hclosing, hname, hfindings.1.1, houter.symm,
    hinner, hback, haround⟩

/-- What is found if one tag of an element has another name or is missing, and nothing else is
wrong. The elements around it are given from the inside to the outermost one. -/
structure SingleFaultFindings (lineCount : Nat) (tags : List Tag) (o c : Nat) (element : Element)
    (outer : List Element) (outermost : Element) : Prop where
  opening_renamed : ∀ name, name ≠ element.opening.name →
    (Inspection.ofTags lineCount
        (tags.set o { element.opening with name := name })).validation.findings =
      [.mismatched element.closing.line name element.closing.name element.opening.line]
  closing_renamed : ∀ name, name ≠ element.opening.name →
    (Inspection.ofTags lineCount
        (tags.set c { element.closing with name := name })).validation.findings =
      [.mismatched element.closing.line element.opening.name name element.opening.line]
  closing_missing : (Inspection.ofTags lineCount (tags.eraseIdx c)).validation.findings =
    ((element :: outer).zip outer).filterMap (fun pair => pair.1.closedBy? pair.2) ++
      [.unclosed outermost.opening.name outermost.opening.line]
  opening_missing : (Inspection.ofTags lineCount (tags.eraseIdx o)).validation.findings =
    ((element :: outer).zip outer).filterMap (fun pair => pair.2.closedBy? pair.1) ++
      [.unexpectedClose outermost.closing.line outermost.opening.name]

namespace CleanCut

variable {front inner back : List Tag} {element : Element} {outer : List Element}

theorem afterAll_opening (h : CleanCut front element inner back outer) :
    NestingStack.afterAll [] (front ++ [element.opening]) =
      (element :: outer).map Element.opened := by
  rw [NestingStack.afterAll_append, h.afterAll_front, NestingStack.afterAll_cons,
    NestingStack.after_opening h.opening_kind]
  rfl

theorem paired (h : CleanCut front element inner back outer) :
    Paired ((front ++ element.opening :: (inner ++ element.closing :: back)).map Tag.kind)
      front.length (front ++ element.opening :: inner).length where
  lt := by simp
  opening := by simp [h.opening_kind]
  closing := by
    rw [← List.cons_append, ← List.append_assoc]
    simp [h.closing_kind]
  balanced := by
    have htake : ((front ++ element.opening :: (inner ++ element.closing :: back)).map
        Tag.kind).take (front ++ element.opening :: inner).length =
          front.map Tag.kind ++ .opening :: inner.map Tag.kind := by
      rw [← List.cons_append, ← List.append_assoc, List.map_append, List.take_left' (by simp)]
      simp [h.opening_kind]
    have hdrop : (front.map Tag.kind ++ .opening :: inner.map Tag.kind).drop (front.length + 1) =
        inner.map Tag.kind := by
      rw [List.drop_append]
      simp
    rw [htake, hdrop]
    exact h.wellNested_inner.balanced

theorem run_renamed (h : CleanCut front element inner back outer) {first last : Tag}
    (hfirst : first.kind = .opening) (hlast : last.kind = .closing) :
    NestingStack.findings [] (front ++ first :: (inner ++ last :: back)) =
        (closingFault? last (some ⟨first.name, first.line⟩)).toList ∧
      NestingStack.afterAll [] (front ++ first :: (inner ++ last :: back)) = [] := by
  obtain ⟨hfindings, hafter⟩ := NestingStack.run_around hfirst hlast
    (NestingStack.run_wellNested h.wellNested_inner) (outer.map Element.opened) back
  obtain ⟨hfindings', hafter'⟩ := NestingStack.run_in_turn h.closesInTurn_back
  rw [NestingStack.findings_append, NestingStack.afterAll_append, h.findings_front,
    h.afterAll_front, hfindings, hfindings', hafter, hafter']
  exact ⟨by simp, rfl⟩

theorem run_unclosed (h : CleanCut front element inner back outer) :
    NestingStack.findings [] (front ++ element.opening :: (inner ++ back)) =
        ((element :: outer).zip outer).filterMap (fun pair => pair.1.closedBy? pair.2) ∧
      NestingStack.afterAll [] (front ++ element.opening :: (inner ++ back)) =
        ((element :: outer).getLast?.map Element.opened).toList := by
  have hturn : ClosesInTurn outer (inner ++ back) :=
    ClosesInTurn.append h.wellNested_inner h.closesInTurn_back
  rw [NestingStack.findings_append, NestingStack.afterAll_append, h.findings_front,
    h.afterAll_front, NestingStack.findings_cons, NestingStack.afterAll_cons,
    NestingStack.finding?_opening h.opening_kind, NestingStack.after_opening h.opening_kind]
  exact NestingStack.run_one_more hturn

theorem run_unopened (h : CleanCut front element inner back outer) :
    NestingStack.findings [] (front ++ (inner ++ element.closing :: back)) =
        ((element :: outer).zip outer).filterMap (fun pair => pair.2.closedBy? pair.1) ++
          ((element :: outer).getLast?.map fun last =>
            .unexpectedClose last.closing.line last.opening.name).toList ∧
      NestingStack.afterAll [] (front ++ (inner ++ element.closing :: back)) = [] := by
  have hturn : ClosesInTurn (element :: outer) (inner ++ element.closing :: back) :=
    ⟨inner, back, rfl, h.wellNested_inner, h.closing_kind, h.name_eq, h.closesInTurn_back⟩
  rw [NestingStack.findings_append, NestingStack.afterAll_append, h.findings_front,
    h.afterAll_front]
  exact NestingStack.run_one_less hturn

/-- Nothing but the one fault is found, or what follows from it for the elements around. -/
theorem singleFaultFindings (h : CleanCut front element inner back outer) {outermost : Element}
    (hlast : (element :: outer).getLast? = some outermost) (lineCount : Nat) :
    SingleFaultFindings lineCount
      (front ++ element.opening :: (inner ++ element.closing :: back)) front.length
      (front ++ element.opening :: inner).length element outer outermost := by
  have htags : front ++ element.opening :: (inner ++ element.closing :: back) =
      (front ++ element.opening :: inner) ++ element.closing :: back := by simp
  refine ⟨fun name hname => ?_, fun name hname => ?_, ?_, ?_⟩
  · have hrenamed : { element.opening with name := name }.kind = .opening := h.opening_kind
    have hfault : closingFault? element.closing (some ⟨name, element.opening.line⟩) =
        some (.mismatched element.closing.line name element.closing.name element.opening.line) :=
      if_neg (h.name_eq ▸ hname)
    obtain ⟨hfindings, hafter⟩ := h.run_renamed hrenamed h.closing_kind
    rw [Inspection.findings_ofTags, set_length_front, hfindings, hafter, hfault]
    rfl
  · have hrenamed : { element.closing with name := name }.kind = .closing := h.closing_kind
    have hfault : closingFault? { element.closing with name := name }
        (some ⟨element.opening.name, element.opening.line⟩) =
          some (.mismatched element.closing.line element.opening.name name
            element.opening.line) :=
      if_neg hname.symm
    obtain ⟨hfindings, hafter⟩ := h.run_renamed h.opening_kind hrenamed
    rw [Inspection.findings_ofTags, htags, set_length_front, List.append_assoc, List.cons_append,
      hfindings, hafter, hfault]
    rfl
  · obtain ⟨hfindings, hafter⟩ := h.run_unclosed
    rw [Inspection.findings_ofTags, htags, eraseIdx_length_front, List.append_assoc,
      List.cons_append, hfindings, hafter, hlast]
    rfl
  · obtain ⟨hfindings, hafter⟩ := h.run_unopened
    rw [Inspection.findings_ofTags, eraseIdx_length_front, hfindings, hafter, hlast]
    exact List.append_nil _

end CleanCut

/-- In a document without findings each opening tag has its closing tag, and this is what is found
if one of the two has another name or is missing. -/
theorem findings_of_single_fault {lineCount : Nat} {tags : List Tag} {o : Nat} {opening : Tag}
    (hclean : (Inspection.ofTags lineCount tags).validation.findings = [])
    (ho : tags[o]? = some opening) (hkind : opening.kind = .opening) :
    ∃ c closing outer outermost, Paired (tags.map Tag.kind) o c ∧ tags[c]? = some closing ∧
      elementsAround tags o = ⟨opening, closing⟩ :: outer ∧
      (NestingStack.walk [] (tags.take (o + 1))).stack =
        (⟨opening, closing⟩ :: outer).map Element.opened ∧
      (⟨opening, closing⟩ :: outer).getLast? = some outermost ∧
      SingleFaultFindings lineCount tags o c ⟨opening, closing⟩ outer outermost := by
  obtain ⟨front, rest, rfl, rfl⟩ : ∃ front rest, front.length = o ∧
      front ++ opening :: rest = tags := by
    obtain ⟨hlt, rfl⟩ := List.getElem?_eq_some_iff.mp ho
    exact ⟨tags.take o, tags.drop (o + 1), by simp [Nat.le_of_lt hlt], by simp⟩
  rw [Inspection.findings_ofTags, List.append_eq_nil_iff, NestingStack.unclosed_eq_nil_iff]
    at hclean
  obtain ⟨closing, inner, back, outer, rfl, h⟩ := exists_cleanCut hclean.1 hclean.2 hkind
  obtain ⟨outermost, hlast⟩ : ∃ outermost, (⟨opening, closing⟩ :: outer).getLast? =
      some outermost := ⟨_, List.getLast?_eq_some_getLast (List.cons_ne_nil _ _)⟩
  have hclosing : (front ++ opening :: (inner ++ closing :: back))[
      (front ++ opening :: inner).length]? = some closing := by
    rw [← List.cons_append, ← List.append_assoc]
    simp
  have hstack : (NestingStack.walk [] ((front ++ opening :: (inner ++ closing :: back)).take
      (front.length + 1))).stack = (⟨opening, closing⟩ :: outer).map Element.opened := by
    rw [List.append_cons, List.take_left' (by simp)]
    exact h.afterAll_opening
  exact ⟨_, closing, outer, outermost, h.paired, hclosing, h.elementsAround_eq, hstack, hlast,
    h.singleFaultFindings hlast lineCount⟩

theorem findings_of_single_fault_in_paragraph :
    let tags : List Tag := [⟨.opening, "html", 1⟩, ⟨.opening, "nav", 2⟩, ⟨.closing, "nav", 2⟩,
      ⟨.opening, "div", 3⟩, ⟨.opening, "p", 4⟩, ⟨.closing, "p", 4⟩, ⟨.closing, "div", 5⟩,
      ⟨.closing, "html", 6⟩]
    (Inspection.ofTags 6 tags).validation.findings = [] ∧
      ∃ c closing outer outermost, Paired (tags.map Tag.kind) 4 c ∧ tags[c]? = some closing ∧
        elementsAround tags 4 = ⟨⟨.opening, "p", 4⟩, closing⟩ :: outer ∧
        (NestingStack.walk [] (tags.take 5)).stack =
          (⟨⟨.opening, "p", 4⟩, closing⟩ :: outer).map Element.opened ∧
        (⟨⟨.opening, "p", 4⟩, closing⟩ :: outer).getLast? = some outermost ∧
        SingleFaultFindings 6 tags 4 c ⟨⟨.opening, "p", 4⟩, closing⟩ outer outermost :=
  ⟨by decide, findings_of_single_fault (by decide) rfl rfl⟩

end TagLint
