import TagLint.Log
import TagLint.Proofs.NestingRun
import TagLint.Proofs.TextBlocks

/-! The log of a check as a replay of it. The messages of pushes and pops, carried out in their
order, lead to the elements left open and to nothing else, and the other messages are those of
the findings. -/

namespace TagLint

def messagesAt (level : Level) (log : List Event) : List String :=
  (log.filter (·.level == level)).map Event.text

/-- Messages carried out on a stack. A pop has to name the innermost element. -/
inductive Replays : NestingStack → List String → NestingStack → Prop
  | done (stack : NestingStack) : Replays stack [] stack
  | push {stack final : NestingStack} {element : OpenElement} {messages : List String}
      (hrest : Replays (element :: stack) messages final) :
      Replays stack (("push " ++ Event.frameText element) :: messages) final
  | pop {stack final : NestingStack} {element : OpenElement} {messages : List String}
      (hrest : Replays stack messages final) :
      Replays (element :: stack) (("pop " ++ Event.frameText element) :: messages) final

def tellsPush (message : String) : Bool :=
  "push ".toList.isPrefixOf message.toList

def tellsPop (message : String) : Bool :=
  "pop ".toList.isPrefixOf message.toList

section Messages

variable {element other : OpenElement}

theorem toList_frameText (element : OpenElement) :
    (Event.frameText element).toList =
      '<' :: (element.name.toList ++ "> (line".toList) ++ ' ' ::
        (Nat.toDigits 10 element.line ++ [')']) := by
  have hfront : "<".toList = ['<'] := by simp
  have hmark : "> (line ".toList = "> (line".toList ++ [' '] := by simp
  have hend : ")".toList = [')'] := by simp
  simp only [Event.frameText, String.toList_append, hfront, hmark, hend, Nat.toString_eq_repr,
    Nat.toList_repr, List.append_assoc, List.cons_append, List.nil_append]

/-- The last space stands before the number, whatever the name. -/
theorem frameText_injective : Function.Injective Event.frameText := by
  intro element other h
  have hchars := congrArg String.toList h
  rw [toList_frameText, toList_frameText] at hchars
  have hspace : ∀ number, ' ' ∉ Nat.toDigits 10 number ++ [')'] := by
    intro number
    have hdigits : ' ' ∉ Nat.toDigits 10 number := not_mem_toDigits rfl number
    simp [hdigits]
  obtain ⟨hname, hline⟩ := eq_of_append_cons_eq_of_back (hspace element.line) (hspace other.line)
    (List.cons.inj hchars).2
  have hnames := String.toList_inj.mp (List.append_cancel_right hname)
  have hlines := toDigits_injective (List.append_cancel_right hline)
  cases element
  cases other
  simp_all

@[simp]
theorem tellsPush_push (element : OpenElement) :
    tellsPush ("push " ++ Event.frameText element) = true := by
  simp [tellsPush]

@[simp]
theorem tellsPush_pop (element : OpenElement) :
    tellsPush ("pop " ++ Event.frameText element) = false := by
  simp [tellsPush, List.isPrefixOf]

@[simp]
theorem tellsPop_push (element : OpenElement) :
    tellsPop ("push " ++ Event.frameText element) = false := by
  simp [tellsPop, List.isPrefixOf]

@[simp]
theorem tellsPop_pop (element : OpenElement) :
    tellsPop ("pop " ++ Event.frameText element) = true := by
  simp [tellsPop]

end Messages

namespace Replays

variable {stack middle final : NestingStack} {element : OpenElement} {messages more : List String}

theorem of_push (h : Replays stack (("push " ++ Event.frameText element) :: messages) final) :
    Replays (element :: stack) messages final := by
  generalize hall : ("push " ++ Event.frameText element) :: messages = all at h
  cases h with
  | done => cases hall
  | push hrest =>
    obtain ⟨hmessage, rfl⟩ := List.cons.inj hall
    rw [String.append_right_inj] at hmessage
    rwa [frameText_injective hmessage]
  | pop _ =>
    have htells := congrArg tellsPush (List.cons.inj hall).1
    simp at htells

theorem of_pop (h : Replays stack (("pop " ++ Event.frameText element) :: messages) final) :
    ∃ outer, stack = element :: outer ∧ Replays outer messages final := by
  generalize hall : ("pop " ++ Event.frameText element) :: messages = all at h
  cases h with
  | done => cases hall
  | push _ =>
    have htells := congrArg tellsPush (List.cons.inj hall).1
    simp at htells
  | pop hrest =>
    obtain ⟨hmessage, rfl⟩ := List.cons.inj hall
    rw [String.append_right_inj] at hmessage
    exact ⟨_, by rw [frameText_injective hmessage], hrest⟩

theorem append (h : Replays stack messages middle) (hmore : Replays middle more final) :
    Replays stack (messages ++ more) final := by
  induction h with
  | done => exact hmore
  | push _ ih => exact .push (ih hmore)
  | pop _ ih => exact .pop (ih hmore)

theorem unique {other : NestingStack} (h : Replays stack messages final)
    (hother : Replays stack messages other) : final = other := by
  induction h with
  | done =>
    cases hother
    rfl
  | push _ ih => exact ih hother.of_push
  | pop _ ih =>
    obtain ⟨outer, houter, hrest⟩ := hother.of_pop
    cases houter
    exact ih hrest

end Replays

section Steps

@[simp]
theorem messagesAt_append (level : Level) (log more : List Event) :
    messagesAt level (log ++ more) = messagesAt level log ++ messagesAt level more := by
  simp [messagesAt]

def traceOf (steps : List Step) : List String :=
  messagesAt .trace (steps.map Event.step)

@[simp]
theorem traceOf_push (element : OpenElement) (steps : List Step) :
    traceOf (.push element :: steps) = ("push " ++ Event.frameText element) :: traceOf steps :=
  rfl

@[simp]
theorem traceOf_pop (element : OpenElement) (steps : List Step) :
    traceOf (.pop element :: steps) = ("pop " ++ Event.frameText element) :: traceOf steps :=
  rfl

@[simp]
theorem traceOf_report (finding : Finding) (steps : List Step) :
    traceOf (.report finding :: steps) = traceOf steps :=
  rfl

@[simp]
theorem traceOf_nil : traceOf [] = [] :=
  rfl

theorem traceOf_append (steps more : List Step) :
    traceOf (steps ++ more) = traceOf steps ++ traceOf more := by
  simp [traceOf]

variable {stack : NestingStack} {tag : Tag}

theorem traceOf_meet_opening (h : tag.kind = .opening) (stack : NestingStack) :
    traceOf (stack.meet tag).steps = ["push " ++ Event.frameText ⟨tag.name, tag.line⟩] := by
  simp only [NestingStack.meet, h]
  rfl

theorem traceOf_meet_closing (h : tag.kind = .closing) (stack : NestingStack) :
    traceOf (stack.meet tag).steps =
      (stack.head?.map fun element => "pop " ++ Event.frameText element).toList := by
  simp only [NestingStack.meet, h]
  cases stack with
  | nil => rfl
  | cons element outer =>
    cases hfault : closingFault? tag (some element) with
    | none => simp [NestingStack.apply, hfault]
    | some fault => simp [NestingStack.apply, hfault]

theorem replays_meet (stack : NestingStack) (tag : Tag) :
    Replays stack (traceOf (stack.meet tag).steps) (stack.after tag) := by
  cases h : tag.kind with
  | opening =>
    rw [traceOf_meet_opening h, NestingStack.after_opening h]
    exact .push (.done _)
  | closing =>
    rw [traceOf_meet_closing h, NestingStack.after_closing h]
    cases stack with
    | nil => exact .done _
    | cons element outer => exact .pop (.done _)

theorem replays_walk (stack : NestingStack) (tags : List Tag) :
    Replays stack (traceOf (stack.walk tags).steps) (stack.afterAll tags) := by
  induction tags generalizing stack with
  | nil => exact .done _
  | cons tag tags ih =>
    rw [NestingStack.walk, traceOf_append, NestingStack.afterAll_cons]
    have hrest := ih (stack.after tag)
    rw [← NestingStack.meet_stack] at hrest
    exact (replays_meet stack tag).append (by simpa [NestingStack.meet_stack] using hrest)

theorem pushes_meet (stack : NestingStack) (tag : Tag) :
    (traceOf (stack.meet tag).steps).filter tellsPush =
      if tag.kind == .opening then ["push " ++ Event.frameText ⟨tag.name, tag.line⟩] else [] := by
  cases h : tag.kind with
  | opening => simp [traceOf_meet_opening h]
  | closing =>
    rw [traceOf_meet_closing h]
    cases stack <;> simp

theorem pushes_walk (stack : NestingStack) (tags : List Tag) :
    (traceOf (stack.walk tags).steps).filter tellsPush =
      (tags.filter (·.kind == .opening)).map fun tag =>
        "push " ++ Event.frameText ⟨tag.name, tag.line⟩ := by
  induction tags generalizing stack with
  | nil => rfl
  | cons tag tags ih =>
    rw [NestingStack.walk, traceOf_append, List.filter_append, pushes_meet, ih, List.filter_cons]
    split <;> simp

/-- A closing tag takes an element off, or there is none and it is unexpected. -/
theorem pops_meet (stack : NestingStack) (tag : Tag) :
    (traceOf (stack.meet tag).steps).countP tellsPop +
        (stack.finding? tag).toList.countP (·.kind == .unexpectedClose) =
      if tag.kind == .closing then 1 else 0 := by
  cases h : tag.kind with
  | opening => simp [traceOf_meet_opening h, NestingStack.finding?_opening h]
  | closing =>
    rw [traceOf_meet_closing h, NestingStack.finding?_closing h]
    cases stack with
    | nil => rfl
    | cons element outer =>
      have hfault := countP_closingFault? tag element []
      rw [List.append_nil, List.countP_nil] at hfault
      simp [hfault]

theorem pops_walk (stack : NestingStack) (tags : List Tag) :
    (traceOf (stack.walk tags).steps).countP tellsPop +
        (stack.findings tags).countP (·.kind == .unexpectedClose) =
      tags.countP (·.kind == .closing) := by
  induction tags generalizing stack with
  | nil => rfl
  | cons tag tags ih =>
    rw [NestingStack.walk, traceOf_append, NestingStack.findings_cons, List.countP_append,
      List.countP_append, List.countP_cons, ← ih (stack.after tag), ← pops_meet stack tag,
      NestingStack.meet_stack]
    omega

theorem messagesAt_debug_steps (steps : List Step) :
    messagesAt .debug (steps.map Event.step) =
      (steps.filterMap Step.finding?).map Finding.message := by
  induction steps with
  | nil => rfl
  | cons step steps ih =>
    rw [← List.singleton_append, List.map_append, messagesAt_append, ih, List.filterMap_append,
      List.map_append]
    cases step <;> rfl

end Steps

section Check

variable (scanner : Scanner) (lines : List String)

theorem traceOf_leftOpen (stack : NestingStack) : traceOf stack.leftOpen = [] := by
  rw [NestingStack.leftOpen]
  induction stack.outermostFirst with
  | nil => rfl
  | cons element outer ih => rw [List.map_cons, traceOf_report, ih]

theorem trace_events :
    messagesAt .trace (scanner.inspect lines).events =
      traceOf (NestingStack.walk [] (scanner.scanLines lines)).steps := by
  have hsteps : (scanner.inspect lines).steps =
      (NestingStack.walk [] (scanner.scanLines lines)).steps ++
        (NestingStack.walk [] (scanner.scanLines lines)).stack.leftOpen := rfl
  have hsummary (numbers findings unclosed : Nat) :
      messagesAt .trace [.checked numbers findings unclosed] = [] := rfl
  rw [Inspection.events, messagesAt_append, ← traceOf, hsteps, traceOf_append, traceOf_leftOpen,
    hsummary, List.append_nil, List.append_nil]

theorem debug_events :
    ∃ summary, messagesAt .debug (scanner.inspect lines).events =
      (scanner.validate lines).findings.map Finding.message ++ [summary] := by
  rw [Inspection.events, messagesAt_append, messagesAt_debug_steps]
  exact ⟨_, rfl⟩

theorem count_unclosed_validate :
    (scanner.validate lines).count .unclosed = (scanner.inspect lines).openAtEnd.length :=
  Inspection.count_unclosed_ofTags _ _

theorem getLast?_events :
    (scanner.inspect lines).events.getLast? =
      some (.checked lines.length (scanner.validate lines).findings.length
        ((scanner.validate lines).count .unclosed)) := by
  rw [count_unclosed_validate, Inspection.events, List.getLast?_concat]
  rfl

end Check

/-- The log of a check tells all of it. The messages about the stack can be carried out, in one
way only, and the summary is true. -/
theorem log_replays_check (scanner : Scanner) (lines : List String) :
    let log := (scanner.inspect lines).events
    let validation := scanner.validate lines
    let tags := (lines.zipIdx 1).flatMap fun numbered => scanner.scanLine numbered.1 numbered.2
    (messagesAt .debug log).dropLast = validation.findings.map Finding.message ∧
    (∃ stack : NestingStack, stack.unclosed = validation.unclosed ∧
      ∀ other, Replays [] (messagesAt .trace log) other ↔ other = stack) ∧
    ((messagesAt .trace log).filter tellsPush =
      (tags.filter (·.kind == .opening)).map fun tag =>
        "push " ++ Event.frameText ⟨tag.name, tag.line⟩) ∧
    (messagesAt .trace log).countP tellsPop + validation.count .unexpectedClose =
      tags.countP (·.kind == .closing) ∧
    log.getLast?.map (fun event => (event.level, event.text)) =
      some (.debug, "Checked " ++ toString lines.length ++ " lines: " ++
        toString validation.findings.length ++ " diagnostics, " ++
        toString (validation.count .unclosed) ++ " unclosed") := by
  intro log validation tags
  refine ⟨?_, ?_, ?_, ?_, ?_⟩
  · obtain ⟨summary, hdebug⟩ := debug_events scanner lines
    rw [hdebug, List.dropLast_concat]
  · refine ⟨NestingStack.afterAll [] tags, (scanner.unclosed_validate lines).symm, fun other => ?_⟩
    have hreplays := replays_walk [] tags
    rw [trace_events]
    exact ⟨fun h => h.unique hreplays, fun h => h ▸ hreplays⟩
  · rw [trace_events]
    exact pushes_walk [] tags
  · rw [trace_events, Scanner.count_unexpectedClose_validate]
    exact pops_walk [] tags
  · rw [getLast?_events]
    rfl

end TagLint
