import Mathlib.Data.List.Forall2
import Mathlib.Data.List.TakeWhile
import TagLint.Proofs.JsonReader

/-! Written JSON reads back as the value that was written. Each reader takes the text of
its value and leaves what stands behind it, as long as that does not go on with a word. -/

namespace TagLint.Json

open Reader

variable {α : Type}

def EndsWord (rest : List Char) : Prop :=
  ∀ c ∈ rest.head?, c.isAlphanum = false

def isCloser (c : Char) : Bool :=
  c == ']' || c == '\x7d'

/-- The reader takes the text for the value. The text does not begin with a blank or with a
bracket that closes something. -/
structure Takes (reader : Reader α) (text : List Char) (value : α) : Prop where
  head : ∃ c rest, text = c :: rest ∧ isSpace c = false ∧ isCloser c = false
  read : ∀ rest, EndsWord rest → reader.read (text ++ rest) = some (value, rest)

theorem endsWord_cons {c : Char} (h : c.isAlphanum = false) (rest : List Char) :
    EndsWord (c :: rest) := by
  intro d hd
  rw [List.head?_cons, Option.mem_some] at hd
  rw [← hd, h]

theorem isAlphanum_of_isSpace {c : Char} (h : isSpace c = true) : c.isAlphanum = false := by
  simp only [isSpace, Bool.or_eq_true, beq_iff_eq] at h
  rcases h with ((rfl | rfl) | rfl) | rfl <;> rfl

theorem isAlphanum_of_isCloser {c : Char} (h : isCloser c = true) : c.isAlphanum = false := by
  simp only [isCloser, Bool.or_eq_true, beq_iff_eq] at h
  rcases h with rfl | rfl <;> rfl

theorem skipSpace_append {space : List Char} (h : ∀ c ∈ space, isSpace c = true)
    (text : List Char) : skipSpace (space ++ text) = skipSpace text :=
  List.dropWhile_append_of_pos h

theorem skipSpace_cons {c : Char} (h : isSpace c = false) (rest : List Char) :
    skipSpace (c :: rest) = c :: rest := by
  simp [skipSpace, h]

theorem isSpace_of_mem_indent {depth : Nat} {c : Char} (h : c ∈ indent depth) :
    isSpace c = true := by
  rw [(List.mem_replicate.mp h).2]
  decide

theorem Takes.afterSpace {reader : Reader α} {text : List Char} {value : α}
    (h : Takes reader text value) {space rest : List Char} (hspace : ∀ c ∈ space, isSpace c = true)
    (hrest : EndsWord rest) :
    (afterSpace reader).read (space ++ (text ++ rest)) = some (value, rest) := by
  obtain ⟨c, tail, htext, hc, _⟩ := h.head
  have hskip : skipSpace (space ++ (text ++ rest)) = text ++ rest := by
    rw [skipSpace_append hspace, htext, List.cons_append, skipSpace_cons hc]
  rw [Json.afterSpace, behind_read, hskip, h.read rest hrest]

theorem afterSpace_mark {space : List Char} (hspace : ∀ c ∈ space, isSpace c = true) {c d : Char}
    (hd : isSpace d = false) (rest : List Char) :
    (afterSpace (mark c)).read (space ++ d :: rest) = if d = c then some ((), rest) else none := by
  rw [Json.afterSpace, behind_read, skipSpace_append hspace, skipSpace_cons hd, mark_read_cons]

theorem afterSpace_mark_cons {c d : Char} (hd : isSpace d = false) (rest : List Char) :
    (afterSpace (mark c)).read (d :: rest) = if d = c then some ((), rest) else none :=
  afterSpace_mark (List.forall_mem_nil _) hd rest

theorem Takes.afterSpace_closer {reader : Reader α} {text : List Char} {value : α}
    (h : Takes reader text value) {space : List Char} (hspace : ∀ c ∈ space, isSpace c = true)
    {closer : Char} (hcloser : isCloser closer = true) (rest : List Char) :
    (Json.afterSpace (mark closer)).read (space ++ (text ++ rest)) = none := by
  obtain ⟨c, tail, rfl, hc, hopen⟩ := h.head
  have hne : c ≠ closer := by
    rintro rfl
    rw [hopen] at hcloser
    exact Bool.noConfusion hcloser
  rw [List.cons_append, afterSpace_mark hspace hc, if_neg hne]

/-! Texts in quotes. -/

theorem codeUnit_read {n : Nat} (h : n < 0x20) (rest : List Char) :
    codeUnit.read ('u' :: '0' :: '0' :: (n / 16).digitChar :: (n % 16).digitChar :: rest) =
      some (n, rest) := by
  have hzero : hexValue? '0' = some 0 := rfl
  have hhigh := hexValue?_digitChar (n / 16) (by omega)
  have hlow := hexValue?_digitChar (n % 16) (by omega)
  have hsum : 16 * (n / 16) + n % 16 = n := Nat.div_add_mod n 16
  simp [codeUnit, hexNumber, hzero, hhigh, hlow, hsum]

theorem escape_cases (c : Char) :
    (∃ d, escape c = ['\\', d] ∧ shortEscape? d = some c) ∨
      (c.toNat < 0x20 ∧ escape c =
        ['\\', 'u', '0', '0', (c.toNat / 16).digitChar, (c.toNat % 16).digitChar]) ∨
      (0x20 ≤ c.toNat ∧ c ≠ '"' ∧ c ≠ '\\' ∧ escape c = [c]) := by
  unfold escape
  split
  · exact .inl ⟨_, rfl, rfl⟩
  · exact .inl ⟨_, rfl, rfl⟩
  · exact .inl ⟨_, rfl, rfl⟩
  · exact .inl ⟨_, rfl, rfl⟩
  · exact .inl ⟨_, rfl, rfl⟩
  · exact .inl ⟨_, rfl, rfl⟩
  · exact .inl ⟨_, rfl, rfl⟩
  · next hquote hbackslash _ _ _ _ _ =>
    by_cases h : c.toNat < 0x20
    · rw [if_pos h]
      exact .inr (.inl ⟨h, rfl⟩)
    · rw [if_neg h]
      exact .inr (.inr ⟨Nat.le_of_not_lt h, hquote, hbackslash, rfl⟩)

theorem escape_read (c : Char) (rest : List Char) :
    (plainChar.orElse escapedChar).read (escape c ++ rest) = some (c, rest) := by
  rcases escape_cases c with ⟨d, hescape, hd⟩ | ⟨h, hescape⟩ | ⟨h, hquote, hbackslash, hescape⟩
  · simp [hescape, plainChar, escapedChar, hd]
  · have hunit := codeUnit_read h rest
    simp [hescape, plainChar, escapedChar, shortEscape?, hunit, ofCodePoint?_toNat]
  · simp [hescape, plainChar, hquote, hbackslash, h]

theorem escape_head (c : Char) : ∃ d rest, escape c = d :: rest ∧ d ≠ '"' := by
  rcases escape_cases c with ⟨d, hescape, _⟩ | ⟨_, hescape⟩ | ⟨_, hquote, _, hescape⟩
  · exact ⟨'\\', [d], hescape, by decide⟩
  · exact ⟨'\\', _, hescape, by decide⟩
  · exact ⟨c, [], hescape, hquote⟩

theorem readPieces_escape (chars rest : List Char) :
    readPieces (plainChar.orElse escapedChar) (mark '"') (chars.flatMap escape ++ '"' :: rest) =
      some ((chars, ()), rest) := by
  induction chars with
  | nil => rw [readPieces_eq]; simp
  | cons c chars ih =>
    have hclosing : (mark '"').read (escape c ++ (chars.flatMap escape ++ '"' :: rest)) = none := by
      obtain ⟨d, later, hescape, hd⟩ := escape_head c
      rw [hescape, List.cons_append, mark_read_cons, if_neg hd]
    rw [List.flatMap_cons, List.append_assoc, readPieces_eq, hclosing, escape_read]
    simp [ih]

theorem takes_quoted (s : String) : Takes quotedText (quoted s) s where
  head := ⟨'"', _, rfl, by decide⟩
  read rest _ := by
    have hbody := readPieces_escape s.toList rest
    simp [quotedText, quoted, hbody]

/-! Words. -/

theorem takes_scalar {text : List Char} {json : Json} (hne : text ≠ [])
    (htext : ∀ c ∈ text, c.isAlphanum = true) (hjson : scalar? text = some json) :
    Takes scalar text json where
  head := by
    obtain ⟨c, rest, rfl⟩ := List.exists_cons_of_ne_nil hne
    have hc := htext c List.mem_cons_self
    refine ⟨c, rest, rfl, Bool.eq_false_iff.mpr fun hspace => ?_,
      Bool.eq_false_iff.mpr fun hcloser => ?_⟩
    · exact absurd hc (by simp [isAlphanum_of_isSpace hspace])
    · exact absurd hc (by simp [isAlphanum_of_isCloser hcloser])
  read rest hrest := by
    rw [scalar, filterMap_read, word_read hne htext hrest]
    simp [hjson]

theorem toDigits_head (n : Nat) :
    (Nat.toDigits 10 n).head? = some '0' → Nat.toDigits 10 n = ['0'] := by
  induction n using Nat.strongRecOn with
  | ind n ih =>
    rw [Nat.toDigits_eq_if (by decide)]
    by_cases h : n < 10
    · simp [h]
    · rw [if_neg h, List.head?_append_of_ne_nil _ Nat.toDigits_ne_nil]
      intro hhead
      have hvalue := congrArg (Nat.ofDigitChars 10 · 0) (ih (n / 10) (by omega) hhead)
      have hzero : n / 10 = 0 := by simpa [Nat.ofDigitChars_cons] using hvalue
      omega

theorem number?_toDigits (n : Nat) : number? (Nat.toDigits 10 n) = some n := by
  have hdigits : (Nat.toDigits 10 n).all Char.isDigit = true :=
    List.all_eq_true.mpr fun c hc => Nat.isDigit_of_mem_toDigits (by decide) (by decide) hc
  rw [number?, if_pos ⟨hdigits, toDigits_head n⟩, Nat.ofDigitChars_ten_toDigits]

theorem isAlphanum_of_mem_toDigits {n : Nat} {c : Char} (h : c ∈ Nat.toDigits 10 n) :
    c.isAlphanum = true := by
  rw [Char.isAlphanum, Nat.isDigit_of_mem_toDigits (by decide) (by decide) h, Bool.or_true]

theorem scalar?_toDigits (n : Nat) : scalar? (Nat.toDigits 10 n) = some (.number n) := by
  have hdigit : ∀ c ∈ Nat.toDigits 10 n, c.isDigit = true :=
    fun c hc => Nat.isDigit_of_mem_toDigits (by decide) (by decide) hc
  have htrue : Nat.toDigits 10 n ≠ "true".toList := fun h =>
    absurd (hdigit 't' (by rw [h]; decide)) (by decide)
  have hfalse : Nat.toDigits 10 n ≠ "false".toList := fun h =>
    absurd (hdigit 'f' (by rw [h]; decide)) (by decide)
  rw [scalar?, if_neg htrue, if_neg hfalse, number?_toDigits, Option.map_some]

/-! Members between brackets. -/

theorem Takes.map {β : Type} {reader : Reader α} {text : List Char} {value : α}
    (h : Takes reader text value) (f : α → β) : Takes (reader.map f) text (f value) where
  head := h.head
  read rest hrest := by rw [map_read, h.read rest hrest, Option.map_some]

theorem Takes.orElse_left {first : Reader α} {text : List Char} {value : α}
    (h : Takes first text value) (second : Reader α) : Takes (first.orElse second) text value where
  head := h.head
  read rest hrest := by rw [orElse_read, h.read rest hrest, Option.some_or]

theorem Takes.orElse_right {first second : Reader α} {text : List Char} {value : α}
    (h : Takes second text value) (hfirst : ∀ rest, first.read (text ++ rest) = none) :
    Takes (first.orElse second) text value where
  head := h.head
  read rest hrest := by rw [orElse_read, hfirst, Option.none_or, h.read rest hrest]

theorem intercalate_cons (separator text : List Char) (texts : List (List Char)) :
    separator.intercalate (text :: texts) = text ++ texts.flatMap (separator ++ ·) := by
  induction texts generalizing text with
  | nil => rw [List.intercalate_singleton, List.flatMap_nil, List.append_nil]
  | cons next texts ih =>
    rw [List.intercalate_cons_cons, ih, List.flatMap_cons, List.append_assoc, List.append_assoc]

/-- The members behind the first one, up to what closes them. -/
def laterMembers (space : List Char) (texts : List (List Char)) (closing : List Char) : List Char :=
  texts.flatMap (fun text => ',' :: (space ++ text)) ++ closing

theorem endsWord_laterMembers (space : List Char) (texts : List (List Char)) {closing : List Char}
    (h : EndsWord closing) : EndsWord (laterMembers space texts closing) := by
  cases texts with
  | nil => exact h
  | cons text texts => exact endsWord_cons (by decide) _

theorem ne_comma_of_isCloser {closer : Char} (h : isCloser closer = true) : ',' ≠ closer := by
  rintro rfl
  exact absurd h (by decide)

theorem isSpace_of_isCloser {closer : Char} (h : isCloser closer = true) :
    isSpace closer = false := by
  simp only [isCloser, Bool.or_eq_true, beq_iff_eq] at h
  rcases h with rfl | rfl <;> rfl

section

variable {member : Reader α} {text : List Char} {value : α} {texts : List (List Char)}
  {values : List α} {space : List Char} {closer : Char} {closing rest : List Char}

theorem readPieces_laterMembers (h : List.Forall₂ (Takes member) texts values)
    (hspace : ∀ c ∈ space, isSpace c = true) (hcloser : isCloser closer = true)
    (hclosing : (afterSpace (mark closer)).read closing = some ((), rest))
    (hends : EndsWord closing) :
    readPieces ((afterSpace (mark ',')).andThen fun _ => afterSpace member)
      (afterSpace (mark closer)) (laterMembers space texts closing) = some ((values, ()), rest) := by
  induction h with
  | nil => rw [laterMembers, List.flatMap_nil, List.nil_append, readPieces_eq, hclosing]
  | @cons text value texts values htakes _ ih =>
    let behind := laterMembers space texts closing
    have hlater : laterMembers space (text :: texts) closing = ',' :: (space ++ (text ++ behind)) := by
      simp [laterMembers, behind]
    have hcomma (c : Char) : (afterSpace (mark c)).read (',' :: (space ++ (text ++ behind))) =
        if ',' = c then some ((), space ++ (text ++ behind)) else none :=
      afterSpace_mark_cons rfl _
    have hmember : (afterSpace member).read (space ++ (text ++ behind)) = some (value, behind) :=
      htakes.afterSpace hspace (endsWord_laterMembers space texts hends)
    rw [hlater, readPieces_eq, hcomma closer, if_neg (ne_comma_of_isCloser hcloser)]
    simp [hcomma ',', hmember, ih, behind]

theorem members_read (h : List.Forall₂ (Takes member) (text :: texts) (value :: values))
    (hspace : ∀ c ∈ space, isSpace c = true) (hcloser : isCloser closer = true)
    (hclosing : (afterSpace (mark closer)).read closing = some ((), rest))
    (hends : EndsWord closing) (opener : Char) :
    (members opener closer member).read
        (opener :: (space ++ (text ++ laterMembers space texts closing))) =
      some (value :: values, rest) := by
  obtain ⟨htakes, hlater⟩ := List.forall₂_cons.mp h
  have hfirst := htakes.afterSpace hspace (endsWord_laterMembers space texts hends)
  have hopen := htakes.afterSpace_closer hspace hcloser (laterMembers space texts closing)
  have hpieces := readPieces_laterMembers hlater hspace hcloser hclosing hends
  simp [members, hopen, hfirst, hpieces]

theorem takes_bracketed (h : List.Forall₂ (Takes member) texts values) {opener : Char}
    (hopener : isSpace opener = false ∧ isCloser opener = false)
    (hcloser : isCloser closer = true) (depth : Nat) :
    Takes (members opener closer member) (bracketed opener closer depth texts) values where
  head := by
    cases texts with
    | nil => exact ⟨opener, [closer], rfl, hopener⟩
    | cons text texts => exact ⟨opener, _, rfl, hopener⟩
  read rest _ := by
    have hspace := isSpace_of_isCloser hcloser
    cases h with
    | nil =>
      have hclosing : (afterSpace (mark closer)).read (closer :: rest) = some ((), rest) := by
        rw [afterSpace_mark_cons hspace, if_pos rfl]
      simp [members, bracketed, hclosing]
    | @cons text value texts values htakes hlater =>
      have hindent : ∀ depth, ∀ c ∈ '\n' :: indent depth, isSpace c = true := by
        intro depth c hc
        rcases List.mem_cons.mp hc with rfl | hc
        · rfl
        · exact isSpace_of_mem_indent hc
      let closing := ('\n' :: indent depth) ++ closer :: rest
      have hclosing : (afterSpace (mark closer)).read closing = some ((), rest) := by
        rw [afterSpace_mark (hindent depth) hspace, if_pos rfl]
      have htext : bracketed opener closer depth (text :: texts) ++ rest =
          opener :: (('\n' :: indent (depth + 1)) ++
            (text ++ laterMembers ('\n' :: indent (depth + 1)) texts closing)) := by
        simp [bracketed, laterMembers, closing, intercalate_cons, List.flatMap_map]
      rw [htext]
      exact members_read (.cons htakes hlater) (hindent (depth + 1)) hcloser hclosing
        (endsWord_cons (by decide) _) opener

end

/-! Values. -/

theorem quotedText_read_none {c : Char} (h : c ≠ '"') (rest : List Char) :
    quotedText.read (c :: rest) = none := by
  simp [quotedText, h]

theorem scalar_read_none {c : Char} (h : c.isAlphanum = false) (rest : List Char) :
    scalar.read (c :: rest) = none := by
  simp [scalar, h]

theorem members_read_none {c opener : Char} (h : c ≠ opener) (closer : Char) (member : Reader α)
    (rest : List Char) : (members opener closer member).read (c :: rest) = none := by
  simp [members, h]

theorem takes_field {reader : Reader Json} {text : List Char} {json : Json}
    (h : Takes reader text json) (key : String) :
    Takes (field reader) (quoted key ++ [':', ' '] ++ text) (key, json) where
  head := ⟨'"', _, rfl, by decide⟩
  read rest hrest := by
    have hkey := (takes_quoted key).read (':' :: ' ' :: (text ++ rest)) (endsWord_cons (by decide) _)
    have hcolon : (afterSpace (mark ':')).read (':' :: ' ' :: (text ++ rest)) =
        some ((), ' ' :: (text ++ rest)) := by rw [afterSpace_mark_cons rfl, if_pos rfl]
    have hspace : ∀ c ∈ [' '], isSpace c = true := List.forall_mem_singleton.mpr rfl
    have hvalue : (afterSpace reader).read (' ' :: (text ++ rest)) = some (json, rest) :=
      h.afterSpace hspace hrest
    have htext : quoted key ++ [':', ' '] ++ text ++ rest =
        quoted key ++ ':' :: ' ' :: (text ++ rest) := by simp
    rw [htext, field, andThen_read, hkey]
    simp [hcolon, hvalue]

theorem takes_text (s : String) (depth : Nat) :
    Takes (value (depth + 1)) (quoted s) (.text s) := by
  rw [value]
  exact ((takes_quoted s).map Json.text).orElse_left _

theorem takes_word {text : List Char} {json : Json} (hne : text ≠ [])
    (htext : ∀ c ∈ text, c.isAlphanum = true) (hjson : scalar? text = some json) (depth : Nat) :
    Takes (value (depth + 1)) text json := by
  rw [value]
  refine .orElse_right ((takes_scalar hne htext hjson).orElse_left _) fun rest => ?_
  obtain ⟨c, tail, rfl⟩ := List.exists_cons_of_ne_nil hne
  have hc : c ≠ '"' := by
    rintro rfl
    exact absurd (htext '"' List.mem_cons_self) (by decide)
  rw [List.cons_append, map_read, quotedText_read_none hc, Option.map_none]

theorem takes_list {items : List Json} {texts : List (List Char)} {depth : Nat}
    (h : List.Forall₂ (Takes (value depth)) texts items) (level : Nat) :
    Takes (value (depth + 1)) (bracketed '[' ']' level texts) (.list items) := by
  have htakes := takes_bracketed h (show isSpace '[' = false ∧ isCloser '[' = false by decide)
    (show isCloser ']' = true by decide) level
  obtain ⟨tail, htext⟩ : ∃ tail, bracketed '[' ']' level texts = '[' :: tail := by
    cases texts <;> exact ⟨_, rfl⟩
  rw [value]
  refine .orElse_right (.orElse_right ((htakes.map Json.list).orElse_left _) fun rest => ?_)
    fun rest => ?_
  · rw [htext, List.cons_append, scalar_read_none (by decide)]
  · rw [htext, List.cons_append, map_read, quotedText_read_none (by decide), Option.map_none]

theorem takes_object {fields : List (String × Json)} {texts : List (List Char)} {depth : Nat}
    (h : List.Forall₂ (Takes (field (value depth))) texts fields) (level : Nat) :
    Takes (value (depth + 1)) (bracketed '\x7b' '\x7d' level texts) (.object fields) := by
  have htakes := takes_bracketed h
    (show isSpace '\x7b' = false ∧ isCloser '\x7b' = false by decide)
    (show isCloser '\x7d' = true by decide) level
  obtain ⟨tail, htext⟩ : ∃ tail, bracketed '\x7b' '\x7d' level texts = '\x7b' :: tail := by
    cases texts <;> exact ⟨_, rfl⟩
  rw [value]
  refine .orElse_right (.orElse_right (.orElse_right (htakes.map Json.object) fun rest => ?_)
    fun rest => ?_) fun rest => ?_
  · rw [htext, List.cons_append, map_read, members_read_none (by decide), Option.map_none]
  · rw [htext, List.cons_append, scalar_read_none (by decide)]
  · rw [htext, List.cons_append, map_read, quotedText_read_none (by decide), Option.map_none]

theorem length_lt_bracketed {text : List Char} {texts : List (List Char)} (h : text ∈ texts)
    (opener closer : Char) (level : Nat) :
    text.length < (bracketed opener closer level texts).length := by
  obtain ⟨first, later, rfl⟩ := List.exists_cons_of_ne_nil (List.ne_nil_of_mem h)
  have hbody : text.length ≤
      ([',', '\n'].intercalate ((first :: later).map (indent (level + 1) ++ ·))).length := by
    rw [List.map_cons, intercalate_cons]
    rcases List.mem_cons.mp h with rfl | h
    · simp only [List.length_append]
      omega
    · have hmem : [',', '\n'] ++ (indent (level + 1) ++ text) ∈
          (later.map (indent (level + 1) ++ ·)).map ([',', '\n'] ++ ·) :=
        List.mem_map_of_mem (List.mem_map_of_mem h)
      have hle := (List.sublist_flatten_of_mem hmem).length_le
      rw [List.flatMap_def]
      simp only [List.length_append] at hle ⊢
      omega
  simp only [bracketed, List.isEmpty_cons, Bool.false_eq_true, if_false, List.cons_append,
    List.length_cons, List.length_append]
  omega

mutual

/-- The levels of a written value are fewer than any number above the length of its text. -/
theorem takes_write : ∀ (json : Json) (level depth : Nat), (json.write level).length < depth →
    Takes (value depth) (json.write level) json
  | _, _, 0, h => absurd h (Nat.not_lt_zero _)
  | .text s, _, depth + 1, _ => by
    rw [write]
    exact takes_text s depth
  | .number n, _, depth + 1, _ => by
    rw [write]
    exact takes_word Nat.toDigits_ne_nil (fun _ => isAlphanum_of_mem_toDigits) (scalar?_toDigits n)
      depth
  | .flag true, _, depth + 1, _ => by
    rw [write]
    exact takes_word (by decide) (List.all_eq_true.mp (by decide)) rfl depth
  | .flag false, _, depth + 1, _ => by
    rw [write]
    exact takes_word (by decide) (List.all_eq_true.mp (by decide)) rfl depth
  | .list items, level, depth + 1, h => by
    rw [write] at h ⊢
    refine takes_list (takes_writeItems items (level + 1) depth fun text htext => ?_) level
    exact Nat.lt_of_lt_of_le (length_lt_bracketed htext _ _ _) (Nat.le_of_lt_succ h)
  | .object fields, level, depth + 1, h => by
    rw [write] at h ⊢
    refine takes_object (takes_writeFields fields (level + 1) depth fun text htext => ?_) level
    exact Nat.lt_of_lt_of_le (length_lt_bracketed htext _ _ _) (Nat.le_of_lt_succ h)

theorem takes_writeItems : ∀ (items : List Json) (level depth : Nat),
    (∀ text ∈ writeItems items level, text.length < depth) →
      List.Forall₂ (Takes (value depth)) (writeItems items level) items
  | [], _, _, _ => .nil
  | item :: items, level, depth, h => by
    rw [writeItems, List.forall_mem_cons] at h
    rw [writeItems]
    exact .cons (takes_write item level depth h.1) (takes_writeItems items level depth h.2)

theorem takes_writeFields : ∀ (fields : List (String × Json)) (level depth : Nat),
    (∀ text ∈ writeFields fields level, text.length < depth) →
      List.Forall₂ (Takes (field (value depth))) (writeFields fields level) fields
  | [], _, _, _ => .nil
  | (key, json) :: fields, level, depth, h => by
    rw [writeFields, List.forall_mem_cons, List.length_append] at h
    rw [writeFields]
    exact .cons (takes_field (takes_write json level depth (by omega)) key)
      (takes_writeFields fields level depth h.2)

end

/-- Blanks may stand behind the written value, such as a line end. -/
theorem ofText?_write (json : Json) {space : List Char} (h : ∀ c ∈ space, isSpace c = true) :
    ofText? (String.ofList (json.write 0 ++ space)) = some json := by
  have hlength : (json.write 0).length < (String.ofList (json.write 0 ++ space)).length + 1 := by
    rw [String.length_ofList, List.length_append]
    omega
  have hends : EndsWord space :=
    fun c hc => isAlphanum_of_isSpace (h c (List.mem_of_mem_head? hc))
  have hread := (takes_write json 0 _ hlength).afterSpace (List.forall_mem_nil _) hends
  have hskip : skipSpace space = [] := List.dropWhile_eq_nil_iff.mpr h
  rw [List.nil_append] at hread
  rw [ofText?, String.toList_ofList, hread, Option.bind_some, if_pos hskip]

end TagLint.Json
