/-! Reading from the front of a text. A reader either refuses a text or takes at
least one character of it, which is why every loop over a text ends. -/

namespace TagLint

/-- Gives a value and the rest of the text, or refuses. -/
structure Reader (α : Type) where
  read : List Char → Option (α × List Char)
  shortens : ∀ {text value rest}, read text = some (value, rest) → rest.length < text.length

namespace Reader

variable {α β : Type}

def filterMap (f : α → Option β) (reader : Reader α) : Reader β where
  read text := (reader.read text).bind fun found => (f found.1).map fun value => (value, found.2)
  shortens h := by
    obtain ⟨found, hfound, h⟩ := Option.bind_eq_some_iff.mp h
    obtain ⟨_, _, h⟩ := Option.map_eq_some_iff.mp h
    cases h
    exact reader.shortens hfound

@[simp]
theorem filterMap_read (f : α → Option β) (reader : Reader α) (text : List Char) :
    (reader.filterMap f).read text =
      (reader.read text).bind fun found => (f found.1).map fun value => (value, found.2) :=
  rfl

def map (f : α → β) (reader : Reader α) : Reader β :=
  reader.filterMap fun value => some (f value)

@[simp]
theorem map_read (f : α → β) (reader : Reader α) (text : List Char) :
    (reader.map f).read text = (reader.read text).map fun found => (f found.1, found.2) := by
  rw [map, filterMap_read, Option.map_eq_bind]
  rfl

/-- Reads twice, and the second time in view of the first value. -/
def andThen (first : Reader α) (second : α → Reader β) : Reader β where
  read text := (first.read text).bind fun found => (second found.1).read found.2
  shortens h := by
    obtain ⟨found, hfound, h⟩ := Option.bind_eq_some_iff.mp h
    exact Nat.lt_trans ((second found.1).shortens h) (first.shortens hfound)

@[simp]
theorem andThen_read (first : Reader α) (second : α → Reader β) (text : List Char) :
    (first.andThen second).read text =
      (first.read text).bind fun found => (second found.1).read found.2 :=
  rfl

/-- Reads in the second way what the first way refuses. -/
def orElse (first second : Reader α) : Reader α where
  read text :=
    match first.read text with
    | some found => some found
    | none => second.read text
  shortens h := by
    split at h
    · cases h
      exact first.shortens ‹_›
    · exact second.shortens h

@[simp]
theorem orElse_read (first second : Reader α) (text : List Char) :
    (first.orElse second).read text = (first.read text).or (second.read text) := by
  cases h : first.read text <;> simp [orElse, h]

/-- Reads on where the value and the rest of the text call for it. -/
def goingOn (reader : Reader α) (calls : α → List Char → Bool) (more : α → Reader α) :
    Reader α where
  read text := (reader.read text).bind fun found =>
    if calls found.1 found.2 then (more found.1).read found.2 else some found
  shortens h := by
    obtain ⟨found, hfound, h⟩ := Option.bind_eq_some_iff.mp h
    split at h
    · exact Nat.lt_trans ((more found.1).shortens h) (reader.shortens hfound)
    · cases h
      exact reader.shortens hfound

def behind (skip : List Char → List Char) (length_skip_le : ∀ text, (skip text).length ≤ text.length)
    (reader : Reader α) : Reader α where
  read text := reader.read (skip text)
  shortens {text} _ _ h := Nat.lt_of_lt_of_le (reader.shortens h) (length_skip_le text)

@[simp]
theorem behind_read (skip : List Char → List Char)
    (length_skip_le : ∀ text, (skip text).length ≤ text.length) (reader : Reader α)
    (text : List Char) : (reader.behind skip length_skip_le).read text = reader.read (skip text) :=
  rfl

def before (reader : Reader α) (skip : List Char → List Char)
    (length_skip_le : ∀ text, (skip text).length ≤ text.length) : Reader α where
  read text := (reader.read text).map fun found => (found.1, skip found.2)
  shortens h := by
    obtain ⟨found, hfound, h⟩ := Option.map_eq_some_iff.mp h
    cases h
    exact Nat.lt_of_le_of_lt (length_skip_le _) (reader.shortens hfound)

@[simp]
theorem before_read (reader : Reader α) (skip : List Char → List Char)
    (length_skip_le : ∀ text, (skip text).length ≤ text.length) (text : List Char) :
    (reader.before skip length_skip_le).read text =
      (reader.read text).map fun found => (found.1, skip found.2) :=
  rfl

def refuse : Reader α where
  read _ := none
  shortens h := by simp at h

/-- Pieces up to something that closes them. The closing comes first where both
can be read. -/
def readPieces (piece : Reader α) (closing : Reader β) (text : List Char) :
    Option ((List α × β) × List Char) :=
  match closing.read text with
  | some (last, rest) => some (([], last), rest)
  | none =>
    match h : piece.read text with
    | none => none
    | some (first, rest) =>
      have := piece.shortens h
      (readPieces piece closing rest).map fun found =>
        ((first :: found.1.1, found.1.2), found.2)
termination_by text.length

theorem readPieces_eq (piece : Reader α) (closing : Reader β) (text : List Char) :
    readPieces piece closing text =
      match closing.read text with
      | some (last, rest) => some (([], last), rest)
      | none =>
        (piece.read text).bind fun found =>
          (readPieces piece closing found.2).map fun later =>
            ((found.1 :: later.1.1, later.1.2), later.2) := by
  rw [readPieces]
  split
  · simp_all
  · split <;> simp_all

def upTo (piece : Reader α) (closing : Reader β) : Reader (List α × β) where
  read := readPieces piece closing
  shortens {text values _} h := by
    fun_induction readPieces piece closing text generalizing values with
    | case1 text last rest hclosing =>
      cases h
      exact closing.shortens hclosing
    | case2 => simp at h
    | case3 text _ first rest hpiece _ ih =>
      obtain ⟨found, hfound, h⟩ := Option.map_eq_some_iff.mp h
      cases h
      exact Nat.lt_trans (ih hfound) (piece.shortens hpiece)

@[simp]
theorem upTo_read (piece : Reader α) (closing : Reader β) (text : List Char) :
    (piece.upTo closing).read text = readPieces piece closing text :=
  rfl

/-- Items with separators between and perhaps one at the end, up to something
that closes the list. -/
def readItems (item : Reader α) (separator closing : Reader Unit) (text : List Char) :
    Option (List α × List Char) :=
  match closing.read text with
  | some (_, rest) => some ([], rest)
  | none =>
    match h : item.read text with
    | none => none
    | some (first, rest) =>
      match h' : separator.read rest with
      | some (_, later) =>
        have := Nat.lt_trans (separator.shortens h') (item.shortens h)
        (readItems item separator closing later).map fun found => (first :: found.1, found.2)
      | none => (closing.read rest).map fun found => ([first], found.2)
termination_by text.length

theorem readItems_eq (item : Reader α) (separator closing : Reader Unit) (text : List Char) :
    readItems item separator closing text =
      match closing.read text with
      | some (_, rest) => some ([], rest)
      | none =>
        (item.read text).bind fun found =>
          match separator.read found.2 with
          | some (_, later) =>
            (readItems item separator closing later).map fun more => (found.1 :: more.1, more.2)
          | none => (closing.read found.2).map fun last => ([found.1], last.2) := by
  rw [readItems]
  split
  · simp_all
  · split
    · simp_all
    · split <;> simp_all

def listUpTo (item : Reader α) (separator closing : Reader Unit) : Reader (List α) where
  read := readItems item separator closing
  shortens {text values _} h := by
    fun_induction readItems item separator closing text generalizing values with
    | case1 text _ rest hclosing =>
      cases h
      exact closing.shortens hclosing
    | case2 => simp at h
    | case3 text _ first rest hitem _ later hseparator _ ih =>
      obtain ⟨found, hfound, h⟩ := Option.map_eq_some_iff.mp h
      cases h
      exact Nat.lt_trans (ih hfound)
        (Nat.lt_trans (separator.shortens hseparator) (item.shortens hitem))
    | case4 text _ first rest hitem _ =>
      obtain ⟨found, hfound, h⟩ := Option.map_eq_some_iff.mp h
      cases h
      exact Nat.lt_trans (closing.shortens hfound) (item.shortens hitem)

@[simp]
theorem listUpTo_read (item : Reader α) (separator closing : Reader Unit) (text : List Char) :
    (item.listUpTo separator closing).read text = readItems item separator closing text :=
  rfl

def char (isKind : Char → Bool) : Reader Char where
  read
    | c :: rest => if isKind c then some (c, rest) else none
    | [] => none
  shortens h := by
    split at h
    · split at h
      · cases h
        exact Nat.lt_succ_self _
      · simp at h
    · simp at h

@[simp]
theorem char_read_cons (isKind : Char → Bool) (c : Char) (rest : List Char) :
    (char isKind).read (c :: rest) = if isKind c then some (c, rest) else none :=
  rfl

def mark (c : Char) : Reader Unit :=
  (char (· == c)).map fun _ => ()

@[simp]
theorem mark_read_cons (c d : Char) (rest : List Char) :
    (mark c).read (d :: rest) = if d = c then some ((), rest) else none := by
  by_cases h : d = c <;> simp [mark, h]

/-- As many characters of a kind as there are, but at least one. -/
def word (isKind : Char → Bool) : Reader (List Char) where
  read text :=
    match text with
    | c :: rest =>
      if isKind c then some (c :: rest.takeWhile isKind, rest.dropWhile isKind) else none
    | [] => none
  shortens h := by
    split at h
    · split at h
      · cases h
        exact Nat.lt_succ_of_le (List.dropWhile_suffix _).length_le
      · simp at h
    · simp at h

@[simp]
theorem word_read_cons (isKind : Char → Bool) (c : Char) (rest : List Char) :
    (word isKind).read (c :: rest) =
      if isKind c then some (c :: rest.takeWhile isKind, rest.dropWhile isKind) else none :=
  rfl

theorem word_read {isKind : Char → Bool} {text : List Char} (hne : text ≠ [])
    (htext : ∀ c ∈ text, isKind c = true) {rest : List Char}
    (hrest : ∀ c ∈ rest.head?, isKind c = false) :
    (word isKind).read (text ++ rest) = some (text, rest) := by
  have htake : rest.takeWhile isKind = [] := by
    cases rest with
    | nil => rfl
    | cons c rest => simp [hrest c rfl]
  have hdrop : rest.dropWhile isKind = rest := by
    cases rest with
    | nil => rfl
    | cons c rest => simp [hrest c rfl]
  cases text with
  | nil => exact absurd rfl hne
  | cons c text =>
    rw [List.forall_mem_cons] at htext
    rw [List.cons_append, word_read_cons, if_pos htext.1, List.takeWhile_append_of_pos htext.2,
      List.dropWhile_append_of_pos htext.2, htake, hdrop, List.append_nil]

end Reader

end TagLint
