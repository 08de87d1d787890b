import TagLint.Text.Lines

/-! The set of element names that a check tracks. A set is never empty, has no
name twice, and none of its names holds a character that ends a name in markup. -/

namespace TagLint

def endsName (c : Char) : Bool :=
  c == '<' || c == '>' || c == '/' || isBlank c

def IsName (name : String) : Prop :=
  name ≠ "" ∧ ∀ c ∈ name.toList, endsName c = false

instance (name : String) : Decidable (IsName name) :=
  have : Decidable (∀ c ∈ name.toList, endsName c = false) := List.decidableBAll _ _
  inferInstanceAs (Decidable (_ ∧ _))

theorem IsName.not_mem {name : String} {c : Char} (h : IsName name) (hc : endsName c = true) :
    c ∉ name.toList := by
  intro hmem
  have hfree := h.2 c hmem
  rw [hc] at hfree
  exact Bool.noConfusion hfree

inductive Rejection
  | emptyName
  | invalidCharacter (name : String) (c : Char)
  | noNames
deriving DecidableEq, Repr

def Rejection.ofName? (name : String) : Option Rejection :=
  if name = "" then some .emptyName
  else (name.toList.find? endsName).map (.invalidCharacter name)

theorem Rejection.ofName?_eq_none_iff {name : String} :
    Rejection.ofName? name = none ↔ IsName name := by
  unfold Rejection.ofName? IsName
  by_cases h : name = "" <;> simp [h]

/-- A character in single quotes. Blank characters other than the space are
written by an escape. -/
def quotedChar (c : Char) : String :=
  let body :=
    match c with
    | '\t' => "\\t"
    | '\n' => "\\n"
    | '\r' => "\\r"
    | ' ' => " "
    | c =>
      if isBlank c then "\\u\x7b" ++ String.ofList (Nat.toDigits 16 c.toNat) ++ "\x7d"
      else String.singleton c
  "'" ++ body ++ "'"

def Rejection.message : Rejection → String
  | .emptyName => "tag name must not be empty"
  | .invalidCharacter name c =>
    "tag name '" ++ name ++ "' contains invalid character " ++ quotedChar c
  | .noNames => "tag set must contain at least one element name"

theorem nodup_eraseDups {α : Type} [BEq α] [LawfulBEq α] (xs : List α) : xs.eraseDups.Nodup := by
  match xs with
  | [] => simp
  | x :: rest =>
    rw [List.eraseDups_cons, List.nodup_cons]
    exact ⟨by simp [List.mem_eraseDups], nodup_eraseDups _⟩
termination_by xs.length
decreasing_by exact Nat.lt_succ_of_le (List.length_filter_le _ _)

/-- The tracked names in the order of their first mention. -/
structure TagSet where
  name? : Option String
  description? : Option String
  names : List String
  names_ne_nil : names ≠ []
  nodup : names.Nodup
  isName : ∀ name ∈ names, IsName name
deriving DecidableEq

namespace TagSet

/-- The set of the given names. The first bad name decides the fault. -/
def ofNames (names : List String) : Except Rejection TagSet :=
  match h : names.findSome? Rejection.ofName? with
  | some rejection => .error rejection
  | none =>
    if hne : names = [] then .error .noNames
    else .ok
      { name? := none
        description? := none
        names := names.eraseDups
        names_ne_nil := by
          obtain ⟨name, hname⟩ := List.exists_mem_of_ne_nil names hne
          exact List.ne_nil_of_mem (List.mem_eraseDups.mpr hname)
        nodup := nodup_eraseDups names
        isName := fun name hname => Rejection.ofName?_eq_none_iff.mp
          (List.findSome?_eq_none_iff.mp h name (List.mem_eraseDups.mp hname)) }

def builtin : TagSet where
  name? := some "builtin"
  description? := some "block-level container elements"
  names := ["div", "main", "aside", "header", "section", "html", "body"]
  names_ne_nil := by simp
  nodup := by decide
  isName := by simp [IsName, endsName, isBlank, blankRanges]

def contains (set : TagSet) (name : String) : Bool :=
  set.names.contains name

def size (set : TagSet) : Nat :=
  set.names.length

def isEmpty (set : TagSet) : Bool :=
  set.names.isEmpty

end TagSet

end TagLint
