import Mathlib.Data.List.Basic

/-! Texts made of lines, lists made of blocks, and numbers made of digits. What is joined can be
taken apart again if the end of a line, or the head of a block, stands nowhere else. -/

namespace TagLint

variable {α β γ : Type}

/-- A mark that is not among the items cannot come from them. -/
theorem eq_nil_of_cons_eq_append {c : α} {items back back' : List α} (h : c ∉ items)
    (heq : c :: back = items ++ c :: back') : items = [] ∧ back = back' := by
  cases items with
  | nil => exact ⟨rfl, (List.cons.inj heq).2⟩
  | cons d items =>
    rw [List.cons_append, List.cons.injEq] at heq
    exact absurd (by simp [heq.1]) h

theorem eq_of_append_cons_eq {c : α} {front front' back back' : List α} (h : c ∉ front)
    (h' : c ∉ front') (heq : front ++ c :: back = front' ++ c :: back') :
    front = front' ∧ back = back' := by
  rcases List.append_eq_append_iff.mp heq with ⟨more, rfl, hback⟩ | ⟨more, rfl, hback⟩
  · have hmore : c ∉ more := fun hmem => h' (List.mem_append_right _ hmem)
    obtain ⟨rfl, rfl⟩ := eq_nil_of_cons_eq_append hmore hback
    exact ⟨(List.append_nil _).symm, rfl⟩
  · have hmore : c ∉ more := fun hmem => h (List.mem_append_right _ hmem)
    obtain ⟨rfl, rfl⟩ := eq_nil_of_cons_eq_append hmore hback
    exact ⟨List.append_nil _, rfl⟩

/-- The same with a mark that stands in neither back. -/
theorem eq_of_append_cons_eq_of_back {c : α} {front front' back back' : List α} (h : c ∉ back)
    (h' : c ∉ back') (heq : front ++ c :: back = front' ++ c :: back') :
    front = front' ∧ back = back' := by
  have hreverse : back.reverse ++ c :: front.reverse = back'.reverse ++ c :: front'.reverse := by
    simpa using congrArg List.reverse heq
  have hparts := eq_of_append_cons_eq (by simpa using h) (by simpa using h') hreverse
  exact ⟨List.reverse_inj.mp hparts.2, List.reverse_inj.mp hparts.1⟩

theorem not_mem_toDigits {c : Char} (h : c.isDigit = false) (n : Nat) : c ∉ Nat.toDigits 10 n := by
  intro hmem
  rw [Nat.isDigit_of_mem_toDigits (by decide) (by decide) hmem] at h
  exact Bool.noConfusion h

theorem toDigits_injective : Function.Injective (Nat.toDigits 10) := by
  intro n m h
  rw [← Nat.ofDigitChars_ten_toDigits (n := n), h, Nat.ofDigitChars_ten_toDigits]

theorem map_eq_of_map_eq {f : α → β} {g : α → γ} {xs ys : List α}
    (hfg : ∀ x ∈ xs, ∀ y ∈ ys, f x = f y → g x = g y) (h : xs.map f = ys.map f) :
    xs.map g = ys.map g := by
  induction xs generalizing ys with
  | nil =>
    rw [List.map_nil, eq_comm, List.map_eq_nil_iff] at h
    rw [h, List.map_nil]
  | cons x xs ih =>
    cases ys with
    | nil => simp at h
    | cons y ys =>
      rw [List.map_cons, List.map_cons, List.cons.injEq] at h
      rw [List.map_cons, List.map_cons, hfg x (List.mem_cons_self) y (List.mem_cons_self) h.1,
        ih (fun x hx y hy => hfg x (List.mem_cons_of_mem _ hx) y (List.mem_cons_of_mem _ hy)) h.2]

theorem takeWhile_block {p : α → Bool} {rest more : List α} (hrest : ∀ x ∈ rest, p x = false)
    (hmore : ∀ x ∈ more.head?, p x = true) : (rest ++ more).takeWhile (!p ·) = rest := by
  have htake : more.takeWhile (!p ·) = [] := by
    cases more with
    | nil => rfl
    | cons x more => simp [hmore x rfl]
  rw [List.takeWhile_append_of_pos (by simpa using hrest), htake, List.append_nil]

/-- Blocks can be told apart if only the first item of each is marked. -/
theorem map_eq_of_flatMap_eq {block : β → List α} {p : α → Bool}
    (hblock : ∀ b, ∃ first rest, block b = first :: rest ∧ p first = true ∧
      ∀ x ∈ rest, p x = false) {bs others : List β} (h : bs.flatMap block = others.flatMap block) :
    bs.map block = others.map block := by
  have hhead : ∀ bs : List β, ∀ x ∈ (bs.flatMap block).head?, p x = true := by
    intro bs x hx
    cases bs with
    | nil => simp at hx
    | cons b bs =>
      obtain ⟨first, rest, hb, hfirst, _⟩ := hblock b
      rw [List.flatMap_cons, hb] at hx
      exact Option.some.inj hx ▸ hfirst
  induction bs generalizing others with
  | nil =>
    cases others with
    | nil => rfl
    | cons other others =>
      obtain ⟨first, rest, hother, _⟩ := hblock other
      simp [hother] at h
  | cons b bs ih =>
    cases others with
    | nil =>
      obtain ⟨first, rest, hb, _⟩ := hblock b
      simp [hb] at h
    | cons other others =>
      obtain ⟨first, rest, hb, _, hrest⟩ := hblock b
      obtain ⟨first', rest', hother, _, hrest'⟩ := hblock other
      rw [List.flatMap_cons, List.flatMap_cons, hb, hother, List.cons_append, List.cons_append,
        List.cons.injEq] at h
      have hrests : rest = rest' := by
        rw [← takeWhile_block hrest (hhead bs), h.2, takeWhile_block hrest' (hhead others)]
      subst hrests
      rw [List.map_cons, List.map_cons, hb, hother, h.1, ih (List.append_cancel_left h.2)]

/-- A text that ends a line at its end and nowhere else. -/
def IsLine (line : String) : Prop :=
  ∃ body, '\n' ∉ body ∧ line.toList = body ++ ['\n']

theorem eq_of_join_eq {lines others : List String} (hlines : ∀ line ∈ lines, IsLine line)
    (hothers : ∀ line ∈ others, IsLine line) (h : String.join lines = String.join others) :
    lines = others := by
  induction lines generalizing others with
  | nil =>
    cases others with
    | nil => rfl
    | cons other others =>
      obtain ⟨body, _, hbody⟩ := hothers other List.mem_cons_self
      rw [← String.toList_inj] at h
      simp [hbody] at h
  | cons line lines ih =>
    obtain ⟨body, hfree, hbody⟩ := hlines line List.mem_cons_self
    cases others with
    | nil =>
      rw [← String.toList_inj] at h
      simp [hbody] at h
    | cons other others =>
      obtain ⟨body', hfree', hbody'⟩ := hothers other List.mem_cons_self
      rw [List.forall_mem_cons] at hlines hothers
      have hlists : body ++ '\n' :: (String.join lines).toList =
          body' ++ '\n' :: (String.join others).toList := by
        rw [← String.toList_inj, String.join_cons, String.join_cons, String.toList_append,
          String.toList_append, hbody, hbody'] at h
        simpa only [List.append_assoc, List.singleton_append] using h
      obtain ⟨hbodies, hrest⟩ := eq_of_append_cons_eq hfree hfree' hlists
      have hline : line = other := by rw [← String.toList_inj, hbody, hbody', hbodies]
      rw [hline, ih hlines.2 hothers.2 (String.toList_inj.mp hrest)]

end TagLint
