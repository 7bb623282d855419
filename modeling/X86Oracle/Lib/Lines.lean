import Mathlib

/-!
# Lines of text

Text as Python reads and writes it: a list of characters, taken apart after each line feed.

* `universalNewlines`: what reading in text mode makes of the other line ends.
* `splitLines`: the lines of a text, each with its end; `splitLines_flatten` is the way back.
-/

namespace Lines

/-- A line with its end, or the last one without. -/
abbrev Line := List Char

/-- Carriage returns, with a line feed after them or not, become line feeds. -/
def universalNewlines : List Char → List Char
  | [] => []
  | '\r' :: '\n' :: cs => '\n' :: universalNewlines cs
  | c :: cs => (if c = '\r' then '\n' else c) :: universalNewlines cs

/-- The lines of a text. -/
def splitLines : List Char → List Line
  | [] => []
  | c :: cs =>
    if c = '\n' then [c] :: splitLines cs
    else
      match splitLines cs with
      | [] => [[c]]
      | l :: ls => (c :: l) :: ls

/-- A line that ends where it should. -/
def IsLine (l : Line) : Prop := ∃ s, '\n' ∉ s ∧ l = s ++ ['\n']

theorem isLine_iff {l : Line} : IsLine l ↔ '\n' ∉ l.dropLast ∧ l.getLast? = some '\n' := by
  constructor
  · rintro ⟨s, hs, rfl⟩
    rw [List.dropLast_concat, List.getLast?_concat]
    exact ⟨hs, rfl⟩
  · rintro ⟨hs, hlast⟩
    exact ⟨l.dropLast, hs, (List.dropLast_append_getLast? _ hlast).symm⟩

instance (l : Line) : Decidable (IsLine l) := decidable_of_iff _ isLine_iff.symm

theorem splitLines_append {l : Line} (h : IsLine l) (rest : List Char) :
    splitLines (l ++ rest) = l :: splitLines rest := by
  obtain ⟨s, hs, rfl⟩ := h
  induction s with
  | nil => rfl
  | cons c s ih =>
    have hc : c ≠ '\n' := fun h => hs (h ▸ List.mem_cons_self)
    have hrest := ih fun h => hs (List.mem_cons_of_mem c h)
    rw [List.cons_append, List.cons_append, splitLines, if_neg hc, hrest]

theorem splitLines_flatten {ls : List Line} (h : ∀ l ∈ ls, IsLine l) :
    splitLines ls.flatten = ls := by
  induction ls with
  | nil => rfl
  | cons l ls ih =>
    rw [List.flatten_cons, splitLines_append (h l List.mem_cons_self),
      ih fun m hm => h m (List.mem_cons_of_mem l hm)]

/-- `needle in text`. -/
def contains (needle : List Char) : List Char → Bool
  | [] => needle.isEmpty
  | c :: cs => needle.isPrefixOf (c :: cs) || contains needle cs

theorem contains_iff {needle text : List Char} :
    contains needle text = true ↔ needle <:+: text := by
  induction text with
  | nil => rw [contains, List.isEmpty_iff, List.infix_nil]
  | cons c cs ih =>
    rw [contains, Bool.or_eq_true, List.isPrefixOf_iff_prefix, ih, List.infix_cons_iff]

/-- `\s` in a pattern on text. -/
def isSpace (c : Char) : Bool :=
  let n := c.toNat
  9 ≤ n ∧ n ≤ 13 ∨ 28 ≤ n ∧ n ≤ 32 ∨ n = 0x85 ∨ n = 0xA0 ∨ n = 0x1680 ∨ 0x2000 ≤ n ∧ n ≤ 0x200A ∨
    n = 0x2028 ∨ n = 0x2029 ∨ n = 0x202F ∨ n = 0x205F ∨ n = 0x3000

end Lines
