import Mathlib

/-!
# Text in byte strings

The text functions of the Rust standard library that the code under study applies to bytes it does
not trust, and what they do on ASCII.

* `fromUtf8`: `str::from_utf8`, the characters of a byte string if it is UTF-8.
* `trimEnd`, `trim`: white space off the ends, `trimEnd_ascii`.
* `parseUsize`: `str::parse::<usize>`, the value of a decimal number, `parseUsize_digits`.
* `lower`, `windows`: comparing without regard to case, at every place of a byte string.
-/

namespace Text

/-! ## UTF-8 -/

/-- A byte that goes on with a character. -/
def isTail (b : UInt8) : Bool := 0x80 ≤ b ∧ b ≤ 0xBF

/-- The first two bytes of a character of three: nothing overlong, no surrogate. -/
def begins3 (a b : UInt8) : Bool :=
  a = 0xE0 ∧ 0xA0 ≤ b ∧ b ≤ 0xBF ∨ 0xE1 ≤ a ∧ a ≤ 0xEC ∧ isTail b ∨
    a = 0xED ∧ 0x80 ≤ b ∧ b ≤ 0x9F ∨ 0xEE ≤ a ∧ a ≤ 0xEF ∧ isTail b

/-- The first two bytes of a character of four: nothing overlong, nothing past the last. -/
def begins4 (a b : UInt8) : Bool :=
  a = 0xF0 ∧ 0x90 ≤ b ∧ b ≤ 0xBF ∨ 0xF1 ≤ a ∧ a ≤ 0xF3 ∧ isTail b ∨ a = 0xF4 ∧ 0x80 ≤ b ∧ b ≤ 0x8F

/-- The character of the given payload bits, six in every byte but the first. -/
def charOf (payload : List ℕ) : Char := Char.ofNat (payload.foldl (fun n p => 64 * n + p) 0)

/-- `str::from_utf8`. -/
def fromUtf8 : List UInt8 → Option (List Char)
  | [] => some []
  | a :: rest =>
    if a < 0x80 then (fromUtf8 rest).map (Char.ofNat a.toNat :: ·)
    else
      match rest with
      | [] => none
      | b :: rest =>
        if 0xC2 ≤ a ∧ a ≤ 0xDF ∧ isTail b then
          (fromUtf8 rest).map (charOf [a.toNat % 32, b.toNat % 64] :: ·)
        else
          match rest with
          | [] => none
          | c :: rest =>
            if begins3 a b ∧ isTail c then
              (fromUtf8 rest).map (charOf [a.toNat % 16, b.toNat % 64, c.toNat % 64] :: ·)
            else
              match rest with
              | [] => none
              | d :: rest =>
                if begins4 a b ∧ isTail c ∧ isTail d then
                  (fromUtf8 rest).map
                    (charOf [a.toNat % 8, b.toNat % 64, c.toNat % 64, d.toNat % 64] :: ·)
                else none

/-- The characters of ASCII text. -/
def ascii (bs : List UInt8) : List Char := bs.map fun b => Char.ofNat b.toNat

theorem fromUtf8_ascii {bs : List UInt8} (h : ∀ b ∈ bs, b < 0x80) :
    fromUtf8 bs = some (ascii bs) := by
  induction bs with
  | nil => rfl
  | cons b bs ih =>
    have hb : b < 0x80 := h b List.mem_cons_self
    unfold fromUtf8
    rw [if_pos hb, ih fun c hc => h c (List.mem_cons_of_mem b hc)]
    rfl

/-! ## White space -/

/-- `char::is_whitespace`: the property `White_Space` of Unicode. -/
def isWhitespace (c : Char) : Bool :=
  let n := c.toNat
  9 ≤ n ∧ n ≤ 13 ∨ n = 0x20 ∨ n = 0x85 ∨ n = 0xA0 ∨ n = 0x1680 ∨ 0x2000 ≤ n ∧ n ≤ 0x200A ∨
    n = 0x2028 ∨ n = 0x2029 ∨ n = 0x202F ∨ n = 0x205F ∨ n = 0x3000

/-- `str::trim_end`. -/
def trimEnd (s : List Char) : List Char := s.rdropWhile isWhitespace

/-- `str::trim`. -/
def trim (s : List Char) : List Char := trimEnd (s.dropWhile isWhitespace)

theorem toNat_ofNat_byte (b : UInt8) : (Char.ofNat b.toNat).toNat = b.toNat := by
  rw [Char.toNat_ofNat, if_pos]
  have := b.toNat_lt
  unfold Nat.isValidChar
  omega

theorem ofNat_byte_inj {a b : UInt8} : Char.ofNat a.toNat = Char.ofNat b.toNat ↔ a = b := by
  refine ⟨fun h => ?_, fun h => h ▸ rfl⟩
  have hnat := congrArg Char.toNat h
  rw [toNat_ofNat_byte, toNat_ofNat_byte] at hnat
  exact UInt8.toNat_inj.1 hnat

theorem ascii_inj {as bs : List UInt8} : ascii as = ascii bs ↔ as = bs :=
  List.map_inj_right fun _ _ h => ofNat_byte_inj.1 h

/-- Among printable bytes only the blank is white space. -/
theorem isWhitespace_printable {b : UInt8} (h : 0x20 ≤ b ∧ b ≤ 0x7E) :
    isWhitespace (Char.ofNat b.toNat) = decide (b = 0x20) := by
  have hlow : 32 ≤ b.toNat := UInt8.le_iff_toNat_le.1 h.1
  have hhigh : b.toNat ≤ 126 := UInt8.le_iff_toNat_le.1 h.2
  have heq : b = 0x20 ↔ b.toNat = 32 := by rw [← UInt8.toNat_inj]; rfl
  unfold isWhitespace
  simp only [toNat_ofNat_byte, heq]
  refine decide_eq_decide.2 ?_
  omega

theorem fromUtf8_printable {bs : List UInt8} (h : ∀ b ∈ bs, 0x20 ≤ b ∧ b ≤ 0x7E) :
    fromUtf8 bs = some (ascii bs) :=
  fromUtf8_ascii fun b hb => UInt8.lt_of_le_of_lt (h b hb).2 (by decide)

theorem dropWhile_ascii {p : Char → Bool} {q : UInt8 → Bool} {bs : List UInt8}
    (h : ∀ b ∈ bs, p (Char.ofNat b.toNat) = q b) :
    (ascii bs).dropWhile p = ascii (bs.dropWhile q) := by
  induction bs with
  | nil => rfl
  | cons b bs ih =>
    have hb := h b List.mem_cons_self
    unfold ascii at ih ⊢
    rw [List.map_cons, List.dropWhile_cons, List.dropWhile_cons, hb,
      ih fun c hc => h c (List.mem_cons_of_mem b hc)]
    split_ifs <;> rfl

theorem rdropWhile_ascii {p : Char → Bool} {q : UInt8 → Bool} {bs : List UInt8}
    (h : ∀ b ∈ bs, p (Char.ofNat b.toNat) = q b) :
    (ascii bs).rdropWhile p = ascii (bs.rdropWhile q) := by
  have hrev : ascii bs.reverse = (ascii bs).reverse := List.map_reverse
  rw [List.rdropWhile, List.rdropWhile, ← hrev,
    dropWhile_ascii fun b hb => h b (List.mem_reverse.1 hb)]
  exact (List.map_reverse ..).symm

theorem trimEnd_ascii {bs : List UInt8} (h : ∀ b ∈ bs, 0x20 ≤ b ∧ b ≤ 0x7E) :
    trimEnd (ascii bs) = ascii (bs.rdropWhile fun b => b = 0x20) :=
  rdropWhile_ascii fun b hb => isWhitespace_printable (h b hb)

/-- A field filled up with blanks. -/
theorem rdropWhile_append_replicate {α : Type*} {p : α → Bool} {xs : List α} {x : α} (k : ℕ)
    (hx : p x = true) (hxs : ∀ y ∈ xs, p y = false) :
    (xs ++ List.replicate k x).rdropWhile p = xs := by
  induction k with
  | zero =>
    rw [List.replicate_zero, List.append_nil, List.rdropWhile_eq_self_iff]
    intro hne
    rw [hxs _ (List.getLast_mem hne)]
    exact Bool.false_ne_true
  | succ k ih =>
    rw [List.replicate_succ', ← List.append_assoc, List.rdropWhile_concat_pos _ _ _ hx, ih]

/-! ## Decimal numbers -/

def isDigit (b : UInt8) : Bool := 0x30 ≤ b ∧ b ≤ 0x39

theorem isDigit_iff {b : UInt8} : isDigit b = true ↔ 0x30 ≤ b ∧ b ≤ 0x39 := by simp [isDigit]

theorem printable_of_isDigit {b : UInt8} (h : isDigit b = true) : 0x20 ≤ b ∧ b ≤ 0x7E :=
  ⟨UInt8.le_trans (by decide) (isDigit_iff.1 h).1, UInt8.le_trans (isDigit_iff.1 h).2 (by decide)⟩

/-- The value of decimal digits. -/
def decimal (ds : List UInt8) : ℕ := ds.foldl (fun n d => 10 * n + (d.toNat - 0x30)) 0

/-- One digit more, in `bits` bits. -/
def pushDigit (bits : ℕ) (n : ℕ) (c : Char) : Option ℕ :=
  if '0' ≤ c ∧ c ≤ '9' then
    let next := 10 * n + (c.toNat - '0'.toNat)
    if next < 2 ^ bits then some next else none
  else none

/-- `str::parse::<usize>`: a sign is allowed, an empty number is not. -/
def parseUsize (bits : ℕ) (s : List Char) : Option ℕ :=
  let digits := match s with
    | '+' :: rest => rest
    | s => s
  if digits = [] then none else digits.foldlM (pushDigit bits) 0

theorem foldl_digit_le (ds : List UInt8) (n : ℕ) :
    n ≤ ds.foldl (fun n d => 10 * n + (d.toNat - 0x30)) n := by
  induction ds generalizing n with
  | nil => exact le_rfl
  | cons d ds ih => exact (show n ≤ 10 * n + (d.toNat - 0x30) by omega).trans (ih _)

theorem foldlM_pushDigit {bits : ℕ} {ds : List UInt8} (hds : ∀ d ∈ ds, isDigit d = true) (n : ℕ)
    (hlt : ds.foldl (fun n d => 10 * n + (d.toNat - 0x30)) n < 2 ^ bits) :
    (ascii ds).foldlM (pushDigit bits) n =
      some (ds.foldl (fun n d => 10 * n + (d.toNat - 0x30)) n) := by
  induction ds generalizing n with
  | nil => rfl
  | cons d ds ih =>
    have hd := isDigit_iff.1 (hds d List.mem_cons_self)
    have hlow : 48 ≤ d.toNat := UInt8.le_iff_toNat_le.1 hd.1
    have hhigh : d.toNat ≤ 57 := UInt8.le_iff_toNat_le.1 hd.2
    have hchar : '0' ≤ Char.ofNat d.toNat ∧ Char.ofNat d.toNat ≤ '9' := by
      rw [Char.le_def, Char.le_def, UInt32.le_iff_toNat_le, UInt32.le_iff_toNat_le]
      change 48 ≤ (Char.ofNat d.toNat).toNat ∧ (Char.ofNat d.toNat).toNat ≤ 57
      rw [toNat_ofNat_byte]
      exact ⟨hlow, hhigh⟩
    rw [List.foldl_cons] at hlt ⊢
    -- the digits still to come only make the number larger
    have hnext : 10 * n + (d.toNat - 0x30) < 2 ^ bits :=
      (foldl_digit_le ds _).trans_lt hlt
    have hpush : pushDigit bits n (Char.ofNat d.toNat) = some (10 * n + (d.toNat - 0x30)) := by
      unfold pushDigit
      rw [if_pos hchar, toNat_ofNat_byte]
      exact if_pos hnext
    rw [ascii, List.map_cons, List.foldlM_cons, hpush]
    exact ih (fun e he => hds e (List.mem_cons_of_mem d he)) _ hlt

theorem parseUsize_digits {bits : ℕ} {ds : List UInt8} (hne : ds ≠ [])
    (hds : ∀ d ∈ ds, isDigit d = true) (hlt : decimal ds < 2 ^ bits) :
    parseUsize bits (ascii ds) = some (decimal ds) := by
  obtain ⟨d, rest, rfl⟩ := List.exists_cons_of_ne_nil hne
  have hplus : Char.ofNat d.toNat ≠ '+' := by
    intro h
    have hd : d = 0x2B := ofNat_byte_inj.1 h
    have hdigit := hds d List.mem_cons_self
    rw [hd] at hdigit
    exact absurd hdigit (by decide)
  have hsign : (match ascii (d :: rest) with
      | '+' :: rest => rest
      | s => s) = ascii (d :: rest) := by
    unfold ascii
    rw [List.map_cons]
    split
    · rename_i heq
      exact absurd (List.cons.inj heq).1 hplus
    · rfl
  unfold parseUsize
  dsimp only
  rw [hsign, if_neg (by simp [ascii])]
  exact foldlM_pushDigit hds 0 hlt

/-! ## Comparing without regard to case -/

/-- `u8::to_ascii_lowercase`. -/
def lower (b : UInt8) : UInt8 := if 0x41 ≤ b ∧ b ≤ 0x5A then b + 0x20 else b

/-- `str::to_ascii_lowercase`. -/
def toAsciiLowercase (s : List Char) : List Char := s.map Char.toLower

theorem toAsciiLowercase_ascii (bs : List UInt8) :
    toAsciiLowercase (ascii bs) = ascii (bs.map lower) := by
  have hbyte : ∀ n < 256, (Char.ofNat (UInt8.ofNat n).toNat).toLower =
      Char.ofNat (lower (UInt8.ofNat n)).toNat := by decide +kernel
  unfold toAsciiLowercase ascii
  rw [List.map_map, List.map_map]
  refine List.map_congr_left fun b _ => ?_
  have := hbyte b.toNat b.toNat_lt
  rwa [UInt8.ofNat_toNat] at this

/-- `slice::windows`: the runs of `n` bytes, at every place. -/
def windows (n : ℕ) : List UInt8 → List (List UInt8)
  | [] => []
  | b :: bs => if n ≤ (b :: bs).length then (b :: bs).take n :: windows n bs else []

theorem mem_windows_iff {n : ℕ} (hn : 0 < n) {w bs : List UInt8} :
    w ∈ windows n bs ↔ w.length = n ∧ w <:+: bs := by
  induction bs with
  | nil =>
    refine iff_of_false List.not_mem_nil ?_
    rintro ⟨hlen, hw⟩
    rw [List.infix_nil.1 hw] at hlen
    exact hn.ne hlen
  | cons b bs ih =>
    unfold windows
    rw [List.infix_cons_iff]
    split_ifs with hle
    · rw [List.mem_cons, ih]
      constructor
      · rintro (rfl | ⟨hlen, hw⟩)
        · exact ⟨List.length_take_of_le hle, .inl (List.take_prefix n _)⟩
        · exact ⟨hlen, .inr hw⟩
      · rintro ⟨hlen, hw | hw⟩
        · exact .inl (hlen ▸ List.prefix_iff_eq_take.1 hw)
        · exact .inr ⟨hlen, hw⟩
    · refine iff_of_false List.not_mem_nil ?_
      rintro ⟨hlen, hw | hw⟩
      · exact hle (hlen ▸ hw.length_le)
      · exact hle (hlen ▸ hw.length_le.trans (Nat.le_succ _))

end Text
