import Mathlib

/-!
# Byte stores and little-endian words

A byte store is a total function from addresses to bytes.  This file develops the part of
its theory that every memory image in the project uses:

* `leBytes` / `leValue`: the little-endian codec of a bounded number, a round trip both ways;
* `Store.write` / `Store.read`: a block of bytes at an address, with the read-over-write laws
  (same block, disjoint block, one byte inside the block);
* `foldl_range_induction`: the invariant rule of a counted loop of writes;
* `Table`: what such a loop leaves when it lays out equally spaced words, built up one entry at
  a time by `Table.empty` and `Table.push`.
-/

namespace Bytes

/-! ## The little-endian codec -/

/-- The `n` low bytes of `v`, least significant first. -/
def leBytes : ℕ → ℕ → List UInt8
  | 0, _ => []
  | n + 1, v => UInt8.ofNat v :: leBytes n (v / 256)

/-- The number a little-endian list of bytes denotes. -/
def leValue : List UInt8 → ℕ
  | [] => 0
  | b :: bs => b.toNat + 256 * leValue bs

@[simp] theorem leBytes_length (n v : ℕ) : (leBytes n v).length = n := by
  induction n generalizing v with
  | zero => rfl
  | succ n ih => rw [leBytes, List.length_cons, ih]

/-- Decoding an encoded number gives the number back, reduced to the encoded width. -/
theorem leValue_leBytes (n v : ℕ) : leValue (leBytes n v) = v % 256 ^ n := by
  induction n generalizing v with
  | zero => rw [leBytes, leValue, pow_zero, Nat.mod_one]
  | succ n ih =>
    rw [leBytes, leValue, ih, pow_succ', Nat.mod_mul, UInt8.toNat_ofNat']

theorem leValue_lt (bs : List UInt8) : leValue bs < 256 ^ bs.length := by
  induction bs with
  | nil => simp [leValue]
  | cons b bs ih =>
    have hb : b.toNat < 256 := b.toNat_lt
    rw [leValue, List.length_cons, pow_succ']
    omega

/-- Encoding a decoded list of bytes gives the list back. -/
theorem leBytes_leValue (bs : List UInt8) : leBytes bs.length (leValue bs) = bs := by
  induction bs with
  | nil => rfl
  | cons b bs ih =>
    have hb : b.toNat < 256 := b.toNat_lt
    have hhead : UInt8.ofNat (leValue (b :: bs)) = b := by
      apply UInt8.toNat_inj.1
      rw [UInt8.toNat_ofNat', leValue]
      omega
    have htail : leValue (b :: bs) / 256 = leValue bs := by
      rw [leValue]
      omega
    rw [List.length_cons, leBytes, hhead, htail, ih]

theorem leValue_eq_zero {bs : List UInt8} (h : ∀ b ∈ bs, b = 0) : leValue bs = 0 := by
  induction bs with
  | nil => rfl
  | cons b bs ih =>
    rw [leValue, h b (List.mem_cons_self ..), ih fun c hc => h c (List.mem_cons_of_mem _ hc)]
    rfl

/-- Only zero bytes make a zero word. -/
theorem eq_zero_of_leValue_eq_zero {bs : List UInt8} (h : leValue bs = 0) : ∀ b ∈ bs, b = 0 := by
  induction bs with
  | nil => exact fun _ hb => nomatch hb
  | cons b bs ih =>
    rw [leValue] at h
    intro c hc
    rcases List.mem_cons.1 hc with rfl | hc
    · exact UInt8.toNat_inj.1 (Nat.eq_zero_of_add_eq_zero_right h)
    · exact ih (by omega) c hc

/-! ## Stores -/

/-- A total byte-addressed store. -/
abbrev Store := ℕ → UInt8

namespace Store

/-- The `n` bytes from address `a` on. -/
def read (s : Store) (a n : ℕ) : List UInt8 :=
  (List.range n).map fun i => s (a + i)

/-- Replace the bytes from address `a` on by `bs`. -/
def write (s : Store) (a : ℕ) (bs : List UInt8) : Store := fun x =>
  if h : a ≤ x ∧ x - a < bs.length then bs[x - a] else s x

@[simp] theorem read_length (s : Store) (a n : ℕ) : (s.read a n).length = n := by
  simp [read]

theorem write_of_outside {s : Store} {a x : ℕ} {bs : List UInt8}
    (h : x < a ∨ a + bs.length ≤ x) : s.write a bs x = s x := by
  rw [write, dif_neg (by omega)]

theorem write_of_inside {s : Store} {a i : ℕ} {bs : List UInt8} (h : i < bs.length) :
    s.write a bs (a + i) = bs[i] := by
  have hi : a + i - a = i := by omega
  simp only [write, hi, h, Nat.le_add_right, true_and, dif_pos]

/-- A byte after a write depends on that byte before. -/
theorem write_congr {s t : Store} {a x : ℕ} {bs : List UInt8} (h : s x = t x) :
    s.write a bs x = t.write a bs x := by
  rw [write, write, h]

/-- A block is written byte after byte. -/
theorem write_cons (s : Store) (a : ℕ) (b : UInt8) (bs : List UInt8) :
    s.write a (b :: bs) = write (Function.update s a b) (a + 1) bs := by
  funext x
  by_cases hout : x < a ∨ a + (bs.length + 1) ≤ x
  · rw [write_of_outside hout, write_of_outside (by omega), Function.update_of_ne (by omega)]
  · obtain ⟨i, rfl⟩ : ∃ i, x = a + i := ⟨x - a, by omega⟩
    rw [write_of_inside (by rw [List.length_cons]; omega)]
    cases i with
    | zero =>
      rw [write_of_outside (by omega)]
      exact (Function.update_self a b s).symm
    | succ i =>
      have hi : a + (i + 1) = a + 1 + i := by omega
      rw [hi, write_of_inside (by omega)]
      rfl

/-- Two stores that agree on a block read the same bytes there. -/
theorem read_congr {s t : Store} {a n : ℕ} (h : ∀ i < n, s (a + i) = t (a + i)) :
    s.read a n = t.read a n :=
  List.map_congr_left fun i hi => h i (List.mem_range.1 hi)

/-- A block that a write does not touch reads as before. -/
theorem read_write_of_disjoint {s : Store} {a b n : ℕ} {bs : List UInt8}
    (h : b + n ≤ a ∨ a + bs.length ≤ b) : (s.write a bs).read b n = s.read b n :=
  read_congr fun i hi => write_of_outside (by omega)

/-- A sub-block of a written block reads as the corresponding slice of what was written. -/
theorem read_write_slice {s : Store} {a k n : ℕ} {bs : List UInt8} (h : k + n ≤ bs.length) :
    (s.write a bs).read (a + k) n = (bs.drop k).take n := by
  apply List.ext_getElem
  · simp
    omega
  · intro i hi _
    have hi' : i < n := by simpa using hi
    simp only [read, List.getElem_map, List.getElem_range, List.getElem_take,
      List.getElem_drop, Nat.add_assoc]
    exact write_of_inside (by omega)

/-- A written block reads back as written. -/
theorem read_write_self (s : Store) (a : ℕ) (bs : List UInt8) :
    (s.write a bs).read a bs.length = bs := by
  simpa using read_write_slice (s := s) (a := a) (show 0 + bs.length ≤ bs.length by omega)

/-! ## Words -/

/-- The little-endian number in the `n` bytes at address `a`. -/
def readLe (s : Store) (n a : ℕ) : ℕ := leValue (s.read a n)

/-- Store the `n` low bytes of `v` at address `a`. -/
def writeLe (s : Store) (n a v : ℕ) : Store := s.write a (leBytes n v)

theorem readLe_lt (s : Store) (n a : ℕ) : s.readLe n a < 256 ^ n := by
  simpa [readLe] using leValue_lt (s.read a n)

theorem readLe_congr {s t : Store} {n a : ℕ} (h : ∀ i < n, s (a + i) = t (a + i)) :
    s.readLe n a = t.readLe n a := by
  rw [readLe, readLe, read_congr h]

/-- Zero bytes make a zero word. -/
theorem readLe_eq_zero {s : Store} {n a : ℕ} (h : ∀ i < n, s (a + i) = 0) :
    s.readLe n a = 0 := by
  refine leValue_eq_zero fun b hb => ?_
  obtain ⟨i, hi, rfl⟩ := List.mem_map.1 hb
  exact h i (List.mem_range.1 hi)

theorem eq_zero_of_readLe_eq_zero {s : Store} {n a i : ℕ} (h : s.readLe n a = 0) (hi : i < n) :
    s (a + i) = 0 :=
  eq_zero_of_leValue_eq_zero h _ (List.mem_map.2 ⟨i, List.mem_range.2 hi, rfl⟩)

theorem readLe_writeLe_self (s : Store) (n a v : ℕ) :
    (s.writeLe n a v).readLe n a = v % 256 ^ n := by
  have h := read_write_self s a (leBytes n v)
  rw [leBytes_length] at h
  rw [readLe, writeLe, h, leValue_leBytes]

theorem readLe_writeLe_of_disjoint {s : Store} {n m a b v : ℕ}
    (h : b + m ≤ a ∨ a + n ≤ b) : (s.writeLe n a v).readLe m b = s.readLe m b := by
  rw [readLe, writeLe, read_write_of_disjoint (by simpa using h), readLe]

/-- A word is its low part and its high part. -/
theorem readLe_add (s : Store) (m n a : ℕ) :
    s.readLe (m + n) a = s.readLe m a + 256 ^ m * s.readLe n (a + m) := by
  induction m generalizing a with
  | zero => simp [readLe, read, leValue]
  | succ m ih =>
    have hcons (k : ℕ) : s.readLe (k + 1) a = (s a).toNat + 256 * s.readLe k (a + 1) := by
      simp only [readLe, read, List.range_succ_eq_map, List.map_cons, List.map_map, leValue,
        Nat.add_zero]
      congr 3
      apply List.map_congr_left
      intro i _
      simp only [Function.comp_apply, Nat.succ_eq_add_one]
      congr 1
      omega
    have hshift : a + 1 + m = a + (m + 1) := by omega
    rw [show m + 1 + n = m + n + 1 by omega, hcons, hcons, ih, hshift]
    ring

/-- A byte of a word. -/
theorem toNat_byte (s : Store) {n a i : ℕ} (hi : i < n) :
    (s (a + i)).toNat = s.readLe n a / 256 ^ i % 256 := by
  obtain ⟨r, rfl⟩ : ∃ r, n = i + (1 + r) := ⟨n - i - 1, by omega⟩
  have hone : s.readLe 1 (a + i) = (s (a + i)).toNat := by
    simp [readLe, read, leValue]
  have hlow := s.readLe_lt i a
  have hbyte := (s (a + i)).toNat_lt
  rw [readLe_add, Nat.add_mul_div_left _ _ (by positivity), Nat.div_eq_of_lt hlow, zero_add,
    readLe_add, pow_one, Nat.add_mul_mod_self_left, hone, Nat.mod_eq_of_lt hbyte]

theorem writeLe_of_outside {s : Store} {n a v x : ℕ} (h : x < a ∨ a + n ≤ x) :
    s.writeLe n a v x = s x :=
  write_of_outside (by simpa using h)

end Store

/-! ## Loops of writes -/

/-- Invariant rule of a counted loop `for i in 0..n`. -/
theorem foldl_range_induction {σ : Type*} {f : σ → ℕ → σ} {n : ℕ} {s : σ} (P : ℕ → σ → Prop)
    (zero : P 0 s) (step : ∀ i t, i < n → P i t → P (i + 1) (f t i)) :
    P n ((List.range n).foldl f s) := by
  induction n with
  | zero => exact zero
  | succ n ih =>
    rw [List.range_succ, List.foldl_append, List.foldl_cons, List.foldl_nil]
    exact step n _ (by omega) (ih fun i t hi => step i t (by omega))

/-- Invariant rule of a counted loop whose body may fail: if no step fails from a state that
satisfies the invariant, the loop does not fail. -/
theorem foldlM_range_induction {σ : Type*} {f : σ → ℕ → Option σ} {n : ℕ} {s : σ}
    (P : ℕ → σ → Prop) (zero : P 0 s)
    (step : ∀ i t, i < n → P i t → ∃ t', f t i = some t' ∧ P (i + 1) t') :
    ∃ t, (List.range n).foldlM f s = some t ∧ P n t := by
  induction n with
  | zero => exact ⟨s, rfl, zero⟩
  | succ n ih =>
    obtain ⟨t, hrun, ht⟩ := ih fun i t hi => step i t (by omega)
    obtain ⟨t', hstep, ht'⟩ := step n t (by omega) ht
    refine ⟨t', ?_, ht'⟩
    rw [List.range_succ, List.foldlM_append, hrun]
    simp [hstep]

/-- `t` is `s` with a table of `n` words of `w` bytes laid out from `base` on, `stride` bytes
apart: entry `i` holds `v i`, and every byte outside the table is the one `s` has. -/
structure Table (s t : Store) (base stride w n : ℕ) (v : ℕ → ℕ) : Prop where
  entry : ∀ i < n, t.readLe w (base + stride * i) = v i
  frame : ∀ x, x < base ∨ base + stride * n ≤ x → t x = s x

namespace Table

variable {s t t' : Store} {base stride w n : ℕ} {v : ℕ → ℕ}

theorem empty (s : Store) (base stride w : ℕ) (v : ℕ → ℕ) : Table s s base stride w 0 v :=
  ⟨fun _ hi => absurd hi (by omega), fun _ _ => rfl⟩

/-- Laying out the next entry, and touching nothing but its slot, extends the table by one. -/
theorem push (h : Table s t base stride w n v) (hw : w ≤ stride)
    (hnew : t'.readLe w (base + stride * n) = v n)
    (hold : ∀ x, x < base + stride * n ∨ base + stride * (n + 1) ≤ x → t' x = t x) :
    Table s t' base stride w (n + 1) v := by
  refine ⟨fun i hi => ?_, fun x hx => ?_⟩
  · rcases Nat.lt_succ_iff_lt_or_eq.1 hi with hlt | rfl
    · have hslot : stride * (i + 1) ≤ stride * n := Nat.mul_le_mul_left _ hlt
      rw [← h.entry i hlt]
      refine Store.readLe_congr fun k hk => hold _ (Or.inl ?_)
      rw [Nat.mul_succ] at hslot
      omega
    · exact hnew
  · have hslot : stride * n ≤ stride * (n + 1) := Nat.mul_le_mul_left _ (Nat.le_succ n)
    rw [hold x (by omega), h.frame x (by omega)]

end Table

end Bytes
