import Mathlib
import X86Oracle.Lib.Text

/-!
# Static and import libraries

`archive_is_static` (`build.rs`) walks the members of an `ar` archive and tells a static library
from the import library of a DLL.  The archive is a file nobody vouches for: the model checks every
index and every sum of the walk, and gives it a number of turns.

* `walk_ok`: no byte string makes the walk fail a check or run out of turns.
* `walk_members`: what it answers on the members of a well-formed archive.
* `archiveIsStatic_iff`: both, and when the answer is the right one.
-/

namespace Build

open Text

/-! ## `archive_is_static` -/

/-- What stops the program. -/
inductive Fault where
  | overflow
  | outOfRange
  | outOfTurns
deriving DecidableEq, Repr

/-- A byte string in memory, on a machine whose `usize` has `bits` bits: none is longer than
`isize::MAX`. -/
structure Vec (bits : ℕ) where
  bytes : List UInt8
  length_lt : bytes.length < 2 ^ (bits - 1)

/-- `a + b`. -/
def add (bits a b : ℕ) : Except Fault ℕ :=
  if a + b < 2 ^ bits then .ok (a + b) else .error .overflow

def checkedAdd (bits a b : ℕ) : Option ℕ := if a + b < 2 ^ bits then some (a + b) else none

/-- `&data[start..stop]`. -/
def slice (data : List UInt8) (start stop : ℕ) : Except Fault (List UInt8) :=
  if start ≤ stop ∧ stop ≤ data.length then .ok ((data.drop start).take (stop - start))
  else .error .outOfRange

/-- `!<arch>` and a line feed. -/
def MAGIC : List UInt8 := [0x21, 0x3C, 0x61, 0x72, 0x63, 0x68, 0x3E, 0x0A]

/-- `.dll`, as bytes. -/
def dotDll : List UInt8 := [0x2E, 0x64, 0x6C, 0x6C]

def importMagic : List UInt8 := [0x00, 0x00, 0xFF, 0xFF]

def dllNamed (s : List Char) : Bool :=
  ['.', 'd', 'l', 'l'].isSuffixOf (toAsciiLowercase (s.rdropWhile fun c => c = '/'))

/-- What one member tells: `none` for an import library, else whether a real member was seen. -/
def inspect (name : List Char) (bytes : List UInt8) (sawRealMember : Bool) : Option Bool :=
  if name = ['/', '/'] then
    -- the long-names table
    if (windows 4 bytes).any fun w => w.map lower = dotDll then none else some sawRealMember
  else if ¬ (name = [] ∨ name = ['/']) then
    if importMagic.isPrefixOf bytes ∨ dllNamed name then none else some true
  else some sawRealMember

/-- The loop, for at most so many turns. -/
def walk (bits : ℕ) (data : List UInt8) : ℕ → ℕ → Bool → Except Fault (Option Bool)
  | 0, _, _ => .error .outOfTurns
  | turns + 1, pos, sawRealMember => do
    let body ← add bits pos 60
    if data.length < body then return if sawRealMember then some true else none
    let header ← slice data pos body
    let nameField ← slice header 0 16
    let some name := (fromUtf8 nameField).map trimEnd | return none
    let sizeField ← slice header 48 58
    let some size := ((fromUtf8 sizeField).map trim).bind (parseUsize bits) | return none
    let some stop := checkedAdd bits body size | return none
    if data.length < stop then return none
    let bytes ← slice data body stop
    let some sawRealMember := inspect name bytes sawRealMember | return some false
    -- members are 2-byte aligned
    let next ← add bits stop (size % 2)
    walk bits data turns next sawRealMember

/-- `lib` is what `std::fs::read` makes of the path. -/
def archiveIsStatic {bits : ℕ} (lib : Option (Vec bits)) : Except Fault (Option Bool) :=
  match lib with
  | none => .ok none
  | some data =>
    if MAGIC.isPrefixOf data.bytes then
      walk bits data.bytes data.bytes.length MAGIC.length false
    else .ok none

/-! ## Safety -/

section Safety

variable {bits a b start stop : ℕ} {data : List UInt8}

theorem add_ok (h : a + b < 2 ^ bits) : add bits a b = .ok (a + b) := if_pos h

theorem slice_ok (h : start ≤ stop) (hstop : stop ≤ data.length) :
    slice data start stop = .ok ((data.drop start).take (stop - start)) := if_pos ⟨h, hstop⟩

/-- Room for the sums of one turn. -/
theorem room (hbits : 16 ≤ bits) (hdata : data.length < 2 ^ (bits - 1)) :
    data.length + 62 < 2 ^ bits := by
  have hsmall : 2 ^ 15 ≤ 2 ^ (bits - 1) := Nat.pow_le_pow_right (by norm_num) (by omega)
  have hdouble : 2 ^ bits = 2 ^ (bits - 1) * 2 := by rw [← pow_succ, Nat.sub_add_cancel (by omega)]
  omega

theorem walk_end (hroom : data.length + 62 < 2 ^ bits) {pos : ℕ} (hpos : pos ≤ data.length + 1)
    (hend : data.length < pos + 60) (turns : ℕ) (saw : Bool) :
    walk bits data (turns + 1) pos saw = .ok (if saw then some true else none) := by
  unfold walk
  rw [add_ok (by omega)]
  simp only [bind, Except.bind]
  rw [if_pos hend]
  cases saw <;> rfl

/-- One turn on a header that is there: nothing is out of range, and no sum overflows. -/
theorem walk_turn (hroom : data.length + 62 < 2 ^ bits) {pos : ℕ} (hpos : pos + 60 ≤ data.length)
    (turns : ℕ) (saw : Bool) :
    walk bits data (turns + 1) pos saw =
      match (fromUtf8 ((data.drop pos).take 16)).map trimEnd,
          ((fromUtf8 ((data.drop (pos + 48)).take 10)).map trim).bind (parseUsize bits) with
      | some name, some size =>
        if data.length < pos + 60 + size then .ok none
        else
          match inspect name ((data.drop (pos + 60)).take size) saw with
          | none => .ok (some false)
          | some saw => walk bits data turns (pos + 60 + size + size % 2) saw
      | _, _ => .ok none := by
  have hheader : (data.drop pos |>.take 60).length = 60 := by
    rw [List.length_take, List.length_drop]
    omega
  have hname : slice ((data.drop pos).take 60) 0 16 = .ok ((data.drop pos).take 16) := by
    rw [slice_ok (by omega) (by omega), List.drop_zero, List.take_take]
    rfl
  have hsize : slice ((data.drop pos).take 60) 48 58 = .ok ((data.drop (pos + 48)).take 10) := by
    rw [slice_ok (by omega) (by omega), List.drop_take, List.drop_drop, List.take_take]
    rfl
  rw [walk, add_ok (by omega)]
  simp only [bind, Except.bind]
  rw [if_neg (by omega), slice_ok (by omega) hpos, Nat.add_sub_cancel_left]
  dsimp only
  rw [hname]
  dsimp only
  rcases (fromUtf8 ((data.drop pos).take 16)).map trimEnd with _ | name
  · rfl
  dsimp only
  rw [hsize]
  dsimp only
  rcases ((fromUtf8 ((data.drop (pos + 48)).take 10)).map trim).bind (parseUsize bits) with _ | size
  · rfl
  dsimp only
  unfold checkedAdd
  by_cases hstop : data.length < pos + 60 + size
  · rw [if_pos hstop]
    by_cases hsum : pos + 60 + size < 2 ^ bits
    · rw [if_pos hsum]
      dsimp only
      rw [if_pos hstop]
      rfl
    · rw [if_neg hsum]
      rfl
  · rw [if_neg hstop, if_pos (by omega)]
    dsimp only
    rw [if_neg hstop, slice_ok (by omega) (by omega), Nat.add_sub_cancel_left]
    dsimp only
    rcases inspect name ((data.drop (pos + 60)).take size) saw with _ | saw
    · rfl
    dsimp only
    rw [add_ok (by omega)]

/-- Every turn moves on by a header at least, so the turns last. -/
theorem walk_ok (hroom : data.length + 62 < 2 ^ bits) (turns pos : ℕ) (hpos : pos ≤ data.length + 1)
    (hturns : data.length + 1 < pos + 60 * turns) (saw : Bool) :
    ∃ answer, walk bits data turns pos saw = .ok answer := by
  induction turns generalizing pos saw with
  | zero => exact absurd hturns (by omega)
  | succ turns ih =>
    by_cases hend : data.length < pos + 60
    · exact ⟨_, walk_end hroom hpos hend turns saw⟩
    · rw [walk_turn hroom (by omega)]
      split
      · split_ifs with hstop
        · exact ⟨_, rfl⟩
        · split
          · exact ⟨_, rfl⟩
          · exact ih _ (by omega) (by omega) _
      · exact ⟨_, rfl⟩

end Safety

/-! ## Archives -/

/-- A member with its header.  The fields of a header are ASCII, left-justified and filled up with
blanks; the date, the owner and the mode do not matter here. -/
structure Member where
  nameField : List UInt8
  nameField_length : nameField.length = 16
  nameField_printable : ∀ b ∈ nameField, 0x20 ≤ b ∧ b ≤ 0x7E
  details : List UInt8
  details_length : details.length = 32
  sizeDigits : List UInt8
  sizeDigits_ne_nil : sizeDigits ≠ []
  sizeDigits_length : sizeDigits.length ≤ 10
  sizeDigits_digit : ∀ d ∈ sizeDigits, isDigit d = true
  body : List UInt8
  size_eq : decimal sizeDigits = body.length
  /-- The byte after a body of odd length. -/
  pad : UInt8

namespace Member

def name (m : Member) : List UInt8 := m.nameField.rdropWhile fun b => b = 0x20

def sizeField (m : Member) : List UInt8 :=
  m.sizeDigits ++ List.replicate (10 - m.sizeDigits.length) 0x20

def header (m : Member) : List UInt8 := m.nameField ++ (m.details ++ (m.sizeField ++ [0x60, 0x0A]))

def padding (m : Member) : List UInt8 := if m.body.length % 2 = 1 then [m.pad] else []

/-- The long-names table. -/
def isTable (m : Member) : Bool := m.name = [0x2F, 0x2F]

/-- Neither the table nor an index of symbols. -/
def isReal (m : Member) : Bool := m.name ≠ [] ∧ m.name ≠ [0x2F] ∧ m.name ≠ [0x2F, 0x2F]

end Member

/-- The bytes of some members.  A file may end without the padding of its last member. -/
inductive Members : List Member → List UInt8 → Prop
  | nil : Members [] []
  | last (m : Member) : Members [m] (m.header ++ m.body)
  | cons (m : Member) {ms : List Member} {rest : List UInt8} (h : Members ms rest) :
      Members (m :: ms) (m.header ++ (m.body ++ (m.padding ++ rest)))

/-- The bytes of an archive. -/
def WellFormed (ms : List Member) (bytes : List UInt8) : Prop :=
  ∃ rest, bytes = MAGIC ++ rest ∧ Members ms rest

/-! ## Import libraries -/

/-- A name that ends in `.dll`, in whatever case, before the slashes that close it. -/
def DllName (name : List UInt8) : Prop :=
  dotDll <:+ ((name.rdropWhile fun b => b = 0x2F).map lower)

/-- The name at an offset of the table, up to a line feed or a zero. -/
def longName (table : List UInt8) (offset : ℕ) : List UInt8 :=
  (table.drop offset).takeWhile fun b => b ≠ 0x0A ∧ b ≠ 0

namespace Member

/-- Sig1, Sig2 and Version of a short import. -/
def ShortImport (m : Member) : Prop := [0x00, 0x00, 0xFF, 0xFF, 0x00, 0x00] <+: m.body

/-- The member is named after a DLL, by its header or by an offset into a table. -/
def NamedAfterDll (ms : List Member) (m : Member) : Prop :=
  DllName m.name ∨ ∃ ds, ds ≠ [] ∧ (∀ d ∈ ds, isDigit d = true) ∧ m.name = 0x2F :: ds ∧
    ∃ table ∈ ms, table.isTable = true ∧ DllName (longName table.body (decimal ds))

/-- What looks like an import library and need not be one: an object that has the magic of a short
one and another version, or a table with `.dll` somewhere in it. -/
def Misleading (m : Member) : Prop :=
  m.isReal = true ∧ importMagic <+: m.body ∧ ¬ m.ShortImport ∨
    m.isTable = true ∧ ∃ w, w <:+: m.body ∧ w.map lower = dotDll

end Member

/-- Some member is a short import, or is named after a DLL. -/
def ImportLib (ms : List Member) : Prop :=
  ∃ m ∈ ms, m.isReal = true ∧ (m.ShortImport ∨ m.NamedAfterDll ms)

/-! ## The walk on a well-formed archive -/

namespace Member

variable {bits : ℕ} (m : Member)

/-- The walk stops at the member. -/
def stops : Bool :=
  m.isTable && (windows 4 m.body).any (fun w => w.map lower = dotDll) ||
    m.isReal && (importMagic.isPrefixOf m.body || dllNamed (ascii m.name))

theorem header_length : m.header.length = 60 := by
  unfold header sizeField
  simp only [List.length_append, List.length_replicate, List.length_cons, List.length_nil,
    m.nameField_length, m.details_length]
  have := m.sizeDigits_length
  omega

theorem padding_length : m.padding.length = m.body.length % 2 := by
  unfold padding
  split_ifs with hodd
  · exact hodd.symm
  · rw [List.length_nil]
    omega

theorem sizeField_length : m.sizeField.length = 10 := by
  unfold sizeField
  rw [List.length_append, List.length_replicate]
  have := m.sizeDigits_length
  omega

theorem take_header (tail : List UInt8) : (m.header ++ tail).take 16 = m.nameField := by
  unfold header
  rw [List.append_assoc, ← m.nameField_length, List.take_left]

theorem drop_header (tail : List UInt8) : ((m.header ++ tail).drop 48).take 10 = m.sizeField := by
  have hfront : m.header ++ tail =
      (m.nameField ++ m.details) ++ (m.sizeField ++ ([0x60, 0x0A] ++ tail)) := by
    unfold header
    simp only [List.append_assoc]
  have hlen : (m.nameField ++ m.details).length = 48 := by
    rw [List.length_append, m.nameField_length, m.details_length]
  rw [hfront, ← hlen, List.drop_left, ← m.sizeField_length, List.take_left]

theorem fromUtf8_nameField : (fromUtf8 m.nameField).map trimEnd = some (ascii m.name) := by
  rw [fromUtf8_printable m.nameField_printable, Option.map_some,
    trimEnd_ascii m.nameField_printable]
  rfl

theorem fromUtf8_sizeField (hlt : m.body.length < 2 ^ bits) :
    ((fromUtf8 m.sizeField).map trim).bind (parseUsize bits) = some m.body.length := by
  have hprintable : ∀ b ∈ m.sizeField, 0x20 ≤ b ∧ b ≤ 0x7E := by
    intro b hb
    unfold sizeField at hb
    rcases List.mem_append.1 hb with hb | hb
    · exact printable_of_isDigit (m.sizeDigits_digit b hb)
    · rw [List.eq_of_mem_replicate hb]
      decide
  have hblank (d : UInt8) (hd : d ∈ m.sizeDigits) : decide (d = 0x20) = false := by
    refine decide_eq_false ?_
    rintro rfl
    exact absurd (m.sizeDigits_digit _ hd) (by decide)
  have hfront : m.sizeField.dropWhile (fun b => b = 0x20) = m.sizeField := by
    unfold sizeField
    obtain ⟨d, ds, hds⟩ := List.exists_cons_of_ne_nil m.sizeDigits_ne_nil
    have hd := hblank d (hds ▸ List.mem_cons_self)
    rw [hds, List.cons_append, List.dropWhile_cons, hd]
    rfl
  have hback : m.sizeField.rdropWhile (fun b => b = 0x20) = m.sizeDigits :=
    rdropWhile_append_replicate _ (by decide) hblank
  rw [fromUtf8_printable hprintable, Option.map_some, Option.bind_some, trim,
    dropWhile_ascii fun b hb => isWhitespace_printable (hprintable b hb), hfront,
    trimEnd_ascii hprintable, hback,
    parseUsize_digits m.sizeDigits_ne_nil m.sizeDigits_digit (m.size_eq ▸ hlt), m.size_eq]

theorem inspect_eq (saw : Bool) :
    inspect (ascii m.name) m.body saw = if m.stops then none else some (saw || m.isReal) := by
  have htable : ascii m.name = ['/', '/'] ↔ m.name = [0x2F, 0x2F] :=
    @ascii_inj _ [0x2F, 0x2F]
  have hindex : ascii m.name = ['/'] ↔ m.name = [0x2F] := @ascii_inj _ [0x2F]
  have hempty : ascii m.name = [] ↔ m.name = [] := @ascii_inj _ []
  unfold inspect stops isTable isReal
  simp only [htable, hindex, hempty]
  by_cases h : m.name = [0x2F, 0x2F]
  · simp [h]
  · by_cases h' : m.name = [] ∨ m.name = [0x2F]
    · rcases h' with h' | h' <;> simp [h']
    · rw [not_or] at h'
      simp [h, h'.1, h'.2]

/-- One turn on a member. -/
theorem walk_turn {data pre : List UInt8} (tail : List UInt8) (hroom : data.length + 62 < 2 ^ bits)
    (hdata : data = pre ++ (m.header ++ (m.body ++ tail))) (turns : ℕ) (saw : Bool) :
    walk bits data (turns + 1) pre.length saw =
      if m.stops then .ok (some false)
      else walk bits data turns (pre.length + 60 + m.body.length + m.body.length % 2)
        (saw || m.isReal) := by
  have hlen : data.length = pre.length + 60 + m.body.length + tail.length := by
    rw [hdata]
    simp only [List.length_append, m.header_length]
    omega
  have hname : (data.drop pre.length).take 16 = m.nameField := by
    rw [hdata, List.drop_left, m.take_header]
  have hsize : (data.drop (pre.length + 48)).take 10 = m.sizeField := by
    rw [hdata, ← List.drop_drop, List.drop_left, m.drop_header]
  have hbody : (data.drop (pre.length + 60)).take m.body.length = m.body := by
    rw [hdata, ← List.drop_drop, List.drop_left, ← m.header_length, List.drop_left, List.take_left]
  rw [Build.walk_turn hroom (by omega), hname, hsize, m.fromUtf8_nameField,
    m.fromUtf8_sizeField (by omega)]
  dsimp only
  rw [if_neg (by omega), hbody, m.inspect_eq]
  cases m.stops <;> rfl

end Member

section Walk

variable {bits : ℕ}

/-- The answer on some members, the walk having seen a real one before them or not. -/
def answer (ms : List Member) (saw : Bool) : Option Bool :=
  if ms.any Member.stops then some false
  else if saw || ms.any Member.isReal then some true else none

theorem answer_cons (m : Member) (ms : List Member) (saw : Bool) :
    answer (m :: ms) saw = if m.stops then some false else answer ms (saw || m.isReal) := by
  unfold answer
  rw [List.any_cons, List.any_cons, ← Bool.or_assoc]
  cases m.stops <;> rfl

/-- The run: one turn for each member, and one for the end. -/
theorem walk_members {ms : List Member} {rest : List UInt8} (h : Members ms rest)
    {data pre : List UInt8} (hroom : data.length + 62 < 2 ^ bits) (hdata : data = pre ++ rest)
    (turns : ℕ) (hturns : data.length + 1 < pre.length + 60 * turns) (saw : Bool) :
    walk bits data turns pre.length saw = .ok (answer ms saw) := by
  induction h generalizing pre turns saw with
  | nil =>
    rw [List.append_nil] at hdata
    subst hdata
    obtain ⟨turns, rfl⟩ := Nat.exists_eq_add_one.2 (show 0 < turns by omega)
    rw [walk_end hroom (by omega) (by omega)]
    cases saw <;> rfl
  | last m =>
    have hlen : data.length = pre.length + 60 + m.body.length := by
      rw [hdata, List.length_append, List.length_append, m.header_length, Nat.add_assoc]
    obtain ⟨turns, rfl⟩ := Nat.exists_eq_add_one.2 (show 0 < turns by omega)
    rw [m.walk_turn [] hroom (by rw [hdata, List.append_nil]), answer_cons]
    split_ifs with hstops
    · rfl
    · obtain ⟨turns, rfl⟩ := Nat.exists_eq_add_one.2 (show 0 < turns by omega)
      rw [walk_end hroom (by omega) (by omega)]
      cases saw <;> cases m.isReal <;> rfl
  | @cons m ms rest hms ih =>
    have hsplit : data = (pre ++ (m.header ++ (m.body ++ m.padding))) ++ rest := by
      rw [hdata]
      simp only [List.append_assoc]
    have hpos : (pre ++ (m.header ++ (m.body ++ m.padding))).length =
        pre.length + 60 + m.body.length + m.body.length % 2 := by
      simp only [List.length_append, m.header_length, m.padding_length]
      omega
    have hlen : pre.length + 60 + m.body.length ≤ data.length := by
      have := congrArg List.length hsplit
      rw [List.length_append, hpos] at this
      omega
    obtain ⟨turns, rfl⟩ := Nat.exists_eq_add_one.2 (show 0 < turns by omega)
    rw [m.walk_turn _ hroom hdata, answer_cons, ← hpos, ih hsplit turns (by omega)]
    split_ifs <;> rfl

theorem archiveIsStatic_members (hbits : 16 ≤ bits) {lib : Vec bits} {ms : List Member}
    (h : WellFormed ms lib.bytes) : archiveIsStatic (some lib) = .ok (answer ms false) := by
  obtain ⟨rest, hbytes, hms⟩ := h
  have hmagic : MAGIC.isPrefixOf lib.bytes = true := by
    rw [List.isPrefixOf_iff_prefix, hbytes]
    exact List.prefix_append ..
  have hlen : MAGIC.length ≤ lib.bytes.length := (List.isPrefixOf_iff_prefix.1 hmagic).length_le
  have hstart : MAGIC.length = 8 := rfl
  unfold archiveIsStatic
  dsimp only
  rw [if_pos hmagic]
  exact walk_members hms (room hbits lib.length_lt) hbytes _ (by omega) false

theorem archiveIsStatic_ok (hbits : 16 ≤ bits) (lib : Vec bits) :
    ∃ answer, archiveIsStatic (some lib) = .ok answer := by
  unfold archiveIsStatic
  dsimp only
  split_ifs with hmagic
  · have hlen : MAGIC.length ≤ lib.bytes.length := (List.isPrefixOf_iff_prefix.1 hmagic).length_le
    have hstart : MAGIC.length = 8 := rfl
    exact walk_ok (room hbits lib.length_lt) _ _ (by omega) (by omega) false
  · exact ⟨none, rfl⟩

end Walk

/-! ## Right answers -/

theorem dllNamed_ascii (bs : List UInt8) : dllNamed (ascii bs) = true ↔ DllName bs := by
  have hslash : (ascii bs).rdropWhile (fun c => c = '/') =
      ascii (bs.rdropWhile fun b => b = 0x2F) :=
    rdropWhile_ascii fun b _ => decide_eq_decide.2 (ofNat_byte_inj (b := 0x2F))
  have hdll : ['.', 'd', 'l', 'l'] = ascii dotDll := rfl
  unfold dllNamed DllName
  rw [List.isSuffixOf_iff_suffix, hslash, toAsciiLowercase_ascii, hdll]
  constructor
  · rintro ⟨front, hfront⟩
    obtain ⟨fs, ds, hbs, -, hds⟩ := List.map_eq_append_iff.1 hfront.symm
    rw [hbs, ascii_inj.1 hds]
    exact List.suffix_append ..
  · rintro ⟨front, hfront⟩
    rw [← hfront]
    exact ⟨ascii front, (List.map_append ..).symm⟩

namespace Member

variable {m : Member} {ms : List Member}

theorem ShortImport.magic (h : m.ShortImport) : importMagic <+: m.body :=
  List.IsPrefix.trans ⟨[0x00, 0x00], rfl⟩ h

/-- A long name that ends in `.dll` leaves `.dll` in the table. -/
theorem window_of_longName {table : List UInt8} {offset : ℕ} (h : DllName (longName table offset)) :
    ∃ w, w <:+: table ∧ w.map lower = dotDll := by
  obtain ⟨front, hfront⟩ := h
  obtain ⟨fs, w, hname, -, hw⟩ := List.map_eq_append_iff.1 hfront.symm
  refine ⟨w, ?_, hw⟩
  have hsuffix : w <:+: (longName table offset).rdropWhile fun b => b = 0x2F := by
    rw [hname]
    exact (List.suffix_append ..).isInfix
  have hlong : longName table offset <:+: table :=
    (List.takeWhile_prefix _).isInfix.trans (List.drop_suffix ..).isInfix
  exact hsuffix.trans ((List.rdropWhile_prefix ..).isInfix.trans hlong)

theorem stops_iff : m.stops = true ↔
    m.Misleading ∨ m.isReal = true ∧ (m.ShortImport ∨ DllName m.name) := by
  have hwindows : (windows 4 m.body).any (fun w => w.map lower = dotDll) = true ↔
      ∃ w, w <:+: m.body ∧ w.map lower = dotDll := by
    rw [List.any_eq_true]
    refine exists_congr fun w => ?_
    rw [mem_windows_iff (by decide), decide_eq_true_eq, and_assoc]
    refine ⟨fun h => h.2, fun h => ⟨?_, h⟩⟩
    rw [← List.length_map (f := lower), h.2]
    rfl
  unfold stops Misleading
  rw [Bool.or_eq_true, Bool.and_eq_true, Bool.and_eq_true, Bool.or_eq_true, hwindows,
    List.isPrefixOf_iff_prefix, dllNamed_ascii]
  constructor
  · rintro (htable | ⟨hreal, hmagic | hdll⟩)
    · exact .inl (.inr htable)
    · by_cases hshort : m.ShortImport
      · exact .inr ⟨hreal, .inl hshort⟩
      · exact .inl (.inl ⟨hreal, hmagic, hshort⟩)
    · exact .inr ⟨hreal, .inr hdll⟩
  · rintro ((⟨hreal, hmagic, -⟩ | htable) | ⟨hreal, hshort | hdll⟩)
    · exact .inr ⟨hreal, .inl hmagic⟩
    · exact .inl htable
    · exact .inr ⟨hreal, .inl hshort.magic⟩
    · exact .inr ⟨hreal, .inr hdll⟩

end Member

theorem any_stops_iff {ms : List Member} :
    ms.any Member.stops = true ↔ ImportLib ms ∨ ∃ m ∈ ms, m.Misleading := by
  rw [List.any_eq_true]
  constructor
  · rintro ⟨m, hm, hstops⟩
    rcases Member.stops_iff.1 hstops with hmis | ⟨hreal, hshort | hdll⟩
    · exact .inr ⟨m, hm, hmis⟩
    · exact .inl ⟨m, hm, hreal, .inl hshort⟩
    · exact .inl ⟨m, hm, hreal, .inr (.inl hdll)⟩
  · rintro (⟨m, hm, hreal, hshort | hdll | ⟨ds, -, -, -, table, htable, his, hlong⟩⟩ |
      ⟨m, hm, hmis⟩)
    · exact ⟨m, hm, Member.stops_iff.2 (.inr ⟨hreal, .inl hshort⟩)⟩
    · exact ⟨m, hm, Member.stops_iff.2 (.inr ⟨hreal, .inr hdll⟩)⟩
    · exact ⟨table, htable,
        Member.stops_iff.2 (.inl (.inr ⟨his, Member.window_of_longName hlong⟩))⟩
    · exact ⟨m, hm, Member.stops_iff.2 (.inl hmis)⟩

/-- An import library is answered `false`, and any other archive `true`. -/
def Right {bits : ℕ} (lib : Vec bits) (ms : List Member) : Prop :=
  (archiveIsStatic (some lib) = .ok (some false) ↔ ImportLib ms) ∧
    (archiveIsStatic (some lib) = .ok (some true) ↔ ¬ ImportLib ms)

/-- The walk is safe on every byte string.  On a well-formed archive with a real member its answer
is the right one unless a member misleads it: then the archive has to be an import library all the
same. -/
theorem archiveIsStatic_iff {bits : ℕ} (hbits : 16 ≤ bits) (lib : Vec bits) :
    (∃ answer, archiveIsStatic (some lib) = .ok answer) ∧
      ∀ ms, WellFormed ms lib.bytes → (∃ m ∈ ms, m.isReal = true) →
        (Right lib ms ↔ ((∃ m ∈ ms, m.Misleading) → ImportLib ms)) := by
  refine ⟨archiveIsStatic_ok hbits lib, fun ms hms hreal => ?_⟩
  have hanswer : answer ms false = some (!ms.any Member.stops) := by
    unfold answer
    rw [List.any_eq_true.2 hreal]
    cases ms.any Member.stops <;> rfl
  have hright : Right lib ms ↔ (ms.any Member.stops = true ↔ ImportLib ms) := by
    unfold Right
    rw [archiveIsStatic_members hbits hms, hanswer]
    cases ms.any Member.stops <;> simp
  rw [hright, any_stops_iff]
  exact or_iff_left_iff_imp

/-- One object file. -/
def object : Member where
  nameField := [0x61, 0x2E, 0x6F, 0x2F] ++ List.replicate 12 0x20
  nameField_length := by decide
  nameField_printable := by decide +kernel
  details := List.replicate 32 0x20
  details_length := List.length_replicate
  sizeDigits := [0x31]
  sizeDigits_ne_nil := by decide
  sizeDigits_length := by decide
  sizeDigits_digit := by decide +kernel
  body := [0x4C]
  size_eq := rfl
  pad := 0x0A

/-- The archive of one object file, `a.o`. -/
def objectLib : Vec 64 := ⟨MAGIC ++ (object.header ++ object.body), by
  rw [List.length_append, List.length_append, object.header_length]
  simp [MAGIC, object]⟩

theorem objectLib_wellFormed : WellFormed [object] objectLib.bytes := ⟨_, rfl, .last object⟩

theorem archiveIsStatic_object :
    Right objectLib [object] ↔ ((∃ m ∈ [object], m.Misleading) → ImportLib [object]) :=
  (archiveIsStatic_iff (by decide) objectLib).2 [object] objectLib_wellFormed
    ⟨object, List.mem_cons_self, by decide⟩

/-- An object file with more sections than the ordinary header can count: the header with the
magic of a short import, and version 2. -/
def bigObject : Member where
  nameField := [0x61, 0x2E, 0x6F, 0x62, 0x6A, 0x2F] ++ List.replicate 10 0x20
  nameField_length := by decide
  nameField_printable := by decide +kernel
  details := List.replicate 32 0x20
  details_length := List.length_replicate
  sizeDigits := [0x35, 0x36]
  sizeDigits_ne_nil := by decide
  sizeDigits_length := by decide
  sizeDigits_digit := by decide +kernel
  body := [0x00, 0x00, 0xFF, 0xFF, 0x02, 0x00, 0x64, 0x86, 0x00, 0x00, 0x00, 0x00,
    0xC7, 0xA1, 0xBA, 0xD1, 0xEE, 0xBA, 0xA9, 0x4B, 0xAF, 0x20, 0xFA, 0xF6, 0x6A, 0xA4, 0xDC, 0xB8]
    ++ List.replicate 28 0x00
  size_eq := rfl
  pad := 0x0A

def bigObjectLib : Vec 64 := ⟨MAGIC ++ (bigObject.header ++ bigObject.body), by
  rw [List.length_append, List.length_append, bigObject.header_length]
  simp [MAGIC, bigObject]⟩

theorem bigObjectLib_wellFormed : WellFormed [bigObject] bigObjectLib.bytes :=
  ⟨_, rfl, .last bigObject⟩

theorem bigObject_not_importLib : ¬ ImportLib [bigObject] := by
  have hname : bigObject.name = [0x61, 0x2E, 0x6F, 0x62, 0x6A, 0x2F] := by decide +kernel
  rintro ⟨m, hm, -, hshort | hdll | ⟨ds, -, -, hds, -⟩⟩
  · rw [List.mem_singleton.1 hm] at hshort
    exact absurd hshort (by unfold Member.ShortImport; decide)
  · rw [List.mem_singleton.1 hm, hname] at hdll
    exact absurd hdll (by unfold DllName; decide)
  · rw [List.mem_singleton.1 hm, hname] at hds
    exact absurd (List.cons.inj hds).1 (by decide)

/-- A static library of such an object is taken for an import library. -/
theorem archiveIsStatic_bigObject :
    ¬ ∀ (bits : ℕ) (lib : Vec bits), 16 ≤ bits →
      (∃ answer, archiveIsStatic (some lib) = .ok answer) ∧
      ∀ ms, WellFormed ms lib.bytes → (∃ m ∈ ms, m.isReal = true) → Right lib ms := by
  intro h
  have hright := (h 64 bigObjectLib (by decide)).2 [bigObject] bigObjectLib_wellFormed
    ⟨bigObject, List.mem_cons_self, by decide⟩
  refine bigObject_not_importLib (hright.1.1 ?_)
  rw [archiveIsStatic_members (by decide) bigObjectLib_wellFormed]
  decide

end Build
