import Mathlib
import X86Oracle.Lib.Lines
import X86Oracle.Lib.Run

/-!
# Counting the model's instances

`refcount_scratch` (`scripts/fix_cpp_model.py`) rewrites the text of the generated model so that
the start-up calls of `model_init` run for the first live instance only, and the clean-up calls of
`model_fini` for the last.

* `Scan`: the loop over the lines of the text, as the script has it.
* `parse`, `exec`: what a call of a rewritten function does, by lines.
* `refcountScratch_sound`: the rewritten text counts instances over any interleaving of calls.
-/

namespace Scripts

open Lines Run

/-! ## The script -/

/-- The two functions it changes. -/
inductive Fn where
  | init
  | fini
deriving DecidableEq, Repr

def MARKER : Line := "fix_cpp_model.py".toList

def GUARD_DECL : Line := "static int sail_scratch_refs = 0; /* fix_cpp_model.py */\n".toList

namespace Fn

def header : Fn → Line
  | init => "void Model::model_init(void)".toList
  | fini => "void Model::model_fini(void)".toList

/-- How a call starts that is to be guarded. -/
def call : Fn → Line
  | init => "startup_z".toList
  | fini => "finish_z".toList

def cond : Fn → Line
  | init => "sail_first".toList
  | fini => "sail_last".toList

/-- The line that counts. -/
def count : Fn → Line
  | init => "  const bool sail_first = (sail_scratch_refs++ == 0);\n".toList
  | fini => "  const bool sail_last = (--sail_scratch_refs == 0);\n".toList

/-- The line after it. -/
def unused : Fn → Line
  | init => "  (void)sail_first;\n".toList
  | fini => "  (void)sail_last;\n".toList

end Fn

/-- `[A-Za-z_0-9]`. -/
def isWord (c : Char) : Bool :=
  'A' ≤ c ∧ c ≤ 'Z' ∨ 'a' ≤ c ∧ c ≤ 'z' ∨ c = '_' ∨ '0' ≤ c ∧ c ≤ '9'

/-- `STARTUP` and `FINISH`: a line with one such call and nothing else. -/
def Fn.pat (f : Fn) (line : Line) : Bool :=
  let name := line.dropWhile isSpace
  let args := (name.drop f.call.length).dropWhile isWord
  (line.takeWhile isSpace ≠ []) && f.call.isPrefixOf name &&
    ((name.drop f.call.length).takeWhile isWord ≠ []) && "();".toList.isPrefixOf args &&
    (args.drop 3).all isSpace

/-- The state of the loop: the function it is in, the calls held back, and the text written. -/
structure Scan where
  inFn : Option Fn
  pending : List Line
  dst : List Char

namespace Scan

def write (s : Scan) (text : List Char) : Scan := { s with dst := s.dst ++ text }

def flush (s : Scan) (cond : Line) : Scan :=
  if s.pending = [] then s
  else
    let s := s.write ("  if (".toList ++ cond ++ ") \x7b /* fix_cpp_model.py */\n".toList)
    let s := s.write s.pending.flatten
    { s.write "  \x7d\n".toList with pending := [] }

def line (s : Scan) (line : Line) : Scan :=
  match s.inFn with
  | none =>
    if Fn.init.header.isPrefixOf line then
      let s := { s with inFn := some .init }
      let s := s.write (GUARD_DECL ++ line ++ "\x7b\n".toList)
      (s.write Fn.init.count).write Fn.init.unused
    else if Fn.fini.header.isPrefixOf line then
      let s := { s with inFn := some .fini }
      let s := s.write (line ++ "\x7b\n".toList)
      (s.write Fn.fini.count).write Fn.fini.unused
    else s.write line
  | some f =>
    -- the opening brace is already there
    if "\x7b".toList.isPrefixOf line then s
    else if f.pat line then { s with pending := s.pending ++ [line] }
    else
      let s := (s.flush f.cond).write line
      if "\x7d".toList.isPrefixOf line then { s with inFn := none } else s

end Scan

/-- The new text, or `none` where the file is left as it is. -/
def refcountScratch (text : List Char) : Option (List Char) :=
  let src := splitLines (universalNewlines text)
  if src.any (contains MARKER) then none
  else some (src.foldl Scan.line ⟨none, [], []⟩).dst

/-! ## What the rewritten text does -/

/-- A line of a function, as far as it matters here. -/
inductive Stmt where
  /-- It counts, and sets the flag of the function. -/
  | count (f : Fn)
  /-- Calls behind a flag. -/
  | guarded (f : Fn) (calls : List Line)
  /-- Any other line. -/
  | line (l : Line)
deriving DecidableEq, Repr

def guardOpen (f : Fn) : Line :=
  "  if (".toList ++ f.cond ++ ") \x7b /* fix_cpp_model.py */\n".toList

def guardClose : Line := "  \x7d\n".toList

/-- The line opens a guard. -/
def opens (l : Line) : Option Fn :=
  if l = guardOpen .init then some .init else if l = guardOpen .fini then some .fini else none

/-- The line counts. -/
def counts (l : Line) : Option Fn :=
  if l = Fn.init.count then some .init else if l = Fn.fini.count then some .fini else none

/-- The lines of a body, put together where a guard holds some of them. -/
def parse : Option (Fn × List Line) → List Line → List Stmt
  | _, [] => []
  | some (f, calls), l :: ls =>
    if l = guardClose then .guarded f calls :: parse none ls else parse (some (f, calls ++ [l])) ls
  | none, l :: ls =>
    match counts l, opens l with
    | some f, _ => .count f :: parse none ls
    | none, some f => parse (some (f, [])) ls
    | none, none =>
      if l = Fn.init.unused ∨ l = Fn.fini.unused then parse none ls else .line l :: parse none ls

/-- The lines between the braces of a function. -/
def functionBody (f : Fn) (ls : List Line) : List Line :=
  ((ls.dropWhile fun l => !f.header.isPrefixOf l).drop 2).takeWhile fun l =>
    !"\x7d".toList.isPrefixOf l

/-- The function as the compiler reads it: the counter has to be declared before. -/
def compiled (f : Fn) (ls : List Line) : Option (List Stmt) :=
  if GUARD_DECL ∈ ls.takeWhile fun l => !f.header.isPrefixOf l then
    some (parse none (functionBody f ls))
  else none

/-- What `sail_scratch_refs` holds: an `int`. -/
def INT_MAX : ℤ := 2 ^ 31 - 1

/-- A call of a function: the counter after it, and the lines that ran.  `flag` is the local
variable of the function; `none` where the program has no meaning. -/
def exec : List Stmt → ℤ → Option (Fn × Bool) → Option (ℤ × List Line)
  | [], refs, _ => some (refs, [])
  | .count .init :: ss, refs, _ =>
    if refs < INT_MAX then exec ss (refs + 1) (some (.init, refs = 0)) else none
  | .count .fini :: ss, refs, _ =>
    if -INT_MAX ≤ refs then exec ss (refs - 1) (some (.fini, refs - 1 = 0)) else none
  | .guarded f calls :: ss, refs, flag =>
    match flag with
    | some (f', first) =>
      if f = f' then (exec ss refs flag).map fun r => (r.1, (if first then calls else []) ++ r.2)
      else none
    | none => none
  | .line l :: ss, refs, flag => (exec ss refs flag).map fun r => (r.1, l :: r.2)

/-- A call, by an instance. -/
inductive Call (ι : Type*) where
  | init (i : ι)
  | fini (i : ι)
deriving DecidableEq, Repr

def Call.fn {ι : Type*} : Call ι → Fn
  | init _ => .init
  | fini _ => .fini

/-- A run of calls on a rewritten text, with the lines each of them ran. -/
def run {ι : Type*} (ls : List Line) : ℤ → List (Call ι) → Option (ℤ × List (List Line))
  | refs, [] => some (refs, [])
  | refs, c :: cs =>
    (compiled c.fn ls).bind fun body =>
      (exec body refs none).bind fun r =>
        (run ls r.1 cs).map fun rest => (rest.1, r.2 :: rest.2)

/-! ## The layout the generator writes -/

/-- A model text, with `model_init` before `model_fini`. -/
structure ModelText where
  pre : List Line
  body : Fn → List Line
  mid : List Line
  post : List Line

namespace ModelText

/-- A function as it stands in the text. -/
def function (m : ModelText) (f : Fn) : List Line :=
  (f.header ++ ['\n']) :: "\x7b\n".toList :: m.body f ++ ["\x7d\n".toList]

def lines (m : ModelText) : List Line :=
  m.pre ++ m.function .init ++ m.mid ++ m.function .fini ++ m.post

/-- What the layout says of every line of a body: no brace at its start, and none of the names the
script brings in. -/
def PlainLine (l : Line) : Prop :=
  ¬ "\x7b".toList <+: l ∧ ¬ "\x7d".toList <+: l ∧ ¬ "sail_scratch_refs".toList <:+: l ∧
    ¬ "sail_first".toList <:+: l ∧ ¬ "sail_last".toList <:+: l

instance (l : Line) : Decidable (PlainLine l) := inferInstanceAs (Decidable (_ ∧ _))

/-- The layout of the generator: lines that end, two functions of plain lines, neither header
anywhere else, and no earlier output of the script. -/
structure Laid (m : ModelText) : Prop where
  isLine : ∀ l ∈ m.lines, IsLine l
  plain : ∀ f, ∀ l ∈ m.body f, PlainLine l
  header : ∀ f : Fn, ∀ l ∈ m.pre ++ m.body .init ++ m.mid ++ m.body .fini ++ m.post,
    ¬ f.header <+: l
  marker : ∀ l ∈ m.lines, ¬ MARKER <:+: l

end ModelText

/-! ## The rewriting -/

/-- Calls held back, as they are written. -/
def block (f : Fn) (calls : List Line) : List Line :=
  if calls = [] then [] else guardOpen f :: calls ++ [guardClose]

/-- A body with its runs of calls behind guards. -/
def wrap (f : Fn) : List Line → List Line → List Line
  | calls, [] => block f calls
  | calls, l :: ls =>
    if f.pat l then wrap f (calls ++ [l]) ls else block f calls ++ l :: wrap f [] ls

namespace Scan

variable {s : Scan} {f : Fn}

theorem flush_eq (s : Scan) (f : Fn) :
    s.flush f.cond = { s with pending := [], dst := s.dst ++ (block f s.pending).flatten } := by
  obtain ⟨inFn, pending, dst⟩ := s
  unfold flush block
  dsimp only
  split_ifs with h
  · rw [h, List.flatten_nil, List.append_nil]
  · have hflat : (guardOpen f :: pending ++ [guardClose]).flatten =
        guardOpen f ++ (pending.flatten ++ guardClose) := by
      rw [List.flatten_append, List.flatten_cons, List.flatten_singleton, List.append_assoc]
    rw [hflat, ← List.append_assoc, ← List.append_assoc]
    rfl

/-- Lines outside the two functions are copied. -/
theorem foldl_outside {ls : List Line} (h : ∀ f : Fn, ∀ l ∈ ls, ¬ f.header <+: l)
    (dst : List Char) :
    ls.foldl Scan.line ⟨none, [], dst⟩ = ⟨none, [], dst ++ ls.flatten⟩ := by
  induction ls generalizing dst with
  | nil => rw [List.foldl_nil, List.flatten_nil, List.append_nil]
  | cons l ls ih =>
    have hline (f : Fn) : f.header.isPrefixOf l = false := by
      rw [Bool.eq_false_iff, ne_eq, List.isPrefixOf_iff_prefix]
      exact h f l List.mem_cons_self
    have hstep : Scan.line ⟨none, [], dst⟩ l = ⟨none, [], dst ++ l⟩ := by
      unfold Scan.line
      dsimp only
      rw [hline, hline]
      rfl
    rw [List.foldl_cons, hstep, ih fun f m hm => h f m (List.mem_cons_of_mem l hm),
      List.flatten_cons, List.append_assoc]

/-- A body, up to the brace that closes it. -/
theorem foldl_body {ls : List Line} (h : ∀ l ∈ ls, ¬ "\x7b".toList <+: l ∧ ¬ "\x7d".toList <+: l)
    (calls : List Line) (dst : List Char) :
    (ls ++ ["\x7d\n".toList]).foldl Scan.line ⟨some f, calls, dst⟩ =
      ⟨none, [], dst ++ (wrap f calls ls ++ ["\x7d\n".toList]).flatten⟩ := by
  induction ls generalizing calls dst with
  | nil =>
    have hpat : f.pat "\x7d\n".toList = false := by cases f <;> decide
    rw [List.nil_append, List.foldl_cons, List.foldl_nil, Scan.line]
    dsimp only
    rw [if_neg (by decide), hpat, flush_eq]
    simp [wrap, write]
  | cons l ls ih =>
    have hopen : "\x7b".toList.isPrefixOf l = false := by
      rw [Bool.eq_false_iff, ne_eq, List.isPrefixOf_iff_prefix]
      exact (h l List.mem_cons_self).1
    have hclose : "\x7d".toList.isPrefixOf l = false := by
      rw [Bool.eq_false_iff, ne_eq, List.isPrefixOf_iff_prefix]
      exact (h l List.mem_cons_self).2
    rw [List.cons_append, List.foldl_cons, Scan.line]
    dsimp only
    rw [hopen, hclose]
    cases hpat : f.pat l with
    | true =>
      have hwrap : wrap f calls (l :: ls) = wrap f (calls ++ [l]) ls := by rw [wrap, if_pos hpat]
      rw [hwrap, ← ih fun m hm => h m (List.mem_cons_of_mem l hm)]
      rfl
    | false =>
      have hwrap : wrap f calls (l :: ls) = block f calls ++ l :: wrap f [] ls := by
        rw [wrap, hpat]
        rfl
      rw [flush_eq, hwrap]
      have := ih (fun m hm => h m (List.mem_cons_of_mem l hm)) []
        (dst ++ (block f calls).flatten ++ l)
      simpa [write] using this

end Scan

namespace ModelText

variable {m : ModelText}

/-- A function after the rewriting. -/
def newFunction (m : ModelText) (f : Fn) : List Line :=
  (f.header ++ ['\n']) :: "\x7b\n".toList :: f.count :: f.unused :: wrap f [] (m.body f)
    ++ ["\x7d\n".toList]

/-- The lines before the first of the two functions. -/
def newPre (m : ModelText) : List Line := m.pre ++ [GUARD_DECL]

def newLines (m : ModelText) : List Line :=
  m.newPre ++ m.newFunction .init ++ m.mid ++ m.newFunction .fini ++ m.post

/-- The header of a function, and the brace after it. -/
theorem line_header (f : Fn) (dst : List Char) :
    (Scan.line ⟨none, [], dst⟩ (f.header ++ ['\n'])).line "\x7b\n".toList =
      ⟨some f, [], dst ++ (if f = .init then GUARD_DECL else []) ++
        [f.header ++ ['\n'], "\x7b\n".toList, f.count, f.unused].flatten⟩ := by
  have hopen : "\x7b".toList.isPrefixOf "\x7b\n".toList = true := by decide
  have hheader : f.header.isPrefixOf (f.header ++ ['\n']) = true := by cases f <;> decide
  have hstep : Scan.line ⟨none, [], dst⟩ (f.header ++ ['\n']) =
      ⟨some f, [], dst ++ (if f = .init then GUARD_DECL else []) ++
        [f.header ++ ['\n'], "\x7b\n".toList, f.count, f.unused].flatten⟩ := by
    unfold Scan.line
    dsimp only
    cases f with
    | init =>
      rw [if_pos hheader]
      simp [Scan.write]
    | fini =>
      have hother : Fn.init.header.isPrefixOf (Fn.fini.header ++ ['\n']) = false := by decide
      rw [hother, if_neg Bool.false_ne_true, if_pos hheader]
      simp [Scan.write]
  rw [hstep, Scan.line]
  exact if_pos hopen

theorem foldl_function (hm : m.Laid) (f : Fn) (dst : List Char) :
    (m.function f).foldl Scan.line ⟨none, [], dst⟩ =
      ⟨none, [], dst ++ (if f = .init then GUARD_DECL else []) ++ (m.newFunction f).flatten⟩ := by
  have hbody :=
    Scan.foldl_body (f := f) (fun l hl => ⟨(hm.plain f l hl).1, (hm.plain f l hl).2.1⟩) []
  unfold function newFunction
  rw [List.cons_append, List.cons_append, List.foldl_cons, List.foldl_cons, line_header, hbody]
  simp

/-- What the script makes of a text in the generator's layout. -/
theorem refcountScratch_eq (hm : m.Laid) {text : List Char}
    (htext : universalNewlines text = m.lines.flatten) :
    refcountScratch text = some m.newLines.flatten := by
  have hsplit : splitLines (universalNewlines text) = m.lines := by
    rw [htext, splitLines_flatten hm.isLine]
  have hmarker : m.lines.any (contains MARKER) = false := by
    rw [List.any_eq_false]
    intro l hl h
    exact hm.marker l hl (contains_iff.1 h)
  have houtside (ls : List Line)
      (hsub : ls ⊆ m.pre ++ m.body .init ++ m.mid ++ m.body .fini ++ m.post) (f : Fn) :
      ∀ l ∈ ls, ¬ f.header <+: l := fun l hl => hm.header f l (hsub hl)
  unfold refcountScratch
  dsimp only
  rw [hsplit, hmarker, if_neg Bool.false_ne_true, lines]
  rw [List.foldl_append, List.foldl_append, List.foldl_append, List.foldl_append,
    Scan.foldl_outside (houtside m.pre (by simp)), foldl_function hm,
    Scan.foldl_outside (houtside m.mid (by intro l hl; simp [hl])), foldl_function hm,
    Scan.foldl_outside (houtside m.post (by intro l hl; simp [hl]))]
  simp [newLines, newPre]

end ModelText

/-! ## The lines of the new text -/

theorem isLine_count (f : Fn) : IsLine f.count := by cases f <;> decide

theorem isLine_unused (f : Fn) : IsLine f.unused := by cases f <;> decide

theorem isLine_guardOpen (f : Fn) : IsLine (guardOpen f) := by cases f <;> decide

theorem mem_block {f : Fn} {calls : List Line} {l : Line} (h : l ∈ block f calls) :
    l = guardOpen f ∨ l ∈ calls ∨ l = guardClose := by
  unfold block at h
  split_ifs at h
  · exact absurd h List.not_mem_nil
  · simpa using h

theorem mem_wrap {f : Fn} {calls ls : List Line} {l : Line} (h : l ∈ wrap f calls ls) :
    l = guardOpen f ∨ l = guardClose ∨ l ∈ calls ++ ls := by
  induction ls generalizing calls with
  | nil =>
    rcases mem_block h with rfl | hl | rfl
    · exact .inl rfl
    · exact .inr (.inr (List.mem_append_left _ hl))
    · exact .inr (.inl rfl)
  | cons m ls ih =>
    unfold wrap at h
    split_ifs at h
    · rcases ih h with rfl | rfl | hl
      · exact .inl rfl
      · exact .inr (.inl rfl)
      · exact .inr (.inr (by simpa using hl))
    · rcases List.mem_append.1 h with hl | hl
      · rcases mem_block hl with rfl | hl | rfl
        · exact .inl rfl
        · exact .inr (.inr (List.mem_append_left _ hl))
        · exact .inr (.inl rfl)
      · rcases List.mem_cons.1 hl with rfl | hl
        · exact .inr (.inr (by simp))
        · rcases ih hl with rfl | rfl | hl
          · exact .inl rfl
          · exact .inr (.inl rfl)
          · exact .inr (.inr (List.mem_append_right _ (List.mem_cons_of_mem _ hl)))

namespace ModelText

variable {m : ModelText}

/-- Every line of a new function is the script's, or one of the old function's. -/
theorem mem_newFunction {f : Fn} {l : Line} (h : l ∈ m.newFunction f) :
    l = f.count ∨ l = f.unused ∨ l = guardOpen f ∨ l = guardClose ∨ l ∈ m.function f := by
  unfold newFunction at h
  unfold function
  simp only [List.cons_append, List.mem_cons, List.mem_append] at h ⊢
  rcases h with h | h | h | h | h | h
  · exact .inr (.inr (.inr (.inr (.inl h))))
  · exact .inr (.inr (.inr (.inr (.inr (.inl h)))))
  · exact .inl h
  · exact .inr (.inl h)
  · rcases mem_wrap h with h | h | h
    · exact .inr (.inr (.inl h))
    · exact .inr (.inr (.inr (.inl h)))
    · exact .inr (.inr (.inr (.inr (.inr (.inr (.inl (by simpa using h)))))))
  · exact .inr (.inr (.inr (.inr (.inr (.inr (.inr h))))))

theorem function_subset (m : ModelText) (f : Fn) : m.function f ⊆ m.lines := by
  intro l hl
  unfold lines
  cases f <;> simp [hl]

theorem isLine_newLines (hm : m.Laid) : ∀ l ∈ m.newLines, IsLine l := by
  have hfunction (f : Fn) (l : Line) (hl : l ∈ m.newFunction f) : IsLine l := by
    rcases mem_newFunction hl with rfl | rfl | rfl | rfl | hl
    · exact isLine_count f
    · exact isLine_unused f
    · exact isLine_guardOpen f
    · decide
    · exact hm.isLine l (m.function_subset f hl)
  intro l hl
  unfold newLines newPre at hl
  simp only [List.mem_append, List.mem_singleton] at hl
  have hold (h : l ∈ m.pre ∨ l ∈ m.mid ∨ l ∈ m.post) : IsLine l := by
    refine hm.isLine l ?_
    unfold lines
    rcases h with h | h | h <;> simp [h]
  rcases hl with ((((hl | rfl) | hl) | hl) | hl) | hl
  · exact hold (.inl hl)
  · decide
  · exact hfunction .init l hl
  · exact hold (.inr (.inl hl))
  · exact hfunction .fini l hl
  · exact hold (.inr (.inr hl))

end ModelText

/-! ## What the new functions do -/

/-- Calls behind a guard, or nothing. -/
def guarded (f : Fn) (calls : List Line) : List Stmt :=
  if calls = [] then [] else [.guarded f calls]

theorem ne_guardClose_of_pat {f : Fn} {l : Line} (h : f.pat l = true) : l ≠ guardClose := by
  rintro rfl
  revert h
  cases f <;> decide

theorem parse_calls {f : Fn} {calls : List Line} (h : ∀ l ∈ calls, f.pat l = true)
    (before rest : List Line) :
    parse (some (f, before)) (calls ++ guardClose :: rest) =
      .guarded f (before ++ calls) :: parse none rest := by
  induction calls generalizing before with
  | nil => rw [List.nil_append, parse, if_pos rfl, List.append_nil]
  | cons l calls ih =>
    rw [List.cons_append, parse, if_neg (ne_guardClose_of_pat (h l List.mem_cons_self)),
      ih fun m hm => h m (List.mem_cons_of_mem l hm), List.append_assoc]
    rfl

theorem parse_block {f : Fn} {calls : List Line} (h : ∀ l ∈ calls, f.pat l = true)
    (rest : List Line) :
    parse none (block f calls ++ rest) = guarded f calls ++ parse none rest := by
  have hopens : opens (guardOpen f) = some f := by cases f <;> decide
  have hcounts : counts (guardOpen f) = none := by cases f <;> decide
  unfold block guarded
  split_ifs
  · rfl
  · rw [List.cons_append, List.cons_append, List.append_assoc, parse, hopens, hcounts]
    exact parse_calls h [] rest

/-- A line that names nothing of the script's is a line to the compiler. -/
theorem parse_plain {l : Line} (h : ModelText.PlainLine l) (rest : List Line) :
    parse none (l :: rest) = .line l :: parse none rest := by
  obtain ⟨-, -, hrefs, hfirst, hlast⟩ := h
  have hne (m : Line) (hm : "sail_scratch_refs".toList <:+: m ∨ "sail_first".toList <:+: m ∨
      "sail_last".toList <:+: m) : l ≠ m := by
    rintro rfl
    rcases hm with hm | hm | hm
    · exact hrefs hm
    · exact hfirst hm
    · exact hlast hm
  have hcounts : counts l = none := by
    unfold counts
    rw [if_neg (hne _ (.inl (by decide))), if_neg (hne _ (.inl (by decide)))]
  have hopens : opens l = none := by
    unfold opens
    rw [if_neg (hne _ (.inr (.inl (by decide)))), if_neg (hne _ (.inr (.inr (by decide))))]
  have hunused : ¬ (l = Fn.init.unused ∨ l = Fn.fini.unused) :=
    not_or.2 ⟨hne _ (.inr (.inl (by decide))), hne _ (.inr (.inr (by decide)))⟩
  rw [parse, hcounts, hopens]
  exact if_neg hunused

theorem exec_guarded (f : Fn) (calls : List Line) (ss : List Stmt) (refs : ℤ) (first : Bool) :
    exec (guarded f calls ++ ss) refs (some (f, first)) =
      (exec ss refs (some (f, first))).map fun r =>
        (r.1, (if first then calls else []) ++ r.2) := by
  unfold guarded
  by_cases hcalls : calls = []
  · rw [if_pos hcalls, hcalls, ite_self]
    exact Option.map_id'.symm
  · rw [if_neg hcalls, List.singleton_append, exec, if_pos rfl]

/-- A body behind its guards runs its calls if the flag is set, and its other lines in any case. -/
theorem exec_wrap {f : Fn} {ls : List Line} (hls : ∀ l ∈ ls, ModelText.PlainLine l)
    {calls : List Line} (hcalls : ∀ l ∈ calls, f.pat l = true) (refs : ℤ) (first : Bool) :
    exec (parse none (wrap f calls ls)) refs (some (f, first)) =
      some (refs, (calls ++ ls).filter fun l => !f.pat l || first) := by
  have hfilter (cs : List Line) (hcs : ∀ l ∈ cs, f.pat l = true) :
      cs.filter (fun l => !f.pat l || first) = if first then cs else [] := by
    cases first with
    | true => simp
    | false =>
      rw [List.filter_eq_nil_iff.2 fun l hl => by simp [hcs l hl]]
      rfl
  induction ls generalizing calls with
  | nil =>
    have hblock := parse_block hcalls []
    rw [List.append_nil] at hblock
    rw [wrap, hblock, exec_guarded, List.append_nil, hfilter calls hcalls]
    simp [parse, exec]
  | cons l ls ih =>
    have hplain := hls l List.mem_cons_self
    have hrest : ∀ m ∈ ls, ModelText.PlainLine m := fun m hm => hls m (List.mem_cons_of_mem l hm)
    cases hpat : f.pat l with
    | true =>
      have hmore : ∀ m ∈ calls ++ [l], f.pat m = true := by
        intro m hm
        rcases List.mem_append.1 hm with hm | hm
        · exact hcalls m hm
        · rw [List.mem_singleton.1 hm, hpat]
      rw [wrap, if_pos hpat, ih hrest hmore, List.append_assoc]
      rfl
    | false =>
      rw [wrap, hpat, if_neg Bool.false_ne_true, parse_block hcalls, exec_guarded,
        parse_plain hplain, exec, ih hrest (by simp), List.nil_append,
        List.filter_append calls, hfilter calls hcalls, List.filter_cons, hpat]
      rfl

namespace ModelText

variable {m : ModelText}

/-- A function of the new text, as a split of its lines: what is before it declares the counter. -/
theorem newLines_split (hm : m.Laid) (f : Fn) :
    ∃ front back, m.newLines = front ++ m.newFunction f ++ back ∧
    GUARD_DECL ∈ front ∧ ∀ l ∈ front, ¬ f.header <+: l := by
  have hold (l : Line) (hl : l ∈ m.pre ∨ l ∈ m.body .init ∨ l ∈ m.mid) : ¬ f.header <+: l := by
    refine hm.header f l ?_
    rcases hl with hl | hl | hl <;> simp [hl]
  have hdecl : ¬ f.header <+: GUARD_DECL := by cases f <;> decide
  have hpre : ∀ l ∈ m.newPre, ¬ f.header <+: l := by
    intro l hl
    rcases List.mem_append.1 hl with hl | hl
    · exact hold l (.inl hl)
    · rw [List.mem_singleton.1 hl]
      exact hdecl
  cases f with
  | init =>
    refine ⟨m.newPre, m.mid ++ m.newFunction .fini ++ m.post, ?_, ?_, hpre⟩
    · simp [newLines]
    · simp [newPre]
  | fini =>
    refine ⟨m.newPre ++ m.newFunction .init ++ m.mid, m.post, ?_, ?_, ?_⟩
    · simp [newLines]
    · simp [newPre]
    · intro l hl
      simp only [List.mem_append] at hl
      rcases hl with (hl | hl) | hl
      · exact hpre l hl
      · rcases mem_newFunction hl with rfl | rfl | rfl | rfl | hl
        · decide
        · decide
        · decide
        · decide
        · unfold function at hl
          simp only [List.cons_append, List.mem_cons, List.mem_append, List.not_mem_nil,
            or_false] at hl
          rcases hl with rfl | rfl | hl | rfl
          · decide
          · decide
          · exact hold l (.inr (.inl hl))
          · decide
      · exact hold l (.inr (.inr hl))

theorem compiled_newLines (hm : m.Laid) (f : Fn) :
    compiled f m.newLines = some (.count f :: parse none (wrap f [] (m.body f))) := by
  obtain ⟨front, back, hlines, hdecl, hfront⟩ := m.newLines_split hm f
  have hnot : ∀ l ∈ front, (!f.header.isPrefixOf l) = true := by
    intro l hl
    rw [Bool.not_eq_true', Bool.eq_false_iff, ne_eq, List.isPrefixOf_iff_prefix]
    exact hfront l hl
  have hbody : functionBody f m.newLines = f.count :: f.unused :: wrap f [] (m.body f) := by
    have hheader : (!f.header.isPrefixOf (f.header ++ ['\n'])) = false := by cases f <;> decide
    have hplain : ∀ l ∈ f.count :: f.unused :: wrap f [] (m.body f),
        (!"\x7d".toList.isPrefixOf l) = true := by
      intro l hl
      rcases List.mem_cons.1 hl with rfl | hl
      · cases f <;> decide
      rcases List.mem_cons.1 hl with rfl | hl
      · cases f <;> decide
      rcases mem_wrap hl with rfl | rfl | hl
      · cases f <;> decide
      · decide
      · rw [Bool.not_eq_true', Bool.eq_false_iff, ne_eq, List.isPrefixOf_iff_prefix]
        exact (hm.plain f l (by simpa using hl)).2.1
    unfold functionBody
    rw [hlines, newFunction, List.append_assoc, List.dropWhile_append_of_pos hnot]
    rw [List.cons_append, List.cons_append, List.dropWhile_cons_of_neg (by rw [hheader]; decide)]
    change List.takeWhile _
      ((f.count :: f.unused :: wrap f [] (m.body f) ++ ["\x7d\n".toList]) ++ back) = _
    rw [List.append_assoc, List.takeWhile_append_of_pos hplain]
    exact List.append_nil _
  have hcounted : GUARD_DECL ∈ m.newLines.takeWhile fun l => !f.header.isPrefixOf l := by
    rw [hlines, List.append_assoc, List.takeWhile_append_of_pos hnot]
    exact List.mem_append_left _ hdecl
  unfold compiled
  rw [if_pos hcounted, hbody]
  cases f <;> rfl

end ModelText

/-! ## Runs -/

section Runs

variable {ι : Type*} [DecidableEq ι]

/-- The instances after a call. -/
def Call.after (live : Finset ι) : Call ι → Finset ι
  | .init i => insert i live
  | .fini i => live.erase i

/-- The calls on any instances in any order, each initialised once before it is finished once. -/
def instances (ι : Type*) [DecidableEq ι] : System (Finset ι) (Call ι) where
  enabled live
    | .init i => i ∉ live
    | .fini i => i ∈ live
  next := Call.after

instance (live : Finset ι) : (c : Call ι) → Decidable ((instances ι).enabled live c)
  | .init i => inferInstanceAs (Decidable (i ∉ live))
  | .fini i => inferInstanceAs (Decidable (i ∈ live))

/-- What a call has to run: the lines of the old body in order, those with a global call only if the
call makes the first instance, or ends the last. -/
def Call.lines (body : Fn → List Line) (live : Finset ι) : Call ι → List Line
  | .init _ => (body .init).filter fun l => !Fn.init.pat l || live = ∅
  | .fini i => (body .fini).filter fun l => !Fn.fini.pat l || live.erase i = ∅

def linesOf (body : Fn → List Line) : Finset ι → List (Call ι) → List (List Line)
  | _, [] => []
  | live, c :: cs => c.lines body live :: linesOf body (c.after live) cs

/-- A run of calls on the rewritten text counts the instances, and runs of the old bodies what it
has to. -/
def Sound (body : Fn → List Line) (out : List Char) (cs : List (Call ι)) : Prop :=
  run (splitLines out) 0 cs =
    some ((((instances ι).after ∅ cs).card : ℤ), linesOf body ∅ cs)

variable {m : ModelText} {live : Finset ι}

/-- One call: the counter is the number of instances. -/
theorem exec_call (hm : m.Laid) {c : Call ι} (hc : (instances ι).enabled live c)
    (hroom : ((c.after live).card : ℤ) ≤ INT_MAX) :
    (compiled c.fn m.newLines).bind (fun body => exec body live.card none) =
      some (((c.after live).card : ℤ), c.lines m.body live) := by
  rw [m.compiled_newLines hm, Option.bind_some]
  cases c with
  | init i =>
    have hcard : ((Call.init i).after live).card = live.card + 1 := Finset.card_insert_of_notMem hc
    have hfirst : decide ((live.card : ℤ) = 0) = decide (live = ∅) := by
      simp only [Int.natCast_eq_zero, Finset.card_eq_zero]
    rw [hcard] at hroom ⊢
    rw [Call.fn, exec, if_pos (by push_cast at hroom; omega), exec_wrap (hm.plain .init) (by simp),
      hfirst]
    rfl
  | fini i =>
    have hpos : 0 < live.card := Finset.card_pos.2 ⟨i, hc⟩
    have hcard : (((Call.fini i).after live).card : ℤ) = (live.card : ℤ) - 1 := by
      have : (live.erase i).card = live.card - 1 := Finset.card_erase_of_mem hc
      rw [Call.after, this, Nat.cast_sub hpos, Nat.cast_one]
    have hlast : decide ((live.card : ℤ) - 1 = 0) = decide (live.erase i = ∅) := by
      rw [← hcard]
      simp only [Call.after, Int.natCast_eq_zero, Finset.card_eq_zero]
    have hlow : -INT_MAX ≤ (live.card : ℤ) := by
      have : (0 : ℤ) ≤ INT_MAX := by decide
      omega
    rw [Call.fn, exec, if_pos hlow, exec_wrap (hm.plain .fini) (by simp), hlast, hcard]
    rfl

theorem run_newLines (hm : m.Laid) {cs : List (Call ι)} (hcs : (instances ι).Runs live cs)
    (hroom : (instances ι).Always (fun live => (live.card : ℤ) ≤ INT_MAX) live cs) :
    run m.newLines live.card cs =
      some ((((instances ι).after live cs).card : ℤ), linesOf m.body live cs) := by
  induction cs generalizing live with
  | nil => rfl
  | cons c cs ih =>
    have hcall := exec_call hm hcs.1 hroom.2.head
    obtain ⟨body, hbody, hexec⟩ := Option.bind_eq_some_iff.1 hcall
    have hrest : run m.newLines ((c.after live).card : ℤ) cs =
        some ((((instances ι).after live (c :: cs)).card : ℤ), linesOf m.body (c.after live) cs) :=
      ih hcs.2 hroom.2
    rw [run, hbody, Option.bind_some, hexec, Option.bind_some, hrest]
    rfl

/-- The rewritten text counts its instances: over every interleaving of the calls of any instances,
each call runs every line of its function in order, and the global calls among them exactly when
the number of live instances leaves zero, or comes back to it. -/
theorem refcountScratch_sound (hm : m.Laid) {text : List Char}
    (htext : universalNewlines text = m.lines.flatten) {cs : List (Call ι)}
    (hcs : (instances ι).Runs ∅ cs)
    (hroom : (instances ι).Always (fun live => (live.card : ℤ) ≤ INT_MAX) ∅ cs) :
    ∃ out, refcountScratch text = some out ∧ Sound m.body out cs := by
  refine ⟨_, m.refcountScratch_eq hm htext, ?_⟩
  unfold Sound
  rw [splitLines_flatten (m.isLine_newLines hm)]
  exact run_newLines hm hcs hroom

/-- Two functions of two lines each. -/
def tinyText : ModelText where
  pre := []
  body
    | .init => ["  startup_zghz30();\n".toList, "  setup_rts();\n".toList]
    | .fini => ["  finish_zghz30();\n".toList, "  cleanup_rts();\n".toList]
  mid := ["\n".toList]
  post := []

theorem tinyText_laid : tinyText.Laid where
  isLine := by decide +kernel
  plain := by
    intro f
    cases f <;> decide +kernel
  header := by
    intro f
    cases f <;> decide +kernel
  marker := by decide +kernel

theorem refcountScratch_sound_two : ∃ out, refcountScratch tinyText.lines.flatten = some out ∧
    Sound tinyText.body out [Call.init 0, .init 1, .fini 0, .fini 1] :=
  refcountScratch_sound tinyText_laid (by decide +kernel) (by decide) (by decide)

omit [DecidableEq ι] in
/-- One instance more than an `int` counts. -/
theorem run_overflow (hm : m.Laid) (i : ι) (cs : List (Call ι)) :
    run m.newLines INT_MAX (.init i :: cs) = none := by
  rw [run, m.compiled_newLines hm, Option.bind_some, Call.fn, exec, if_neg (lt_irrefl _),
    Option.bind_none]

/-- As many new instances as do not fit in an `int`. -/
theorem run_inits (hm : m.Laid) (n k : ℕ) (hk : (k : ℤ) ≤ INT_MAX) (hn : INT_MAX < (k + n : ℕ)) :
    run m.newLines k ((List.range' k n).map Call.init) = none := by
  induction n generalizing k with
  | zero => exact absurd hk (not_le.2 hn)
  | succ n ih =>
    rw [List.range'_succ, List.map_cons]
    rcases hk.eq_or_lt with heq | hlt
    · rw [heq]
      exact run_overflow hm k _
    · have hafter : (Call.init k).after (Finset.range k) = Finset.range (k + 1) :=
        Finset.range_add_one.symm
      have hroom : (((Call.init k).after (Finset.range k)).card : ℤ) ≤ INT_MAX := by
        rw [hafter, Finset.card_range]
        push_cast
        omega
      have hcall := @exec_call ℕ _ m (Finset.range k) hm (.init k) Finset.notMem_range_self hroom
      rw [hafter, Finset.card_range, Finset.card_range] at hcall
      obtain ⟨body, hbody, hexec⟩ := Option.bind_eq_some_iff.1 hcall
      rw [run, hbody, Option.bind_some, hexec, Option.bind_some,
        ih (k + 1) (by push_cast; omega) (by
        rw [Nat.add_right_comm, Nat.add_assoc]
        exact hn), Option.map_none]

theorem runs_inits (n k : ℕ) :
    (instances ℕ).Runs (Finset.range k) ((List.range' k n).map Call.init) := by
  induction n generalizing k with
  | zero => trivial
  | succ n ih =>
    rw [List.range'_succ, List.map_cons]
    refine ⟨Finset.notMem_range_self, ?_⟩
    have hafter : (Call.init k).after (Finset.range k) = Finset.range (k + 1) :=
      Finset.range_add_one.symm
    change (instances ℕ).Runs ((Call.init k).after (Finset.range k)) _
    rw [hafter]
    exact ih (k + 1)

/-- A body with a line that starts with a brace. -/
def braceText : List Char :=
  "void Model::model_init(void)\n\x7b\n\x7b int z = 0; \x7d\n\x7d\n".toList

/-- The line is lost; and a text in the layout of the generator loses count of 2 ^ 31 instances. -/
theorem refcountScratch_unsound :
    (¬ ∀ text out, refcountScratch text = some out → ∀ cs : List (Call ℕ), (instances ℕ).Runs ∅ cs →
      (instances ℕ).Always (fun live => (live.card : ℤ) ≤ INT_MAX) ∅ cs →
      Sound (fun f => functionBody f (splitLines (universalNewlines text))) out cs) ∧
    ¬ ∀ cs : List (Call ℕ), (instances ℕ).Runs ∅ cs →
      ∃ out, refcountScratch tinyText.lines.flatten = some out ∧ Sound tinyText.body out cs := by
  constructor
  · intro h
    obtain ⟨out, hout⟩ : ∃ out, refcountScratch braceText = some out := by
      rw [← Option.isSome_iff_exists]
      decide +kernel
    have hsound := h braceText out hout [.init 0] (by decide) (by decide)
    unfold Sound at hsound
    have hrun : (refcountScratch braceText).bind (fun out => run (splitLines out) 0 [Call.init 0]) =
        some (1, [[]]) := by decide +kernel
    rw [hout, Option.bind_some, hsound] at hrun
    revert hrun
    decide +kernel
  · intro h
    obtain ⟨n, hn⟩ : ∃ n : ℕ, (n : ℤ) = INT_MAX + 1 := ⟨(INT_MAX + 1).toNat, by decide⟩
    obtain ⟨out, hout, hsound⟩ := h ((List.range' 0 n).map Call.init) (runs_inits n 0)
    rw [tinyText.refcountScratch_eq tinyText_laid (by decide +kernel), Option.some.injEq] at hout
    unfold Sound at hsound
    have hnone := run_inits tinyText_laid n 0 (by decide) (by rw [Nat.zero_add, hn]; omega)
    rw [← hout, splitLines_flatten (tinyText.isLine_newLines tinyText_laid)] at hsound
    exact absurd (hnone.symm.trans hsound) (Option.some_ne_none _).symm

end Runs

end Scripts
