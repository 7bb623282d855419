import Mathlib

/-!
# Linked lists of keyed blocks on a heap

Several owners keep blocks on one heap, each in a singly linked list of its own that is searched
by key and grown at the head.  Following a dangling pointer or freeing a node that is not
allocated is an error, `none`; so is a search that runs out of fuel.

* `Heap`: finitely many nodes, `put` and `free`; `Allocator`: any choice of an unused address.
* `find`, `modifyOrPush` and `kill`: the three loops over a list.
* `Chain`: what a list holds; `contents`: the map it stands for.
* `Owners`: the lists of a family of owners partition the heap.  `Owners.find`,
  `Owners.modifyOrPush` and `Owners.kill` are the rules for one operation of one owner: it
  succeeds, does to the owner's map what it should, and leaves every other list alone.
-/

namespace LinkedBlocks

variable {κ β : Type*}

/-- One block of a list. -/
structure Node (κ β : Type*) where
  key : κ
  body : β
  next : Option ℕ

/-- The allocated nodes by address. -/
structure Heap (κ β : Type*) where
  node : ℕ → Option (Node κ β)
  used : Finset ℕ
  mem_used : ∀ p, p ∈ used ↔ (node p).isSome

namespace Heap

def empty : Heap κ β where
  node := fun _ => none
  used := ∅
  mem_used := by simp

/-- Allocate the address, or overwrite the node there. -/
def put (h : Heap κ β) (p : ℕ) (n : Node κ β) : Heap κ β where
  node := Function.update h.node p (some n)
  used := insert p h.used
  mem_used q := by
    by_cases hq : q = p
    · simp [hq]
    · simp [hq, h.mem_used]

def free (h : Heap κ β) (p : ℕ) : Option (Heap κ β) :=
  if p ∈ h.used then
    some {
      node := Function.update h.node p none
      used := h.used.erase p
      mem_used := fun q => by
        by_cases hq : q = p
        · simp [hq]
        · simp [hq, h.mem_used] }
  else none

variable {h : Heap κ β} {p q : ℕ} {n : Node κ β}

@[simp] theorem node_put_self : (h.put p n).node p = some n := Function.update_self ..

theorem node_put_of_ne (hq : q ≠ p) : (h.put p n).node q = h.node q :=
  Function.update_of_ne hq ..

@[simp] theorem used_put : (h.put p n).used = insert p h.used := rfl

end Heap

/-- A way to choose the address of a new node: any that is not in use. -/
structure Allocator (κ β : Type*) where
  pick : Heap κ β → ℕ
  fresh : ∀ h, pick h ∉ h.used

/-- The address above all others. -/
def Allocator.bump : Allocator κ β where
  pick h := h.used.sup id + 1
  fresh h hmem := by
    have hle : h.used.sup id + 1 ≤ h.used.sup id := Finset.le_sup (f := id) hmem
    omega

section Loops

variable [DecidableEq κ]

/-- The first node with the key, if any, on the list at an address. -/
def find (h : Heap κ β) (key : κ) : ℕ → Option ℕ → Option (Option ℕ)
  | _, none => some none
  | 0, some _ => none
  | fuel + 1, some p =>
    (h.node p).bind fun n => if n.key = key then some (some p) else find h key fuel n.next

/-- The block with the key, if any. -/
def lookup (h : Heap κ β) (head : Option ℕ) (key : κ) : Option (Option β) :=
  (find h key h.used.card head).bind fun
    | some p => (h.node p).map fun n => some n.body
    | none => some none

/-- Change the block with the key; if there is none, put a new one at the head of the list. -/
def modifyOrPush (alloc : Allocator κ β) (h : Heap κ β) (head : Option ℕ) (key : κ) (f : β → β)
    (init : β) : Option (Heap κ β × Option ℕ) :=
  (find h key h.used.card head).bind fun
    | some p => (h.node p).map fun n => (h.put p ⟨n.key, f n.body, n.next⟩, head)
    | none => some (h.put (alloc.pick h) ⟨key, f init, head⟩, some (alloc.pick h))

/-- Free the list at an address. -/
def kill : ℕ → Heap κ β → Option ℕ → Option (Heap κ β)
  | _, h, none => some h
  | 0, _, some _ => none
  | fuel + 1, h, some p => (h.node p).bind fun n => (h.free p).bind fun h => kill fuel h n.next

end Loops

/-! ## One list -/

/-- The entries of a list: address, key and body. -/
abbrev Entries (κ β : Type*) := List (ℕ × κ × β)

/-- The list at an address holds the entries. -/
def Chain (h : Heap κ β) : Option ℕ → Entries κ β → Prop
  | head, [] => head = none
  | head, e :: l =>
    head = some e.1 ∧ ∃ next, h.node e.1 = some ⟨e.2.1, e.2.2, next⟩ ∧ Chain h next l

/-- The addresses of the entries. -/
def addresses (l : Entries κ β) : List ℕ := l.map Prod.fst

@[simp] theorem addresses_nil : addresses ([] : Entries κ β) = [] := rfl

@[simp] theorem addresses_cons (e : ℕ × κ × β) (l : Entries κ β) :
    addresses (e :: l) = e.1 :: addresses l := rfl

@[simp] theorem addresses_append (l l' : Entries κ β) :
    addresses (l ++ l') = addresses l ++ addresses l' := List.map_append

/-- The map a list stands for: the first block with a key. -/
def contents [DecidableEq κ] (l : Entries κ β) : κ → Option β := fun k =>
  (l.find? fun e => e.2.1 = k).map fun e => e.2.2

/-- The address is on the list. -/
def OnList (h : Heap κ β) (head : Option ℕ) (p : ℕ) : Prop :=
  ∃ l, Chain h head l ∧ p ∈ addresses l

section Chain

variable {h h' : Heap κ β} {head : Option ℕ} {l : Entries κ β} {p : ℕ}

/-- A list only sees its own nodes. -/
theorem Chain.congr (hc : Chain h head l) (hsame : ∀ p ∈ addresses l, h'.node p = h.node p) :
    Chain h' head l := by
  induction l generalizing head with
  | nil => exact hc
  | cons e l ih =>
    obtain ⟨hhead, next, hnode, htail⟩ := hc
    refine ⟨hhead, next, ?_, ih htail fun p hp => hsame p (List.mem_cons_of_mem _ hp)⟩
    rw [hsame e.1 (List.mem_cons_self ..), hnode]

/-- An address heads one list only. -/
theorem Chain.unique {l' : Entries κ β} (hc : Chain h head l) (hc' : Chain h head l') : l = l' := by
  induction l generalizing head l' with
  | nil =>
    obtain rfl : head = none := hc
    cases l' with
    | nil => rfl
    | cons e l' => exact absurd hc'.1 nofun
  | cons e l ih =>
    obtain ⟨rfl, next, hnode, htail⟩ := hc
    cases l' with
    | nil => exact absurd hc' nofun
    | cons e' l' =>
      obtain ⟨hhead, next', hnode', htail'⟩ := hc'
      have haddr : e.1 = e'.1 := Option.some.inj hhead
      rw [← haddr, hnode] at hnode'
      obtain ⟨hkey, hbody, rfl⟩ := Node.mk.inj (Option.some.inj hnode')
      rw [ih htail htail', Prod.ext haddr (Prod.ext hkey hbody)]

theorem Chain.onList_iff (hc : Chain h head l) : OnList h head p ↔ p ∈ addresses l := by
  constructor
  · rintro ⟨l', hc', hp⟩
    rwa [hc.unique hc']
  · exact fun hp => ⟨l, hc, hp⟩

/-- The nodes of a list are allocated. -/
theorem Chain.mem_used (hc : Chain h head l) : ∀ p ∈ addresses l, p ∈ h.used := by
  induction l generalizing head with
  | nil => exact fun p hp => nomatch hp
  | cons e l ih =>
    obtain ⟨-, next, hnode, htail⟩ := hc
    intro p hp
    rcases List.mem_cons.1 hp with rfl | hp
    · rw [h.mem_used, hnode]
      rfl
    · exact ih htail p hp

/-- Without repetition a list is no longer than the heap. -/
theorem Chain.length_le (hc : Chain h head l) (hnodup : (addresses l).Nodup) :
    l.length ≤ h.used.card := by
  have hcard := List.toFinset_card_of_nodup hnodup
  have hsub : (addresses l).toFinset ⊆ h.used := fun p hp =>
    hc.mem_used p (List.mem_toFinset.1 hp)
  have hle := Finset.card_le_card hsub
  rw [hcard, addresses, List.length_map] at hle
  exact hle

variable {key : κ} {fuel : ℕ}

/-- The node of an entry. -/
theorem Chain.node {pre post : Entries κ β} {b : β}
    (hc : Chain h head (pre ++ (p, key, b) :: post)) :
    ∃ next, h.node p = some ⟨key, b, next⟩ := by
  induction pre generalizing head with
  | nil =>
    obtain ⟨-, next, hnode, -⟩ := hc
    exact ⟨next, hnode⟩
  | cons e pre ih =>
    obtain ⟨-, next, -, htail⟩ := hc
    exact ih htail

/-- Overwriting the body of one entry. -/
theorem Chain.put {pre post : Entries κ β} {b b' : β} {next : Option ℕ}
    (hc : Chain h head (pre ++ (p, key, b) :: post))
    (hnodup : (addresses (pre ++ (p, key, b) :: post)).Nodup)
    (hnode : h.node p = some ⟨key, b, next⟩) :
    Chain (h.put p ⟨key, b', next⟩) head (pre ++ (p, key, b') :: post) := by
  induction pre generalizing head with
  | nil =>
    obtain ⟨hhead, next', hnode', htail⟩ := hc
    obtain rfl : next' = next := by
      rw [hnode] at hnode'
      exact (congrArg Node.next (Option.some.inj hnode')).symm
    refine ⟨hhead, next', Heap.node_put_self, htail.congr fun q hq => Heap.node_put_of_ne ?_⟩
    rintro rfl
    exact (List.nodup_cons.1 hnodup).1 hq
  | cons e pre ih =>
    obtain ⟨hhead, next', hnode', htail⟩ := hc
    rw [List.cons_append, addresses_cons] at hnodup
    refine ⟨hhead, next', ?_, ih htail (List.nodup_cons.1 hnodup).2⟩
    rw [Heap.node_put_of_ne, hnode']
    rintro heq
    refine (List.nodup_cons.1 hnodup).1 ?_
    rw [heq, addresses_append, addresses_cons]
    exact List.mem_append_right _ (List.mem_cons_self ..)

/-- Freeing a list frees its nodes and no other. -/
theorem Chain.kill (hc : Chain h head l) (hnodup : (addresses l).Nodup) (hfuel : l.length ≤ fuel) :
    ∃ h', LinkedBlocks.kill fuel h head = some h' ∧
      (∀ p, p ∈ h'.used ↔ p ∈ h.used ∧ p ∉ addresses l) ∧
      ∀ p ∉ addresses l, h'.node p = h.node p := by
  induction l generalizing head h fuel with
  | nil =>
    obtain rfl : head = none := hc
    exact ⟨h, by rw [LinkedBlocks.kill], fun p => by simp, fun p _ => rfl⟩
  | cons e l ih =>
    have hmem := hc.mem_used e.1 (List.mem_cons_self ..)
    obtain ⟨rfl, next, hnode, htail⟩ := hc
    obtain ⟨fuel, rfl⟩ : ∃ k, fuel = k + 1 := ⟨fuel - 1, by rw [List.length_cons] at hfuel; omega⟩
    rw [addresses_cons, List.nodup_cons] at hnodup
    obtain ⟨h₁, hfree, hused, hkeep⟩ : ∃ h₁, h.free e.1 = some h₁ ∧ h₁.used = h.used.erase e.1 ∧
        ∀ p, p ≠ e.1 → h₁.node p = h.node p := by
      refine ⟨_, if_pos hmem, rfl, fun p hp => ?_⟩
      exact Function.update_of_ne hp ..
    have htail₁ : Chain h₁ next l := htail.congr fun p hp =>
      hkeep p fun heq => hnodup.1 (heq ▸ hp)
    obtain ⟨h', hrun, hused', hkeep'⟩ := ih htail₁ hnodup.2
      (show l.length ≤ fuel by rw [List.length_cons] at hfuel; omega)
    refine ⟨h', ?_, fun p => ?_, fun p hp => ?_⟩
    · rw [LinkedBlocks.kill, hnode, Option.bind_some, hfree, Option.bind_some, hrun]
    · rw [hused', hused, Finset.mem_erase, addresses_cons, List.mem_cons]
      tauto
    · rw [addresses_cons, List.mem_cons, not_or] at hp
      rw [hkeep' p hp.2, hkeep p hp.1]

variable [DecidableEq κ]

/-- The search ends, at the first entry with the key or at the end of the list. -/
theorem Chain.find (key : κ) (hc : Chain h head l) (hfuel : l.length ≤ fuel) :
    (LinkedBlocks.find h key fuel head = some none ∧ ∀ e ∈ l, e.2.1 ≠ key) ∨
      ∃ pre p b post, LinkedBlocks.find h key fuel head = some (some p) ∧
        l = pre ++ (p, key, b) :: post ∧ ∀ e ∈ pre, e.2.1 ≠ key := by
  induction l generalizing head fuel with
  | nil =>
    obtain rfl : head = none := hc
    exact .inl ⟨by rw [LinkedBlocks.find], fun e he => nomatch he⟩
  | cons e l ih =>
    obtain ⟨rfl, next, hnode, htail⟩ := hc
    obtain ⟨fuel, rfl⟩ : ∃ k, fuel = k + 1 := ⟨fuel - 1, by rw [List.length_cons] at hfuel; omega⟩
    have hstep : LinkedBlocks.find h key (fuel + 1) (some e.1) =
        if e.2.1 = key then some (some e.1) else LinkedBlocks.find h key fuel next := by
      rw [LinkedBlocks.find, hnode]
      rfl
    have hrest : l.length ≤ fuel := by
      rw [List.length_cons] at hfuel
      omega
    rw [hstep]
    by_cases hkey : e.2.1 = key
    · rw [if_pos hkey]
      exact .inr ⟨[], e.1, e.2.2, l, rfl, by rw [← hkey]; rfl, fun e he => nomatch he⟩
    · rw [if_neg hkey]
      rcases ih htail hrest with ⟨hrun, hnone⟩ |
        ⟨pre, p, b, post, hrun, rfl, hpre⟩
      · refine .inl ⟨hrun, fun e' he' => ?_⟩
        rcases List.mem_cons.1 he' with rfl | he'
        · exact hkey
        · exact hnone e' he'
      · refine .inr ⟨e :: pre, p, b, post, hrun, rfl, fun e' he' => ?_⟩
        rcases List.mem_cons.1 he' with rfl | he'
        · exact hkey
        · exact hpre e' he'

end Chain

/-! ## The map of a list -/

section Contents

variable [DecidableEq κ] {l pre post : Entries κ β} {key : κ} {b b' : β} {p : ℕ}

@[simp] theorem contents_nil : contents ([] : Entries κ β) = fun _ => none := rfl

theorem contents_cons (e : ℕ × κ × β) (l : Entries κ β) :
    contents (e :: l) = Function.update (contents l) e.2.1 (some e.2.2) := by
  funext k
  unfold contents
  rw [List.find?_cons]
  by_cases hk : e.2.1 = k
  · rw [decide_eq_true hk, ← hk, Function.update_self]
    rfl
  · rw [decide_eq_false hk, Function.update_of_ne (Ne.symm hk)]

theorem contents_eq_none (h : ∀ e ∈ l, e.2.1 ≠ key) : contents l key = none := by
  induction l with
  | nil => rfl
  | cons e l ih =>
    rw [contents_cons, Function.update_of_ne (Ne.symm (h e (List.mem_cons_self ..)))]
    exact ih fun e' he' => h e' (List.mem_cons_of_mem _ he')

theorem contents_found (h : ∀ e ∈ pre, e.2.1 ≠ key) :
    contents (pre ++ (p, key, b) :: post) key = some b := by
  induction pre with
  | nil => rw [List.nil_append, contents_cons, Function.update_self]
  | cons e pre ih =>
    rw [List.cons_append, contents_cons,
      Function.update_of_ne (Ne.symm (h e (List.mem_cons_self ..)))]
    exact ih fun e' he' => h e' (List.mem_cons_of_mem _ he')

/-- Overwriting the first block with a key. -/
theorem contents_put (h : ∀ e ∈ pre, e.2.1 ≠ key) :
    contents (pre ++ (p, key, b') :: post) =
      Function.update (contents (pre ++ (p, key, b) :: post)) key (some b') := by
  induction pre with
  | nil => rw [List.nil_append, List.nil_append, contents_cons, contents_cons, Function.update_idem]
  | cons e pre ih =>
    have hne : e.2.1 ≠ key := h e (List.mem_cons_self ..)
    rw [List.cons_append, List.cons_append, contents_cons, contents_cons,
      ih fun e' he' => h e' (List.mem_cons_of_mem _ he'), Function.update_comm hne.symm]

end Contents

/-! ## Several lists on one heap -/

/-- The lists of the owners partition the allocated nodes. -/
structure Owners {ι : Type*} (h : Heap κ β) (head : ι → Option ℕ) (list : ι → Entries κ β) :
    Prop where
  chain : ∀ i, Chain h (head i) (list i)
  nodup : ∀ i, (addresses (list i)).Nodup
  apart : ∀ i j p, p ∈ addresses (list i) → p ∈ addresses (list j) → i = j
  cover : ∀ p ∈ h.used, ∃ i, p ∈ addresses (list i)

namespace Owners

variable {ι : Type*} {h h' : Heap κ β} {head : ι → Option ℕ} {list : ι → Entries κ β}

/-- Nobody owns anything. -/
theorem empty : Owners (Heap.empty : Heap κ β) (fun _ : ι => none) fun _ => [] where
  chain _ := rfl
  nodup _ := List.nodup_nil
  apart _ _ _ hp := nomatch hp
  cover _ hp := absurd hp (Finset.notMem_empty _)

/-- Every node has exactly one owner. -/
theorem existsUnique (ho : Owners h head list) {p : ℕ} (hp : p ∈ h.used) :
    ∃! i, p ∈ addresses (list i) := by
  obtain ⟨i, hi⟩ := ho.cover p hp
  exact ⟨i, hi, fun j hj => ho.apart j i p hj hi⟩

section Search

variable [DecidableEq κ]

/-- A search finds what the owner's map has. -/
theorem find (ho : Owners h head list) (i : ι) (key : κ) :
    ∃ r, LinkedBlocks.find h key h.used.card (head i) = some r ∧
      r.isSome = (contents (list i) key).isSome := by
  have hfuel := (ho.chain i).length_le (ho.nodup i)
  rcases (ho.chain i).find key hfuel with ⟨hrun, hnone⟩ |
    ⟨pre, p, b, post, hrun, hl, hpre⟩
  · exact ⟨none, hrun, by rw [contents_eq_none hnone]; rfl⟩
  · exact ⟨some p, hrun, by rw [hl, contents_found hpre]; rfl⟩

theorem lookup (ho : Owners h head list) (i : ι) (key : κ) :
    LinkedBlocks.lookup h (head i) key = some (contents (list i) key) := by
  have hfuel := (ho.chain i).length_le (ho.nodup i)
  have hchain := ho.chain i
  rcases hchain.find key hfuel with ⟨hrun, hnone⟩ | ⟨pre, p, b, post, hrun, hl, hpre⟩
  · rw [LinkedBlocks.lookup, hrun, contents_eq_none hnone]
    rfl
  · rw [hl] at hchain
    obtain ⟨next, hnode⟩ := hchain.node
    rw [LinkedBlocks.lookup, hrun, hl, contents_found hpre, Option.bind_some]
    simp only [hnode, Option.map_some]

end Search

variable [DecidableEq ι]

/-- One owner's list is replaced: the new one takes no node of another owner, and the others'
nodes are as they were. -/
theorem replace (ho : Owners h head list) (i : ι) {head' : Option ℕ} {l : Entries κ β}
    (hc : Chain h' head' l) (hnodup : (addresses l).Nodup)
    (hkeep : ∀ j ≠ i, ∀ p ∈ addresses (list j), h'.node p = h.node p ∧ p ∉ addresses l)
    (hcover : ∀ p ∈ h'.used, p ∈ addresses l ∨ p ∈ h.used ∧ p ∉ addresses (list i)) :
    Owners h' (Function.update head i head') (Function.update list i l) where
  chain j := by
    by_cases hj : j = i
    · rw [hj, Function.update_self, Function.update_self]
      exact hc
    · rw [Function.update_of_ne hj, Function.update_of_ne hj]
      exact (ho.chain j).congr fun p hp => (hkeep j hj p hp).1
  nodup j := by
    by_cases hj : j = i
    · rw [hj, Function.update_self]
      exact hnodup
    · rw [Function.update_of_ne hj]
      exact ho.nodup j
  apart j k p hpj hpk := by
    by_cases hj : j = i <;> by_cases hk : k = i
    · rw [hj, hk]
    · rw [hj, Function.update_self] at hpj
      rw [Function.update_of_ne hk] at hpk
      exact absurd hpj (hkeep k hk p hpk).2
    · rw [hk, Function.update_self] at hpk
      rw [Function.update_of_ne hj] at hpj
      exact absurd hpk (hkeep j hj p hpj).2
    · rw [Function.update_of_ne hj] at hpj
      rw [Function.update_of_ne hk] at hpk
      exact ho.apart j k p hpj hpk
  cover p hp := by
    rcases hcover p hp with hl | ⟨hused, hnot⟩
    · exact ⟨i, by rwa [Function.update_self]⟩
    · obtain ⟨j, hj⟩ := ho.cover p hused
      have hne : j ≠ i := fun heq => hnot (heq ▸ hj)
      exact ⟨j, by rwa [Function.update_of_ne hne]⟩

/-- Freeing one owner's list succeeds and frees exactly its nodes. -/
theorem kill (ho : Owners h head list) (i : ι) :
    ∃ h', LinkedBlocks.kill h.used.card h (head i) = some h' ∧
      Owners h' (Function.update head i none) (Function.update list i []) ∧
      ∀ p, p ∈ h'.used ↔ p ∈ h.used ∧ p ∉ addresses (list i) := by
  have hfuel := (ho.chain i).length_le (ho.nodup i)
  obtain ⟨h', hrun, hused, hkeep⟩ := (ho.chain i).kill (ho.nodup i) hfuel
  refine ⟨h', hrun, ho.replace i rfl List.nodup_nil ?_ ?_, hused⟩
  · exact fun j hj p hp => ⟨hkeep p fun hmem => hj (ho.apart j i p hp hmem), List.not_mem_nil⟩
  · exact fun p hp => .inr ((hused p).1 hp)

variable [DecidableEq κ]

/-- A change of one owner's block, allocated if it was missing, is that change of its map; it
frees nothing. -/
theorem modifyOrPush (ho : Owners h head list) (alloc : Allocator κ β) (i : ι) (key : κ)
    (f : β → β) (init : β) :
    ∃ h' head' l, LinkedBlocks.modifyOrPush alloc h (head i) key f init = some (h', head') ∧
      Owners h' (Function.update head i head') (Function.update list i l) ∧
      contents l = Function.update (contents (list i)) key
        (some (f ((contents (list i) key).getD init))) ∧ h.used ⊆ h'.used := by
  have hfuel := (ho.chain i).length_le (ho.nodup i)
  have hchain := ho.chain i
  have hnodup := ho.nodup i
  rcases hchain.find key hfuel with ⟨hrun, hnone⟩ | ⟨pre, p, b, post, hrun, hl, hpre⟩
  · have hfresh := alloc.fresh h
    obtain ⟨p, hp⟩ : ∃ p, p = alloc.pick h := ⟨_, rfl⟩
    rw [← hp] at hfresh
    have hother (j : ι) (q : ℕ) (hq : q ∈ addresses (list j)) : q ≠ p := fun heq =>
      hfresh (heq ▸ (ho.chain j).mem_used q hq)
    refine ⟨h.put p ⟨key, f init, head i⟩, some p, (p, key, f init) :: list i, ?_,
      ho.replace i ?_ ?_ ?_ ?_, ?_, ?_⟩
    · rw [LinkedBlocks.modifyOrPush, hrun, hp]
      rfl
    · exact ⟨rfl, head i, Heap.node_put_self,
        hchain.congr fun q hq => Heap.node_put_of_ne (hother i q hq)⟩
    · exact List.nodup_cons.2 ⟨fun hmem => hother i p hmem rfl, hnodup⟩
    · intro j hj q hq
      refine ⟨Heap.node_put_of_ne (hother j q hq), fun hmem => ?_⟩
      rcases List.mem_cons.1 hmem with heq | hmem
      · exact hother j q hq heq
      · exact hj (ho.apart j i q hq hmem)
    · intro q hq
      rw [Heap.used_put, Finset.mem_insert] at hq
      by_cases hmem : q ∈ addresses ((p, key, f init) :: list i)
      · exact .inl hmem
      · rw [addresses_cons, List.mem_cons, not_or] at hmem
        exact .inr ⟨hq.resolve_left hmem.1, hmem.2⟩
    · rw [contents_cons, contents_eq_none hnone]
      rfl
    · exact Finset.subset_insert _ _
  · rw [hl] at hchain hnodup
    obtain ⟨next, hnode⟩ := hchain.node
    have haddr : addresses (pre ++ (p, key, f b) :: post) = addresses (list i) := by
      rw [hl, addresses_append, addresses_append, addresses_cons, addresses_cons]
    have hmem : p ∈ addresses (list i) := by
      rw [hl, addresses_append]
      exact List.mem_append_right _ (List.mem_cons_self ..)
    refine ⟨h.put p ⟨key, f b, next⟩, head i, pre ++ (p, key, f b) :: post, ?_,
      ho.replace i (hchain.put hnodup hnode) ?_ ?_ ?_, ?_, ?_⟩
    · rw [LinkedBlocks.modifyOrPush, hrun, Option.bind_some]
      simp only [hnode, Option.map_some]
    · rw [haddr]
      exact ho.nodup i
    · intro j hj q hq
      rw [haddr]
      refine ⟨Heap.node_put_of_ne fun heq => ?_, fun hqi => hj (ho.apart j i q hq hqi)⟩
      exact hj (ho.apart j i q hq (heq ▸ hmem))
    · intro q hq
      rw [Heap.used_put, Finset.mem_insert] at hq
      rw [haddr]
      by_cases hqi : q ∈ addresses (list i)
      · exact .inl hqi
      · exact .inr ⟨hq.resolve_left fun heq => hqi (heq ▸ hmem), hqi⟩
    · rw [hl, contents_found hpre, Option.getD_some]
      exact contents_put hpre
    · exact Finset.subset_insert _ _

end Owners

end LinkedBlocks
