import Mathlib.Data.Option.Basic
import Mathlib.Logic.Function.Basic
import Mathlib.Tactic.SplitIfs

/-! # Trees of tables in a word memory

A table is a page of 512 words; the words of a table may name child tables. A
tree of tables hangs from a root table, and a path of indices, innermost first,
leads to at most one table (`tableAt`). In a placed tree of a given depth all
tables occupy different pages (`Placed`), so a write to one word has an effect at
one place of the tree: writing below the tree changes no table
(`Placed.tableAt_update_leaf`), and attaching a cleared page at an empty word
adds one (`Attachment.tableAt_attached`).
-/

namespace Lofita.Foundation.TableTree

variable {Word : Type*} (child : Word → Option Nat)

/-- The size of a table in bytes. -/
def tableSize : Nat := 4096

/-- The address of a word of a table. -/
def slot (table index : Nat) : Nat := table + 8 * index

/-- The address lies in the page of a table. -/
def OnTable (table addr : Nat) : Prop := table ≤ addr ∧ addr < table + tableSize

instance (table addr : Nat) : Decidable (OnTable table addr) :=
  inferInstanceAs (Decidable (_ ∧ _))

/-- The table a path leads to. -/
def tableAt (memory : Nat → Word) (root : Nat) : List Nat → Option Nat
  | [] => some root
  | index :: path => (tableAt memory root path).bind fun table => child (memory (slot table index))

/-- One step further from a table that was found. -/
theorem tableAt_of_found {memory : Nat → Word} {root table : Nat} {path : List Nat} (index : Nat)
    (found : tableAt child memory root path = some table) :
    tableAt child memory root (index :: path) = child (memory (slot table index)) := by
  unfold tableAt
  rw [found]
  rfl

/-- Beyond a missing table there is none. -/
theorem tableAt_of_missing {memory : Nat → Word} {root index : Nat} {path : List Nat}
    (missing : tableAt child memory root path = none) :
    tableAt child memory root (index :: path) = none := by
  unfold tableAt
  rw [missing]
  rfl

/-- A path of table indices. -/
def InRange (path : List Nat) : Prop := ∀ index ∈ path, index < 512

/-- A shorter path is in range. -/
theorem InRange.tail {index : Nat} {path : List Nat} (inRange : InRange (index :: path)) :
    InRange path :=
  fun other member => inRange other (List.mem_cons_of_mem index member)

theorem InRange.head {index : Nat} {path : List Nat} (inRange : InRange (index :: path)) :
    index < 512 :=
  inRange index List.mem_cons_self

/-- A path in range with one more index. -/
theorem InRange.cons {index : Nat} {path : List Nat} (below : index < 512)
    (inRange : InRange path) : InRange (index :: path) := by
  intro other member
  rcases List.mem_cons.mp member with rfl | later
  · exact below
  · exact inRange other later

/-- The words of a table lie on it. -/
theorem onTable_slot {table index : Nat} (below : index < 512) :
    OnTable table (slot table index) := by
  unfold OnTable slot tableSize
  omega

/-- Two aligned tables with an address in common are the same. -/
theorem eq_of_onTable {first second addr : Nat} (firstAligned : tableSize ∣ first)
    (secondAligned : tableSize ∣ second) (onFirst : OnTable first addr)
    (onSecond : OnTable second addr) : first = second := by
  unfold OnTable tableSize at *
  omega

/-- Different words have different addresses. -/
theorem slot_inj {first second i j : Nat} (firstAligned : tableSize ∣ first)
    (secondAligned : tableSize ∣ second) (firstBelow : i < 512) (secondBelow : j < 512)
    (same : slot first i = slot second j) : first = second ∧ i = j := by
  have tables := eq_of_onTable firstAligned secondAligned (onTable_slot firstBelow)
    (same ▸ onTable_slot secondBelow)
  subst tables
  unfold slot at same
  exact ⟨rfl, by omega⟩

/-- A tree whose tables, down to a depth, occupy different aligned pages from a
set of pages. -/
structure Placed (owned : Nat → Prop) (depth : Nat) (memory : Nat → Word) (root : Nat) : Prop where
  aligned : ∀ {page : Nat}, owned page → tableSize ∣ page
  owned_of : ∀ {path : List Nat} {table : Nat}, path.length ≤ depth → InRange path →
    tableAt child memory root path = some table → owned table
  injective : ∀ {first second : List Nat} {table : Nat},
    first.length ≤ depth → InRange first → second.length ≤ depth → InRange second →
    tableAt child memory root first = some table →
    tableAt child memory root second = some table → first = second

variable {child} {owned : Nat → Prop} {depth : Nat} {memory : Nat → Word} {root : Nat}

/-- The word of a table is found at the same address only by the same path. -/
theorem Placed.slot_inj (placed : Placed child owned depth memory root)
    {first second : List Nat} {i j firstTable secondTable : Nat}
    (firstDepth : first.length ≤ depth) (firstRange : InRange first) (firstBelow : i < 512)
    (firstFound : tableAt child memory root first = some firstTable)
    (secondDepth : second.length ≤ depth) (secondRange : InRange second) (secondBelow : j < 512)
    (secondFound : tableAt child memory root second = some secondTable)
    (same : slot firstTable i = slot secondTable j) : first = second ∧ i = j := by
  have firstOwned := placed.owned_of firstDepth firstRange firstFound
  have secondOwned := placed.owned_of secondDepth secondRange secondFound
  obtain ⟨rfl, indices⟩ := TableTree.slot_inj (placed.aligned firstOwned)
    (placed.aligned secondOwned) firstBelow secondBelow same
  exact ⟨placed.injective firstDepth firstRange secondDepth secondRange firstFound secondFound,
    indices⟩

/-- Two memories that agree on the words leading to tables have the same tables. -/
theorem tableAt_congr {memory' : Nat → Word}
    (agree : ∀ {path : List Nat} {table index : Nat}, path.length < depth → InRange path →
      index < 512 → tableAt child memory root path = some table →
      child (memory' (slot table index)) = child (memory (slot table index))) :
    ∀ {path : List Nat}, path.length ≤ depth → InRange path →
      tableAt child memory' root path = tableAt child memory root path
  | [], _, _ => rfl
  | index :: path, short, inRange => by
      unfold tableAt
      rw [tableAt_congr agree (Nat.le_of_succ_le short) inRange.tail]
      cases found : tableAt child memory root path with
      | none => rfl
      | some table => exact agree short inRange.tail inRange.head found

/-- Writing a word of a table at the bottom changes no table. -/
theorem Placed.tableAt_update_leaf [DecidableEq Nat] (placed : Placed child owned depth memory root)
    {leaf : List Nat} {table index : Nat} (bottom : leaf.length = depth) (leafRange : InRange leaf)
    (below : index < 512) (found : tableAt child memory root leaf = some table) (word : Word)
    {path : List Nat} (short : path.length ≤ depth) (inRange : InRange path) :
    tableAt child (Function.update memory (slot table index) word) root path =
      tableAt child memory root path := by
  refine tableAt_congr ?_ short inRange
  intro other otherTable i above otherRange otherBelow otherFound
  rw [Function.update_of_ne]
  intro same
  have paths := (placed.slot_inj (Nat.le_of_lt above) otherRange otherBelow otherFound
    (Nat.le_of_eq bottom) leafRange below found same).1
  subst paths
  exact absurd bottom (Nat.ne_of_lt above)

/-- The tree stays placed when no table moves. -/
theorem Placed.congr (placed : Placed child owned depth memory root) {memory' : Nat → Word}
    (same : ∀ {path : List Nat}, path.length ≤ depth → InRange path →
      tableAt child memory' root path = tableAt child memory root path) :
    Placed child owned depth memory' root where
  aligned := placed.aligned
  owned_of := by
    intro path table short inRange found
    rw [same short inRange] at found
    exact placed.owned_of short inRange found
  injective := by
    intro first second table firstShort firstRange secondShort secondRange firstFound secondFound
    rw [same firstShort firstRange] at firstFound
    rw [same secondShort secondRange] at secondFound
    exact placed.injective firstShort firstRange secondShort secondRange firstFound secondFound

/-! ### Attaching a table -/

/-- A memory with the words of one page set to a value. -/
def cleared (memory : Nat → Word) (page : Nat) (zero : Word) : Nat → Word :=
  fun addr => if OnTable page addr then zero else memory addr

/-- A cleared table holds the same word everywhere. -/
theorem cleared_of_onTable {page addr : Nat} (inside : OnTable page addr) (zero : Word) :
    cleared memory page zero addr = zero :=
  if_pos inside

/-- Clearing a table leaves the other words alone. -/
theorem cleared_of_not_onTable {page addr : Nat} (outside : ¬ OnTable page addr) (zero : Word) :
    cleared memory page zero addr = memory addr :=
  if_neg outside

/-- A memory in which a page is cleared and then named by one word. -/
def attached (memory : Nat → Word) (addr page : Nat) (zero word : Word) : Nat → Word :=
  Function.update (cleared memory page zero) addr word

/-- A fresh page, cleared, is to be named by an empty word of a table above the
bottom of a placed tree. -/
structure Attachment (child : Word → Option Nat) (owned : Nat → Prop) (depth : Nat)
    (memory : Nat → Word) (root : Nat) (parent : List Nat) (parentTable index page : Nat)
    (zero word : Word) : Prop extends Placed child owned depth memory root where
  short : parent.length < depth
  inRange : InRange parent
  below : index < 512
  found : tableAt child memory root parent = some parentTable
  pageAligned : tableSize ∣ page
  fresh : ¬ owned page
  empty : child (memory (slot parentTable index)) = none
  clear : child zero = none
  names : child word = some page

namespace Attachment

variable {parent : List Nat} {parentTable index page : Nat} {zero word : Word}
  (attachment : Attachment child owned depth memory root parent parentTable index page zero word)

include attachment

/-- The table an entry is stored in is owned. -/
theorem parentOwned : owned parentTable :=
  attachment.owned_of (Nat.le_of_lt attachment.short) attachment.inRange attachment.found

/-- An owned table has no word on the new page. -/
theorem not_onTable {table addr : Nat} (tableOwned : owned table) (onTable : OnTable table addr) :
    ¬ OnTable page addr := fun inside =>
  attachment.fresh (eq_of_onTable (attachment.aligned tableOwned) attachment.pageAligned onTable
    inside ▸ tableOwned)

/-- A word of an old table changes only where the page is attached. -/
theorem read_old {path : List Nat} {table i : Nat} (short : path.length ≤ depth)
    (inRange : InRange path) (iBelow : i < 512)
    (here : tableAt child memory root path = some table) :
    attached memory (slot parentTable index) page zero word (slot table i) =
      if path = parent ∧ i = index then word else memory (slot table i) := by
  unfold attached
  split_ifs with same
  · obtain ⟨rfl, rfl⟩ := same
    cases here.symm.trans attachment.found
    rw [Function.update_self]
  · rw [Function.update_of_ne, cleared_of_not_onTable]
    · exact attachment.not_onTable (attachment.owned_of short inRange here) (onTable_slot iBelow)
    · intro clash
      exact same (attachment.toPlaced.slot_inj short inRange iBelow here
        (Nat.le_of_lt attachment.short) attachment.inRange attachment.below attachment.found clash)

/-- The words of the attached page are clear. -/
theorem read_page {i : Nat} (iBelow : i < 512) :
    attached memory (slot parentTable index) page zero word (slot page i) = zero := by
  unfold attached
  rw [Function.update_of_ne, cleared_of_onTable (onTable_slot iBelow)]
  intro clash
  exact attachment.not_onTable attachment.parentOwned (onTable_slot attachment.below)
    (clash ▸ onTable_slot iBelow)

/-- Attaching a cleared page at a word without a child adds one table. -/
theorem tableAt_attached : ∀ {path : List Nat}, path.length ≤ depth → InRange path →
    tableAt child (attached memory (slot parentTable index) page zero word) root path =
      if path = index :: parent then some page else tableAt child memory root path
  | [], _, _ => rfl
  | i :: path, short, inRange => by
      have rest := tableAt_attached (Nat.le_of_succ_le short) inRange.tail
      unfold tableAt
      rw [rest]
      by_cases under : path = index :: parent
      · -- Below the new table nothing hangs yet, nor did anything before.
        subst under
        rw [if_pos rfl, if_neg (fun same => absurd (List.cons.inj same).2 (by simp))]
        change child (attached memory _ page zero word (slot page i)) = _
        rw [attachment.read_page inRange.head, attachment.clear]
        unfold tableAt
        rw [attachment.found, Option.bind_some, attachment.empty, Option.bind_none]
      · rw [if_neg under]
        cases here : tableAt child memory root path with
        | none =>
            rw [if_neg]
            · rfl
            · rintro same
              obtain ⟨rfl, rfl⟩ := List.cons.inj same
              cases here.symm.trans attachment.found
        | some table =>
            change child (attached memory _ page zero word (slot table i)) = _
            rw [attachment.read_old (Nat.le_of_succ_le short) inRange.tail inRange.head here]
            by_cases same : path = parent ∧ i = index
            · obtain ⟨rfl, rfl⟩ := same
              rw [if_pos ⟨rfl, rfl⟩, if_pos rfl, attachment.names]
            · rw [if_neg same, if_neg]
              · rfl
              · intro both
                obtain ⟨rfl, rfl⟩ := List.cons.inj both
                exact same ⟨rfl, rfl⟩

/-- The tree with the page attached is placed on one page more. -/
theorem placed_attached {owned' : Nat → Prop}
    (owned'Aligned : ∀ {other}, owned' other → tableSize ∣ other)
    (grows : ∀ {other}, owned other → owned' other) (owns : owned' page) :
    Placed child owned' depth (attached memory (slot parentTable index) page zero word) root where
  aligned := owned'Aligned
  owned_of := by
    intro path table short inRange here
    rw [attachment.tableAt_attached short inRange] at here
    split_ifs at here with new
    · cases here
      exact owns
    · exact grows (attachment.owned_of short inRange here)
  injective := by
    intro first second table firstShort firstRange secondShort secondRange firstHere secondHere
    rw [attachment.tableAt_attached firstShort firstRange] at firstHere
    rw [attachment.tableAt_attached secondShort secondRange] at secondHere
    split_ifs at firstHere secondHere with firstNew secondNew secondNew
    · exact firstNew.trans secondNew.symm
    · cases firstHere
      exact absurd (attachment.owned_of secondShort secondRange secondHere) attachment.fresh
    · cases secondHere
      exact absurd (attachment.owned_of firstShort firstRange firstHere) attachment.fresh
    · exact attachment.injective firstShort firstRange secondShort secondRange firstHere secondHere

end Attachment

end Lofita.Foundation.TableTree
