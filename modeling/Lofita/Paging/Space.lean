import Lofita.Paging.Model

/-! # Address spaces as trees

The tables of an address space form a tree placed on pages of the allocator
(`Sound`). An operation that only adds tables leaves every present entry in place
and makes no leaf (`Grows`); `ensure_table` is one, provided that the entry it is
given is not a huge page (`ensureTable_spec`).
-/

namespace Lofita.Paging

open Lofita.Foundation Lofita.Foundation.TableTree

/-- The allocator answers only pages, each at most once, and none of them by the null
pointer. -/
structure FreshPages (alloc : Allocator) : Prop where
  nonnull : ∀ {request page : Nat}, alloc request = some page → page ≠ 0
  aligned : ∀ {request page : Nat}, alloc request = some page → 4096 ∣ page
  small : ∀ {request page : Nat}, alloc request = some page → page < 2 ^ 52
  once : ∀ {first second page : Nat}, alloc first = some page → alloc second = some page →
    first = second

/-- The page is the answer to one of the first requests. -/
def Answered (alloc : Allocator) (requests page : Nat) : Prop :=
  ∃ request < requests, alloc request = some page

/-- The tables of an address space are different pages of the allocator. -/
def Sound (alloc : Allocator) (root : Nat) (memory : PhysMemory) : Prop :=
  Placed child (Answered alloc memory.requests) 3 memory.word root

/-- The entry at a path, the innermost index first. -/
def entryAt (word : Nat → U64) (root : Nat) : List Nat → Option U64
  | [] => none
  | index :: path => (tableAt child word root path).map fun table => word (slot table index)

/-- An entry is a word of its table. -/
theorem entryAt_cons {word : Nat → U64} {root index : Nat} {path : List Nat} {entry : U64} :
    entryAt word root (index :: path) = some entry ↔
      ∃ table, tableAt child word root path = some table ∧ word (slot table index) = entry := by
  unfold entryAt
  rw [Option.map_eq_some_iff]

/-- The address lies in a table of the address space. -/
def InTables (word : Nat → U64) (root addr : Nat) : Prop :=
  ∃ path table, path.length ≤ 3 ∧ InRange path ∧ tableAt child word root path = some table ∧
    OnTable table addr

/-- Tables are added; present entries stay, and new ones refer to tables. -/
structure Grows (root : Nat) (before after : PhysMemory) : Prop where
  table : ∀ {path : List Nat} {table : Nat}, path.length ≤ 3 → InRange path →
    tableAt child before.word root path = some table →
    tableAt child after.word root path = some table
  kept : ∀ {path : List Nat} {entry : U64}, path.length ≤ 4 → InRange path →
    entryAt before.word root path = some entry → present entry = true →
    entryAt after.word root path = some entry
  new : ∀ {path : List Nat} {entry : U64}, path.length ≤ 4 → InRange path →
    entryAt after.word root path = some entry → present entry = true →
    entryAt before.word root path = some entry ∨ (path.length ≤ 3 ∧ huge entry = false)
  frame : ∀ {addr : Nat}, addr ∈ after.written → addr ∈ before.written ∨
    InTables after.word root addr

namespace Grows

variable {root : Nat} {first second third : PhysMemory}

/-- Memories with the same words have the same tables. -/
theorem of_word_eq (same : second.word = first.word) (written : second.written = first.written) :
    Grows root first second where
  table := by
    intro path table _ _ found
    rw [same]
    exact found
  kept := by
    intro path entry _ _ found _
    rw [same]
    exact found
  new := by
    intro path entry _ _ found _
    rw [same] at found
    exact .inl found
  frame := by
    intro addr member
    exact .inl (written ▸ member)

/-- A grown tree keeps its words in tables. -/
theorem inTables (grows : Grows root first second) {addr : Nat}
    (inside : InTables first.word root addr) : InTables second.word root addr := by
  obtain ⟨path, table, short, inRange, found, onTable⟩ := inside
  exact ⟨path, table, short, inRange, grows.table short inRange found, onTable⟩

/-- Growth on growth is growth. -/
theorem trans (left : Grows root first second) (right : Grows root second third) :
    Grows root first third where
  table := fun short inRange found => right.table short inRange (left.table short inRange found)
  kept := fun short inRange found isPresent =>
    right.kept short inRange (left.kept short inRange found isPresent) isPresent
  new := by
    intro path entry short inRange found isPresent
    rcases right.new short inRange found isPresent with before | isNew
    · exact left.new short inRange before isPresent
    · exact .inr isNew
  frame := by
    intro addr member
    rcases right.frame member with earlier | inside
    · exact (left.frame earlier).imp_right right.inTables
    · exact .inr inside

end Grows

/-- The entry leaves every right to the entries below it. -/
def unrestricted (entry : U64) : Bool := writable entry && user entry && executable entry

/-- An entry that restricts nothing. -/
theorem unrestricted_iff {entry : U64} : unrestricted entry = true ↔
    writable entry = true ∧ user entry = true ∧ executable entry = true := by
  unfold unrestricted
  rw [Bool.and_eq_true, Bool.and_eq_true, and_assoc]

/-- Present entries above the leaves were there before or restrict no right. -/
def AddsOpen (root : Nat) (before after : PhysMemory) : Prop :=
  ∀ path entry, path.length ≤ 3 → InRange path →
    entryAt after.word root path = some entry → present entry = true →
    entryAt before.word root path = some entry ∨ unrestricted entry = true

/-- The same words add nothing. -/
theorem AddsOpen.of_word_eq {root : Nat} {before after : PhysMemory}
    (same : after.word = before.word) : AddsOpen root before after := by
  intro path entry _ _ found _
  exact .inl (same ▸ found)

/-- What two steps add, both together add. -/
theorem AddsOpen.trans {root : Nat} {first second third : PhysMemory}
    (left : AddsOpen root first second) (right : AddsOpen root second third) :
    AddsOpen root first third := by
  intro path entry short inRange found isPresent
  rcases right path entry short inRange found isPresent with before | isOpen
  · exact left path entry short inRange before isPresent
  · exact .inr isOpen

variable {alloc : Allocator} {root : Nat} {memory : PhysMemory}

/-- An answer given stays given. -/
theorem Answered.mono {requests later page : Nat} (le : requests ≤ later)
    (answered : Answered alloc requests page) : Answered alloc later page := by
  obtain ⟨request, before, answer⟩ := answered
  exact ⟨request, Nat.lt_of_lt_of_le before le, answer⟩

theorem FreshPages.answered_aligned (fresh : FreshPages alloc) {requests page : Nat}
    (answered : Answered alloc requests page) : tableSize ∣ page := by
  obtain ⟨_, _, answer⟩ := answered
  exact fresh.aligned answer

/-- The next answer is a page not answered before. -/
theorem FreshPages.not_answered (fresh : FreshPages alloc) {requests page : Nat}
    (answer : alloc requests = some page) : ¬ Answered alloc requests page := by
  rintro ⟨request, before, same⟩
  exact absurd (fresh.once same answer) (Nat.ne_of_lt before)

/-- More requests make no difference to the tables. -/
theorem Sound.more (fresh : FreshPages alloc) (sound : Sound alloc root memory) {later : PhysMemory}
    (word : later.word = memory.word) (requests : memory.requests ≤ later.requests) :
    Sound alloc root later := by
  unfold Sound at sound ⊢
  rw [word]
  exact {
    aligned := fresh.answered_aligned
    owned_of := fun short inRange found => (sound.owned_of short inRange found).mono requests
    injective := sound.injective }

/-- The entries after attaching a table: the one that names it, the clear ones of
its own, and all others as before. -/
theorem entryAt_attached {path : List Nat} {table index page : Nat} {zero entry : U64}
    (attachment : Attachment child (Answered alloc memory.requests) 3 memory.word root path table
      index page zero entry)
    {other : List Nat} (short : other.length ≤ 4) (inRange : InRange other) :
    entryAt (attached memory.word (slot table index) page zero entry) root other =
      if other = index :: path then some entry
      else if other.tail = index :: path then some zero
      else entryAt memory.word root other := by
  cases other with
  | nil => rfl
  | cons i rest =>
      have restShort := Nat.le_of_succ_le_succ short
      simp only [entryAt]
      rw [attachment.tableAt_attached restShort inRange.tail]
      by_cases under : rest = index :: path
      · subst under
        have longer : i :: index :: path ≠ index :: path :=
          fun same => absurd (congrArg List.length same) (Nat.succ_ne_self _)
        rw [if_pos rfl, if_neg longer, if_pos (List.tail_cons), Option.map_some,
          attachment.read_page inRange.head]
      · have elsewhere : (i :: rest).tail ≠ index :: path := under
        rw [if_neg under, if_neg elsewhere]
        cases restFound : tableAt child memory.word root rest with
        | none =>
            rw [if_neg]
            · rfl
            · intro same
              obtain ⟨rfl, rfl⟩ := List.cons.inj same
              cases restFound.symm.trans attachment.found
        | some restTable =>
            rw [Option.map_some, attachment.read_old restShort inRange.tail inRange.head restFound]
            simp only [Option.map_some, List.cons.injEq, and_comm]
            split_ifs <;> rfl

/-- The entries `ensure_table` makes leave all rights to what is below. -/
theorem unrestricted_tableEntry {table : Nat} (aligned : 4096 ∣ table) (small : table < 2 ^ 52) :
    unrestricted (tableEntry table) = true := by
  have flags {bit : U64} (outside : physAddrMask &&& bit = 0#64) :
      tableEntry table &&& bit = (pfPresent ||| (pfWritable ||| pfUser)) &&& bit := by
    unfold tableEntry
    rw [BitVec.or_assoc, BitVec.or_assoc, ofNat_or_and aligned small outside]
  unfold unrestricted writable user executable
  rw [flags (by decide), flags (by decide), flags (by decide)]
  decide

/-- A new table at an empty entry grows the address space. -/
theorem grows_attached (fresh : FreshPages alloc) (sound : Sound alloc root memory)
    {path : List Nat} {table index page : Nat} (short : path.length < 3) (inRange : InRange path)
    (below : index < 512) (found : tableAt child memory.word root path = some table)
    (absent : present (memory.word (slot table index)) = false)
    (answer : alloc memory.requests = some page) (after : PhysMemory)
    (word : after.word = attached memory.word (slot table index) page 0 (tableEntry page))
    (written : after.written =
      slot table index :: ((List.range 512).map (slot page) ++ memory.written))
    (requests : after.requests = memory.requests + 1) :
    Sound alloc root after ∧ Grows root memory after ∧ AddsOpen root memory after ∧
      tableAt child after.word root (index :: path) = some page := by
  have empty : child (memory.word (slot table index)) = none := child_eq_none_of_absent absent
  have attachment : Attachment child (Answered alloc memory.requests) 3 memory.word root path table
      index page 0 (tableEntry page) :=
    { sound with
      short, inRange, below, found, empty
      pageAligned := fresh.aligned answer
      fresh := fresh.not_answered answer
      clear := by decide
      names := child_tableEntry (fresh.aligned answer) (fresh.small answer) }
  have named : tableAt child after.word root (index :: path) = some page := by
    have shortToo : (index :: path).length ≤ 3 := short
    rw [word, attachment.tableAt_attached shortToo (inRange.cons below), if_pos rfl]
  have unnamed : tableAt child memory.word root (index :: path) = none :=
    (tableAt_of_found child index found).trans empty
  have kept {other : List Nat} {otherTable : Nat} (otherShort : other.length ≤ 3)
      (otherRange : InRange other)
      (otherFound : tableAt child memory.word root other = some otherTable) :
      tableAt child after.word root other = some otherTable := by
    rw [word, attachment.tableAt_attached otherShort otherRange, if_neg, otherFound]
    rintro rfl
    cases unnamed.symm.trans otherFound
  -- A present entry is an old one or the one that names the new table.
  have entries {other : List Nat} {entry : U64} (otherShort : other.length ≤ 4)
      (otherRange : InRange other) (entryFound : entryAt after.word root other = some entry)
      (isPresent : present entry = true) :
      entryAt memory.word root other = some entry ∨
        other.length ≤ 3 ∧ entry = tableEntry page := by
    rw [word, entryAt_attached attachment otherShort otherRange] at entryFound
    split_ifs at entryFound with here under
    · subst here
      exact .inr ⟨short, (Option.some.inj entryFound).symm⟩
    · cases entryFound
      exact absurd isPresent (by decide)
    · exact .inl entryFound
  refine ⟨?_, { table := kept, kept := ?_, new := ?_, frame := ?_ }, ?_, named⟩
  · unfold Sound
    rw [word, requests]
    exact attachment.placed_attached fresh.answered_aligned (Answered.mono (Nat.le_succ _))
      ⟨_, Nat.lt_succ_self _, answer⟩
  · intro other entry otherShort otherRange entryFound isPresent
    rw [word, entryAt_attached attachment otherShort otherRange, if_neg, if_neg, entryFound]
    · intro under
      cases other with
      | nil => cases under
      | cons i rest =>
          obtain ⟨restTable, restFound, _⟩ := entryAt_cons.mp entryFound
          cases (under ▸ unnamed).symm.trans restFound
    · rintro rfl
      obtain ⟨restTable, restFound, rfl⟩ := entryAt_cons.mp entryFound
      cases restFound.symm.trans found
      exact Bool.false_ne_true (absent.symm.trans isPresent)
  · intro other entry otherShort otherRange entryFound isPresent
    rcases entries otherShort otherRange entryFound isPresent with before | ⟨otherUpper, rfl⟩
    · exact .inl before
    · exact .inr ⟨otherUpper, (child_eq_some.mp attachment.names).2.1⟩
  · intro addr member
    rw [written, List.mem_cons, List.mem_append, List.mem_map] at member
    rcases member with rfl | ⟨i, iMember, rfl⟩ | earlier
    · exact .inr ⟨path, table, Nat.le_of_lt short, inRange,
        kept (Nat.le_of_lt short) inRange found, onTable_slot below⟩
    · exact .inr ⟨index :: path, page, short, inRange.cons below, named,
        onTable_slot (List.mem_range.mp iMember)⟩
    · exact .inl earlier
  · intro other entry otherShort otherRange entryFound isPresent
    rcases entries (Nat.le_succ_of_le otherShort) otherRange entryFound isPresent with
      before | ⟨_, rfl⟩
    · exact .inl before
    · exact .inr (unrestricted_tableEntry (fresh.aligned answer) (fresh.small answer))

/-- No table is at the address 0. -/
theorem Sound.table_ne_zero (fresh : FreshPages alloc) (sound : Sound alloc root memory)
    {path : List Nat} {table : Nat} (short : path.length ≤ 3) (inRange : InRange path)
    (found : tableAt child memory.word root path = some table) : table ≠ 0 := by
  obtain ⟨_, _, answer⟩ := sound.owned_of short inRange found
  exact fresh.nonnull answer

/-- An address that is not 0 is a pointer. -/
theorem pointer_of_ne_zero {addr : Nat} (nonzero : addr ≠ 0) :
    TableAnswer.pointer addr = .table addr := if_neg nonzero

/-- `ensure_table` at an entry that is not a huge page grows the address space
and answers the table that the entry then refers to. -/
theorem ensureTable_spec (fresh : FreshPages alloc) (sound : Sound alloc root memory)
    {path : List Nat} {table index : Nat} (short : path.length < 3) (inRange : InRange path)
    (below : index < 512) (found : tableAt child memory.word root path = some table)
    (clear : present (memory.word (slot table index)) = true →
      huge (memory.word (slot table index)) = false) :
    let result := memory.ensureTable alloc (slot table index)
    Sound alloc root result.2 ∧ Grows root memory result.2 ∧ AddsOpen root memory result.2 ∧
      (result.1 = .outOfMemory ∨ ∃ answer, result.1 = .table answer ∧
        tableAt child result.2.word root (index :: path) = some answer) := by
  simp only [PhysMemory.ensureTable]
  by_cases there : present (memory.word (slot table index)) = true
  · have named : tableAt child memory.word root (index :: path) =
        some (address (memory.word (slot table index))) :=
      (tableAt_of_found child index found).trans (child_eq_some.mpr ⟨there, clear there, rfl⟩)
    have shortToo : (index :: path).length ≤ 3 := short
    have nonzero := sound.table_ne_zero fresh shortToo (inRange.cons below) named
    rw [if_pos (of_decide_eq_true there), pointer_of_ne_zero nonzero]
    exact ⟨sound, .of_word_eq rfl rfl, AddsOpen.of_word_eq rfl, .inr ⟨_, rfl, named⟩⟩
  · have absent : present (memory.word (slot table index)) = false := eq_false_of_ne_true there
    rw [if_neg (of_decide_eq_false absent)]
    unfold PhysMemory.newTable
    cases answered : alloc memory.requests with
    | none =>
        exact ⟨sound.more fresh rfl (Nat.le_succ _), .of_word_eq rfl rfl,
          AddsOpen.of_word_eq rfl, .inl rfl⟩
    | some page =>
        obtain ⟨soundAfter, grows, adds, named⟩ := grows_attached fresh sound short inRange below
          found absent answered
          { word := attached memory.word (slot table index) page 0 (tableEntry page)
            written := slot table index :: ((List.range 512).map (slot page) ++ memory.written)
            requests := memory.requests + 1 } rfl rfl rfl
        exact ⟨soundAfter, grows, adds, .inr ⟨page, rfl, named⟩⟩

/-! ### Leaves -/

/-- The present entry at the bottom of a path of four indices. -/
def leafAt (word : Nat → U64) (root : Nat) (path : List Nat) : Option U64 :=
  (entryAt word root path).filter present

/-- Tables are added; present entries above the leaves stay, and new ones refer
to tables. -/
structure Extends (root : Nat) (before after : PhysMemory) : Prop where
  kept : ∀ {path : List Nat} {entry : U64}, path.length ≤ 3 → InRange path →
    entryAt before.word root path = some entry → present entry = true →
    entryAt after.word root path = some entry
  new : ∀ {path : List Nat} {entry : U64}, path.length ≤ 3 → InRange path →
    entryAt after.word root path = some entry → present entry = true →
    entryAt before.word root path = some entry ∨ huge entry = false
  inTables : ∀ {addr : Nat}, InTables before.word root addr → InTables after.word root addr
  frame : ∀ {addr : Nat}, addr ∈ after.written → addr ∈ before.written ∨
    InTables after.word root addr

/-- A grown tree extends the old one. -/
theorem Grows.extends {before after : PhysMemory} (grows : Grows root before after) :
    Extends root before after where
  kept := fun short => grows.kept (Nat.le_succ_of_le short)
  new := by
    intro path entry short inRange found isPresent
    exact (grows.new (Nat.le_succ_of_le short) inRange found isPresent).imp_right And.right
  inTables := grows.inTables
  frame := grows.frame

/-- A leaf is a present entry. -/
theorem leafAt_eq_some {word : Nat → U64} {path : List Nat} {entry : U64} :
    leafAt word root path = some entry ↔
      entryAt word root path = some entry ∧ present entry = true :=
  Option.filter_eq_some_iff

/-- The leaf of a table that was found. -/
theorem leafAt_of_found {word : Nat → U64} {table : Nat} {path : List Nat} (index : Nat)
    (found : tableAt child word root path = some table) :
    leafAt word root (index :: path) = (some (word (slot table index))).filter present := by
  simp only [leafAt, entryAt]
  rw [found]
  rfl

/-- A missing table has no leaves. -/
theorem leafAt_of_missing {word : Nat → U64} {index : Nat} {path : List Nat}
    (missing : tableAt child word root path = none) : leafAt word root (index :: path) = none := by
  simp only [leafAt, entryAt]
  rw [missing]
  rfl

/-- Adding tables makes and removes no leaf. -/
theorem Grows.leafAt_eq {before after : PhysMemory} (grows : Grows root before after)
    {path : List Nat} (full : path.length = 4) (inRange : InRange path) :
    leafAt after.word root path = leafAt before.word root path := by
  apply Option.ext
  intro entry
  rw [leafAt_eq_some, leafAt_eq_some]
  constructor
  · rintro ⟨found, isPresent⟩
    rcases grows.new (Nat.le_of_eq full) inRange found isPresent with before | ⟨short, _⟩
    · exact ⟨before, isPresent⟩
    · omega
  · rintro ⟨found, isPresent⟩
    exact ⟨grows.kept (Nat.le_of_eq full) inRange found isPresent, isPresent⟩

/-- An extension of an extension is one. -/
theorem Extends.trans {first second third : PhysMemory} (left : Extends root first second)
    (right : Extends root second third) : Extends root first third where
  kept := fun short inRange found isPresent =>
    right.kept short inRange (left.kept short inRange found isPresent) isPresent
  new := by
    intro path entry short inRange found isPresent
    rcases right.new short inRange found isPresent with before | notHuge
    · exact left.new short inRange before isPresent
    · exact .inr notHuge
  inTables := fun inside => right.inTables (left.inTables inside)
  frame := by
    intro addr member
    rcases right.frame member with earlier | inside
    · exact (left.frame earlier).imp_right right.inTables
    · exact .inr inside

/-! ### Writing an entry of a bottom table -/

section Leaf

variable (sound : Sound alloc root memory) {path : List Nat} {table index : Nat}
  (bottom : path.length = 3) (inRange : InRange path) (below : index < 512)
  (found : tableAt child memory.word root path = some table) (entry : U64)

include sound bottom inRange below found

/-- A word stored in a lowest table moves no table. -/
theorem tableAt_store {other : List Nat} (short : other.length ≤ 3) (otherRange : InRange other) :
    tableAt child (memory.store (slot table index) entry).word root other =
      tableAt child memory.word root other :=
  sound.tableAt_update_leaf bottom inRange below found entry short otherRange

/-- Only the entry itself is written. -/
theorem word_store {other : List Nat} {otherTable i : Nat} (short : other.length ≤ 3)
    (otherRange : InRange other) (iBelow : i < 512)
    (otherFound : tableAt child memory.word root other = some otherTable) :
    (memory.store (slot table index) entry).word (slot otherTable i) =
      if other = path ∧ i = index then entry else memory.word (slot otherTable i) := by
  unfold PhysMemory.store
  split_ifs with same
  · obtain ⟨rfl, rfl⟩ := same
    cases otherFound.symm.trans found
    exact Function.update_self _ _ _
  · refine Function.update_of_ne (fun clash => same ?_) _ _
    exact sound.slot_inj short otherRange iBelow otherFound (Nat.le_of_eq bottom) inRange below
      found clash

/-- It changes the entry it is stored in. -/
theorem entryAt_store {other : List Nat} (short : other.length ≤ 4) (otherRange : InRange other) :
    entryAt (memory.store (slot table index) entry).word root other =
      if other = index :: path then some entry else entryAt memory.word root other := by
  cases other with
  | nil => rfl
  | cons i rest =>
      have restShort := Nat.le_of_succ_le_succ short
      simp only [entryAt]
      rw [tableAt_store sound bottom inRange below found entry restShort otherRange.tail]
      cases restFound : tableAt child memory.word root rest with
      | none =>
          rw [if_neg]
          · rfl
          · intro same
            obtain ⟨rfl, rfl⟩ := List.cons.inj same
            cases restFound.symm.trans found
      | some restTable =>
          simp only [Option.map_some, word_store sound bottom inRange below found entry restShort
            otherRange.tail otherRange.head restFound, List.cons.injEq, and_comm]
          split_ifs <;> rfl

/-- The entries of the upper tables stay. -/
theorem entryAt_store_upper {other : List Nat} (short : other.length ≤ 3)
    (otherRange : InRange other) :
    entryAt (memory.store (slot table index) entry).word root other =
      entryAt memory.word root other := by
  rw [entryAt_store sound bottom inRange below found entry (Nat.le_succ_of_le short) otherRange,
    if_neg]
  rintro rfl
  rw [List.length_cons, bottom] at short
  exact absurd short (by decide)

end Leaf

/-- Writing an entry of a bottom table changes one leaf. -/
theorem store_leaf (sound : Sound alloc root memory) {path : List Nat}
    {table index : Nat} (bottom : path.length = 3) (inRange : InRange path) (below : index < 512)
    (found : tableAt child memory.word root path = some table) (entry : U64) :
    let after := memory.store (slot table index) entry
    Sound alloc root after ∧ Extends root memory after ∧ AddsOpen root memory after ∧
      ∀ {other : List Nat}, other.length = 4 → InRange other →
        leafAt after.word root other =
          if other = index :: path then (some entry).filter present
          else leafAt memory.word root other := by
  have tables {other : List Nat} (short : other.length ≤ 3) (otherRange : InRange other) :=
    tableAt_store sound bottom inRange below found entry short otherRange
  have upper {other : List Nat} (short : other.length ≤ 3) (otherRange : InRange other) :=
    entryAt_store_upper sound bottom inRange below found entry short otherRange
  refine ⟨sound.congr tables, { kept := ?_, new := ?_, inTables := ?_, frame := ?_ }, ?_, ?_⟩
  · intro other _ short otherRange otherFound _
    rw [upper short otherRange, otherFound]
  · intro other _ short otherRange otherFound _
    rw [upper short otherRange] at otherFound
    exact .inl otherFound
  · rintro addr ⟨other, otherTable, short, otherRange, otherFound, onTable⟩
    exact ⟨other, otherTable, short, otherRange, (tables short otherRange).trans otherFound,
      onTable⟩
  · intro addr member
    rcases List.mem_cons.mp member with rfl | earlier
    · exact .inr ⟨path, table, Nat.le_of_eq bottom, inRange,
        (tables (Nat.le_of_eq bottom) inRange).trans found, onTable_slot below⟩
    · exact .inl earlier
  · intro other _ short otherRange otherFound _
    rw [upper short otherRange] at otherFound
    exact .inl otherFound
  · intro other full otherRange
    unfold leafAt
    rw [entryAt_store sound bottom inRange below found entry (Nat.le_of_eq full) otherRange]
    split_ifs <;> rfl

end Lofita.Paging
