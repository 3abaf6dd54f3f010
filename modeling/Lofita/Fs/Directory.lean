import Lofita.Foundation.Scan
import Lofita.Fs.Ext2

/-! # The entries of a directory

`list_dir` of `ext2.rs`, and the entry loops of `resolve_path` and `list_dir` in terms of
their steps: what one step does at the entry at an offset (`find_cases`, `list_cases`).
-/

namespace Lofita.Fs.Ext2Fs

open Lofita.Foundation Lofita.Foundation.Outcome Lofita.Foundation.Scan

/-! ### Listing a directory -/

/-- The fields of an entry before its name. -/
structure EntryHead where
  inode : U32
  recLen : Nat
  nameLen : Nat
deriving DecidableEq, Repr

/-- The fixed part of an entry. -/
def readHead (dirData : List U8) (offset : Nat) : Checked EntryHead := do
  let inodeN := word32 (← slice dirData offset (offset + 4)) 0
  let recLen := word16 (← slice dirData (offset + 4) (offset + 6)) 0
  let nameLen ← byteAt dirData (offset + 6)
  return { inode := inodeN, recLen := recLen.toNat, nameLen := nameLen.toNat }

/-- The name of an entry, empty if it is no text. -/
def readName (dirData : List U8) (offset : Nat) (head : EntryHead) : Checked String := do
  let name ← slice dirData (offset + 8) (offset + 8 + head.nameLen)
  return (fromUtf8 name).getD ""

/-- Add the name of a used entry to those listed, unless it is the directory itself or
its parent. -/
def addName (dirData : List U8) (offset : Nat) (head : EntryHead) (entries : List String) :
    Checked (List String) :=
  if head.inode ≠ 0 ∧ 0 < head.recLen then do
    let name ← readName dirData offset head
    if name ≠ "." ∧ name ≠ ".." then return entries ++ [name] else return entries
  else return entries

/-- One entry of the loop of `list_dir`. -/
def listStep (dirData : List U8) (state : Nat × List String) :
    Checked (Next (Nat × List String) (List String)) :=
  if state.1 < dirData.length then do
    let head ← readHead dirData state.1
    let entries ← addName dirData state.1 head state.2
    if head.recLen = 0 then return .done entries
    else return .goOn (state.1 + head.recLen, entries)
  else return .done state.2

/-- The names of a directory, entry by entry. -/
def listEntries (dirData : List U8) (fuel : Nat) : Checked (List String) :=
  run .outOfFuel (listStep dirData) fuel (0, [])

variable (fs : Ext2Fs) (dm : DriverManager)

/-- The names of the directory with an inode; no names of anything else. -/
def listDir (fuel : Nat) (inodeNum : U32) : Checked (List String) := do
  let some inode ← fs.getInode inodeNum dm | return []
  if inode.isDirectory then
    let dirData ← fs.readInodeData dm inode
    listEntries dirData fuel
  else return []

/-- The bytes of a directory, if an inode is one. -/
def directoryData (inodeNum : U32) : Checked (Option (List U8)) := do
  let some inode ← fs.getInode inodeNum dm | return none
  if inode.isDirectory then some <$> fs.readInodeData dm inode else return none

variable {fs dm} in
/-- One step of a lookup: the directory is read, then searched. -/
theorem resolveParts_cons (fuel : Nat) (part : String) (rest : List String) (current : U32) :
    fs.resolveParts dm fuel (part :: rest) current =
      (fs.directoryData dm current >>= fun found =>
        match found with
        | none => return none
        | some dirData => findEntry dirData part fuel 0 >>= fun next =>
            match next with
            | none => return none
            | some next => fs.resolveParts dm fuel rest next) := by
  rw [resolveParts]
  unfold directoryData
  rcases fs.getInode current dm with _ | (_ | inode)
  · rfl
  · rfl
  · simp only [bind_ok]
    by_cases directory : inode.isDirectory = true
    · simp only [directory, not_true_eq_false, ↓reduceIte]
      rcases fs.readInodeData dm inode with _ | dirData
      · rfl
      · change (findEntry dirData part fuel 0 >>= _) = (findEntry dirData part fuel 0 >>= _)
        rcases findEntry dirData part fuel 0 with _ | (_ | next)
        · rfl
        · rfl
        · rfl
    · simp only [directory]
      rfl

variable {fs dm} in
/-- A lookup in a directory that has been read is a search, -/
theorem resolveParts_search {fuel : Nat} {part : String} {rest : List String} {current : U32}
    {dirData : List U8} (read : fs.directoryData dm current = .ok (some dirData)) :
    fs.resolveParts dm fuel (part :: rest) current =
      (findEntry dirData part fuel 0 >>= fun next =>
        match next with
        | none => return none
        | some next => fs.resolveParts dm fuel rest next) := by
  rw [resolveParts_cons, read]
  rfl

variable {fs dm} in
/-- and goes on in what the search finds. -/
theorem resolveParts_found {fuel : Nat} {part : String} {rest : List String} {current next : U32}
    {dirData : List U8} (read : fs.directoryData dm current = .ok (some dirData))
    (found : findEntry dirData part fuel 0 = .ok (some next)) :
    fs.resolveParts dm fuel (part :: rest) current = fs.resolveParts dm fuel rest next := by
  rw [resolveParts_search read, found]
  rfl

variable {fs dm} in
/-- A path of two parts is looked up one part after the other. -/
theorem resolveParts_append (fuel : Nat) (first second : List String) (start : U32) :
    fs.resolveParts dm fuel (first ++ second) start =
      (fs.resolveParts dm fuel first start >>= fun found =>
        match found with
        | none => return none
        | some next => fs.resolveParts dm fuel second next) := by
  induction first generalizing start with
  | nil => rfl
  | cons part rest ih =>
      rw [List.cons_append, resolveParts_cons, resolveParts_cons]
      rcases fs.directoryData dm start with _ | (_ | dirData)
      · rfl
      · rfl
      · simp only [bind_ok]
        rcases findEntry dirData part fuel 0 with _ | (_ | next)
        · rfl
        · rfl
        · exact ih next

variable {fs dm} in
/-- A listing reads the directory, and then lists its entries. -/
theorem listDir_eq (fuel : Nat) (inodeNum : U32) :
    fs.listDir dm fuel inodeNum =
      (fs.directoryData dm inodeNum >>= fun found =>
        match found with
        | none => return []
        | some dirData => listEntries dirData fuel) := by
  unfold listDir directoryData
  rcases fs.getInode inodeNum dm with _ | (_ | inode)
  · rfl
  · rfl
  · simp only [bind_ok]
    by_cases directory : inode.isDirectory = true
    · simp only [directory, ↓reduceIte]
      rcases fs.readInodeData dm inode with _ | dirData
      · rfl
      · rfl
    · simp only [directory]
      rfl

/-! ### Names -/

/-- A name without a slash is a path of one part. -/
theorem pathParts_name {name : String} (nonempty : name ≠ "") (noSlash : '/' ∉ name.toList) :
    pathParts name = [name] := by
  have notNil : name.toList ≠ [] := fun nil => nonempty (String.toList_eq_nil_iff.mp nil)
  unfold pathParts
  rw [List.splitOn_eq_singleton noSlash, List.filter_cons, if_pos (decide_eq_true notNil),
    List.filter_nil, List.map_singleton, String.ofList_toList]

/-- The parts of a path with a name at its end. -/
theorem pathParts_append {path name : String} (nonempty : name ≠ "")
    (noSlash : '/' ∉ name.toList) :
    pathParts (path ++ "/" ++ name) = pathParts path ++ [name] := by
  have split : (path ++ "/" ++ name).toList.splitOn '/' =
      path.toList.splitOn '/' ++ name.toList.splitOn '/' := by
    rw [String.toList_append, String.toList_append, List.append_assoc]
    exact List.splitOn_append_cons_self _ _
  have last := pathParts_name nonempty noSlash
  unfold pathParts at last ⊢
  rw [split, List.filter_append, List.map_append, last]

/-- A text has as many bytes as encode it. -/
theorem size_of_fromUtf8 {data : List U8} {text : String} (same : fromUtf8 data = some text) :
    text.utf8ByteSize = data.length := by
  unfold fromUtf8 String.fromUTF8? at same
  split at same
  · cases same
    exact List.size_toArray.trans (List.length_map _)
  · cases same

/-! ### What an entry holds -/

/-- The head at an offset, where it lies in the data. -/
def headAt (dirData : List U8) (offset : Nat) : EntryHead where
  inode := word32 dirData offset
  recLen := (word16 dirData (offset + 4)).toNat
  nameLen := (dirData.getD (offset + 6) 0).toNat

/-- The bytes of the name of the entry at an offset. -/
def nameBytes (dirData : List U8) (offset : Nat) : List U8 :=
  (dirData.drop (offset + 8)).take (headAt dirData offset).nameLen

/-- The name of the entry at an offset, empty if it is no text. -/
def nameAt (dirData : List U8) (offset : Nat) : String :=
  (fromUtf8 (nameBytes dirData offset)).getD ""

/-- The fields before the name lie in the data. -/
def HeadInside (dirData : List U8) (offset : Nat) : Prop := offset + 7 ≤ dirData.length

/-- The name lies in the data. -/
def NameInside (dirData : List U8) (offset : Nat) : Prop :=
  offset + 8 + (headAt dirData offset).nameLen ≤ dirData.length

variable {dirData : List U8} {offset : Nat} {part : String}

/-- A name has fewer than 256 bytes. -/
theorem size_nameAt (dirData : List U8) (offset : Nat) :
    (nameAt dirData offset).utf8ByteSize < 256 := by
  have short : (nameBytes dirData offset).length < 256 :=
    Nat.lt_of_le_of_lt (List.length_take_le _ _) (BitVec.isLt _)
  unfold nameAt
  cases same : fromUtf8 (nameBytes dirData offset) with
  | none => exact Nat.zero_lt_succ _
  | some text => exact Nat.lt_of_le_of_lt (Nat.le_of_eq (size_of_fromUtf8 same)) short

/-- A slice within the data is its bytes. -/
theorem slice_inside {first last : Nat} (le : first ≤ last) (inside : last ≤ dirData.length) :
    slice dirData first last = .ok ((dirData.drop first).take (last - first)) :=
  if_pos ⟨le, inside⟩

/-- A slice past the data is out of range. -/
theorem slice_outside {first last : Nat} (outside : ¬ last ≤ dirData.length) :
    slice dirData first last = .error .indexOutOfRange :=
  if_neg fun both => outside both.2

/-- The words at the start of a slice are those at its offset. -/
theorem word32_slice (dirData : List U8) (offset : Nat) :
    word32 ((dirData.drop offset).take 4) 0 = word32 dirData offset := by
  unfold word32
  simp only [List.getD_eq_getElem?_getD, List.getElem?_take_of_lt, List.getElem?_drop,
    Nat.reduceLT, Nat.zero_add, Nat.add_zero]

/-- A word of a slice is the word of the data. -/
theorem word16_slice (dirData : List U8) (offset : Nat) :
    word16 ((dirData.drop offset).take 2) 0 = word16 dirData offset := by
  unfold word16
  simp only [List.getD_eq_getElem?_getD, List.getElem?_take_of_lt, List.getElem?_drop,
    Nat.reduceLT, Nat.zero_add, Nat.add_zero]

/-- The fixed part of an entry within the data is read. -/
theorem readHead_inside (inside : HeadInside dirData offset) :
    readHead dirData offset = .ok (headAt dirData offset) := by
  unfold HeadInside at inside
  have inode : offset + 4 - offset = 4 := by omega
  have recLen : offset + 6 - (offset + 4) = 2 := by omega
  have nameLen : byteAt dirData (offset + 6) = .ok (dirData.getD (offset + 6) 0) := by
    unfold byteAt
    rw [List.getElem?_eq_getElem (by omega), List.getD_eq_getElem _ _ (by omega)]
    rfl
  unfold readHead
  rw [slice_inside (by omega) (by omega), bind_ok, inode, word32_slice,
    slice_inside (by omega) (by omega), bind_ok, recLen, word16_slice, nameLen]
  rfl

/-- A head that does not lie in the data is a read out of range. -/
theorem readHead_outside (outside : ¬ HeadInside dirData offset) :
    readHead dirData offset = .error .indexOutOfRange := by
  unfold HeadInside at outside
  unfold readHead
  by_cases inode : offset + 4 ≤ dirData.length
  · rw [slice_inside (by omega) inode, bind_ok]
    by_cases recLen : offset + 6 ≤ dirData.length
    · have nameLen : byteAt dirData (offset + 6) = .error .indexOutOfRange := by
        unfold byteAt
        rw [List.getElem?_eq_none (by omega)]
        rfl
      rw [slice_inside (by omega) recLen, bind_ok, nameLen]
      rfl
    · rw [slice_outside recLen]
      rfl
  · rw [slice_outside inode]
    rfl

/-- The name of an entry within the data is read. -/
theorem readName_inside (inside : NameInside dirData offset) :
    readName dirData offset (headAt dirData offset) = .ok (nameAt dirData offset) := by
  unfold readName
  rw [slice_inside (Nat.le_add_right _ _) inside, Nat.add_sub_cancel_left]
  rfl

/-- A name past the data is out of range. -/
theorem readName_outside (outside : ¬ NameInside dirData offset) :
    readName dirData offset (headAt dirData offset) = .error .indexOutOfRange := by
  unfold readName
  rw [slice_outside outside]
  rfl

/-! ### The steps of the scans -/

/-- One entry of the loop of `resolve_path`, in search of a name. -/
def findStep (dirData : List U8) (part : String) (offset : Nat) :
    Checked (Next Nat (Option U32)) :=
  if offset < dirData.length then do
    let head ← readHead dirData offset
    if head.inode ≠ 0 then do
      let name ← readName dirData offset head
      if name = part then return .done (some head.inode)
      else return .goOn (offset + head.recLen)
    else return .goOn (offset + head.recLen)
  else return .done none

/-- One round of a search. -/
theorem findEntry_succ (dirData : List U8) (part : String) (fuel offset : Nat) :
    findEntry dirData part (fuel + 1) offset =
      match findStep dirData part offset with
      | .ok (.goOn next) => findEntry dirData part fuel next
      | .ok (.done result) => .ok result
      | .error error => .error error := by
  rw [findEntry]
  unfold findStep readHead
  by_cases inside : offset < dirData.length
  · rw [if_pos inside, if_pos inside]
    rcases slice dirData offset (offset + 4) with _ | inodeN
    · rfl
    rcases slice dirData (offset + 4) (offset + 6) with _ | recLen
    · rfl
    rcases byteAt dirData (offset + 6) with _ | nameLen
    · rfl
    by_cases free : word32 inodeN 0 = 0
    · simp only [bind_ok, pure, Except.pure, free, ne_eq, not_true_eq_false, ↓reduceIte]
    · simp only [bind_ok, pure, Except.pure, free, ne_eq, not_false_eq_true, ↓reduceIte, readName]
      rcases slice dirData (offset + 8) (offset + 8 + nameLen.toNat) with _ | name
      · rfl
      · simp only [bind_ok]
        by_cases same : (fromUtf8 name).getD "" = part
        · rw [if_pos same, if_pos same]
        · rw [if_neg same, if_neg same]
  · rw [if_neg inside, if_neg inside]
    rfl

/-- The entry loop of `resolve_path` takes these steps. -/
theorem findEntry_eq_run (dirData : List U8) (part : String) (fuel offset : Nat) :
    findEntry dirData part fuel offset =
      run .outOfFuel (findStep dirData part) fuel offset := by
  induction fuel generalizing offset with
  | zero => rfl
  | succ fuel ih =>
      rw [findEntry_succ, run]
      rcases findStep dirData part offset with _ | (next | _)
      · rfl
      · exact ih next
      · rfl

/-! ### What the search does at an entry -/

/-- The search passes over an entry that is free or has another name. -/
structure PassesOver (dirData : List U8) (part : String) (offset : Nat) : Prop where
  head : HeadInside dirData offset
  name : (headAt dirData offset).inode ≠ 0 →
    NameInside dirData offset ∧ nameAt dirData offset ≠ part

/-- The search ends with the inode of an entry that is used and has the name. -/
structure FindsAt (dirData : List U8) (part : String) (offset : Nat) : Prop where
  head : HeadInside dirData offset
  used : (headAt dirData offset).inode ≠ 0
  name : NameInside dirData offset ∧ nameAt dirData offset = part

/-- The scan reads out of range at an entry. -/
def BreaksAt (dirData : List U8) (offset : Nat) : Prop :=
  offset < dirData.length ∧
    ¬ (HeadInside dirData offset ∧
      ((headAt dirData offset).inode ≠ 0 → NameInside dirData offset))

/-- An entry within the data starts before its end. -/
theorem HeadInside.below (inside : HeadInside dirData offset) : offset < dirData.length := by
  unfold HeadInside at inside
  omega

/-- Past the data nothing is found. -/
theorem findStep_past (past : dirData.length ≤ offset) :
    findStep dirData part offset = .ok (.done none) :=
  if_neg (Nat.not_lt_of_le past)

/-- An entry with another name is passed over. -/
theorem findStep_passes (passes : PassesOver dirData part offset) :
    findStep dirData part offset = .ok (.goOn (offset + (headAt dirData offset).recLen)) := by
  unfold findStep
  rw [if_pos passes.head.below, readHead_inside passes.head, bind_ok]
  by_cases free : (headAt dirData offset).inode = 0
  · rw [if_neg (not_not_intro free)]
    rfl
  · obtain ⟨inside, other⟩ := passes.name free
    rw [if_pos free, readName_inside inside, bind_ok, if_neg other]
    rfl

/-- An entry with the name is found. -/
theorem findStep_finds (finds : FindsAt dirData part offset) :
    findStep dirData part offset = .ok (.done (some (headAt dirData offset).inode)) := by
  unfold findStep
  rw [if_pos finds.head.below, readHead_inside finds.head, bind_ok, if_pos finds.used,
    readName_inside finds.name.1, bind_ok, if_pos finds.name.2]
  rfl

/-- A broken entry is out of range. -/
theorem findStep_breaks (breaks : BreaksAt dirData offset) :
    findStep dirData part offset = .error .indexOutOfRange := by
  obtain ⟨below, outside⟩ := breaks
  unfold findStep
  rw [if_pos below]
  by_cases head : HeadInside dirData offset
  · obtain ⟨used, name⟩ := Classical.not_imp.mp fun inside => outside ⟨head, inside⟩
    rw [readHead_inside head, bind_ok, if_pos used, readName_outside name]
    rfl
  · rw [readHead_outside head]
    rfl

/-- **The search** at an offset comes to the end, finds the entry, passes over it or
reads out of range. -/
theorem find_cases (dirData : List U8) (part : String) (offset : Nat) :
    dirData.length ≤ offset ∨ FindsAt dirData part offset ∨ PassesOver dirData part offset ∨
      BreaksAt dirData offset := by
  by_cases past : dirData.length ≤ offset
  · exact .inl past
  refine .inr ?_
  by_cases inside : HeadInside dirData offset ∧
      ((headAt dirData offset).inode ≠ 0 → NameInside dirData offset)
  · obtain ⟨head, name⟩ := inside
    by_cases found : (headAt dirData offset).inode ≠ 0 ∧ nameAt dirData offset = part
    · exact .inl ⟨head, found.1, name found.1, found.2⟩
    · exact .inr (.inl ⟨head, fun used => ⟨name used, fun same => found ⟨used, same⟩⟩⟩)
  · exact .inr (.inr ⟨Nat.lt_of_not_le past, inside⟩)

/-- A search goes on exactly where it passes an entry over. -/
theorem findStep_goOn_iff {after : Nat} :
    findStep dirData part offset = .ok (.goOn after) ↔
      PassesOver dirData part offset ∧ after = offset + (headAt dirData offset).recLen := by
  constructor
  · intro stepped
    rcases find_cases dirData part offset with past | finds | passes | breaks
    · rw [findStep_past past] at stepped
      cases stepped
    · rw [findStep_finds finds] at stepped
      cases stepped
    · rw [findStep_passes passes] at stepped
      cases stepped
      exact ⟨passes, rfl⟩
    · rw [findStep_breaks breaks] at stepped
      cases stepped
  · rintro ⟨passes, rfl⟩
    exact findStep_passes passes

/-- The search faults only by reading out of range. -/
theorem findStep_error {fault : Fault} (failed : findStep dirData part offset = .error fault) :
    BreaksAt dirData offset ∧ fault = .indexOutOfRange := by
  rcases find_cases dirData part offset with past | finds | passes | breaks
  · rw [findStep_past past] at failed
    cases failed
  · rw [findStep_finds finds] at failed
    cases failed
  · rw [findStep_passes passes] at failed
    cases failed
  · cases (findStep_breaks breaks).symm.trans failed
    exact ⟨breaks, rfl⟩

/-- The search ends with the inode of an entry that it finds. -/
theorem findStep_done {inodeNum : U32}
    (stepped : findStep dirData part offset = .ok (.done (some inodeNum))) :
    FindsAt dirData part offset ∧ (headAt dirData offset).inode = inodeNum := by
  rcases find_cases dirData part offset with past | finds | passes | breaks
  · rw [findStep_past past] at stepped
    cases stepped
  · cases (findStep_finds finds).symm.trans stepped
    exact ⟨finds, rfl⟩
  · rw [findStep_passes passes] at stepped
    cases stepped
  · rw [findStep_breaks breaks] at stepped
    cases stepped

/-! ### What the listing does at an entry -/

/-- The names that the listing takes from the entry at an offset. -/
def listedAt (dirData : List U8) (offset : Nat) : List String :=
  if (headAt dirData offset).inode ≠ 0 ∧ nameAt dirData offset ≠ "." ∧
    nameAt dirData offset ≠ ".." then [nameAt dirData offset]
  else []

variable {entries : List String}

/-- Past the data the listing is done. -/
theorem listStep_past (past : dirData.length ≤ offset) :
    listStep dirData (offset, entries) = .ok (.done entries) :=
  if_neg (Nat.not_lt_of_le past)

/-- An entry of length zero ends it. -/
theorem listStep_stops (head : HeadInside dirData offset)
    (zero : (headAt dirData offset).recLen = 0) :
    listStep dirData (offset, entries) = .ok (.done entries) := by
  have nothing : addName dirData offset (headAt dirData offset) entries = .ok entries :=
    if_neg fun both => Nat.ne_of_gt both.2 zero
  simp only [listStep]
  rw [if_pos head.below, readHead_inside head, bind_ok, nothing, bind_ok, if_pos zero]
  rfl

/-- Any other entry is listed, and the next one follows. -/
theorem listStep_lists (head : HeadInside dirData offset)
    (positive : 0 < (headAt dirData offset).recLen)
    (name : (headAt dirData offset).inode ≠ 0 → NameInside dirData offset) :
    listStep dirData (offset, entries) =
      .ok (.goOn (offset + (headAt dirData offset).recLen,
        entries ++ listedAt dirData offset)) := by
  have added : addName dirData offset (headAt dirData offset) entries =
      .ok (entries ++ listedAt dirData offset) := by
    unfold addName listedAt
    by_cases used : (headAt dirData offset).inode ≠ 0
    · rw [if_pos ⟨used, positive⟩, readName_inside (name used), bind_ok]
      by_cases ordinary : nameAt dirData offset ≠ "." ∧ nameAt dirData offset ≠ ".."
      · rw [if_pos ordinary, if_pos ⟨used, ordinary⟩]
        rfl
      · rw [if_neg ordinary, if_neg fun both => ordinary both.2, List.append_nil]
        rfl
    · rw [if_neg fun both => used both.1, if_neg fun both => used both.1, List.append_nil]
      rfl
  simp only [listStep]
  rw [if_pos head.below, readHead_inside head, bind_ok, added, bind_ok,
    if_neg (Nat.ne_of_gt positive)]
  rfl

/-- **The listing** at an offset comes to the end, stops, takes the entry or reads out of
range, as a search does. -/
theorem list_cases (dirData : List U8) (offset : Nat) (entries : List String) :
    dirData.length ≤ offset ∨
      (HeadInside dirData offset ∧ (headAt dirData offset).recLen = 0) ∨
      (HeadInside dirData offset ∧ 0 < (headAt dirData offset).recLen ∧
        ((headAt dirData offset).inode ≠ 0 → NameInside dirData offset)) ∨
      (BreaksAt dirData offset ∧
        listStep dirData (offset, entries) = .error .indexOutOfRange) := by
  by_cases past : dirData.length ≤ offset
  · exact .inl past
  have below := Nat.lt_of_not_le past
  refine .inr ?_
  by_cases head : HeadInside dirData offset
  · by_cases zero : (headAt dirData offset).recLen = 0
    · exact .inl ⟨head, zero⟩
    · have positive := Nat.pos_of_ne_zero zero
      by_cases name : (headAt dirData offset).inode ≠ 0 → NameInside dirData offset
      · exact .inr (.inl ⟨head, positive, name⟩)
      · refine .inr (.inr ⟨⟨below, fun inside => name inside.2⟩, ?_⟩)
        obtain ⟨used, outside⟩ := Classical.not_imp.mp name
        simp only [listStep]
        rw [if_pos below, readHead_inside head, bind_ok, addName, if_pos ⟨used, positive⟩,
          readName_outside outside]
        rfl
  · refine .inr (.inr ⟨⟨below, fun inside => head inside.1⟩, ?_⟩)
    simp only [listStep]
    rw [if_pos below, readHead_outside head]
    rfl

/-- The listing faults only by reading out of range, where a search does. -/
theorem listStep_error {fault : Fault}
    (failed : listStep dirData (offset, entries) = .error fault) :
    BreaksAt dirData offset ∧ fault = .indexOutOfRange := by
  rcases list_cases dirData offset entries with past | ⟨head, zero⟩ | ⟨head, positive, name⟩ |
    ⟨breaks, stepped⟩
  · rw [listStep_past past] at failed
    cases failed
  · rw [listStep_stops head zero] at failed
    cases failed
  · rw [listStep_lists head positive name] at failed
    cases failed
  · cases stepped.symm.trans failed
    exact ⟨breaks, rfl⟩

/-- The listing goes on by the length of an entry, which is not zero. -/
theorem listStep_goOn {after : Nat × List String}
    (goesOn : listStep dirData (offset, entries) = .ok (.goOn after)) :
    HeadInside dirData offset ∧ 0 < (headAt dirData offset).recLen ∧
      after = (offset + (headAt dirData offset).recLen, entries ++ listedAt dirData offset) := by
  rcases list_cases dirData offset entries with past | ⟨head, zero⟩ | ⟨head, positive, name⟩ |
    ⟨_, stepped⟩
  · rw [listStep_past past] at goesOn
    cases goesOn
  · rw [listStep_stops head zero] at goesOn
    cases goesOn
  · rw [listStep_lists head positive name] at goesOn
    cases goesOn
    exact ⟨head, positive, rfl⟩
  · cases stepped.symm.trans goesOn

end Lofita.Fs.Ext2Fs
