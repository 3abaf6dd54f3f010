import Lofita.Fs.DirectoryScan

/-! # Listing and lookup

Where the entries of a directory tile its data, both scans go from entry to entry: the
search of `resolve_path` finds the first used entry with a name (`findEntry_holds`), and
`list_dir` lists the names of all used ones (`listEntries_holds`). So a name is listed
exactly if it can be looked up (`listed_iff_resolved`).
-/

namespace Lofita.Fs.Ext2Fs

open Lofita.Foundation Lofita.Foundation.Outcome Lofita.Foundation.Scan

/-- A used entry of a directory. -/
structure DirEntry where
  inodeNum : U32
  name : String
deriving DecidableEq, Repr

variable {dirData : List U8} {offset : Nat}

/-- The entry at an offset lies in its record. -/
def Fits (dirData : List U8) (offset : Nat) : Prop :=
  8 + (headAt dirData offset).nameLen ≤ (headAt dirData offset).recLen

instance (dirData : List U8) (offset : Nat) : Decidable (Fits dirData offset) :=
  inferInstanceAs (Decidable (_ ≤ _))

/-- The entries from an offset on tile the data, and the used ones are these. -/
inductive Holds (dirData : List U8) : Nat → List DirEntry → Prop where
  | past : Holds dirData dirData.length []
  | free {offset : Nat} {entries : List DirEntry} (fits : Fits dirData offset)
      (unused : (headAt dirData offset).inode = 0)
      (rest : Holds dirData (offset + (headAt dirData offset).recLen) entries) :
      Holds dirData offset entries
  | used {offset : Nat} {entries : List DirEntry} {name : String} (fits : Fits dirData offset)
      (inUse : (headAt dirData offset).inode ≠ 0)
      (text : fromUtf8 (nameBytes dirData offset) = some name) (nonempty : name ≠ "")
      (noSlash : '/' ∉ name.toList)
      (rest : Holds dirData (offset + (headAt dirData offset).recLen) entries) :
      Holds dirData offset ({ inodeNum := (headAt dirData offset).inode, name } :: entries)

/-- The inode number of the first entry with a name. -/
def firstNamed (entries : List DirEntry) (name : String) : Option U32 :=
  (entries.find? (·.name = name)).map DirEntry.inodeNum

/-- The names of the entries other than the directory itself and its parent. -/
def ordinaryNames (entries : List DirEntry) : List String :=
  (entries.map DirEntry.name).filter fun name => name ≠ "." ∧ name ≠ ".."

theorem mem_ordinaryNames {entries : List DirEntry} {name : String} (notSelf : name ≠ ".")
    (notParent : name ≠ "..") :
    name ∈ ordinaryNames entries ↔ (firstNamed entries name).isSome := by
  unfold ordinaryNames firstNamed
  rw [List.mem_filter, Option.isSome_map, List.find?_isSome, List.mem_map]
  constructor
  · rintro ⟨⟨entry, member, named⟩, _⟩
    exact ⟨entry, member, decide_eq_true named⟩
  · rintro ⟨entry, member, named⟩
    exact ⟨⟨entry, member, of_decide_eq_true named⟩, decide_eq_true ⟨notSelf, notParent⟩⟩

/-! ### The scans of a tiled directory -/

variable {entries : List DirEntry} {name : String}

theorem Holds.le (holds : Holds dirData offset entries) : offset ≤ dirData.length := by
  induction holds with
  | past => exact Nat.le_refl _
  | free _ _ _ ih => omega
  | used _ _ _ _ _ _ ih => omega

/-- An entry whose record is followed by others lies in the data. -/
theorem inside_of_fits (fits : Fits dirData offset)
    (rest : Holds dirData (offset + (headAt dirData offset).recLen) entries) :
    HeadInside dirData offset ∧ NameInside dirData offset := by
  have le := rest.le
  unfold Fits at fits
  unfold HeadInside NameInside
  omega

theorem nameAt_of_text (text : fromUtf8 (nameBytes dirData offset) = some name) :
    nameAt dirData offset = name := by
  unfold nameAt
  rw [text]
  rfl

/-- The search from an offset on finds the first used entry with the name. -/
theorem findEntry_holds (holds : Holds dirData offset entries) {part : String} {fuel : Nat}
    (enough : dirData.length < fuel + offset) :
    findEntry dirData part fuel offset = .ok (firstNamed entries part) := by
  induction holds generalizing fuel with
  | past =>
      obtain ⟨fuel, rfl⟩ : ∃ less, fuel = less + 1 := ⟨fuel - 1, by omega⟩
      rw [findEntry_succ, findStep_past (Nat.le_refl _)]
      rfl
  | @free offset entries fits unused rest ih =>
      have le := rest.le
      obtain ⟨head, _⟩ := inside_of_fits fits rest
      obtain ⟨fuel, rfl⟩ : ∃ less, fuel = less + 1 := ⟨fuel - 1, by omega⟩
      rw [findEntry_succ, findStep_passes ⟨head, fun used => absurd unused used⟩]
      unfold Fits at fits
      exact ih (by omega)
  | @used offset entries name fits inUse text _ _ rest ih =>
      have le := rest.le
      obtain ⟨head, inside⟩ := inside_of_fits fits rest
      have named := nameAt_of_text text
      obtain ⟨fuel, rfl⟩ : ∃ less, fuel = less + 1 := ⟨fuel - 1, by omega⟩
      unfold firstNamed
      rw [findEntry_succ, List.find?_cons]
      by_cases same : name = part
      · rw [findStep_finds ⟨head, inUse, inside, named.trans same⟩, decide_eq_true same]
        rfl
      · rw [findStep_passes ⟨head, fun _ => ⟨inside, fun other => same (named.symm.trans other)⟩⟩,
          decide_eq_false same]
        unfold Fits at fits
        exact ih (by omega)

/-- The listing from an offset on adds the names of the used entries. -/
theorem listEntries_holds (holds : Holds dirData offset entries) {listed : List String}
    {fuel : Nat} (enough : dirData.length < fuel + offset) :
    run .outOfFuel (listStep dirData) fuel (offset, listed) =
      .ok (listed ++ ordinaryNames entries) := by
  induction holds generalizing listed fuel with
  | past =>
      obtain ⟨fuel, rfl⟩ : ∃ less, fuel = less + 1 := ⟨fuel - 1, by omega⟩
      have ends : EndsAt (listStep dirData) (dirData.length, listed) (.ok listed) :=
        listStep_past (Nat.le_refl _)
      rw [run_ending ends]
      exact congrArg _ (List.append_nil listed).symm
  | @free offset entries fits unused rest ih =>
      have le := rest.le
      obtain ⟨head, _⟩ := inside_of_fits fits rest
      unfold Fits at fits
      have nothing : listedAt dirData offset = [] := if_neg fun both => both.1 unused
      obtain ⟨fuel, rfl⟩ : ∃ less, fuel = less + 1 := ⟨fuel - 1, by omega⟩
      rw [run_goOn (listStep_lists head (by omega) fun used => absurd unused used), nothing,
        List.append_nil]
      exact ih (by omega)
  | @used offset entries name fits inUse text _ _ rest ih =>
      have le := rest.le
      obtain ⟨head, inside⟩ := inside_of_fits fits rest
      unfold Fits at fits
      have one : listedAt dirData offset = [name].filter fun name => name ≠ "." ∧ name ≠ ".." := by
        unfold listedAt
        rw [nameAt_of_text text, List.filter_cons]
        by_cases ordinary : name ≠ "." ∧ name ≠ ".."
        · rw [if_pos ⟨inUse, ordinary⟩, if_pos (decide_eq_true ordinary)]
          rfl
        · rw [if_neg fun both => ordinary both.2,
            if_neg fun both => ordinary (of_decide_eq_true both)]
          rfl
      obtain ⟨fuel, rfl⟩ : ∃ less, fuel = less + 1 := ⟨fuel - 1, by omega⟩
      rw [run_goOn (listStep_lists head (by omega) fun _ => inside), one, ih (by omega),
        List.append_assoc]
      unfold ordinaryNames
      rw [List.map_cons, ← List.filter_append]
      rfl

/-! ### The last part of a path -/

variable {fs : Ext2Fs} {dm : DriverManager} {fuel : Nat} {current found : U32}

/-- The lookup of a name in a tiled directory. -/
theorem resolveParts_holds (read : fs.directoryData dm current = .ok (some dirData))
    (holds : Holds dirData 0 entries) (enough : dirData.length < fuel) :
    fs.resolveParts dm fuel [name] current = .ok (firstNamed entries name) := by
  rw [resolveParts_search read, findEntry_holds holds enough]
  cases firstNamed entries name with
  | none => rfl
  | some inodeNum => rfl

/-- **Listing agrees with lookup.** In a directory whose entries tile its data, a name is
listed exactly if it is found under the path of the directory, and it is found as the first
used entry with the name. -/
theorem listed_iff_resolved {path : String}
    (resolved : fs.resolvePath dm fuel path = .ok (some found))
    (read : fs.directoryData dm found = .ok (some dirData)) (holds : Holds dirData 0 entries)
    (nonempty : name ≠ "") (noSlash : '/' ∉ name.toList) (notSelf : name ≠ ".")
    (notParent : name ≠ "..") :
    ∃ enough, ∀ more ≥ enough, ∃ names, fs.listDir dm more found = .ok names ∧
      (name ∈ names ↔
        ∃ inodeNum, fs.resolvePath dm more (path ++ "/" ++ name) = .ok (some inodeNum)) ∧
      fs.resolvePath dm more (path ++ "/" ++ name) = .ok (firstNamed entries name) := by
  refine ⟨max fuel (dirData.length + 1), fun more enough => ?_⟩
  have steps : dirData.length < more + 0 := by omega
  have listing : fs.listDir dm more found = .ok (ordinaryNames entries) := by
    rw [listDir_eq, read, bind_ok]
    exact listEntries_holds holds steps
  have lookup : fs.resolvePath dm more (path ++ "/" ++ name) =
      .ok (firstNamed entries name) := by
    have ended : fs.resolvePath dm fuel path ≠ .error .outOfFuel := by
      rw [resolved]
      rintro ⟨⟩
    have same := resolveParts_mono ended (by omega : fuel ≤ more)
    unfold resolvePath at resolved ⊢
    rw [pathParts_append nonempty noSlash, resolveParts_append, same.trans resolved]
    exact resolveParts_holds read holds steps
  refine ⟨_, listing, ?_, lookup⟩
  rw [mem_ordinaryNames notSelf notParent, lookup, Option.isSome_iff_exists]
  exact exists_congr fun inodeNum => ⟨congrArg _, Except.ok.inj⟩

/-! ### A directory with two entries -/

/-- A disk whose root directory has an entry with the inode 5 and the name `a`, one that is not
used, and one with the inode 6 and the name `b`. -/
def rootDisk (addr : Nat) : U8 :=
  match addr with
  | 5120 => 5
  | 5124 => 12
  | 5126 => 1
  | 5128 => 97
  | 5136 => 12
  | 5144 => 6
  | 5148 => 0xE8
  | 5149 => 3
  | 5150 => 1
  | 5152 => 98
  | _ => zeroedDisk addr

def rootData : List U8 := (List.range 1024).map fun i => rootDisk (5120 + i)

theorem directoryData_root :
    filledFs.directoryData (diskManager rootDisk) ext2RootInode = .ok (some rootData) := by
  decide +kernel

def rootEntries : List DirEntry :=
  [{ inodeNum := (headAt rootData 0).inode, name := "a" },
    { inodeNum := (headAt rootData 24).inode, name := "b" }]

theorem holds_root : Holds rootData 0 rootEntries := by
  have first : 0 + (headAt rootData 0).recLen = 12 := by decide +kernel
  have second : 12 + (headAt rootData 12).recLen = 24 := by decide +kernel
  have third : 24 + (headAt rootData 24).recLen = rootData.length := by decide +kernel
  refine .used (by decide +kernel) (by decide +kernel) (by decide +kernel) (by decide)
    (by decide) ?_
  rw [first]
  refine .free (by decide +kernel) (by decide +kernel) ?_
  rw [second]
  refine .used (by decide +kernel) (by decide +kernel) (by decide +kernel) (by decide)
    (by decide) ?_
  rw [third]
  exact .past

theorem listed_iff_resolved_root :
    ∃ enough, ∀ more ≥ enough, ∃ names,
      filledFs.listDir (diskManager rootDisk) more ext2RootInode = .ok names ∧
        ("b" ∈ names ↔ ∃ inodeNum,
          filledFs.resolvePath (diskManager rootDisk) more ("" ++ "/" ++ "b") =
            .ok (some inodeNum)) ∧
        filledFs.resolvePath (diskManager rootDisk) more ("" ++ "/" ++ "b") =
          .ok (firstNamed rootEntries "b") := by
  have resolved : filledFs.resolvePath (diskManager rootDisk) 0 "" = .ok (some ext2RootInode) := by
    decide +kernel
  exact listed_iff_resolved resolved directoryData_root holds_root (by decide) (by decide)
    (by decide) (by decide)

end Lofita.Fs.Ext2Fs
