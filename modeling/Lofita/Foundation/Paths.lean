import Mathlib.Data.List.Basic
import Mathlib.Data.List.Nodup

/-! # Listing directories of a set of paths

Paths are strings with a separator, and nothing but the paths themselves is stored: a
directory is a prefix that ends in the separator. It shows of each path behind it the next
component, with the separator if the path goes on (`child_eq_some_iff`). Going down the
entries leads to every path (`descends_of_prefix`).
-/

namespace Lofita.Foundation.Paths

variable {α : Type*} [DecidableEq α] (sep : α)

/-- The next component of the rest of a path, up to the separator. -/
def component (rest : List α) : List α :=
  if sep ∈ rest then rest.takeWhile (fun letter => decide (letter ≠ sep)) ++ [sep] else rest

/-- The entry under which a directory shows a path. -/
def child (dir path : List α) : Option (List α) :=
  if dir.isPrefixOf path then
    if component sep (path.drop dir.length) = [] then none
    else some (component sep (path.drop dir.length))
  else none

variable {sep} {dir path name entry rest : List α}

theorem component_of_notMem (plain : sep ∉ rest) : component sep rest = rest := if_neg plain

theorem component_append (plain : sep ∉ name) (rest : List α) :
    component sep (name ++ sep :: rest) = name ++ [sep] := by
  have others : ∀ letter ∈ name, decide (letter ≠ sep) = true := by
    intro letter member
    rw [decide_eq_true_eq]
    rintro rfl
    exact plain member
  have upTo : (name ++ sep :: rest).takeWhile (fun letter => decide (letter ≠ sep)) = name := by
    rw [List.takeWhile_append_of_pos others, List.takeWhile_cons_of_neg (by simp), List.append_nil]
  unfold component
  rw [if_pos (by simp), upTo]

/-- A component is a plain name that ends the path, or a plain name and the separator. -/
theorem component_cases (sep : α) (rest : List α) :
    sep ∉ rest ∧ component sep rest = rest ∨
      ∃ name later, sep ∉ name ∧ rest = name ++ sep :: later ∧
        component sep rest = name ++ [sep] := by
  by_cases inside : sep ∈ rest
  · obtain ⟨name, later, split, plain⟩ := List.eq_append_cons_of_mem inside
    exact .inr ⟨name, later, plain, split, split ▸ component_append plain later⟩
  · exact .inl ⟨inside, component_of_notMem inside⟩

theorem child_append (dir rest : List α) :
    child sep dir (dir ++ rest) =
      if component sep rest = [] then none else some (component sep rest) := by
  unfold child
  rw [if_pos (List.isPrefixOf_iff_prefix.mpr (List.prefix_append dir rest)), List.drop_left]

/-- A directory shows a path under an entry exactly if the entry is all of the path behind it,
without a separator, or ends with the first separator there. -/
theorem child_eq_some_iff :
    child sep dir path = some entry ↔
      (sep ∉ entry ∧ entry ≠ [] ∧ path = dir ++ entry) ∨
        ∃ name rest, sep ∉ name ∧ entry = name ++ [sep] ∧ path = dir ++ (entry ++ rest) := by
  constructor
  · intro shown
    have behind : dir <+: path := by
      by_contra apart
      unfold child at shown
      rw [if_neg (fun isPrefix => apart (List.isPrefixOf_iff_prefix.mp isPrefix))] at shown
      cases shown
    obtain ⟨rest, rfl⟩ := behind
    rw [child_append] at shown
    split_ifs at shown with empty
    rcases component_cases sep rest with ⟨plain, whole⟩ | ⟨name, later, plain, split, upTo⟩
    · rw [whole] at shown empty
      cases shown
      exact .inl ⟨plain, empty, rfl⟩
    · rw [upTo] at shown
      cases shown
      refine .inr ⟨name, later, plain, rfl, ?_⟩
      rw [split, List.append_assoc, List.singleton_append]
  · rintro (⟨plain, nonempty, rfl⟩ | ⟨name, rest, plain, rfl, rfl⟩)
    · rw [child_append, component_of_notMem plain, if_neg nonempty]
    · rw [child_append, List.append_assoc, List.singleton_append, component_append plain,
        if_neg (List.append_ne_nil_of_right_ne_nil name (List.cons_ne_nil sep []))]

/-- A path is shown by every directory strictly above it, under an entry that leads to it. -/
theorem exists_child (sep : α) (dir : List α) {rest : List α} (some_left : rest ≠ []) :
    ∃ entry later, child sep dir (dir ++ rest) = some entry ∧ rest = entry ++ later ∧
      entry ≠ [] ∧ (later ≠ [] → ∃ name, entry = name ++ [sep]) := by
  rcases component_cases sep rest with ⟨plain, whole⟩ | ⟨name, later, plain, split, upTo⟩
  · refine ⟨rest, [], ?_, (List.append_nil _).symm, some_left, fun more => absurd rfl more⟩
    rw [child_append, whole, if_neg some_left]
  · have entry : name ++ [sep] ≠ [] :=
      List.append_ne_nil_of_right_ne_nil name (List.cons_ne_nil sep [])
    refine ⟨name ++ [sep], later, ?_, ?_, entry, fun _ => ⟨name, rfl⟩⟩
    · rw [child_append, upTo, if_neg entry]
    · rw [split, List.append_assoc, List.singleton_append]

/-- Going down from a directory through listed entries to a path; the entries on the way are
directories. -/
inductive Descends (sep : α) (listed : List α → List α → Prop) : List α → List α → Prop where
  | file {dir entry : List α} : listed dir entry → Descends sep listed dir (dir ++ entry)
  | directory {dir name path : List α} : listed dir (name ++ [sep]) →
      Descends sep listed (dir ++ (name ++ [sep])) path → Descends sep listed dir path

/-- **Every path can be found.** Where each directory lists the entries of the paths, going
down leads from every directory strictly above a path to the path. -/
theorem descends_of_prefix {paths : Set (List α)} {listed : List α → List α → Prop}
    (lists : ∀ dir path entry, dir.getLast? = some sep → path ∈ paths →
      child sep dir path = some entry → listed dir entry)
    {dir path : List α} (isDirectory : dir.getLast? = some sep) (member : path ∈ paths)
    (above : dir <+: path) (strictly : dir ≠ path) : Descends sep listed dir path := by
  obtain ⟨rest, rfl⟩ := above
  -- the rest of the path gets shorter with every entry
  induction size : rest.length using Nat.strongRecOn generalizing dir rest with
  | _ size ih =>
      have some_left : rest ≠ [] := fun empty => strictly (by rw [empty, List.append_nil])
      obtain ⟨entry, later, shown, split, nonempty, goesOn⟩ := exists_child sep dir some_left
      have here := lists dir _ entry isDirectory member shown
      by_cases last : later = []
      · rw [split, last, List.append_nil]
        exact .file here
      · obtain ⟨name, isSub⟩ := goesOn last
        subst isSub
        have path : dir ++ rest = dir ++ (name ++ [sep]) ++ later := by
          rw [split, List.append_assoc dir]
        refine .directory here ?_
        rw [path]
        refine ih later.length ?_ ?_ later (path ▸ member) ?_ rfl
        · rw [← size, split, List.length_append]
          have := List.length_pos_of_ne_nil nonempty
          omega
        · rw [← List.append_assoc, List.getLast?_concat]
        · intro same
          exact last (List.append_right_eq_self.mp same.symm)

/-! ### Entries without repetition -/

section Collect

variable {Key Entry : Type*} [DecidableEq Entry] (find : Key → Option Entry)

/-- Add an entry that is not there yet. -/
def addEntry (entries : List Entry) (key : Key) : List Entry :=
  match find key with
  | none => entries
  | some entry => if entry ∈ entries then entries else entries ++ [entry]

/-- The entries of a list of keys, in the order of their first keys. -/
def collect (keys : List Key) (entries : List Entry) : List Entry :=
  keys.foldl (addEntry find) entries

variable {find}

theorem mem_addEntry {entries : List Entry} {key : Key} {entry : Entry} :
    entry ∈ addEntry find entries key ↔ entry ∈ entries ∨ find key = some entry := by
  unfold addEntry
  cases found : find key with
  | none => simp
  | some other =>
      simp only [Option.some.injEq]
      split_ifs with present
      · exact ⟨.inl, fun either => either.elim id fun same => same ▸ present⟩
      · rw [List.mem_append, List.mem_singleton, eq_comm]

theorem mem_collect {keys : List Key} {entries : List Entry} {entry : Entry} :
    entry ∈ collect find keys entries ↔
      entry ∈ entries ∨ ∃ key ∈ keys, find key = some entry := by
  unfold collect
  induction keys generalizing entries with
  | nil => simp
  | cons key rest ih =>
      rw [List.foldl_cons, ih, mem_addEntry, List.exists_mem_cons_iff, or_assoc]

theorem nodup_collect {keys : List Key} {entries : List Entry} (distinct : entries.Nodup) :
    (collect find keys entries).Nodup := by
  unfold collect
  induction keys generalizing entries with
  | nil => exact distinct
  | cons key rest ih =>
      refine ih ?_
      unfold addEntry
      split
      · exact distinct
      · split_ifs with present
        · exact distinct
        · exact List.nodup_append.mpr ⟨distinct, List.nodup_singleton _, by
            intro first member second single same
            exact present (List.mem_singleton.mp single ▸ same ▸ member)⟩

end Collect

end Lofita.Foundation.Paths
