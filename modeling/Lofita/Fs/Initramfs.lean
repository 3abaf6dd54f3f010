import Lofita.Foundation.Lines
import Lofita.Fs.Vfs

/-! # The initial RAM file system

`populate_from_initramfs` of `vfs.rs` and the archive it reads: a header line with the
path, the content and a line feed for each file. The loop keeps the lines of the
current file joined by line feeds, but puts none before a line while it has nothing,
so the line feeds a content begins with are lost (`populate_encode_iff`).
-/

namespace Lofita.Fs

open Lofita.Foundation Std

/-- The bytes of a text. -/
def utf8 (text : String) : List U8 := text.toByteArray.data.toList.map UInt8.toBitVec

/-- The state of the loop over the lines: the path and the content of the file being
read, and the files before it. -/
structure Populating where
  vfs : VfsState
  currentPath : List Char
  currentContent : List Char

namespace Populating

/-- Enter the file being read, if a header came before it. -/
def insertCurrent (state : Populating) : VfsState :=
  if state.currentPath ≠ [] then
    let path := String.ofList state.currentPath
    { state.vfs with
      ramfs := state.vfs.ramfs.insert path
        { path, content := utf8 (String.ofList state.currentContent) } }
  else state.vfs

/-- A content and one more line. -/
def pushLine (content line : List Char) : List Char :=
  (if content ≠ [] then content ++ ['\n'] else content) ++ line

/-- One line of the archive. -/
def line (state : Populating) (line : List Char) : Populating :=
  if "FILE:".toList <+: line then
    { vfs := state.insertCurrent
      currentPath := trim (line.drop "FILE:".length)
      currentContent := [] }
  else { state with currentContent := pushLine state.currentContent line }

end Populating

/-- `populate_from_initramfs`; bytes that are no text count as an empty archive. -/
def VfsState.populateFromInitramfs (vfs : VfsState) (decompressedData : List U8) : VfsState :=
  let text := (fromUtf8 decompressedData).getD ""
  ((lines text.toList).foldl Populating.line
    { vfs, currentPath := [], currentContent := [] }).insertCurrent

/-- A file of an archive, whose path is a line of its own and whose content no line
of can be taken for a header. -/
structure ArchiveFile where
  path : String
  content : String
  named : path ≠ ""
  oneLine : '\n' ∉ path.toList
  trimmed : trim path.toList = path.toList
  noReturn : '\r' ∉ content.toList
  noHeader : ∀ line ∈ lines content.toList, ¬ "FILE:".toList <+: line

namespace ArchiveFile

/-- A file as it stands in an archive. -/
def encode (file : ArchiveFile) : List Char :=
  "FILE:".toList ++ file.path.toList ++ '\n' :: file.content.toList ++ ['\n']

/-- What the loop makes of the content. -/
def loaded (file : ArchiveFile) : List Char := file.content.toList.dropWhile (· = '\n')

end ArchiveFile

/-- The files of an archive, one behind the other. -/
def encodeArchive (files : List ArchiveFile) : List U8 :=
  utf8 (String.ofList (files.flatMap ArchiveFile.encode))

/-- The files in memory are exactly those of an archive. -/
def VfsState.HoldsExactly (vfs : VfsState) (files : List ArchiveFile) : Prop :=
  (∀ path, path ∈ vfs.ramfs ↔ path ∈ files.map ArchiveFile.path) ∧
    ∀ file ∈ files,
      vfs.ramfs[file.path]? = some { path := file.path, content := utf8 file.content }

/-! ### Texts as bytes -/

/-- Text written as bytes is read back. -/
theorem fromUtf8_utf8 (text : String) : fromUtf8 (utf8 text) = some text := by
  have bytes : (utf8 text).map UInt8.ofBitVec = text.toByteArray.data.toList := by
    rw [utf8, List.map_map]
    exact List.map_id _
  rw [fromUtf8, bytes, Array.toArray_toList, String.fromUTF8?, dif_pos text.isValidUTF8]
  rfl

/-- Different texts have different bytes. -/
theorem utf8_injective {text other : String} (same : utf8 text = utf8 other) : text = other :=
  Option.some.inj (by rw [← fromUtf8_utf8, same, fromUtf8_utf8])

/-! ### The lines of one file -/

namespace Populating

variable {state : Populating} {current text rest : List Char}

/-- A content and the lines of a text. -/
def pushText (content text : List Char) : List Char :=
  if content = [] then text.dropWhile (· = '\n') else content ++ '\n' :: text

/-- A text without a line end is one line. -/
theorem pushText_nil (content : List Char) {line : List Char} (inLine : '\n' ∉ line) :
    pushText content line = pushLine content line := by
  unfold pushText pushLine
  by_cases none : content = []
  · rw [if_pos none, if_neg (not_not.mpr none), none, List.nil_append, List.dropWhile_eq_self_iff]
    intro some first
    exact inLine (of_decide_eq_true first ▸ List.getElem_mem _)
  · rw [if_neg none, if_pos none, List.append_assoc, List.singleton_append]

/-- A line, and the text behind it. -/
theorem pushText_newline (content : List Char) {line : List Char} (inLine : '\n' ∉ line)
    (text : List Char) :
    pushText (pushLine content line) text = pushText content (line ++ '\n' :: text) := by
  rcases eq_or_ne content [] with rfl | some
  · cases line with
    | nil => rfl
    | cons first line =>
        have other : first ≠ '\n' := fun same => inLine (List.mem_cons.mpr (.inl same.symm))
        simp [pushText, pushLine, other]
  · have grown : pushLine content line ≠ [] := by simp [pushLine, some]
    rw [pushText, if_neg grown, pushText, if_neg some, pushLine, if_pos some]
    simp only [List.append_assoc, List.cons_append, List.nil_append]

/-- A line that is no header belongs to the current file. -/
theorem line_plain (plain : ¬ "FILE:".toList <+: current) :
    state.line current =
      { state with currentContent := pushLine state.currentContent current } :=
  if_neg plain

/-- **The lines of a content are read back into it**, but for the line feeds before
anything else. -/
theorem foldl_linesFrom (noReturn : '\r' ∉ current ++ text) (inLine : '\n' ∉ current)
    (noHeader : ∀ line ∈ linesFrom current (text ++ ['\n']), ¬ "FILE:".toList <+: line) :
    (linesFrom current (text ++ ['\n'])).foldl line state =
      { state with currentContent := pushText state.currentContent (current ++ text) } := by
  induction text generalizing current state with
  | nil =>
      rw [List.append_nil] at noReturn ⊢
      rw [List.nil_append, linesFrom_newline,
        stripReturn_eq_self fun last => noReturn (List.mem_of_getLast? last)] at noHeader ⊢
      rw [pushText_nil _ inLine]
      exact line_plain (noHeader _ List.mem_cons_self)
  | cons char text ih =>
      rw [List.cons_append] at noHeader ⊢
      by_cases newline : char = '\n'
      · subst newline
        have plain : '\r' ∉ current := fun bad => noReturn (List.mem_append_left _ bad)
        have plainRest : '\r' ∉ [] ++ text := fun bad =>
          noReturn (List.mem_append_right _ (List.mem_cons_of_mem _ bad))
        rw [linesFrom_newline,
          stripReturn_eq_self fun last => plain (List.mem_of_getLast? last)] at noHeader ⊢
        rw [List.foldl_cons, line_plain (noHeader _ List.mem_cons_self), lines,
          ih plainRest List.not_mem_nil fun line later =>
            noHeader line (List.mem_cons_of_mem _ later),
          List.nil_append, pushText_newline _ inLine]
      · rw [linesFrom_cons newline] at noHeader ⊢
        have inLonger : '\n' ∉ current ++ [char] := by
          rw [List.mem_append, List.mem_singleton]
          exact not_or.mpr ⟨inLine, Ne.symm newline⟩
        have same : current ++ [char] ++ text = current ++ char :: text :=
          List.append_assoc current [char] text
        rw [ih (same ▸ noReturn) inLonger noHeader, same]

end Populating

/-! ### The files of an archive -/

namespace ArchiveFile

variable (file : ArchiveFile)

/-- The path of a file is what the header line keeps of it. -/
theorem stripReturn_header :
    stripReturn ("FILE:".toList ++ file.path.toList) = "FILE:".toList ++ file.path.toList := by
  refine stripReturn_eq_self fun last => ?_
  have some : file.path.toList ≠ [] := fun none => file.named (String.toList_eq_nil_iff.mp none)
  rw [List.getLast?_append_of_ne_nil _ some] at last
  have clean := not_whitespace_of_trimmed file.trimmed last
  revert clean
  decide

/-- The file and the ones after it, as the loop reads them. -/
theorem lines_encode (rest : List Char) :
    lines (file.encode ++ rest) =
      ("FILE:".toList ++ file.path.toList) ::
        (linesFrom [] (file.content.toList ++ ['\n']) ++ lines rest) := by
  have inLine : '\n' ∉ "FILE:".toList ++ file.path.toList := by
    rw [List.mem_append]
    exact not_or.mpr ⟨by decide, file.oneLine⟩
  have parts : file.encode ++ rest =
      ("FILE:".toList ++ file.path.toList) ++ '\n' :: (file.content.toList ++ '\n' :: rest) := by
    change ("FILE:".toList ++ file.path.toList ++ '\n' :: file.content.toList ++ ['\n']) ++ rest = _
    simp only [List.append_assoc, List.cons_append, List.nil_append]
  rw [parts, lines, linesFrom_line inLine, List.nil_append, file.stripReturn_header, lines,
    linesFrom_append]

/-- A header closes the current file and opens another. -/
theorem line_header (state : Populating) :
    state.line ("FILE:".toList ++ file.path.toList) =
      { vfs := state.insertCurrent, currentPath := file.path.toList, currentContent := [] } := by
  have cut : ("FILE:".toList ++ file.path.toList).drop "FILE:".length = file.path.toList :=
    List.drop_left' rfl
  rw [Populating.line, if_pos (List.prefix_append _ _), cut, file.trimmed]

/-- A file puts itself in the place of the one before it. -/
theorem foldl_encode (state : Populating) (rest : List Char) :
    (lines (file.encode ++ rest)).foldl Populating.line state =
      (lines rest).foldl Populating.line
        { vfs := state.insertCurrent
          currentPath := file.path.toList
          currentContent := file.loaded } := by
  have noHeader : ∀ line ∈ linesFrom [] (file.content.toList ++ ['\n']),
      ¬ "FILE:".toList <+: line := by
    intro line isLine
    rcases mem_linesFrom_concat file.noReturn isLine with kept | rfl
    · exact file.noHeader line kept
    · decide
  rw [lines_encode, List.foldl_cons, List.foldl_append, line_header,
    Populating.foldl_linesFrom file.noReturn List.not_mem_nil noHeader]
  rfl

/-- When a file is loaded as it was. -/
theorem loaded_eq_iff :
    file.loaded = file.content.toList ↔ file.content.toList.head? ≠ some '\n' := by
  rw [loaded, List.dropWhile_eq_self_iff]
  cases file.content.toList with
  | nil => simp
  | cons first text => simp

/-- The entry the loop makes for a file. -/
def entry : String × RamFile :=
  (file.path, { path := file.path, content := utf8 (String.ofList file.loaded) })

/-- The current file is entered under its path. -/
theorem insertCurrent_entry (vfs : VfsState) :
    Populating.insertCurrent
        { vfs, currentPath := file.path.toList, currentContent := file.loaded } =
      { vfs with ramfs := vfs.ramfs.insert file.entry.1 file.entry.2 } := by
  have some : file.path.toList ≠ [] := fun none => file.named (String.toList_eq_nil_iff.mp none)
  rw [Populating.insertCurrent, if_pos some, String.ofList_toList]
  rfl

end ArchiveFile

/-- The loop enters the files of an archive one after the other. -/
theorem insertCurrent_foldl (files : List ArchiveFile) (state : Populating) :
    ((lines (files.flatMap ArchiveFile.encode)).foldl Populating.line state).insertCurrent =
      { state.insertCurrent with
        ramfs := state.insertCurrent.ramfs.insertMany (files.map ArchiveFile.entry) } := by
  induction files generalizing state with
  | nil => rfl
  | cons file files ih =>
      rw [List.flatMap_cons, file.foldl_encode, ih, file.insertCurrent_entry]
      exact congrArg (fun ramfs => { state.insertCurrent with ramfs })
        TreeMap.insertMany_cons.symm

namespace VfsState

variable {vfs : VfsState} {files : List ArchiveFile}

/-- The files after loading an archive. -/
theorem ramfs_populate (vfs : VfsState) (files : List ArchiveFile) :
    (vfs.populateFromInitramfs (encodeArchive files)).ramfs =
      vfs.ramfs.insertMany (files.map ArchiveFile.entry) := by
  rw [populateFromInitramfs, encodeArchive, fromUtf8_utf8, Option.getD_some,
    String.toList_ofList, insertCurrent_foldl]
  rfl

/-- The paths after loading an archive. -/
theorem mem_populate (empty : vfs.ramfs.isEmpty) (path : String) :
    path ∈ (vfs.populateFromInitramfs (encodeArchive files)).ramfs ↔
      path ∈ files.map ArchiveFile.path := by
  have paths : (files.map ArchiveFile.entry).map Prod.fst = files.map ArchiveFile.path := by
    rw [List.map_map]
    rfl
  rw [ramfs_populate, TreeMap.mem_insertMany_list, paths, List.contains_iff_mem]
  exact or_iff_right (TreeMap.not_mem_of_isEmpty empty)

/-- The file at a path after loading an archive. -/
theorem getElem?_populate (distinct : (files.map ArchiveFile.path).Nodup) {file : ArchiveFile}
    (isFile : file ∈ files) :
    (vfs.populateFromInitramfs (encodeArchive files)).ramfs[file.path]? = some file.entry.2 := by
  rw [ramfs_populate]
  refine TreeMap.getElem?_insertMany_list_of_mem (Std.compare_eq_iff_eq.mpr rfl) ?_
    (List.mem_map_of_mem isFile)
  rw [List.pairwise_map]
  exact (List.pairwise_map.mp distinct).imp fun different same =>
    different (Std.compare_eq_iff_eq.mp same)

/-- Loading gives back the files whose content the loop keeps. -/
theorem holdsExactly_iff_loaded (empty : vfs.ramfs.isEmpty)
    (distinct : (files.map ArchiveFile.path).Nodup) :
    (vfs.populateFromInitramfs (encodeArchive files)).HoldsExactly files ↔
      ∀ file ∈ files, file.loaded = file.content.toList := by
  constructor
  · intro ⟨_, contents⟩ file isFile
    have same := (getElem?_populate distinct isFile).symm.trans (contents file isFile)
    have bytes := congrArg RamFile.content (Option.some.inj same)
    rw [← utf8_injective bytes, String.toList_ofList]
  · refine fun kept => ⟨mem_populate empty, fun file isFile => ?_⟩
    rw [getElem?_populate distinct isFile, ArchiveFile.entry, kept file isFile,
      String.ofList_toList]

/-- **Loading an archive undoes writing it if and only if no content begins with a
line feed.** -/
theorem populate_encode_iff (empty : vfs.ramfs.isEmpty)
    (distinct : (files.map ArchiveFile.path).Nodup) :
    (vfs.populateFromInitramfs (encodeArchive files)).HoldsExactly files ↔
      ∀ file ∈ files, file.content.toList.head? ≠ some '\n' := by
  rw [holdsExactly_iff_loaded empty distinct]
  exact forall₂_congr fun file _ => file.loaded_eq_iff

/-- A file of one line. -/
def greeting : ArchiveFile where
  path := "/etc/motd"
  content := "Welcome\n\nto the machine\n"
  named := by decide
  oneLine := by decide
  trimmed := by decide
  noReturn := by decide
  noHeader := by decide

def emptyFile : ArchiveFile where
  path := "/etc/hosts"
  content := ""
  named := by decide
  oneLine := by decide
  trimmed := by decide
  noReturn := by decide
  noHeader := by decide

theorem populate_encode_iff_greeting :
    (new.populateFromInitramfs (encodeArchive [emptyFile, greeting])).HoldsExactly
      [emptyFile, greeting] :=
  (populate_encode_iff (by decide) (by decide)).mpr (by decide)

/-- A file of one empty line. -/
def blankLine : ArchiveFile where
  path := "a"
  content := "\n"
  named := by decide
  oneLine := by decide
  trimmed := by decide
  noReturn := by decide
  noHeader := by decide

/-- The empty line of a file is lost. -/
theorem not_holdsExactly_blankLine :
    ¬ (new.populateFromInitramfs (encodeArchive [blankLine])).HoldsExactly [blankLine] :=
  fun held => absurd ((holdsExactly_iff_loaded (by decide) (by decide)).mp held) (by decide)

end VfsState

end Lofita.Fs
