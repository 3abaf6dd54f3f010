import Lofita.Foundation.RunLength
import Lofita.Foundation.Word

/-! # Run-length compression

The compressor of the initial RAM file system (`compress.rs`) and its entry
points. A compressed stream is a sequence of pairs of a count byte and a data
byte. `compress` writes the runs of its input (`compress_eq`) and `decompress`
expands the pairs it reads (`decompress_pairs`), so that decompressing undoes
compressing (`rle_round_trip`). No stream that decompresses to the input is shorter
than the one `compress` writes (`compress_shortest`).
-/

namespace Lofita.Kernel

open Lofita.Foundation

/-- The inner loop of `compress`: the length of the run so far, and on over the
bytes after it while they repeat the byte and the run is shorter than 255. -/
def runLen (byte : U8) : (run : Nat) → (after : List U8) → Nat
  | run, next :: after => if next = byte ∧ run < 255 then runLen byte (run + 1) after else run
  | run, [] => run

/-- The inner loop counts copies, up to 255. -/
theorem runLen_eq (byte : U8) {run : Nat} (within : run ≤ 255) (after : List U8) :
    runLen byte run after = run + copies byte (255 - run) after := by
  induction after generalizing run with
  | nil =>
      unfold runLen copies
      cases 255 - run <;> rfl
  | cons next after ih =>
      unfold runLen
      by_cases more : run < 255
      · have room : 255 - run = 255 - (run + 1) + 1 := by omega
        rw [room, copies]
        by_cases same : next = byte
        · rw [if_pos ⟨same, more⟩, if_pos same, ih more, Nat.succ_eq_add_one]
          omega
        · rw [if_neg fun both => same both.1, if_neg same, Nat.add_zero]
      · have full : 255 - run = 0 := by omega
        rw [if_neg fun both => more both.2, full]
        rfl

/-- `compress`, from a position of the source on. -/
def compress : (src : List U8) → List U8
  | [] => []
  | byte :: after =>
      let run := runLen byte 1 after
      BitVec.ofNat 8 run :: byte :: compress (after.drop (run - 1))
termination_by src => src.length
decreasing_by
  rw [List.length_drop, List.length_cons]
  omega

/-- The loop of `decompress`; the slice holds whole pairs. -/
def decompressPairs : (src : List U8) → List U8
  | count :: byte :: src => List.replicate count.toNat byte ++ decompressPairs src
  | _ => []

def decompress (src : List U8) : Except String (List U8) :=
  if src.length % 2 ≠ 0 then .error "Malformed RLE data: must be count+byte pairs"
  else .ok (decompressPairs src)

/-- What a call with a destination buffer returns, and the bytes it copies to the
start of the buffer. -/
structure Copied where
  len : U64
  written : List U8
deriving DecidableEq, Repr

/-- The result in the buffer if it fits, else 0 and the buffer as it was. -/
def copyOut (bytes : List U8) (dstMaxLen : U64) : Copied :=
  if bytes.length > dstMaxLen.toNat then { len := 0, written := [] }
  else { len := BitVec.ofNat 64 bytes.length, written := bytes }

/-- `rust_compress_data`. -/
def rustCompressData (src : List U8) (dstMaxLen : U64) : Copied :=
  copyOut (compress src) dstMaxLen

/-- `rust_decompress_data`. -/
def rustDecompressData (src : List U8) (dstMaxLen : U64) : Copied :=
  match decompress src with
  | .ok decompressed => copyOut decompressed dstMaxLen
  | .error _ => { len := 0, written := [] }

/-! ### The stream of a list of runs -/

/-- The pairs of a list of runs. -/
def pairs (runs : List (Nat × U8)) : List U8 :=
  runs.flatMap fun run => [BitVec.ofNat 8 run.1, run.2]

@[simp] theorem pairs_cons (count : Nat) (byte : U8) (rest : List (Nat × U8)) :
    pairs ((count, byte) :: rest) = BitVec.ofNat 8 count :: byte :: pairs rest := rfl

/-- A run takes two bytes. -/
theorem length_pairs (runs : List (Nat × U8)) : (pairs runs).length = 2 * runs.length := by
  induction runs with
  | nil => rfl
  | cons run rest ih =>
      rw [pairs_cons, List.length_cons, List.length_cons, List.length_cons, ih]
      omega

/-- The count bytes stand at the even positions. -/
theorem getElem?_pairs (runs : List (Nat × U8)) (i : Nat) :
    (pairs runs)[2 * i]? = runs[i]?.map fun run => BitVec.ofNat 8 run.1 := by
  induction runs generalizing i with
  | nil => rfl
  | cons run rest ih =>
      rw [pairs_cons]
      cases i with
      | zero => rfl
      | succ i =>
          have double : 2 * (i + 1) = 2 * i + 1 + 1 := by omega
          rw [double, List.getElem?_cons_succ, List.getElem?_cons_succ, List.getElem?_cons_succ, ih]

/-- `compress` writes the runs of its source. -/
theorem compress_eq (src : List U8) : compress src = pairs (runs 254 src) := by
  fun_induction runs 254 src with
  | case1 =>
      rw [compress]
      rfl
  | case2 byte after ih =>
      have length : runLen byte 1 after = copies byte 254 after + 1 := by
        rw [runLen_eq byte (by decide), Nat.add_comm]
      rw [compress, pairs_cons, length, Nat.add_sub_cancel, ih]

/-- Runs written as pairs are read back. -/
theorem decompressPairs_pairs {runs : List (Nat × U8)} (short : ∀ run ∈ runs, run.1 < 256) :
    decompressPairs (pairs runs) = expand runs := by
  induction runs with
  | nil => rfl
  | cons run rest ih =>
      have count : (BitVec.ofNat 8 run.1).toNat = run.1 :=
        Nat.mod_eq_of_lt (short run List.mem_cons_self)
      rw [pairs_cons, decompressPairs, count, expand_cons,
        ih fun other member => short other (List.mem_cons_of_mem run member)]

/-- `decompress` expands a stream of pairs whose counts fit a byte. -/
theorem decompress_pairs {runs : List (Nat × U8)} (short : ∀ run ∈ runs, run.1 < 256) :
    decompress (pairs runs) = .ok (expand runs) := by
  unfold decompress
  rw [if_neg, decompressPairs_pairs short]
  rw [length_pairs, Nat.mul_mod_right]
  exact not_not_intro rfl

/-- What was compressed is read back. -/
theorem decompress_compress (src : List U8) : decompress (compress src) = .ok src := by
  rw [compress_eq, decompress_pairs, expand_runs]
  exact fun run member => Nat.lt_succ_of_le (count_of_mem_runs member).2

/-- Compressed bytes are at most twice as many. -/
theorem length_compress_le (src : List U8) : (compress src).length ≤ 2 * src.length := by
  rw [compress_eq, length_pairs]
  exact Nat.mul_le_mul_left 2 (length_runs_le 254 src)

/-- What fits is copied whole. -/
theorem copyOut_of_le {bytes : List U8} {dstMaxLen : U64} (fits : bytes.length ≤ dstMaxLen.toNat) :
    (copyOut bytes dstMaxLen).written = bytes ∧
      (copyOut bytes dstMaxLen).len.toNat = bytes.length := by
  unfold copyOut
  rw [if_neg (Nat.not_lt_of_le fits)]
  exact ⟨rfl, Nat.mod_eq_of_lt (Nat.lt_of_le_of_lt fits dstMaxLen.isLt)⟩

/-- The entry points undo each other where both destinations have room. -/
theorem written_decompress_compress {src : List U8} {dstMaxLen backMaxLen : U64}
    (room : 2 * src.length ≤ dstMaxLen.toNat) (back : src.length ≤ backMaxLen.toNat) :
    (rustDecompressData (rustCompressData src dstMaxLen).written backMaxLen).written = src := by
  have written := (copyOut_of_le ((length_compress_le src).trans room)).1
  unfold rustDecompressData rustCompressData
  rw [written, decompress_compress]
  exact (copyOut_of_le back).1

/-- **Run-length coding is lossless.** Decompressing what `compress` has written
gives the source back; every count byte is between 1 and 255; the stream is at
most twice as long as the source, so that a destination of twice the size of the
source receives it. -/
theorem rle_round_trip (src : List U8) :
    decompress (compress src) = .ok src ∧
    (∀ (i : Nat) (count : U8), (compress src)[2 * i]? = some count →
      1 ≤ count.toNat ∧ count.toNat ≤ 255) ∧
    (compress src).length ≤ 2 * src.length ∧
    ∀ dstMaxLen : U64, 2 * src.length ≤ dstMaxLen.toNat →
      (rustCompressData src dstMaxLen).written = compress src ∧
        (rustCompressData src dstMaxLen).len.toNat = (compress src).length := by
  refine ⟨decompress_compress src, ?_, length_compress_le src, ?_⟩
  · intro i count found
    rw [compress_eq, getElem?_pairs, Option.map_eq_some_iff] at found
    obtain ⟨run, here, rfl⟩ := found
    have bounds := count_of_mem_runs (List.mem_of_getElem? here)
    rw [BitVec.toNat_ofNat, Nat.mod_eq_of_lt (Nat.lt_succ_of_le bounds.2)]
    exact bounds
  · intro dstMaxLen enough
    exact copyOut_of_le ((length_compress_le src).trans enough)

/-! ### Every stream is the stream of some runs -/

/-- The counts and bytes of a stream, as `decompress` reads them. -/
def readPairs : (encoded : List U8) → List (Nat × U8)
  | count :: byte :: encoded => (count.toNat, byte) :: readPairs encoded
  | _ => []

/-- Pairs are read as runs. -/
theorem decompressPairs_eq (encoded : List U8) :
    decompressPairs encoded = expand (readPairs encoded) := by
  fun_induction readPairs encoded with
  | case1 count byte encoded ih => rw [decompressPairs, expand_cons, ih]
  | case2 encoded short => rw [decompressPairs, expand_nil]; exact short

/-- A run is read from two bytes. -/
theorem length_readPairs_le (encoded : List U8) :
    2 * (readPairs encoded).length ≤ encoded.length := by
  fun_induction readPairs encoded with
  | case1 count byte encoded ih =>
      rw [List.length_cons, List.length_cons, List.length_cons]
      omega
  | case2 encoded short => exact Nat.zero_le _

/-- A count is a byte. -/
theorem count_of_mem_readPairs {encoded : List U8} {run : Nat × U8}
    (member : run ∈ readPairs encoded) : run.1 ≤ 255 := by
  fun_induction readPairs encoded with
  | case1 count byte encoded ih =>
      rcases List.mem_cons.mp member with rfl | later
      · exact Nat.le_of_lt_succ count.isLt
      · exact ih later
  | case2 encoded short => exact absurd member List.not_mem_nil

/-- When bytes are read as what they stand for. -/
theorem decompress_eq_ok_iff {encoded src : List U8} :
    decompress encoded = .ok src ↔
      encoded.length % 2 = 0 ∧ expand (readPairs encoded) = src := by
  unfold decompress
  by_cases whole : encoded.length % 2 = 0
  · rw [if_neg (not_not_intro whole), decompressPairs_eq, Except.ok.injEq]
    exact (and_iff_right whole).symm
  · rw [if_pos whole]
    refine iff_of_false (fun failed => ?_) fun both => whole both.1
    cases failed

/-- No encoding is shorter than the compressed bytes. -/
theorem length_compress_le_of_decompress {encoded src : List U8}
    (decodes : decompress encoded = .ok src) : (compress src).length ≤ encoded.length := by
  obtain ⟨-, rfl⟩ := decompress_eq_ok_iff.mp decodes
  rw [compress_eq, length_pairs]
  have fewest : (runs 254 (expand (readPairs encoded))).length ≤ (readPairs encoded).length :=
    length_runs_le_of_expand fun run member => count_of_mem_readPairs member
  exact (Nat.mul_le_mul_left 2 fewest).trans (length_readPairs_le encoded)

/-- **Run-length coding writes the shortest stream.** Of the streams that
decompress to a sequence of bytes none is shorter than the one `compress` writes,
and compressing again what a stream decompresses to never grows it. -/
theorem compress_shortest :
    (∀ src encoded : List U8, decompress encoded = .ok src →
      (compress src).length ≤ encoded.length) ∧
    ∀ encoded again : List U8, (decompress encoded).map compress = .ok again →
      again.length ≤ encoded.length := by
  refine ⟨fun src encoded => length_compress_le_of_decompress, fun encoded again recoded => ?_⟩
  cases decoded : decompress encoded with
  | error message =>
      rw [decoded] at recoded
      cases recoded
  | ok src =>
      rw [decoded] at recoded
      rw [← Except.ok.inj recoded]
      exact length_compress_le_of_decompress decoded

/-- A run cut in two, with an empty run between, against the one pair for it. -/
theorem compress_shortest_cut_run :
    decompress [2, 7, 0, 9, 1, 7] = .ok [7, 7, 7] ∧
      (compress [7, 7, 7]).length ≤ [2, 7, 0, 9, 1, (7 : U8)].length :=
  ⟨by decide, compress_shortest.1 [7, 7, 7] [2, 7, 0, 9, 1, 7] (by decide)⟩

end Lofita.Kernel
