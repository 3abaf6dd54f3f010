import Lofita.Kernel.Calls
import Lofita.Paging.Entry

/-! # Write or execute, not both

The entries that back a region should grant what the region grants. The three
places that deal with the flag word of a mapping do not agree on it: the eager
path sets bit 0 always and bit 1 for a writeable region, the lazy path sets bits
0 and 2 always, and `page_table_map` takes bit 0 for writable, bit 1 for user
and bit 2 for executable. So every eager entry is writable and every lazy entry
is writable and executable. `entries_follow_regions_iff` says which runs are
spared.
-/

namespace Lofita.Kernel

open Lofita.Foundation Lofita.Paging Std

/-- A call together with the answers of `page_table_map` to its requests: which
of them, in order, succeed. -/
structure AnsweredCall where
  call : KernelCall
  succeeds : Nat → Bool

def pager : System KernelState AnsweredCall := ⟨fun state answered => state.after answered.call⟩

/-- The leaf entry `page_table_map` writes for a request. -/
def FfiCall.leaf : FfiCall → Option U64
  | .pageTableMap _ physicalAddr flags => some (leafEntry physicalAddr (pteFlags flags))
  | _ => none

/-- The leaf entries of the requests that succeed. -/
def installed (calls : List FfiCall) (succeeds : Nat → Bool) : List U64 :=
  ((calls.filterMap FfiCall.leaf).zipIdx.filter fun entry => succeeds entry.2).map Prod.fst

/-- The requests a call makes of the memory managers on behalf of a region. -/
def KernelState.requests (state : KernelState) : KernelCall → List FfiCall
  | .allocateMemory tokenId size isWriteable isExecutable phys =>
      (state.allocateMemory tokenId size isWriteable isExecutable phys).ffi
  | .handlePageFault faultAddr errorCode phys =>
      (state.handlePageFault faultAddr errorCode phys).ffi
  | _ => []

/-- The region whose pages a call maps, as the call leaves it. -/
def KernelState.mappedRegion (state : KernelState) (call : KernelCall) : Option Vma :=
  match call with
  | .allocateMemory tokenId _ _ _ _ => do
      let ref ← state.tokens[tokenId]?
      ((state.after call).token ref).vmas[(state.token ref).nextAddr]?
  | .handlePageFault faultAddr _ _ => do
      let (ref, start, _) ← state.faultVma faultAddr
      ((state.after call).token ref).vmas[start]?
  | _ => none

/-- Every entry a call installs grants no more than the region it belongs to. -/
def EntriesFollowRegion (state : KernelState) (answered : AnsweredCall) : Prop :=
  ∀ vma ∈ state.mappedRegion answered.call,
    ∀ entry ∈ installed (state.requests answered.call) answered.succeeds,
      (writable entry = true → vma.isWriteable = true) ∧
        (executable entry = true → vma.isExecutable = true)

instance decidableEntriesFollowRegion (state : KernelState) (answered : AnsweredCall) :
    Decidable (EntriesFollowRegion state answered) := by
  unfold EntriesFollowRegion
  -- Without this the entries would be searched for among all words.
  have entries (vma : Vma) := List.decidableBAll
    (fun entry => (writable entry = true → vma.isWriteable = true) ∧
      (executable entry = true → vma.isExecutable = true))
    (installed (state.requests answered.call) answered.succeeds)
  infer_instance

/-- One of the first requests to map a page succeeds. -/
def SomePage (pages : U64) (succeeds : Nat → Bool) : Prop :=
  ∃ i < pages.toNat, succeeds i = true

/-- An allocation that maps a page asks for a writeable region, and no page
fault maps a page. -/
def Spared (state : KernelState) (answered : AnsweredCall) : Prop :=
  match answered.call with
  | .allocateMemory tokenId size isWriteable isExecutable phys =>
      tokenId ∈ state.tokens → (isWriteable && isExecutable) = false → phys ≠ 0 →
        SomePage (pagesFor size) answered.succeeds → isWriteable = true
  | .handlePageFault faultAddr _ phys =>
      ∀ region ∈ state.faultVma faultAddr, region.2.2.physPtr = 0 → phys ≠ 0 →
        ¬ SomePage (pagesFor region.2.2.size) answered.succeeds
  | _ => True

/-- No region without pages is executable. -/
def UnbackedNotExecutable (state : KernelState) : Prop :=
  ∀ (ref : Ref) (start : U64) (vma : Vma), (state.token ref).vmas[start]? = some vma →
    vma.physPtr = 0 → vma.isExecutable = false

/-- The calls that give memory to tokens. -/
def AnsweredCall.Allocating (answered : AnsweredCall) : Prop :=
  match answered.call with
  | .memAlloc .. | .allocateMemory .. | .handlePageFault .. => True
  | _ => False

/-! ### The entries of a mapping -/

/-- Consecutive pages are mapped with one flag word. -/
theorem filterMap_leaf_mapPages (virtualAddr physAddr pages : U64) (flags : U32) :
    (mapPages virtualAddr physAddr pages flags).filterMap FfiCall.leaf =
      (List.range pages.toNat).map fun i =>
        leafEntry (physAddr + BitVec.ofNat 64 i * 4096) (pteFlags flags) := by
  unfold mapPages
  rw [List.filterMap_map, ← List.filterMap_eq_map]
  rfl

/-- The entries that a mapping of consecutive pages installs are those of the
requests that succeed. -/
theorem mem_installed_mapPages {requested answer virtualAddr physAddr pages : U64} {flags : U32}
    {succeeds : Nat → Bool} {entry : U64} :
    entry ∈ installed
        (.physAlloc requested answer :: mapPages virtualAddr physAddr pages flags) succeeds ↔
      ∃ i < pages.toNat, succeeds i = true ∧
        entry = leafEntry (physAddr + BitVec.ofNat 64 i * 4096) (pteFlags flags) := by
  unfold installed
  rw [List.filterMap_cons_none rfl, filterMap_leaf_mapPages]
  simp only [List.mem_map, List.mem_filter, Prod.exists, exists_and_right, exists_eq_right,
    List.mk_mem_zipIdx_iff_getElem?, List.getElem?_map, Option.map_eq_some_iff,
    List.getElem?_eq_some_iff, List.length_range, List.getElem_range]
  constructor
  · rintro ⟨i, ⟨_, ⟨below, rfl⟩, rfl⟩, success⟩
    exact ⟨i, below, success, rfl⟩
  · rintro ⟨i, below, success, rfl⟩
    exact ⟨i, ⟨i, ⟨below, rfl⟩, rfl⟩, success⟩

/-- Without a mapping request nothing is installed. -/
theorem installed_eq_nil {calls : List FfiCall} (noEntry : ∀ call ∈ calls, call.leaf = none)
    (succeeds : Nat → Bool) : installed calls succeeds = [] := by
  unfold installed
  rw [List.filterMap_eq_nil_iff.mpr noEntry]
  rfl

theorem writable_eagerFlags (isWriteable isExecutable : Bool) :
    writable (pteFlags (eagerFlags isWriteable isExecutable)) = true := by
  cases isWriteable <;> cases isExecutable <;> decide

theorem executable_eagerFlags (isWriteable isExecutable : Bool) :
    executable (pteFlags (eagerFlags isWriteable isExecutable)) = isExecutable := by
  cases isWriteable <;> cases isExecutable <;> decide

theorem executable_lazyFlags (isWriteable : Bool) :
    executable (pteFlags (lazyFlags isWriteable)) = true := by
  cases isWriteable <;> decide

/-! ### One step -/

/-- An allocation installs entries that follow its region exactly if the region
is writeable whenever a page is mapped. -/
theorem entriesFollowRegion_allocateMemory (state : KernelState) (tokenId size : U64)
    (isWriteable isExecutable : Bool) (phys : U64) (succeeds : Nat → Bool) :
    EntriesFollowRegion state
        ⟨.allocateMemory tokenId size isWriteable isExecutable phys, succeeds⟩ ↔
      Spared state ⟨.allocateMemory tokenId size isWriteable isExecutable phys, succeeds⟩ := by
  simp only [EntriesFollowRegion, Spared, KernelState.requests]
  rcases state.allocateMemory_cases tokenId size isWriteable isExecutable phys with
    ⟨refused, _, silent⟩ | ⟨ref, known, notBoth, backed, reply⟩
  · have nothing : installed
        (state.allocateMemory tokenId size isWriteable isExecutable phys).ffi succeeds = [] := by
      refine installed_eq_nil (fun call member => ?_) succeeds
      rw [silent call member]
      rfl
    rw [nothing]
    refine iff_of_true (fun _ _ _ impossible => absurd impossible List.not_mem_nil) ?_
    intro listed notBoth backed
    rcases refused with absent | both | exhausted
    · rw [← TreeMap.isSome_getElem?_iff_mem, absent] at listed
      cases listed
    · exact absurd (notBoth.symm.trans both) Bool.false_ne_true
    · exact absurd exhausted backed
  · have region : state.mappedRegion (.allocateMemory tokenId size isWriteable isExecutable phys) =
        some ((state.token ref).eagerVma size isWriteable isExecutable phys) := by
      simp only [KernelState.mappedRegion, KernelState.after, known, reply, Option.bind_eq_bind,
        Option.bind_some, KernelState.token_setToken_self]
      exact TreeMap.getElem?_insert_self
    rw [region, reply]
    have listed : tokenId ∈ state.tokens := by
      rw [← TreeMap.isSome_getElem?_iff_mem, known]
      rfl
    simp only [Option.mem_def, Option.some.injEq, forall_eq', mem_installed_mapPages, listed,
      notBoth, backed, ne_eq, not_false_eq_true, forall_const]
    constructor
    · rintro follows ⟨i, below, success⟩
      refine (follows _ ⟨i, below, success, rfl⟩).1 ?_
      rw [writable_leafEntry, writable_eagerFlags]
    · rintro writeable _ ⟨i, below, success, rfl⟩
      rw [writable_leafEntry, executable_leafEntry, executable_eagerFlags]
      exact ⟨fun _ => writeable ⟨i, below, success⟩, fun granted => granted⟩

/-- A page fault in a region that is not executable installs entries that follow
the region exactly if it installs none. -/
theorem entriesFollowRegion_handlePageFault {state : KernelState}
    (unbacked : UnbackedNotExecutable state) (faultAddr : U64) (errorCode : U32) (phys : U64)
    (succeeds : Nat → Bool) :
    EntriesFollowRegion state ⟨.handlePageFault faultAddr errorCode phys, succeeds⟩ ↔
      Spared state ⟨.handlePageFault faultAddr errorCode phys, succeeds⟩ := by
  simp only [EntriesFollowRegion, Spared, KernelState.requests]
  rcases state.handlePageFault_cases faultAddr errorCode phys with
    ⟨refused, _, silent⟩ | ⟨ref, start, vma, found, empty, backed, reply⟩
  · have nothing :
        installed (state.handlePageFault faultAddr errorCode phys).ffi succeeds = [] := by
      refine installed_eq_nil (fun call member => ?_) succeeds
      obtain ⟨pages, request⟩ := silent call member
      rw [request]
      rfl
    rw [nothing]
    refine iff_of_true (fun _ _ _ impossible => absurd impossible List.not_mem_nil) ?_
    intro region found empty backed
    exact absurd (refused region found empty) backed
  · have region : state.mappedRegion (.handlePageFault faultAddr errorCode phys) =
        some { vma with physPtr := phys } := by
      simp only [KernelState.mappedRegion, KernelState.after, found, reply, Option.bind_eq_bind,
        Option.bind_some, KernelState.token_setToken_self]
      exact TreeMap.getElem?_insert_self
    rw [region, reply]
    have notExecutable := unbacked ref start vma (KernelState.vma_of_faultVma found) empty
    simp only [Option.mem_def, Option.some.injEq, forall_eq', mem_installed_mapPages, found,
      empty, backed, notExecutable, ne_eq, not_false_eq_true, forall_const]
    constructor
    · rintro follows ⟨i, below, success⟩
      refine absurd ((follows _ ⟨i, below, success, rfl⟩).2 ?_) Bool.false_ne_true
      rw [executable_leafEntry, executable_lazyFlags]
    · rintro none _ ⟨i, below, success, _⟩
      exact absurd ⟨i, below, success⟩ none

/-- A region entered in a token keeps unbacked regions from being executable if
it is backed or not executable. -/
theorem UnbackedNotExecutable.setToken {state : KernelState}
    (unbacked : UnbackedNotExecutable state)
    {ref : Ref} {token : Token} {start : U64} {vma : Vma}
    (entered : token.vmas = (state.token ref).vmas.insert start vma)
    (fine : vma.physPtr = 0 → vma.isExecutable = false) :
    UnbackedNotExecutable (state.setToken ref token) := by
  intro other key found lookup
  by_cases same : other = ref
  · subst same
    rw [KernelState.token_setToken_self, entered, TreeMap.getElem?_insert] at lookup
    split_ifs at lookup
    · cases lookup
      exact fine
    · exact unbacked other key found lookup
  · rw [state.token_setToken_of_ne same] at lookup
    exact unbacked other key found lookup

theorem UnbackedNotExecutable.step {state : KernelState} (unbacked : UnbackedNotExecutable state)
    {answered : AnsweredCall} (allocating : answered.Allocating) :
    UnbackedNotExecutable (pager.step state answered) := by
  obtain ⟨call, succeeds⟩ := answered
  cases call with
  | memAlloc tokenId reqCap size vaddr =>
      change UnbackedNotExecutable (state.memAlloc tokenId reqCap size vaddr).state
      rcases state.memAlloc_cases tokenId reqCap size vaddr with same | ⟨ref, _, _, next⟩
      · rw [same]
        exact unbacked
      · rw [next]
        exact unbacked.setToken rfl fun _ => rfl
  | allocateMemory tokenId size isWriteable isExecutable phys =>
      change UnbackedNotExecutable
        (state.allocateMemory tokenId size isWriteable isExecutable phys).state
      rcases state.allocateMemory_cases tokenId size isWriteable isExecutable phys with
        ⟨_, same, _⟩ | ⟨ref, _, _, backed, reply⟩
      · rw [same]
        exact unbacked
      · rw [reply]
        exact unbacked.setToken rfl fun empty => absurd empty backed
  | handlePageFault faultAddr errorCode phys =>
      change UnbackedNotExecutable (state.handlePageFault faultAddr errorCode phys).state
      rcases state.handlePageFault_cases faultAddr errorCode phys with
        ⟨_, same, _⟩ | ⟨ref, start, vma, _, _, backed, reply⟩
      · rw [same]
        exact unbacked
      · rw [reply]
        exact unbacked.setToken rfl fun empty => absurd empty backed
  | _ => exact allocating.elim

/-- **When entries follow their regions.** From a state whose tokens have no
regions, the entries installed by a run of allocations and page faults grant no
more than their regions exactly if no eager allocation maps a page of a region
that is not writeable and no page fault maps a page. -/
theorem entries_follow_regions_iff (start : KernelState)
    (fresh : ∀ ref, (start.token ref).vmas.isEmpty = true) (calls : List AnsweredCall)
    (allocating : ∀ answered ∈ calls, answered.Allocating) :
    pager.Along EntriesFollowRegion start calls ↔ pager.Along Spared start calls := by
  refine System.along_congr UnbackedNotExecutable
    (fun _ _ unbacked allocating => unbacked.step allocating) ?_ ?_
    (System.along_of_forall fun answered member _ => allocating answered member)
  · rintro state ⟨call, succeeds⟩ unbacked allocating
    cases call with
    | memAlloc _ _ _ _ =>
        exact iff_of_true (fun _ impossible => absurd impossible (Option.not_mem_none _)) trivial
    | allocateMemory tokenId size isWriteable isExecutable phys =>
        exact entriesFollowRegion_allocateMemory state tokenId size isWriteable isExecutable phys
          succeeds
    | handlePageFault faultAddr errorCode phys =>
        exact entriesFollowRegion_handlePageFault unbacked faultAddr errorCode phys succeeds
    | _ => exact allocating.elim
  · intro ref key vma lookup
    rw [TreeMap.getElem?_of_isEmpty (fresh ref)] at lookup
    cases lookup

/-- A writeable region is mapped, another is registered, and the page fault in
it finds no memory. -/
theorem entries_follow_regions_iff_writeable : pager.Along EntriesFollowRegion populated
    [⟨.allocateMemory 97 8192 true false 0x10_0000, fun _ => true⟩,
      ⟨.memAlloc 1 .memAlloc 4096 0x8000_0000, fun _ => true⟩,
      ⟨.handlePageFault 0x8000_0000 0 0, fun _ => true⟩] :=
  (entries_follow_regions_iff populated KernelState.vmas_populated _
    (by simp [AnsweredCall.Allocating])).mpr
    ⟨fun _ _ _ _ => rfl, trivial, fun _ _ _ backed => absurd rfl backed, trivial⟩

/-- An executable region gets a page that is also writable. -/
theorem maps_executable_region_writable : ¬ pager.Along EntriesFollowRegion populated
    [⟨.allocateMemory 97 4096 false true 0x10_0000, fun _ => true⟩] := by
  decide +kernel

-- a page fault backs a writeable region with a page that is also executable
example : ¬ pager.Along EntriesFollowRegion (kernel.run .boot [.runProcess 1 100, .kernelTick none])
    [⟨.memAlloc 1 .memAlloc 4096 0x8000_0000, fun _ => true⟩,
      ⟨.handlePageFault 0x8000_0010 2 0x10_0000, fun _ => true⟩] := by
  decide +kernel

end Lofita.Kernel
