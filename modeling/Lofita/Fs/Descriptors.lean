import Lofita.Foundation.Run
import Lofita.Fs.Vfs

/-! # Descriptors

A call changes no descriptor but the one it names or creates, and nothing when it fails
(`descriptors_isolated`). Numbers are handed out by one counter of 32 bits that is never
checked: they are fresh exactly as long as it has not come around (`fresh_iff_opens`).
-/

namespace Lofita.Fs

open Lofita.Foundation Std

namespace VfsState

variable {vfs : VfsState} {sessionId session : U64} {number fd : U32}

/-! ### One descriptor -/

/-- At first nothing is open. -/
theorem descriptor_new (sessionId : U64) (fd : U32) : new.descriptor sessionId fd = none := rfl

/-- The open files after one session's table has been replaced. -/
theorem descriptor_insert (vfs : VfsState) (sessionId : U64) (table : TreeMap U32 FileDescriptor)
    (session : U64) (fd : U32) :
    descriptor { vfs with fdTables := vfs.fdTables.insert sessionId table } session fd =
      if session = sessionId then table[fd]? else vfs.descriptor session fd := by
  unfold descriptor VfsState.table
  simp only [TreeMap.getD_insert, Std.compare_eq_iff_eq, @eq_comm _ session]
  split <;> rfl

/-- A descriptor entered is the only one that differs. -/
theorem descriptor_setDescriptor (vfs : VfsState) (sessionId : U64) (number : U32)
    (desc : FileDescriptor) (session : U64) (fd : U32) :
    (vfs.setDescriptor sessionId number desc).descriptor session fd =
      if session = sessionId ∧ fd = number then some desc else vfs.descriptor session fd := by
  refine (vfs.descriptor_insert sessionId _ session fd).trans ?_
  by_cases same : session = sessionId
  · subst same
    simp only [↓reduceIte, true_and, TreeMap.getElem?_insert, Std.compare_eq_iff_eq, @eq_comm _ fd]
    rfl
  · rw [if_neg same, if_neg fun both => same both.1]

/-- The tables say what is open. -/
theorem descriptor_congr {other : VfsState} (same : other.fdTables = vfs.fdTables) (session : U64)
    (fd : U32) : other.descriptor session fd = vfs.descriptor session fd := by
  unfold descriptor table
  rw [same]

/-- Closing removes the descriptor named, if there is one, and no other. -/
theorem descriptor_close (vfs : VfsState) (sessionId : U64) (number : U32) (session : U64)
    (fd : U32) :
    (vfs.close sessionId number).2.descriptor session fd =
      if session = sessionId ∧ fd = number then none else vfs.descriptor session fd := by
  have kept (missing : vfs.descriptor sessionId number = none) :
      vfs.descriptor session fd =
        if session = sessionId ∧ fd = number then none else vfs.descriptor session fd := by
    split
    · next named => rw [named.1, named.2, missing]
    · rfl
  unfold close
  split
  · next absent =>
      refine kept ?_
      unfold descriptor table
      rw [TreeMap.getD_eq_getD_getElem?, absent]
      rfl
  · next table found =>
      have tableIs : vfs.table sessionId = table := by
        unfold VfsState.table
        rw [TreeMap.getD_eq_getD_getElem?, found, Option.getD_some]
      split
      · refine (vfs.descriptor_insert sessionId _ session fd).trans ?_
        by_cases same : session = sessionId
        · subst same
          simp only [↓reduceIte, true_and, TreeMap.getElem?_erase, Std.compare_eq_iff_eq,
            @eq_comm _ fd, descriptor, tableIs]
        · rw [if_neg same, if_neg fun both => same both.1]
      · next missing =>
          refine kept ?_
          unfold descriptor
          rw [tableIs]
          exact TreeMap.getElem?_eq_none missing

/-- Closing fails and changes nothing, or succeeds. -/
theorem close_outcome (vfs : VfsState) (sessionId : U64) (number : U32) :
    (∃ error, vfs.close sessionId number = (.error error, vfs)) ∨
      ∃ closed, vfs.close sessionId number = (.ok (), closed) := by
  unfold close
  split
  · exact .inl ⟨_, rfl⟩
  · split
    · exact .inr ⟨_, rfl⟩
    · exact .inl ⟨_, rfl⟩

/-! ### Calls -/

/-- A call on the files, for some session. -/
inductive FileCall where
  | openFile (path : String) (isWrite : Bool)
  | close (fd : U32)
  | read (fd : U32) (size : U64)
  | write (fd : U32) (data : List U8)

inductive FileReply where
  | opened (fd : U32)
  | closed
  | data (bytes : List U8)
  | written (count : U64)

/-- The descriptor a call names. -/
def FileCall.named : FileCall → Option U32
  | .openFile _ _ => none
  | .close fd => some fd
  | .read fd _ => some fd
  | .write fd _ => some fd

/-- A call on the open files of a session. -/
def perform (vfs : VfsState) (fuel : Nat) (dm : DriverManager) (sessionId : U64) :
    FileCall → Checked (Except String FileReply × VfsState)
  | .openFile path isWrite =>
      let (result, after) := vfs.openFile sessionId path isWrite
      return (.opened <$> result, after)
  | .close fd =>
      let (result, after) := vfs.close sessionId fd
      return ((fun _ => .closed) <$> result, after)
  | .read fd size => do
      let (result, after) ← vfs.read fuel dm sessionId fd size
      return (.data <$> result, after)
  | .write fd data => do
      let (result, after) ← vfs.write dm sessionId fd data
      return (.written <$> result, after)

variable {fuel : Nat} {dm : DriverManager} {after : VfsState}

/-- A call that fails leaves everything as it is, and one that succeeds replaces one
descriptor: the one it names, or the next number if it names none. -/
theorem perform_outcome {call : FileCall} {reply : Except String FileReply}
    (done : vfs.perform fuel dm sessionId call = .ok (reply, after)) :
    (∃ error, reply = .error error ∧ after = vfs) ∨
      (call.named = none ∧ reply = .ok (.opened vfs.nextFd) ∧
        ∀ session fd, session = sessionId ∧ fd = vfs.nextFd ∨
          after.descriptor session fd = vfs.descriptor session fd) ∨
      ∃ number answer, call.named = some number ∧ reply = .ok answer ∧
        (∀ fd, answer ≠ .opened fd) ∧
        ∀ session fd, session = sessionId ∧ fd = number ∨
          after.descriptor session fd = vfs.descriptor session fd := by
  have entered {number : U32} {desc : FileDescriptor} {written : VfsState}
      (same : written.fdTables = vfs.fdTables) (session : U64) (fd : U32) :
      session = sessionId ∧ fd = number ∨
        (written.setDescriptor sessionId number desc).descriptor session fd =
          vfs.descriptor session fd := by
    refine or_iff_not_imp_left.mpr fun other => ?_
    rw [descriptor_setDescriptor, if_neg other, descriptor_congr same]
  cases call with
  | openFile path isWrite =>
      by_cases accepted : vfs.Accepts path isWrite
      · obtain ⟨created, same, _, opens⟩ := openFile_of_accepts sessionId accepted
        simp only [perform, opens] at done
        cases done
        exact .inr (.inl ⟨rfl, rfl, entered same⟩)
      · obtain ⟨error, fails⟩ := openFile_of_not_accepts sessionId accepted
        simp only [perform, fails] at done
        cases done
        exact .inl ⟨error, rfl, rfl⟩
  | close number =>
      rcases vfs.close_outcome sessionId number with ⟨error, fails⟩ | ⟨closed, closes⟩
      · simp only [perform, fails] at done
        cases done
        exact .inl ⟨error, rfl, rfl⟩
      · simp only [perform, closes] at done
        cases done
        refine .inr (.inr ⟨number, _, rfl, rfl, fun _ opened => (by cases opened), ?_⟩)
        intro session fd
        have left := vfs.descriptor_close sessionId number session fd
        rw [closes] at left
        exact or_iff_not_imp_left.mpr fun other => left.trans (if_neg other)
  | read number size =>
      obtain ⟨⟨result, left⟩, answer, done⟩ := Outcome.ok_bind.mp done
      cases done
      rcases read_outcome answer with ⟨error, rfl, same⟩ | ⟨data, desc, rfl, rfl⟩
      · exact .inl ⟨error, rfl, same⟩
      · exact .inr (.inr ⟨number, _, rfl, rfl, fun _ opened => (by cases opened), entered rfl⟩)
  | write number data =>
      obtain ⟨⟨result, left⟩, answer, done⟩ := Outcome.ok_bind.mp done
      cases done
      rcases write_outcome answer with ⟨error, rfl, same⟩ | ⟨count, desc, written, rfl, same, rfl⟩
      · exact .inl ⟨error, rfl, same⟩
      · exact .inr (.inr ⟨number, _, rfl, rfl, fun _ opened => (by cases opened), entered same⟩)

/-- **Descriptors are isolated and errors atomic.** While every descriptor has a number
below the next one, a call of a session changes no descriptor of another session, and none
of its own but the one it names or creates; the one created is none that was there; and a
call that fails changes nothing. -/
theorem descriptors_isolated {call : FileCall} {reply : Except String FileReply}
    (below : ∀ session fd, vfs.descriptor session fd ≠ none → fd < vfs.nextFd)
    (done : vfs.perform fuel dm sessionId call = .ok (reply, after)) :
    (∀ session fd, session = sessionId ∧ (call.named = some fd ∨ reply = .ok (.opened fd)) ∨
        after.descriptor session fd = vfs.descriptor session fd) ∧
      (∀ fd, reply = .ok (.opened fd) → ∀ session, vfs.descriptor session fd = none) ∧
      ∀ error, reply = .error error → after = vfs := by
  rcases perform_outcome done with ⟨error, rfl, rfl⟩ | ⟨_, rfl, kept⟩ |
    ⟨number, answer, named, rfl, old, kept⟩
  · exact ⟨fun _ _ => .inr rfl, fun _ opened => (by cases opened), fun _ _ => rfl⟩
  · refine ⟨fun session fd => ?_, ?_, fun _ failed => (by cases failed)⟩
    · exact (kept session fd).imp_left fun ⟨own, next⟩ => ⟨own, .inr (by rw [next])⟩
    · rintro _ ⟨⟩ session
      by_contra present
      exact BitVec.lt_irrefl _ (below session _ present)
  · refine ⟨fun session fd => ?_, fun fd opened => ?_, fun _ failed => (by cases failed)⟩
    · exact (kept session fd).imp_left fun ⟨own, here⟩ => ⟨own, .inl (by rw [named, here])⟩
    · exact absurd (Except.ok.inj opened) (old fd)

/-- Descriptor 3 of session 1 and descriptor 4 of session 2. -/
def twoOpen : VfsState :=
  { (new.setDescriptor 1 3 { fd := 3, path := "/dev/null", isWriteable := false, offset := 0 })
      |>.setDescriptor 2 4 { fd := 4, path := "/dev/fb0", isWriteable := true, offset := 0 } with
    nextFd := 5 }

theorem descriptors_isolated_twoOpen :
    ∃ reply after, twoOpen.perform 0 { drivers := ∅ } 1 (.close 3) = .ok (reply, after) ∧
      (∀ session fd, session = 1 ∧ ((FileCall.close 3).named = some fd ∨ reply = .ok (.opened fd)) ∨
        after.descriptor session fd = twoOpen.descriptor session fd) ∧
      (∀ fd, reply = .ok (.opened fd) → ∀ session, twoOpen.descriptor session fd = none) ∧
      ∀ error, reply = .error error → after = twoOpen := by
  obtain ⟨reply, after, done⟩ : ∃ reply after,
      twoOpen.perform 0 { drivers := ∅ } 1 (.close 3) = .ok (reply, after) := ⟨_, _, rfl⟩
  refine ⟨reply, after, done, descriptors_isolated (fun session fd present => ?_) done⟩
  rw [show twoOpen.descriptor session fd = _ from descriptor_setDescriptor _ 2 4 _ session fd,
    descriptor_setDescriptor] at present
  split at present
  · next here =>
      rw [here.2]
      decide
  · split at present
    · next here =>
        rw [here.2]
        decide
    · exact absurd (descriptor_new session fd) present

/-! ### Runs of open and close -/

/-- Opening and closing, the calls that change which numbers are in use. -/
inductive DescriptorCall where
  | openFile (sessionId : U64) (path : String) (isWrite : Bool)
  | close (sessionId : U64) (fd : U32)

/-- The open files under these calls. -/
def descriptors : System VfsState DescriptorCall where
  step vfs
    | .openFile sessionId path isWrite => (vfs.openFile sessionId path isWrite).2
    | .close sessionId fd => (vfs.close sessionId fd).2

/-- A descriptor that a call opens is not a standard one, and no session has it open. -/
def Fresh (vfs : VfsState) : DescriptorCall → Prop
  | .openFile sessionId path isWrite => ∀ fd,
      (vfs.openFile sessionId path isWrite).1 = .ok fd →
        3 ≤ fd ∧ ∀ session, vfs.descriptor session fd = none
  | .close _ _ => True

/-- The call opens a path. -/
def Opens (vfs : VfsState) : DescriptorCall → Prop
  | .openFile _ path isWrite => vfs.Accepts path isWrite
  | .close _ _ => False

instance (vfs : VfsState) : ∀ call, Decidable (vfs.Opens call)
  | .openFile _ path isWrite => inferInstanceAs (Decidable (vfs.Accepts path isWrite))
  | .close _ _ => inferInstanceAs (Decidable False)

/-- The number of opens that succeed in a run. -/
def opens : VfsState → List DescriptorCall → Nat
  | _, [] => 0
  | vfs, call :: rest => (if vfs.Opens call then 1 else 0) + opens (descriptors.step vfs call) rest

/-- The counter after a number of opens, and all descriptors below it. -/
structure Counted (count : Nat) (vfs : VfsState) : Prop where
  next : vfs.nextFd = BitVec.ofNat 32 (3 + count)
  below : ∀ session fd, vfs.descriptor session fd ≠ none → fd.toNat < 3 + count

variable {count : Nat} {call : DescriptorCall}

/-- At first nothing is counted. -/
theorem counted_new : new.Counted 0 := ⟨rfl, fun session fd present =>
  absurd (descriptor_new session fd) present⟩

/-- A call that opens nothing uses no number. -/
theorem Counted.step_of_not_opens (counted : vfs.Counted count) (refused : ¬ vfs.Opens call) :
    (descriptors.step vfs call).Counted count := by
  cases call with
  | openFile sessionId path isWrite =>
      obtain ⟨error, fails⟩ := openFile_of_not_accepts sessionId refused
      simp only [descriptors, fails]
      exact counted
  | close sessionId number =>
      refine ⟨?_, fun session fd present => counted.below session fd fun absent => ?_⟩
      · refine Eq.trans ?_ counted.next
        simp only [descriptors, close]
        split
        · rfl
        · split <;> rfl
      · refine present ((vfs.descriptor_close sessionId number session fd).trans ?_)
        rw [absent, ite_self]

/-- A call that opens a file uses the next number. -/
theorem Counted.step_of_opens (counted : vfs.Counted count) (small : count < 2 ^ 32 - 3)
    (accepted : vfs.Opens call) : (descriptors.step vfs call).Counted (count + 1) := by
  cases call with
  | openFile sessionId path isWrite =>
      obtain ⟨created, same, _, opens⟩ := openFile_of_accepts sessionId accepted
      simp only [descriptors, opens]
      refine ⟨?_, fun session fd present => ?_⟩
      · change vfs.nextFd + 1 = _
        rw [counted.next]
        exact (BitVec.ofNat_add _ _).symm
      · rw [show descriptor { created.setDescriptor sessionId vfs.nextFd _ with
          nextFd := vfs.nextFd + 1 } session fd = _ from
            descriptor_setDescriptor created sessionId vfs.nextFd _ session fd] at present
        split at present
        · next here =>
            rw [here.2, counted.next, BitVec.toNat_ofNat]
            omega
        · rw [descriptor_congr same] at present
          have := counted.below session fd present
          omega
  | close _ _ => exact accepted.elim

/-- Where nothing is opened there is nothing to show. -/
theorem fresh_of_not_opens (refused : ¬ vfs.Opens call) : vfs.Fresh call := by
  cases call with
  | openFile sessionId path isWrite =>
      intro fd opened
      obtain ⟨error, fails⟩ := openFile_of_not_accepts sessionId refused
      rw [fails] at opened
      cases opened
  | close _ _ => trivial

/-- As long as the counter has not come around, what is opened is fresh. -/
theorem Counted.fresh (counted : vfs.Counted count) (small : count < 2 ^ 32 - 3)
    (accepted : vfs.Opens call) : vfs.Fresh call := by
  cases call with
  | openFile sessionId path isWrite =>
      intro fd opened
      obtain ⟨created, _, _, opens⟩ := openFile_of_accepts sessionId accepted
      rw [opens] at opened
      cases opened
      have next : vfs.nextFd.toNat = 3 + count := by
        rw [counted.next, BitVec.toNat_ofNat, Nat.mod_eq_of_lt (by omega)]
      constructor
      · rw [BitVec.le_def, next]
        exact Nat.le_add_right 3 count
      · intro session
        by_contra present
        exact absurd (counted.below session _ present) (by omega)
  | close _ _ => exact accepted.elim

/-- When the counter has come around, the next descriptor is 0. -/
theorem Counted.not_fresh (counted : vfs.Counted (2 ^ 32 - 3)) (accepted : vfs.Opens call) :
    ¬ vfs.Fresh call := by
  cases call with
  | openFile sessionId path isWrite =>
      intro fresh
      obtain ⟨created, _, _, opens⟩ := openFile_of_accepts sessionId accepted
      have standard := (fresh vfs.nextFd (by rw [opens])).1
      rw [counted.next] at standard
      exact absurd standard (by decide)
  | close _ _ => exact accepted.elim

/-- After some opens, a run opens fresh descriptors exactly if not more than `2 ^ 32 - 3`
are opened in all. -/
theorem Counted.fresh_iff (counted : vfs.Counted count) (small : count ≤ 2 ^ 32 - 3)
    (calls : List DescriptorCall) :
    descriptors.Along Fresh vfs calls ↔ count + opens vfs calls ≤ 2 ^ 32 - 3 := by
  induction calls generalizing vfs count with
  | nil => exact iff_of_true trivial small
  | cons call rest ih =>
      simp only [System.Along, opens]
      by_cases accepted : vfs.Opens call
      · rw [if_pos accepted, ← Nat.add_assoc]
        rcases Nat.lt_or_eq_of_le small with room | full
        · rw [← ih (counted.step_of_opens room accepted) room]
          exact and_iff_right (counted.fresh room accepted)
        · subst full
          refine iff_of_false (fun fresh => counted.not_fresh accepted fresh.1) ?_
          omega
      · rw [if_neg accepted, Nat.zero_add, ← ih (counted.step_of_not_opens accepted) small]
        exact and_iff_right (fresh_of_not_opens accepted)

/-- **When descriptors are fresh.** In a run of open and close from the start, no
descriptor that is opened is 0, 1, 2 or one that some session has open, exactly if at most
`2 ^ 32 - 3` of the opens succeed. -/
theorem fresh_iff_opens (calls : List DescriptorCall) :
    descriptors.Along Fresh new calls ↔ opens new calls ≤ 2 ^ 32 - 3 := by
  rw [counted_new.fresh_iff (Nat.zero_le _) calls, Nat.zero_add]

/-- Session 1 opens a device and closes it again, a number of times. -/
def reopen : Nat → U32 → List DescriptorCall
  | 0, _ => []
  | count + 1, fd => .openFile 1 "/dev/null" false :: .close 1 fd :: reopen count (fd + 1)

theorem opens_reopen (vfs : VfsState) (count : Nat) (fd : U32) :
    opens vfs (reopen count fd) = count := by
  induction count generalizing vfs fd with
  | zero => rfl
  | succ count ih =>
      have accepted : vfs.Opens (.openFile 1 "/dev/null" false) :=
        ⟨by decide, .inl (by decide)⟩
      have notOpen (vfs : VfsState) : ¬ vfs.Opens (.close 1 fd) := id
      simp only [reopen, opens, if_pos accepted, if_neg (notOpen _), ih]
      omega

/-- While session 2 keeps descriptor 3 open, session 1 gets descriptor 0 in the end. -/
theorem not_fresh_reopen :
    ¬ descriptors.Along Fresh new (.openFile 2 "/dev/null" false :: reopen (2 ^ 32 - 3) 4) := by
  have accepted : new.Opens (.openFile 2 "/dev/null" false) := ⟨by decide, .inl (by decide)⟩
  rw [counted_new.fresh_iff (Nat.zero_le _), opens, if_pos accepted, opens_reopen]
  omega

end VfsState

end Lofita.Fs
