import RustOs.Fs.Agreement
import RustOs.Syscall.Handler

/-!
# Reading back what was written

A process creates a file, writes to it piece by piece, goes back to the start and reads until
there is no more. `AtOffset` says what a descriptor for a file on the RAM disk is good for: the
file has this content and the descriptor stands at this offset. One lemma for each call says how
it moves: `AtOffset.write`, `AtOffset.lseek`, `AtOffset.read_end` and `AtOffset.read_on`.

`sys_write` hands its piece to the RAM disk as the whole content of the file, at any offset and
with or without `O_APPEND`. So what is read back is the last piece (`AtOffset.writeAll`), and
that is all that was written exactly if there was at most one (`readsBack_iff`).
-/

namespace RustOs.Fs.RamDisk

open Lib Nat
open List hiding Vector

/-- A file of this content stands under the path. -/
structure Holds (disk : RamDisk) (path : Str) (data : List UInt8) : Prop where
  name : path ≠ []
  short : (utf8 (normalizePath path)).length ≤ maxFilenameLen
  noDir : disk.hasDir (normalizePath path) = false
  read : disk.readFile path = .ok data

section

variable {disk : RamDisk} {path : Str} {data : List UInt8} {now : Nat}

/-- A write that goes through leaves a file of the content written. -/
lemma writeFile_holds (hok : (writeFile now path data disk).1 = .ok ()) :
    Holds (writeFile now path data disk).2 path data := by
  obtain ⟨A, B, hfiles, hA, hold⟩ := writeFile_ok hok
  unfold writeFile at hok
  split at hok
  next => cases hok
  next hname =>
    split at hok
    next => cases hok
    next file hfile =>
      split at hok
      next => cases hok
      next hdir =>
        refine ⟨hname, ?_, ?_, ?_⟩
        · unfold File.new at hfile
          split at hfile
          next => cases hfile
          next hshort => exact not_lt.mp hshort
        · -- the entries behind the file were there before
          have hB : ∀ f ∈ B, f ∈ disk.files := by
            intro f hf
            rcases hold with ⟨old, -, hl⟩ | ⟨-, hnil⟩
            · rw [hl]
              exact mem_append_right _ (mem_cons_of_mem _ hf)
            · rw [hnil] at hf
              cases hf
          refine hasDir_eq_false.mpr fun f hf heq => ?_
          rw [hfiles] at hf
          rcases mem_append.mp hf with hf | hf
          · exact absurd heq (hA f hf)
          · rcases mem_cons.mp hf with rfl | hf
            · rfl
            · exact hasDir_eq_false.mp (Bool.eq_false_iff.mpr hdir) f (hB f hf) heq
        · have hnone : A.find? (isFile (normalizePath path)) = none := by
            refine find?_eq_none.mpr fun f hf hyes => ?_
            exact hA f hf (isFile_iff.mp hyes).1
          have hfresh : isFile (normalizePath path)
              (File.fresh (normalizePath path) data .regular 0o644 now) = true :=
            isFile_iff.mpr ⟨rfl, rfl⟩
          unfold readFile
          rw [hfiles, find?_append, hnone, find?_cons, hfresh]
          rfl

/-- A file that is there is replaced. -/
lemma Holds.write {old : List UInt8} (h : Holds disk path old) (hfit : data.length ≤ maxFileSize) :
    (writeFile now path data disk).1 = .ok () := by
  have hnew : File.new (normalizePath path) data now =
      .ok (File.fresh (normalizePath path) data .regular 0o644 now) := by
    unfold File.new
    rw [if_neg (not_lt.mpr h.short), if_neg (not_lt.mpr hfit)]
  have hany : disk.files.any (isFile (normalizePath path)) = true := by
    have hread := h.read
    unfold readFile at hread
    split at hread
    next f hf => exact any_eq_true.mpr ⟨f, mem_of_find?_eq_some hf, find?_some hf⟩
    next => cases hread
  unfold writeFile
  rw [if_neg h.name, hnew]
  show (if disk.hasDir (normalizePath path) = true then _ else _ : _ × _).1 = _
  rw [if_neg (Bool.eq_false_iff.mp h.noDir), if_pos hany]

end

end RustOs.Fs.RamDisk

namespace RustOs.Syscall

open Lib Fs Kernel

/-! ## A descriptor for a file on the RAM disk -/

/-- The descriptor is open for a file of this content and stands at this offset. -/
structure AtOffset (k : Kernel) (fd : Nat) (path : Str) (data : List UInt8)
    (offset : Nat) : Prop where
  low : 3 ≤ fd
  unmounted : k.vfs.fat32 = none
  file : ∃ f, k.file fd = some f ∧ f.path = path ∧ f.offset = offset ∧ f.kind = .regular
  holds : k.vfs.ram.Holds path data

namespace Kernel

lemma table_setTable (k : Kernel) (t : FileDescriptorTable) : (k.setTable t).table = t := by
  have howner : (k.setTable t).owner = k.owner := by
    show (k.fds.put t (k.fds.owner k.current)).owner k.current = k.fds.owner k.current
    unfold FdTables.owner
    cases k.current with
    | none => rfl
    | some pid =>
      rw [Option.filter_some, Option.filter_some]
      by_cases hsome : (k.fds.processes.lookup pid).isSome
      · rw [if_pos hsome]
        refine if_pos ?_
        show ((k.fds.processes.insert pid t).lookup pid).isSome
        rw [AList.lookup_insert]
        rfl
      · rw [if_neg hsome]
        exact if_neg hsome
  have hget : (k.setTable t).fds.get (k.setTable t).owner = some t := by
    rw [howner]
    show (k.fds.put t k.owner).get k.owner = some t
    rw [FdTables.get_put, if_pos rfl]
  exact Option.some.inj ((get_table _).symm.trans hget)

/-- A descriptor that has been set. -/
lemma file_setTable {k : Kernel} {fd : Nat} {f : OpenFile} (hfd : fd < maxOpenFiles)
    (hopen : f.isOpen = true) : (k.setTable (k.table.set fd (some f))).file fd = some f := by
  unfold file
  rw [table_setTable, FileDescriptorTable.get_set _ _ hfd, if_pos rfl, Option.filter_some,
    if_pos hopen]

end Kernel

section

variable {k : Kernel} {fd bufPtr offset : Nat} {path : Str} {data : List UInt8}

lemma readPath_ram (hfat : k.vfs.fat32 = none) (path : Str) :
    onVfs (readPath path) k = (k.vfs.ram.readFile path, k) := by
  unfold onVfs readPath
  rw [hfat]

section

variable (h : AtOffset k fd path data offset)
include h

/-- The descriptor moves to another offset. -/
lemma AtOffset.move {f : OpenFile} (hf : k.file fd = some f)
    (offset' : Nat) :
    AtOffset (k.setTable (k.table.set fd (some { f with offset := offset' }))) fd path
      data offset' := by
  obtain ⟨f', hf', hpath, -, hkind⟩ := h.file
  obtain ⟨hget, hopen⟩ := Option.filter_eq_some_iff.mp hf
  rw [hf] at hf'
  cases hf'
  have hfd := FileDescriptorTable.lt_of_get hget
  exact ⟨h.low, h.unmounted, ⟨_, file_setTable hfd hopen, hpath, rfl, hkind⟩, h.holds⟩

/-- A piece that is written becomes the content of the file, and the offset stays. -/
lemma AtOffset.write (hbuf : bufPtr ≠ 0) {piece : List UInt8}
    (hne : piece ≠ []) (hfit : piece.length ≤ maxFileSize) :
    ∃ k', sysWrite fd bufPtr piece k = (.ok piece.length, k') ∧
      AtOffset k' fd path piece offset := by
  obtain ⟨f, hf, hpath, hoff, hkind⟩ := h.file
  have hlow := h.low
  have hlen : piece.length ≠ 0 := fun h0 => hne (List.eq_nil_of_length_eq_zero h0)
  have hok : (RamDisk.writeFile k.vfs.now path piece k.vfs.ram).1 = .ok () := h.holds.write hfit
  have hwrite : onVfs (writePath path piece) k = (.ok (), { k with vfs :=
      { k.vfs with ram := (RamDisk.writeFile k.vfs.now path piece k.vfs.ram).2 } }) := by
    show (_, _) = _
    rw [← hok]
    rfl
  refine ⟨{ k with vfs :=
      { k.vfs with ram := (RamDisk.writeFile k.vfs.now path piece k.vfs.ram).2 } }, ?_,
    ⟨hlow, h.unmounted, ⟨f, hf, hpath, hoff, hkind⟩, RamDisk.writeFile_holds hok⟩⟩
  unfold sysWrite
  rw [if_neg (by omega), hf]
  dsimp only
  rw [if_neg (by omega), hkind]
  unfold writeRegular
  rw [hpath, hwrite]

/-- Back to the start. -/
lemma AtOffset.lseek : ∃ k', sysLseek fd 0 0 k = (.ok 0, k') ∧ AtOffset k' fd path data 0 := by
  obtain ⟨f, hf, hpath, -, -⟩ := h.file
  have hlow := h.low
  refine ⟨_, ?_, h.move hf 0⟩
  unfold sysLseek
  rw [if_neg (by omega), hf]
  dsimp only
  rw [readPath_ram h.unmounted, hpath, h.holds.read]
  dsimp only
  unfold FileDescriptorTable.lseek
  rw [get_of_file hf]
  dsimp only
  rw [if_neg (Int.lt_irrefl 0), hpath]
  rfl

/-- At the end there is nothing to read. -/
lemma AtOffset.read_end (hbuf : bufPtr ≠ 0) {count : Nat}
    (hcount : 0 < count) (hend : data.length ≤ offset) :
    sysRead fd bufPtr count k = (.ok (0, []), k) := by
  obtain ⟨f, hf, hpath, hoff, hkind⟩ := h.file
  have hlow := h.low
  unfold sysRead
  rw [if_neg (by omega), hf]
  dsimp only
  rw [if_neg (by omega), hkind]
  unfold readRegular
  rw [hpath, readPath_ram h.unmounted, h.holds.read, hoff]
  exact if_pos (by omega)

/-- Before it, what is read is what stands at the offset. -/
lemma AtOffset.read_on (hbuf : bufPtr ≠ 0) {count : Nat}
    (hcount : 0 < count) (hmore : offset < data.length) :
    ∃ n k', 0 < n ∧ offset + n ≤ data.length ∧
      sysRead fd bufPtr count k = (.ok ((n : Int), slice data offset n), k') ∧
      AtOffset k' fd path data (offset + n) := by
  obtain ⟨f, hf, hpath, hoff, hkind⟩ := h.file
  have hlow := h.low
  have hn : min count (data.length - offset) ≠ 0 := by omega
  refine ⟨min count (data.length - offset), _, by omega, by omega, ?_, h.move hf _⟩
  unfold sysRead
  rw [if_neg (by omega), hf]
  dsimp only
  rw [if_neg (by omega)]
  split
  next hk => exact nomatch hkind.symm.trans hk
  next hk => exact nomatch hkind.symm.trans hk
  next =>
    unfold readRegular
    rw [hpath, readPath_ram h.unmounted, h.holds.read, hoff]
    exact if_neg hn

end

end

/-! ## Writing and reading piece by piece -/

/-- Write one piece after the other; each call has to answer with the length of its piece. -/
def writeAll (fd bufPtr : Nat) : List (List UInt8) → Kernel → Option Kernel
  | [], k => some k
  | piece :: pieces, k =>
    match sysWrite fd bufPtr piece k with
    | (.ok n, k) => if n = piece.length then writeAll fd bufPtr pieces k else none
    | _ => none

/-- Read, each time with the next of these counts, until the answer is 0. -/
def readUntilEnd (fd bufPtr : Nat) (counts : Nat → Nat) : Nat → Nat → Kernel → Option (List UInt8)
  | 0, _, _ => none
  | fuel + 1, i, k =>
    match sysRead fd bufPtr (counts i) k with
    | (.ok (n, bytes), k) =>
      if n = 0 then some []
      else if n < 0 then none
      else (readUntilEnd fd bufPtr counts fuel (i + 1) k).map (bytes ++ ·)
    | _ => none

section

variable {k : Kernel} {fd bufPtr : Nat} {path : Str}

/-- Only the last piece is left. -/
lemma AtOffset.writeAll (hbuf : bufPtr ≠ 0) (pieces : List (List UInt8))
    (hne : ∀ piece ∈ pieces, piece ≠ []) (hfit : ∀ piece ∈ pieces, piece.length ≤ maxFileSize) :
    ∀ {k : Kernel} {data : List UInt8} {offset : Nat}, AtOffset k fd path data offset →
      ∃ k', Syscall.writeAll fd bufPtr pieces k = some k' ∧
        AtOffset k' fd path (pieces.getLast?.getD data) offset := by
  induction pieces with
  | nil =>
    intro k data offset h
    exact ⟨k, rfl, h⟩
  | cons piece pieces ih =>
    intro k data offset h
    obtain ⟨k₁, hwrite, h₁⟩ := h.write hbuf (hne piece List.mem_cons_self)
      (hfit piece List.mem_cons_self)
    obtain ⟨k₂, hall, h₂⟩ := ih (fun p hp => hne p (List.mem_cons_of_mem _ hp))
      (fun p hp => hfit p (List.mem_cons_of_mem _ hp)) h₁
    refine ⟨k₂, ?_, ?_⟩
    · unfold Syscall.writeAll
      rw [hwrite]
      exact (if_pos rfl).trans hall
    · rw [List.getLast?_cons]
      exact h₂

/-- Reading goes on to the end of the file, whatever the counts are. -/
lemma AtOffset.readUntilEnd (hbuf : bufPtr ≠ 0) {counts : Nat → Nat} (hcounts : ∀ i, 0 < counts i)
    {data : List UInt8} :
    ∀ (fuel i offset : Nat) {k : Kernel}, AtOffset k fd path data offset →
      data.length - offset < fuel →
      Syscall.readUntilEnd fd bufPtr counts fuel i k = some (data.drop offset) := by
  -- each read that does not end it leaves less to read than there is fuel
  intro fuel
  induction fuel with
  | zero =>
    intro i offset k _ hfuel
    exact absurd hfuel (Nat.not_lt_zero _)
  | succ fuel ih =>
    intro i offset k h hfuel
    unfold Syscall.readUntilEnd
    by_cases hend : data.length ≤ offset
    · rw [h.read_end hbuf (hcounts i) hend, List.drop_eq_nil_of_le hend]
      exact if_pos rfl
    · obtain ⟨n, k', hn, hle, hread, h'⟩ := h.read_on hbuf (hcounts i) (not_le.mp hend)
      rw [hread]
      dsimp only
      rw [if_neg (by omega), if_neg (by omega), ih (i + 1) (offset + n) h' (by omega)]
      show some (slice data offset n ++ data.drop (offset + n)) = _
      unfold slice
      rw [← List.drop_drop, List.take_append_drop]

/-- A file that does not exist is created and opened, if there is a descriptor for it. -/
lemma sysOpen_creates {flags : Nat} (hfat : k.vfs.fat32 = none)
    (hnew : k.vfs.ram.fileExists path = false)
    (hok : (RamDisk.writeFile k.vfs.now path [] k.vfs.ram).1 = .ok ())
    (hflags : flags &&& OpenFlags.creat ≠ 0) :
    (k.table.firstFree = none ∧
      ∃ k', sysOpen (some path) flags k = (.ok SyscallError.outOfMemory.asIsize, k')) ∨
    ∃ fd k', k.table.firstFree = some fd ∧ sysOpen (some path) flags k = (.ok (fd : Int), k') ∧
      AtOffset k' fd path [] 0 := by
  have hexists : onVfs (existsPath path) k = (.ok false, k) := by
    unfold onVfs existsPath
    rw [hfat]
    rw [hnew]
  have hopen : sysOpen (some path) flags k =
      (.ok (openFd path flags (onVfs (writePath path []) k).2).1,
        (openFd path flags (onVfs (writePath path []) k).2).2) := by
    unfold sysOpen
    dsimp only
    rw [hexists]
    exact if_neg fun h => hflags h.2
  have hfd : (onVfs (writePath path []) k).2.table.open_ path flags =
      k.table.firstFree.map fun fd => (fd, k.table.set fd (some (.new path flags))) := rfl
  rw [hopen]
  unfold openFd
  rw [hfd]
  cases hfree : k.table.firstFree with
  | none => exact .inl ⟨rfl, _, rfl⟩
  | some fd =>
    obtain ⟨hlow, hhigh, -⟩ := FileDescriptorTable.firstFree_eq_some hfree
    refine .inr ⟨fd, _, rfl, rfl, hlow, hfat, ⟨.new path flags, ?_, rfl, rfl, rfl⟩,
      RamDisk.writeFile_holds hok⟩
    exact file_setTable (k := (onVfs (writePath path []) k).2) hhigh rfl

end

/-- Pieces are written to a new file and read back from the start, with any counts. -/
def ReadsBack (k : Kernel) (path : Str) (flags bufPtr : Nat) (pieces : List (List UInt8)) : Prop :=
  ∀ (fd : Nat) (k₁ k₂ : Kernel), sysOpen (some path) flags k = (.ok (fd : Int), k₁) →
    writeAll fd bufPtr pieces k₁ = some k₂ →
    ∃ k₃, sysLseek fd 0 0 k₂ = (.ok 0, k₃) ∧ ∀ counts : Nat → Nat, (∀ i, 0 < counts i) →
      ∃ enough, ∀ fuel, enough ≤ fuel →
        readUntilEnd fd bufPtr counts fuel 0 k₃ = some pieces.flatten

/-- Pieces that are not empty add up to the last one only if there is no other. -/
lemma flatten_eq_getLast {pieces : List (List UInt8)} (hne : ∀ piece ∈ pieces, piece ≠ []) :
    pieces.getLast?.getD [] = pieces.flatten ↔ pieces.length ≤ 1 := by
  match pieces with
  | [] => exact iff_of_true rfl (Nat.zero_le 1)
  | [piece] => exact iff_of_true (List.append_nil piece).symm (Nat.le_refl 1)
  | first :: second :: rest =>
    refine iff_of_false ?_ fun h => ?_
    · intro heq
      have hlast : (second :: rest).getLast (List.cons_ne_nil _ _) ∈ second :: rest :=
        List.getLast_mem _
      have hfirst := List.length_pos_iff.mpr (hne first List.mem_cons_self)
      have hsub := (List.sublist_flatten_of_mem hlast).length_le
      have hlen := congrArg List.length heq
      rw [List.getLast?_cons, List.getLast?_eq_some_getLast (List.cons_ne_nil second rest),
        Option.getD_some, Option.getD_some, List.flatten_cons, List.length_append] at hlen
      omega
    · rw [List.length_cons, List.length_cons] at h
      omega

/-- A kernel that has just started, with empty disks. -/
def freshKernel : Kernel := ⟨.empty, .new, .init, none, []⟩

/-- What is written to a new file on the RAM disk can be read back exactly if it was written in
one piece, or no descriptor was left to open the file at all. -/
theorem readsBack_iff {k : Kernel} (hfat : k.vfs.fat32 = none) {path : Str}
    (hnew : k.vfs.ram.fileExists path = false)
    (hok : (RamDisk.writeFile k.vfs.now path [] k.vfs.ram).1 = .ok ()) {flags : Nat}
    (hflags : flags = OpenFlags.creat ∨ flags = OpenFlags.creat ||| OpenFlags.append)
    {bufPtr : Nat} (hbuf : bufPtr ≠ 0) {pieces : List (List UInt8)}
    (hne : ∀ piece ∈ pieces, piece ≠ []) (hfit : pieces.flatten.length ≤ maxFileSize) :
    ReadsBack k path flags bufPtr pieces ↔ k.table.firstFree = none ∨ pieces.length ≤ 1 := by
  have hcreat : flags &&& OpenFlags.creat ≠ 0 := by
    rcases hflags with rfl | rfl <;> decide
  have hfits : ∀ piece ∈ pieces, piece.length ≤ maxFileSize := by
    intro piece hpiece
    exact le_trans (List.sublist_flatten_of_mem hpiece).length_le hfit
  rcases sysOpen_creates hfat hnew hok hcreat with ⟨hfull, k₁, hopen⟩ | ⟨fd, k₁, hfree, hopen, h₁⟩
  · refine iff_of_true (fun fd k₁' k₂ hopen' => ?_) (.inl hfull)
    rw [hopen] at hopen'
    have hneg := SyscallError.asIsize_neg .outOfMemory
    injection hopen' with hopen'
    injection hopen' with hopen'
    omega
  · -- every piece replaces the file, so the last one is what can be read
    obtain ⟨k₂, hwrite, h₂⟩ := AtOffset.writeAll hbuf pieces hne hfits h₁
    obtain ⟨k₃, hseek, h₃⟩ := h₂.lseek
    have hread (counts : Nat → Nat) (hcounts : ∀ i, 0 < counts i) (fuel : Nat)
        (hfuel : (pieces.getLast?.getD []).length < fuel) :
        readUntilEnd fd bufPtr counts fuel 0 k₃ = some (pieces.getLast?.getD []) :=
      AtOffset.readUntilEnd hbuf hcounts fuel 0 0 h₃ hfuel
    rw [hfree, ← flatten_eq_getLast hne]
    constructor
    · intro h
      obtain ⟨k₃', hseek', hall⟩ := h fd k₁ k₂ hopen hwrite
      rw [hseek] at hseek'
      cases hseek'
      obtain ⟨enough, hfuel⟩ := hall (fun _ => 1) fun _ => one_pos
      have hflat := hfuel (enough + (pieces.getLast?.getD []).length + 1) (by omega)
      rw [hread (fun _ => 1) (fun _ => one_pos) _ (by omega)] at hflat
      exact .inr (Option.some.inj hflat)
    · intro h fd' k₁' k₂' hopen' hwrite'
      have hlast := h.resolve_left nofun
      rw [hopen] at hopen'
      injection hopen' with hfd hk
      injection hfd with hfd
      cases Int.ofNat.inj hfd
      subst hk
      rw [hwrite] at hwrite'
      cases hwrite'
      refine ⟨k₃, hseek, fun counts hcounts => ⟨(pieces.getLast?.getD []).length + 1, ?_⟩⟩
      intro fuel hfuel
      rw [hread counts hcounts fuel hfuel, hlast]

/-- One piece is read back. -/
theorem readsBack_onePiece : ReadsBack freshKernel ['a'] OpenFlags.creat 1 [[1, 2]] := by
  have hok : (RamDisk.writeFile 0 ['a'] [] freshKernel.vfs.ram).1 = .ok () := by decide
  have hne : ∀ piece ∈ [([1, 2] : List UInt8)], piece ≠ [] := by decide
  have hfit : [([1, 2] : List UInt8)].flatten.length ≤ maxFileSize := by decide
  exact (readsBack_iff rfl rfl hok (.inl rfl) Nat.one_ne_zero hne hfit).mpr (.inr (Nat.le_refl 1))

/-- Of two pieces the second is read back, although the file was opened with `O_APPEND`. -/
theorem two_pieces_lost : ¬ ReadsBack freshKernel ['a'] (OpenFlags.creat ||| OpenFlags.append) 1
    [[1], [2]] := by
  intro h
  have hwrite := Option.some_get (show (writeAll 3 1 [[1], [2]]
    (sysOpen (some ['a']) (OpenFlags.creat ||| OpenFlags.append) freshKernel).2).isSome from rfl)
  obtain ⟨k₃, hseek, hall⟩ := h 3 _ _ rfl hwrite.symm
  obtain ⟨enough, hread⟩ := hall (fun _ => 1) fun _ => one_pos
  cases hseek
  have hread := hread (enough + 2) (Nat.le_add_right ..)
  cases hread

end RustOs.Syscall
