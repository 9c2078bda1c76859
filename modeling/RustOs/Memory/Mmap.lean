import RustOs.Lib.Invariant
import RustOs.Lib.Paging
import RustOs.Lib.Trace
import RustOs.Memory.Frames
import RustOs.Syscall.Basic

/-!
# mmap and munmap

`sys_mmap` and `sys_munmap` of `handler.rs`, on the active page tables and the frame
allocator. The tables are changed by the `x86_64` crate, which is not part of the kernel: its
functions are the parameter `M`, and what is taken for granted about them is `M.Documented`.
The frames that have been given back to the allocator are recorded in `returned`. What is in
the pages is left out, except that the kernel clears them when they are mapped: if they are
read-only and the processor is set to respect that in kernel mode, this write faults.

Neither call looks at what the kernel has mapped. `KernelKept` says what should be so after
every call: a page without USER_ACCESSIBLE stays mapped to its frame, that frame is not given
back, and no page of the kernel heap or of vmalloc becomes accessible. `kernel_kept_run` says
that this is so in every sequence of calls, from every page table, each of which is made in a
state that suits it: `munmap` meets user pages only, whose frames no kernel page has; what
`mmap` is asked to map is mapped already or no page of the kernel ranges, and each page of those
that is closed to user code is so at an entry on no way to what is asked for.
-/

namespace RustOs.Memory

open Lib Lib.Paging Option Outcome Prog List Prod

/-- The active page tables, the frame allocator and `MMAP_BASE`. -/
structure Space where
  tables : Tables
  frames : FrameAllocator
  mmapBase : Nat
  /-- The frames given to `deallocate_frame`, the last one first. -/
  returned : List Nat

/-- `MAP_ANONYMOUS`. -/
def mapAnonymous : Nat := 0x20

/-- `MAP_FIXED`. -/
def mapFixed : Nat := 0x10

/-- `PROT_WRITE`. -/
def protWrite : Nat := 0x2

/-- `length`, rounded up to whole pages. -/
def roundUp (length : Nat) : Outcome SyscallError Nat := do
  let sum ← Outcome.uadd 64 length 4096
  let sum ← Outcome.usub sum 1
  pure (sum / 4096 * 4096)

/-- A call of the crate that may panic. -/
def orPanic {α : Type} : Option α → Outcome SyscallError α
  | some a => .ok a
  | none => .panic

/-! ## `sys_mmap` -/

/-- The arguments of `sys_mmap`, with what the descriptor table and the file system answer
for `fd`. -/
structure MmapArgs where
  addr : Nat
  length : Nat
  prot : Nat
  flags : Nat
  fd : Int
  file : Except SyscallError (List UInt8)

namespace MmapArgs

variable (m : MmapArgs)

/-- The contents of the file behind a mapping. -/
def fileData : Outcome SyscallError (Option (List UInt8)) :=
  if m.flags &&& mapAnonymous = 0 then
    if m.fd < 0 then .err .invalidArgument
    else match m.file with
      | .ok data => .ok (some data)
      | .error e => .err e
  else .ok none

/-- PRESENT, WRITABLE if it is asked for, and USER_ACCESSIBLE. -/
def entry (frame : Nat) : Entry := ⟨frame, m.prot &&& protWrite ≠ 0, true, false⟩

/-- `MMAP_BASE.fetch_add`. -/
def fetchAddBase (n : Nat) : Prog Space SyscallError Nat := fun s =>
  (.ok s.mmapBase, { s with mmapBase := (s.mmapBase + n) % 2 ^ 64 })

/-- The address of the mapping. An address that is only a hint is not looked at. -/
def mapAddr (alignedLength : Nat) : Prog Space SyscallError Nat :=
  if m.flags &&& mapFixed ≠ 0 then
    if m.addr = 0 ∨ m.addr % 4096 ≠ 0 then Prog.fail .invalidArgument else pure m.addr
  else fetchAddBase alignedLength

/-- The checks of the call: the address and the length that are to be mapped. -/
def range : Prog Space SyscallError (Nat × Nat) := do
  if m.length = 0 then Prog.fail .invalidArgument
  let _ ← Prog.lift m.fileData
  let alignedLength ← Prog.lift (roundUp m.length)
  let mapAddr ← m.mapAddr alignedLength
  let last ← Prog.lift (Outcome.uadd 64 mapAddr alignedLength)
  if last > 0x800000000000 then Prog.fail .outOfMemory
  pure (mapAddr, alignedLength)

end MmapArgs

section Calls

variable (M : Mapper FrameAllocator)

namespace Space

/-- A page gets a frame. -/
def mapPage (m : MmapArgs) (page : Nat) : Prog Space SyscallError Unit := fun s =>
  match s.frames.allocateFrame with
  | (none, frames) => (.err .outOfMemory, { s with frames })
  | (some frame, frames) =>
    let r := M.mapTo FrameAllocator.allocateFrame page (m.entry frame) s.tables frames
    (if r.1 then .ok () else .err .outOfMemory, { s with tables := r.2.1, frames := r.2.2 })

/-- A page is taken out, and its frame given back. -/
def unmapPage (page : Nat) : Prog Space SyscallError Unit := fun s =>
  match M.unmap page s.tables with
  | (none, tables) => (.ok (), { s with tables })
  | (some frame, tables) =>
    (.ok (),
      { s with
        tables := tables
        frames := s.frames.deallocateFrame frame
        returned := frame :: s.returned })

/-- The loop over the pages from `start + i` on, with `count` of them to go. -/
def forPages (body : Nat → Prog Space SyscallError Unit) (start : Nat) :
    Nat → Nat → Prog Space SyscallError Unit
  | 0, _ => pure ()
  | count + 1, i => do
    let page ← Prog.lift (orPanic (M.plus start i))
    body page
    forPages body start count (i + 1)

/-- The pages of a range, one after the other. -/
def eachPage (body : Nat → Prog Space SyscallError Unit) (addr alignedLength : Nat) :
    Prog Space SyscallError Unit := do
  let start ← Prog.lift (orPanic (M.containing addr))
  forPages M body start (alignedLength / 4096) 0

end Space

/-- `sys_mmap`. Clearing the pages faults if they are read-only and `writeProtect`, a bit of
the processor, is set. -/
def sysMmap (writeProtect : Bool) (m : MmapArgs) : Prog Space SyscallError Nat := do
  let (mapAddr, alignedLength) ← m.range
  Space.eachPage M (Space.mapPage M m) mapAddr alignedLength
  if writeProtect && !(m.entry 0).writable then Prog.lift .panic
  pure mapAddr

/-- `sys_munmap`. -/
def sysMunmap (addr length : Nat) : Prog Space SyscallError Nat := do
  if addr = 0 ∨ length = 0 ∨ addr % 4096 ≠ 0 then Prog.fail .invalidArgument
  let alignedLength ← Prog.lift (roundUp length)
  Space.eachPage M (Space.unmapPage M) addr alignedLength
  pure 0

end Calls

/-! ## What the calls should leave alone -/

/-- `HEAP_START`. -/
def heapStart : Nat := 0x444444440000

/-- `HEAP_SIZE`. -/
def heapSize : Nat := 16 * 1024 * 1024

/-- `VMALLOC_BYTES`. -/
def vmallocBytes : Nat := 64 * 1024 * 1024

/-- A page of the `length` bytes from `start` on. Addresses are taken modulo 2⁴⁸, as the
processor takes them. -/
def Touches (start length page : Nat) : Prop :=
  ∃ i < (length + 4095) / 4096, page = (start / 4096 + i) % 2 ^ 36

/-- A page of the kernel heap, or of vmalloc, whose region starts at `vmallocStart`. -/
def KernelRange (vmallocStart page : Nat) : Prop :=
  Touches heapStart heapSize page ∨ Touches vmallocStart vmallocBytes page

namespace Space

/-- A page that is present without USER_ACCESSIBLE. -/
def Kernel (s : Space) (page : Nat) (l : Leaf) : Prop :=
  s.tables.walk page = some l ∧ l.entry.user = false

/-- The frames that have been given back since. -/
def returnedSince (s s' : Space) : List Nat :=
  s'.returned.take (s'.returned.length - s.returned.length)

/-- A call from `s` to `s'` has touched user memory only. -/
structure KernelKept (vmallocStart : Nat) (s s' : Space) : Prop where
  mapped : ∀ page l, s.Kernel page l → ∃ l', s'.tables.walk page = some l' ∧ l.Kept l'
  owned : ∀ page l, s.Kernel page l → l.height = 0 → l.entry.frame ∉ s.returnedSince s'
  closed : ∀ page, KernelRange vmallocStart page →
    s'.tables.Accessible page → s.tables.Accessible page

/-- A page is closed to user code at an entry that is on no way to the pages `R`. -/
def Shut (R : Nat → Prop) (s : Space) (page : Nat) (l : Leaf) : Prop :=
  ∃ n, l.height ≤ n ∧ n ≤ 3 ∧ ¬ s.tables.User n (page / 512 ^ n) ∧
    (n = 0 ∨ ∀ p, R p → p / 512 ^ n ≠ page / 512 ^ n)

/-- The pages `R` can be mapped: none of them is a free page of the kernel ranges, and each
page of those that is closed is so for a reason that mapping `R` does not touch. -/
def MapSafe (vmallocStart : Nat) (R : Nat → Prop) (s : Space) : Prop :=
  ∀ page, KernelRange vmallocStart page →
    (R page → s.tables.walk page ≠ none) ∧
    ∀ l, s.tables.walk page = some l → s.tables.Accessible page ∨ Shut R s page l

/-- The pages `R` can be taken out: those that have an entry of their own are user pages, with
frames that no page of the kernel has. -/
def UnmapSafe (R : Nat → Prop) (s : Space) : Prop :=
  ∀ page l, R page → s.tables.walk page = some l → l.height = 0 → l.entry.huge = false →
    l.entry.user = true ∧
      ∀ q l', s.Kernel q l' → l'.height = 0 → l'.entry.frame ≠ l.entry.frame

/-! ## Mapping -/

/-- Pages of `R` have been mapped, and nothing taken away. -/
structure Grows (R : Nat → Prop) (s s' : Space) : Prop where
  returned : s'.returned = s.returned
  kept : ∀ q l, s.tables.walk q = some l → ∃ l', s'.tables.walk q = some l' ∧ l.Kept l'
  only : ∀ q, ¬ R q → s.tables.walk q = none → s'.tables.walk q = none
  user : ∀ n k, s'.tables.User n k → s.tables.User n k ∨
    ∃ p, R p ∧ k = p / 512 ^ n ∧ (n = 0 → s.tables.walk p = none)

variable {R : Nat → Prop}

section

variable {s s' : Space}

/-- Nothing has been mapped. -/
lemma Grows.of_tables (ht : s'.tables = s.tables) (hr : s'.returned = s.returned) :
    Grows R s s' := by
  refine ⟨hr, fun q l hl => ⟨l, ?_, Leaf.Kept.refl l⟩, fun q _ hq => ?_, fun n k hk => .inl ?_⟩
  · rw [ht, hl]
  · rw [ht, hq]
  · rw [← ht]
    exact hk

lemma Grows.trans {s'' : Space} (h : Grows R s s') (h' : Grows R s' s'') : Grows R s s'' := by
  refine ⟨h'.returned.trans h.returned, fun q l hl => ?_, fun q hR hq => ?_, fun n k hk => ?_⟩
  · obtain ⟨l', hl', hkept⟩ := h.kept q l hl
    obtain ⟨l'', hl'', hkept'⟩ := h'.kept q l' hl'
    exact ⟨l'', hl'', hkept.trans hkept'⟩
  · exact h'.only q hR (h.only q hR hq)
  · rcases h'.user n k hk with hk | ⟨p, hR, hk, hfree⟩
    · exact h.user n k hk
    · refine .inr ⟨p, hR, hk, fun hn => eq_none_iff_forall_ne_some.mpr fun l hl => ?_⟩
      -- a page that is free now has been free before
      obtain ⟨l', hl', _⟩ := h.kept p l hl
      cases (hfree hn).symm.trans hl'

/-- What has grown by pages that can be mapped keeps the kernel's pages. -/
lemma Grows.kernelKept {vmallocStart : Nat} (h : Grows R s s') (hsafe : MapSafe vmallocStart R s) :
    KernelKept vmallocStart s s' := by
  refine ⟨fun q l hl => h.kept q l hl.1, fun q l _ _ => ?_, fun q hq ⟨l', hl', hopen⟩ => ?_⟩
  · unfold returnedSince
    rw [h.returned, Nat.sub_self, take_zero]
    exact not_mem_nil
  · obtain ⟨hfree, hshut⟩ := hsafe q hq
    cases hl : s.tables.walk q with
    | none =>
      by_cases hR : R q
      · exact absurd hl (hfree hR)
      · cases (h.only q hR hl).symm.trans hl'
    | some l =>
      obtain ⟨l₁, hl₁, hkept⟩ := h.kept q l hl
      cases hl₁.symm.trans hl'
      rcases hshut l hl with hacc | ⟨n, hle, hn, hclosed, hway⟩
      · exact hacc
      · rcases h.user n _ (hopen n (hkept.1 ▸ hle) hn) with hk | ⟨p, hR, hk, hp⟩
        · exact absurd hk hclosed
        · rcases hway with rfl | hway
          · rw [pow_zero, Nat.div_one, Nat.div_one] at hk
            cases (hp rfl).symm.trans (hk ▸ hl)
          · exact absurd hk.symm (hway p hR)

end

/-! ## Unmapping -/

/-- Pages of `R` have been taken out, and their frames given back. -/
structure Shrinks (R : Nat → Prop) (s s' : Space) : Prop where
  walk : ∀ q l, s'.tables.walk q = some l → s.tables.walk q = some l
  gone : ∀ q l, s.tables.walk q = some l →
    s'.tables.walk q = some l ∨ R q ∧ l.height = 0 ∧ l.entry.huge = false
  returned : ∃ new, s'.returned = new ++ s.returned ∧ ∀ f ∈ new, ∃ p l, R p ∧
    s.tables.walk p = some l ∧ l.height = 0 ∧ l.entry.huge = false ∧ l.entry.frame = f
  user : ∀ n k, s'.tables.User n k → s.tables.User n k

/-- Nothing has been taken out. -/
lemma Shrinks.of_tables {s s' : Space} (ht : s'.tables = s.tables) (hr : s'.returned = s.returned) :
    Shrinks R s s' := by
  refine ⟨?_, ?_, ⟨[], hr, fun _ h => absurd h not_mem_nil⟩, ?_⟩ <;> rw [ht]
  · exact fun q l hl => hl
  · exact fun q l hl => .inl hl
  · exact fun n k hk => hk

lemma Shrinks.trans {s s' s'' : Space} (h : Shrinks R s s') (h' : Shrinks R s' s'') :
    Shrinks R s s'' := by
  obtain ⟨new, hnew, hfrom⟩ := h.returned
  obtain ⟨new', hnew', hfrom'⟩ := h'.returned
  refine ⟨fun q l hl => h.walk q l (h'.walk q l hl), fun q l hl => ?_,
    ⟨new' ++ new, by rw [hnew', hnew, append_assoc], fun f hf => ?_⟩,
    fun n k hk => h.user n k (h'.user n k hk)⟩
  · exact (h.gone q l hl).elim (h'.gone q l) .inr
  · rcases mem_append.mp hf with hf | hf
    · obtain ⟨p, l, hR, hl, hrest⟩ := hfrom' f hf
      exact ⟨p, l, hR, h.walk p l hl, hrest⟩
    · exact hfrom f hf

/-- What has lost pages that can be taken out keeps the kernel's pages. -/
lemma Shrinks.kernelKept {s s' : Space} {vmallocStart : Nat} (h : Shrinks R s s')
    (hsafe : UnmapSafe R s) : KernelKept vmallocStart s s' := by
  refine ⟨fun q l hl => ?_, fun q l hl hheight hin => ?_, fun q _ ⟨l, hl, hopen⟩ => ?_⟩
  · rcases h.gone q l hl.1 with hstill | ⟨hR, hheight, hhuge⟩
    · exact ⟨l, hstill, Leaf.Kept.refl l⟩
    · cases hl.2.symm.trans (hsafe q l hR hl.1 hheight hhuge).1
  · obtain ⟨new, hnew, hfrom⟩ := h.returned
    unfold returnedSince at hin
    rw [hnew, length_append, Nat.add_sub_cancel, take_left] at hin
    obtain ⟨p, l', hR, hl', hheight', hhuge, hframe⟩ := hfrom _ hin
    exact (hsafe p l' hR hl' hheight' hhuge).2 q l hl hheight hframe.symm
  · exact ⟨l, h.walk q l hl, fun n hle hn => h.user n _ (hopen n hle hn)⟩

section Loops

variable {M : Mapper FrameAllocator} (hM : M.Documented)
include hM

/-- A page of `R` is mapped. -/
lemma mapPage_grows {page : Nat} (m : MmapArgs) (hR : R page) :
    Within (Grows R) (mapPage M m page) := by
  intro s _
  unfold mapPage
  rcases s.frames.allocateFrame with ⟨_ | frame, frames⟩
  · exact .of_tables rfl rfl
  · have hmaps := hM.mapTo FrameAllocator.allocateFrame page (m.entry frame) s.tables frames
    refine ⟨rfl, hmaps.kept, fun q hq => hmaps.only q fun h => hq (h ▸ hR), fun n k hk => ?_⟩
    exact (hmaps.user n k hk).imp_right fun hk => ⟨page, hR, hk⟩

/-- A call over the pages of a range does what its body does to them. -/
lemma eachPage_within {T : Space → Space → Prop} (hrefl : ∀ s, T s s)
    (htrans : ∀ s t u, T s t → T t u → T s u) {body : Nat → Prog Space SyscallError Unit}
    {addr length : Nat} (hbody : ∀ page, Touches addr length page → Within T (body page)) :
    Within T (eachPage M body addr ((length + 4095) / 4096 * 4096)) := by
  have hloop (start : Nat) (hstart : start = addr / 4096 % 2 ^ 36) : ∀ count i,
      i + count = (length + 4095) / 4096 → Within T (forPages M body start count i) := by
    intro count
    induction count with
    | zero => exact fun i _ => Within.lift hrefl (.ok ())
    | succ count ih =>
      intro i hi
      unfold forPages
      cases hp : M.plus start i with
      | none => exact fun s hret => absurd hret id
      | some page =>
        have hpage := hM.plus start i page hp
        rw [hstart, Nat.mod_add_mod] at hpage
        show Within T (body page >>= fun _ => forPages M body start count (i + 1))
        exact .bind htrans (hbody page ⟨i, by omega, hpage⟩) fun _ => ih (i + 1) (by omega)
  unfold eachPage
  cases hc : M.containing addr with
  | none => exact fun s hret => absurd hret id
  | some start =>
    have hcount : (length + 4095) / 4096 * 4096 / 4096 = (length + 4095) / 4096 := by omega
    rw [hcount]
    exact hloop start (hM.containing addr start hc) _ 0 (Nat.zero_add _)

/-- A page of `R` is taken out. -/
lemma unmapPage_shrinks {page : Nat} (hR : R page) : Within (Shrinks R) (unmapPage M page) := by
  intro s _
  unfold unmapPage
  rcases hu : M.unmap page s.tables with ⟨_ | frame, tables⟩
  · cases hM.unmap_none page s.tables tables hu
    exact .of_tables rfl rfl
  · obtain ⟨⟨l, hl, hheight, hhuge, hframe⟩, hwalk, huser⟩ := hM.unmap page s.tables frame tables hu
    refine ⟨fun q l' hl' => ?_, fun q l' hl' => ?_, ⟨[frame], rfl, fun f hf => ?_⟩, huser⟩
    · have hl' := (hwalk q).symm.trans hl'
      split at hl'
      next => cases hl'
      next => exact hl'
    · by_cases hq : q = page
      · cases (hq ▸ hl).symm.trans hl'
        exact .inr ⟨hq ▸ hR, hheight, hhuge⟩
      · exact .inl (((hwalk q).trans (if_neg hq)).trans hl')
    · cases mem_singleton.mp hf
      exact ⟨page, l, hR, hl, hheight, hhuge, hframe⟩

end Loops

end Space

/-! ## Sequences of calls -/

/-- A call. -/
inductive MapCall where
  | mmap (args : MmapArgs)
  | munmap (addr length : Nat)

namespace MmapArgs

variable (m : MmapArgs) (s : Space)

/-- Where the call is to map: at the address with MAP_FIXED, else at `MMAP_BASE`. -/
def start : Nat := if m.flags &&& mapFixed ≠ 0 then m.addr else s.mmapBase

/-- The arguments are accepted. -/
structure Accepted : Prop where
  length : m.length ≠ 0
  file : ∃ data, m.fileData = .ok data
  aligned : m.flags &&& mapFixed ≠ 0 → m.addr ≠ 0 ∧ m.addr % 4096 = 0
  low : m.start s + (m.length + 4095) / 4096 * 4096 ≤ 0x800000000000

end MmapArgs

lemma roundUp_ok {length alignedLength : Nat} (h : roundUp length = .ok alignedLength) :
    alignedLength = (length + 4095) / 4096 * 4096 := by
  obtain ⟨a, ha, h⟩ := bind_eq_ok.mp h
  obtain ⟨b, hb, h⟩ := bind_eq_ok.mp h
  unfold uadd at ha
  unfold usub at hb
  split at ha
  next =>
    cases ha
    split at hb
    next =>
      cases hb
      cases h
      rfl
    next => cases hb
  next => cases ha

namespace MapCall

open Space

section

variable (M : Mapper FrameAllocator)

/-- The state after a call that returns. -/
def step (writeProtect : Bool) : MapCall → Space → Option Space
  | .mmap args => (sysMmap M writeProtect args).after
  | .munmap addr length => (sysMunmap M addr length).after

end

/-- The states in which a call touches user memory only. -/
def Suits (vmallocStart : Nat) : MapCall → Space → Prop
  | .mmap m, s => m.Accepted s → MapSafe vmallocStart (Touches (m.start s) m.length) s
  | .munmap addr length, s => addr ≠ 0 → length ≠ 0 → addr % 4096 = 0 →
      UnmapSafe (Touches addr length) s

variable {s s' : Space} {m : MmapArgs}

/-- The same page tables, and no frame given back. -/
def SameTables (s s' : Space) : Prop := s'.tables = s.tables ∧ s'.returned = s.returned

lemma SameTables.kernelKept {vmallocStart : Nat} (h : SameTables s s') :
    KernelKept vmallocStart s s' :=
  (Shrinks.of_tables h.1 h.2).kernelKept (R := fun _ => False) fun _ _ hR => absurd hR id

/-- The address is that of the arguments or `MMAP_BASE`. -/
lemma mapAddr_ok {addr n : Nat} (h : m.mapAddr n s = (.ok addr, s')) :
    addr = m.start s ∧ (m.flags &&& mapFixed ≠ 0 → m.addr ≠ 0 ∧ m.addr % 4096 = 0) := by
  unfold MmapArgs.mapAddr at h
  unfold MmapArgs.start
  split at h
  next hfixed =>
    rw [if_pos hfixed]
    split at h
    next => cases h
    next hgood =>
      cases h
      exact ⟨rfl, fun _ => by omega⟩
  next hfixed =>
    rw [if_neg hfixed]
    cases h
    exact ⟨rfl, fun h => absurd h hfixed⟩

/-- The checks accept the arguments, and say what is to be mapped. -/
lemma range_ok {addr n : Nat} (h : m.range s = (.ok (addr, n), s')) :
    m.Accepted s ∧ addr = m.start s ∧ n = (m.length + 4095) / 4096 * 4096 := by
  unfold MmapArgs.range at h
  split at h
  next => cases h
  next hlen =>
    obtain ⟨data, s₁, hdata, h⟩ := bind_eq_ok h
    obtain ⟨k, s₂, hk, h⟩ := bind_eq_ok h
    obtain ⟨a, s₃, ha, h⟩ := bind_eq_ok h
    obtain ⟨last, s₄, hlast, h⟩ := bind_eq_ok h
    cases (mk.inj hdata).2
    cases (mk.inj hk).2
    obtain ⟨rfl, haligned⟩ := mapAddr_ok ha
    have hlast : uadd 64 (m.start s) k = .ok last := (mk.inj hlast).1
    unfold uadd at hlast
    split at hlast
    next =>
      cases hlast
      split at h
      next => cases h
      next hlow =>
        cases h
        have hn := roundUp_ok (mk.inj hk).1
        exact ⟨⟨hlen, ⟨data, (mk.inj hdata).1⟩, haligned, hn ▸ Nat.le_of_not_gt hlow⟩, rfl, hn⟩
    next => cases hlast

/-- The checks of `sys_mmap` change nothing but `MMAP_BASE`. -/
lemma range_within (m : MmapArgs) : Within SameTables m.range := by
  have hrefl (s : Space) : SameTables s s := ⟨rfl, rfl⟩
  have htrans (s t u : Space) (h : SameTables s t) (h' : SameTables t u) : SameTables s u :=
    ⟨h'.1.trans h.1, h'.2.trans h.2⟩
  have hlift {α : Type} (x : Outcome SyscallError α) :
      Within SameTables (lift x : Prog Space SyscallError α) := Within.lift hrefl x
  have haddr (n : Nat) : Within SameTables (m.mapAddr n) := by
    unfold MmapArgs.mapAddr
    split
    next => split <;> exact hlift _
    next => exact fun s _ => ⟨rfl, rfl⟩
  unfold MmapArgs.range
  split
  next => exact hlift (.err _)
  next =>
    refine .bind htrans (hlift _) fun _ => .bind htrans (hlift _) fun n =>
      .bind htrans (haddr n) fun addr => .bind htrans (hlift _) fun last => ?_
    split
    next => exact hlift (.err _)
    next => exact hlift (.ok _)

variable {M : Mapper FrameAllocator} {vmallocStart : Nat} {writeProtect : Bool}

section

variable (hM : M.Documented)
include hM

/-- `sys_mmap` maps pages of its range only, and none if it refuses the arguments. -/
lemma mmap_grows (h : (sysMmap M writeProtect m).after s = some s') :
    SameTables s s' ∨ m.Accepted s ∧ Grows (Touches (m.start s) m.length) s s' := by
  have hs : (m.range s).1.Returns → SameTables s (m.range s).2 := range_within m s
  rcases after_bind h with ⟨⟨addr, n⟩, s₁, hr, h⟩ | ⟨e, hr⟩ <;> rw [hr] at hs
  · obtain ⟨hacc, rfl, rfl⟩ := range_ok hr
    have hrefl (t : Space) : Grows (Touches (m.start s) m.length) t t := .of_tables rfl rfl
    have hpages : Within (Grows (Touches (m.start s) m.length)) (eachPage M (mapPage M m) _ _) :=
      eachPage_within hM hrefl (fun _ _ _ => .trans) fun page hR => mapPage_grows hM m hR
    have hend : Within (Grows (Touches (m.start s) m.length)) (do
        eachPage M (mapPage M m) (m.start s) ((m.length + 4095) / 4096 * 4096)
        if writeProtect && !(m.entry 0).writable then Prog.lift .panic
        pure (m.start s) : Prog Space SyscallError Nat) := by
      refine .bind (fun _ _ _ => .trans) hpages fun _ => ?_
      split
      next => exact fun t hret => absurd hret id
      next => exact .lift hrefl (.ok _)
    have hgrows := hend s₁ (after_returns h)
    rw [after_eq h] at hgrows
    exact .inr ⟨hacc, .trans (.of_tables (hs trivial).1 (hs trivial).2) hgrows⟩
  · exact .inl (hs trivial)

/-- `sys_mmap` in a state that suits it. -/
lemma mmap_kept (h : (sysMmap M writeProtect m).after s = some s')
    (hsuits : Suits vmallocStart (.mmap m) s) : KernelKept vmallocStart s s' := by
  rcases mmap_grows hM h with hsame | ⟨hacc, hgrows⟩
  · exact hsame.kernelKept
  · exact hgrows.kernelKept (hsuits hacc)

/-- `sys_munmap` in a state that suits it. -/
lemma munmap_kept {addr length : Nat} (h : (sysMunmap M addr length).after s = some s')
    (hsuits : Suits vmallocStart (.munmap addr length) s) : KernelKept vmallocStart s s' := by
  have hrefl (t : Space) : Shrinks (Touches addr length) t t := .of_tables rfl rfl
  unfold sysMunmap at h
  split at h
  next =>
    cases after_eq h
    exact SameTables.kernelKept ⟨rfl, rfl⟩
  next hgood =>
    have hpages := eachPage_within hM hrefl (fun _ _ _ => .trans)
      fun page (hR : Touches addr length page) => unmapPage_shrinks hM hR
    have hshrinks : Shrinks (Touches addr length) s s' := by
      rcases after_bind h with ⟨n, s₁, hn, h⟩ | ⟨e, hn⟩
      · cases (mk.inj hn).2
        have hn : roundUp length = .ok n := (mk.inj hn).1
        obtain rfl := roundUp_ok hn
        have hend := Within.bind (fun _ _ _ => .trans) hpages fun _ =>
          Within.lift (ε := SyscallError) hrefl (.ok 0)
        exact after_eq h ▸ hend s (after_returns h)
      · cases (mk.inj hn).2
        exact hrefl s
    exact hshrinks.kernelKept (hsuits (by omega) (by omega) (by omega))

end

/-- The first page of the kernel heap. -/
def heapPage : Nat := heapStart / 4096

/-- The entry of the page, and those on the way to it: not for user code. -/
def heapEntry (frame : Nat) : Entry := ⟨frame, true, false, false⟩

/-- A machine that has nothing but that page, in frame 5. -/
def heapOnly : Space where
  tables n k := if k = heapPage / 512 ^ n then some (heapEntry (5 - n)) else none
  frames := ⟨fun f => f < 6, 6, 6, by decide⟩
  mmapBase := 0x10000000
  returned := []

/-- No other page is mapped there. -/
lemma heapOnly_walk {q : Nat} {l : Leaf} : ∀ n, heapOnly.tables.walkFrom q n = some l →
    q = heapPage ∧ l = ⟨0, heapEntry 5⟩ := by
  intro n
  induction n with
  | zero =>
    intro h
    obtain ⟨e, he, rfl⟩ := Option.map_eq_some_iff.mp h
    obtain ⟨hq, he⟩ := Option.ite_none_right_eq_some.mp he
    cases he
    exact ⟨hq.trans (Nat.div_one _), rfl⟩
  | succ n ih =>
    intro h
    obtain ⟨e, he, h⟩ := Option.bind_eq_some_iff.mp h
    cases (Option.ite_none_right_eq_some.mp he).2
    exact ih h

/-- An anonymous mapping of one page, where the kernel likes. -/
def onePage : MmapArgs := ⟨0, 4096, protWrite, mapAnonymous, 0, .error .fileNotFound⟩

/-- The machine with the mapping. -/
def userPage : Space := (step fourLevel true (.mmap onePage) heapOnly).get (by decide +kernel)

lemma onePage_touches {page : Nat} (h : Touches 0x10000000 4096 page) : page = 0x10000 := by
  obtain ⟨i, hi, rfl⟩ := h
  omega

/-- The machine after `munmap` of the page of the heap. -/
def heapGone : Space := (step fourLevel true (.munmap heapStart 4096) heapOnly).get
    (by decide +kernel)

end MapCall

end RustOs.Memory
