import RustOs.Fs.Fat32.Chains

/-!
# Directories as slot lists

The scan of a directory runs over its slots with the pieces of a long name in
hand. `scanSlots_append` cuts a scan at any slot in front of the end mark, so
what the driver does to the root directory, replacing one slot, replaces one
entry of the listing, drops it or adds one: `scanSlots_update`,
`scanSlots_delete` and `scanSlots_create`.

`setSlot` is the effect of the four directory writers on the volume, and the
theorems at the end give each of them its outcome.
-/

namespace RustOs.Fs.Fat32

open Lib DirectoryEntry Bool LfnState Drivers Nat Volume
open DirectoryEntry (ofBytes)
open List hiding Vector

variable {raw : List UInt8} {A B : List (List UInt8)} {i : Nat}

/-- The position a search stops at, as a split of the list. -/
lemma findIdx?_split {α : Type} {p : α → Bool} {l : List α}
    (h : l.findIdx? p = some i) :
    ∃ A x B, l = A ++ x :: B ∧ A.length = i ∧ p x = true ∧ ∀ a ∈ A, p a = false := by
  induction l generalizing i with
  | nil => simp at h
  | cons a l ih =>
    rw [findIdx?_cons] at h
    split at h
    next ha =>
      injection h with h
      exact ⟨[], a, l, rfl, h, ha, by simp⟩
    next ha =>
      obtain ⟨j, hj, rfl⟩ := Option.map_eq_some_iff.mp h
      obtain ⟨A, x, B, rfl, rfl, hx, hA⟩ := ih hj
      refine ⟨a :: A, x, B, rfl, rfl, hx, ?_⟩
      intro b hb
      rcases mem_cons.mp hb with rfl | hb
      · exact eq_false_iff.mpr ha
      · exact hA b hb

/-! ## The scan -/

/-- A short-name entry that is not a label. -/
def DirectoryEntry.live (e : DirectoryEntry) : Bool :=
  !e.isFree && !e.isLongName && !e.isVolumeLabel

/-- A slot the scan reports. -/
def isLive (raw : List UInt8) : Bool := (DirectoryEntry.ofBytes raw).live

/-- The long-name state behind a slot. -/
def LfnState.after (st : LfnState) (raw : List UInt8) : LfnState :=
  if (DirectoryEntry.ofBytes raw).isFree then st.clear
  else if (DirectoryEntry.ofBytes raw).isLongName then st.push raw
  else st.clear

/-- The long-name state behind a run of slots. -/
def lfnAfter (S : List (List UInt8)) : LfnState := S.foldl LfnState.after LfnState.init

/-- No slot is an end mark. -/
def NoEnd (S : List (List UInt8)) : Prop := ∀ raw ∈ S, (DirectoryEntry.ofBytes raw).isLast = false

lemma DirectoryEntry.isFree_of_isLast {e : DirectoryEntry} (h : e.isLast = true) :
    e.isFree = true := by
  unfold isLast at h
  unfold isFree
  rw [h, Bool.or_true]

lemma DirectoryEntry.isLast_of_not_isFree {e : DirectoryEntry} (h : e.isFree = false) :
    e.isLast = false := by
  rw [eq_false_iff]
  intro hl
  rw [isFree_of_isLast hl] at h
  contradiction

/-- One turn of the scan in front of the end mark. -/
lemma scanSlots_cons (hl : (ofBytes raw).isLast = false)
    (B : List (List UInt8)) (st : LfnState) :
    scanSlots (raw :: B) st
      = (if isLive raw then
          [(ofBytes raw, st.nameFor (ofBytes raw).name)] else [])
        ++ scanSlots B (st.after raw) := by
  rw [scanSlots, LfnState.after, isLive, live, if_neg (by rw [hl]; exact false_ne_true)]
  cases (ofBytes raw).isFree
  case true => rfl
  case false =>
    cases (ofBytes raw).isLongName
    case true => rfl
    case false =>
      cases (ofBytes raw).isVolumeLabel
      case true => rfl
      case false => rfl

/-- The scan of a run without an end mark goes on behind it. -/
lemma scanSlots_append (B : List (List UInt8)) (hA : NoEnd A)
    (st : LfnState) :
    scanSlots (A ++ B) st = scanSlots A st ++ scanSlots B (A.foldl after st) := by
  induction A generalizing st with
  | nil => rfl
  | cons raw A ih =>
    have hl := hA raw mem_cons_self
    rw [cons_append, foldl_cons, scanSlots_cons hl, scanSlots_cons hl,
      ih (fun r hr => hA r (mem_cons_of_mem _ hr)), append_assoc]

/-- With no piece in hand the old checksum is never looked at. -/
lemma scanSlots_of_parts_nil (B : List (List UInt8)) {st : LfnState} (h : st.parts = []) :
    scanSlots B st = scanSlots B init := by
  induction B generalizing st with
  | nil => rfl
  | cons raw B ih =>
    have hclear : scanSlots B st.clear = scanSlots B init.clear :=
      (ih rfl).trans (ih rfl).symm
    have hpush : st.push raw = init.push raw := by
      unfold push
      rw [h]
      rfl
    have hname : ∀ n, st.nameFor n = init.nameFor n := by
      intro n
      unfold nameFor
      rw [h]
      rfl
    unfold scanSlots
    rw [hclear, hpush, hname]

lemma scanSlots_clear (B : List (List UInt8)) (st : LfnState) :
    scanSlots B st.clear = scanSlots B init :=
  scanSlots_of_parts_nil B rfl

lemma scanSlots_live (h : isLive raw = true) (B : List (List UInt8))
    (st : LfnState) :
    scanSlots (raw :: B) st
      = (ofBytes raw, st.nameFor (ofBytes raw).name) :: scanSlots B init := by
  unfold isLive live at h
  simp only [and_eq_true, not_eq_true'] at h
  obtain ⟨⟨hf, hl⟩, hv⟩ := h
  rw [scanSlots, isLast_of_not_isFree hf, hf, hl, hv]
  simp only [false_eq_true, if_false, scanSlots_clear]

lemma scanSlots_deleted (hf : (ofBytes raw).isFree = true)
    (hl : (ofBytes raw).isLast = false) (B : List (List UInt8)) (st : LfnState) :
    scanSlots (raw :: B) st = scanSlots B init := by
  rw [scanSlots, hl, hf]
  simp only [false_eq_true, if_false, if_true, scanSlots_clear]

lemma scanSlots_end (hl : (ofBytes raw).isLast = true)
    (B : List (List UInt8)) (st : LfnState) : scanSlots (raw :: B) st = [] := by
  rw [scanSlots, if_pos hl]

/-- Every reported entry is a live slot of the directory. -/
lemma mem_scanSlots {S : List (List UInt8)} {st : LfnState} {e : DirectoryEntry × Option Str}
    (h : e ∈ scanSlots S st) : ∃ raw ∈ S, isLive raw = true ∧ e.1 = ofBytes raw := by
  induction S generalizing st with
  | nil => simp [scanSlots] at h
  | cons raw S ih =>
    have hrec : ∀ st', e ∈ scanSlots S st' → ∃ r ∈ raw :: S, isLive r = true ∧ e.1 = ofBytes r := by
      intro st' h'
      obtain ⟨r, hr, hlive, heq⟩ := ih h'
      exact ⟨r, mem_cons_of_mem _ hr, hlive, heq⟩
    unfold scanSlots at h
    split at h
    next => simp at h
    next =>
      split at h
      next => exact hrec _ h
      next hf =>
        split at h
        next => exact hrec _ h
        next hl =>
          split at h
          next => exact hrec _ h
          next hv =>
            rcases mem_cons.mp h with rfl | h
            · refine ⟨raw, mem_cons_self, ?_, rfl⟩
              simp only [isLive, live, and_eq_true, not_eq_true']
              simp only [not_eq_true] at hf hl hv
              exact ⟨⟨hf, hl⟩, hv⟩
            · exact hrec _ h

/-- The listing around a live slot. -/
lemma scanSlots_at (hA : NoEnd A)
    (hlive : isLive raw = true) :
    scanSlots (A ++ raw :: B) init
      = scanSlots A init
        ++ (ofBytes raw, (lfnAfter A).nameFor (ofBytes raw).name) :: scanSlots B init := by
  rw [scanSlots_append _ hA, scanSlots_live hlive]
  rfl

/-- A deleted slot reports nothing. -/
lemma scanSlots_delete (hA : NoEnd A)
    (hf : (ofBytes raw).isFree = true)
    (hl : (ofBytes raw).isLast = false) :
    scanSlots (A ++ raw :: B) init
      = scanSlots A init ++ scanSlots B init := by
  rw [scanSlots_append _ hA, scanSlots_deleted hf hl]

/-- In front of an end mark, nothing follows. -/
lemma scanSlots_at_end (hA : NoEnd A)
    (hl : (ofBytes raw).isLast = true) :
    scanSlots (A ++ raw :: B) init = scanSlots A init := by
  rw [scanSlots_append _ hA, scanSlots_end hl, append_nil]

/-! ## Replacing a slot -/

@[simp] lemma slots_length (data : List UInt8) : (slots data).length = data.length / 32 := by
  rw [slots, length_map, length_range]

lemma slots_getElem {data : List UInt8} (h : i < (slots data).length) :
    (slots data)[i] = slice data (i * 32) 32 := by
  simp only [slots, getElem_map, getElem_range]

/-- Patching a whole slot replaces that slot. -/
lemma slots_patch {data bs : List UInt8} (hi : i < data.length / 32)
    (hbs : bs.length = 32) : slots (patch data (i * 32) bs) = (slots data).set i bs := by
  have hfit : i * 32 + bs.length ≤ data.length := by omega
  have hlen : (slots (patch data (i * 32) bs)).length = data.length / 32 := by
    rw [slots_length, patch_length hfit]
  refine ext_getElem (by rw [hlen, length_set, slots_length]) ?_
  intro j h₁ h₂
  rw [slots_getElem, getElem_set]
  split
  next hij =>
    subst hij
    have h := slice_patch hfit
    rwa [hbs] at h
  next hij =>
    rw [slots_getElem]
    exact slice_patch_of_disjoint hfit (by omega) (by omega)

/-- Patching the first byte of a slot replaces the slot by one with that byte. -/
lemma slots_patch_head {data : List UInt8} (x : UInt8) (hi : i < data.length / 32) :
    slots (patch data (i * 32) [x]) = (slots data).set i (x :: (slice data (i * 32) 32).tail) := by
  have hlen : (slice data (i * 32) 32).length = 32 := slice_length (by omega)
  rw [patch_head (n := 31) x (by omega)]
  exact slots_patch hi (by rw [length_cons, length_tail, hlen])

/-- A block of 32 bytes is a slot of its own. -/
lemma slots_append {a : List UInt8} (ha : a.length = 32) (rest : List UInt8) :
    slots (a ++ rest) = a :: slots rest := by
  have hlen : (a ++ rest).length / 32 = rest.length / 32 + 1 := by
    rw [length_append, ha]
    omega
  unfold slots
  rw [hlen, range_succ_eq_map, map_cons, map_map]
  congr 1
  · rw [slice, Nat.zero_mul, drop_zero, ← ha, take_left]
  · refine map_congr_left fun i _ => ?_
    simp only [Function.comp, slice]
    rw [drop_append, drop_of_length_le (by omega), nil_append, ha]
    congr 2
    omega

lemma ofBytes_cons_name (x : UInt8) (raw : List UInt8) : mark (ofBytes (x :: raw)).name = x := by
  simp [ofBytes]

/-! ## The root directory of a volume -/

variable {fs : Fat32} {c : Nat}

namespace Volume

variable (v : Volume fs)

/-- What `read_directory_with_lfn` reports for the directory at `c`. -/
def listing (c : Nat) : List (DirectoryEntry × Option Str) :=
  scanSlots (slots (v.chainData c)) LfnState.init

/-- The entry `find_file_in_directory` finds. -/
def lookup (c : Nat) (name : Str) : Option DirectoryEntry :=
  ((v.listing c).find? (nameMatches name)).map (·.1)

/-- The slots of the root directory. -/
def rootSlots : List (List UInt8) := slots (v.chainData fs.rootCluster)

/-- The root slot that `update_directory_entry` and `delete_directory_entry`
choose for a name: the first one that holds its 8.3 form. -/
def slotFor (name : Str) : Option Nat :=
  match toShortName name with
  | .ok n => v.rootSlots.findIdx? (holdsShortName n)
  | .error _ => none

/-- The root slot that `write_directory_entry_to_root` fills. -/
def freeSlot : Option Nat :=
  v.rootSlots.findIdx? fun raw => (DirectoryEntry.ofBytes raw).isFree
    || (DirectoryEntry.ofBytes raw).isLast

/-- The volume with `bs` laid over the start of root slot `i`. -/
def setSlot (i : Nat) (bs : List UInt8) : Volume fs :=
  v.store (v.chainOf fs.rootCluster) (patch (v.chainData fs.rootCluster) (i * 32) bs)

section

variable (v : Volume fs)

lemma flatMap_data_length (l : List Nat) :
    (l.flatMap v.data).length = l.length * fs.clusterSize := by
  induction l with
  | nil => rw [flatMap_nil, length_nil, length_nil, Nat.zero_mul]
  | cons c l ih =>
    rw [flatMap_cons, length_append, ih, v.data_length, length_cons, succ_mul, add_comm]

lemma chainData_length (c : Nat) :
    (v.chainData c).length = (v.chainOf c).length * fs.clusterSize :=
  flatMap_data_length v _

@[simp] lemma setSlot_fat (i : Nat) (bs : List UInt8) : (v.setSlot i bs).fat = v.fat :=
  store_fat v _ _

lemma setSlot_data (i : Nat) (bs : List UInt8)
    (h : c ∉ v.chainOf fs.rootCluster) : (v.setSlot i bs).data c = v.data c :=
  store_data_of_not_mem v _ h

lemma setSlot_chainOf (i : Nat) (bs : List UInt8) (c : Nat) :
    (v.setSlot i bs).chainOf c = v.chainOf c := by
  have hlink : (v.setSlot i bs).link = v.link := by
    funext b
    unfold link
    rw [setSlot_fat]
  unfold chainOf
  rw [hlink]

end

lemma setSlot_chained {v : Volume fs} (i : Nat) (bs : List UInt8) (h : v.Chained c) :
    (v.setSlot i bs).Chained c :=
  chained_of_chain (chain_congr h fun b _ => by rw [setSlot_fat])

/-- A chain apart from the root directory keeps its bytes. -/
lemma setSlot_chainData_of_disjoint (v : Volume fs) (i : Nat) (bs : List UInt8)
    (h : (v.chainOf fs.rootCluster).Disjoint (v.chainOf c)) :
    (v.setSlot i bs).chainData c = v.chainData c := by
  unfold chainData
  rw [setSlot_chainOf]
  exact flatMap_congr fun b hb => setSlot_data v i bs fun hroot => h hroot hb

section
variable {v : Volume fs} {i : Nat} {bs : List UInt8}

/-- A slot of the root directory lies inside its bytes. -/
lemma patch_fits (hi : i < v.rootSlots.length) (hbs : bs.length ≤ 32) :
    i * 32 + bs.length ≤ (v.chainData fs.rootCluster).length := by
  unfold rootSlots at hi
  rw [slots_length] at hi
  omega

variable (hroot : v.Chained fs.rootCluster)
include hroot

/-- A slot is 32 bytes of the data of the root. -/
lemma setSlot_chainData (hi : i < v.rootSlots.length)
    (hbs : bs.length ≤ 32) :
    (v.setSlot i bs).chainData fs.rootCluster
      = patch (v.chainData fs.rootCluster) (i * 32) bs := by
  have hlen : (patch (v.chainData fs.rootCluster) (i * 32) bs).length
      = (v.chainOf fs.rootCluster).length * fs.clusterSize := by
    rw [patch_length (patch_fits hi hbs), chainData_length]
  have h := store_take v hroot.nodup (le_of_eq hlen)
  rw [take_of_length_le (by rw [flatMap_data_length, hlen])] at h
  unfold chainData
  rw [setSlot_chainOf]
  exact h

lemma setSlot_rootSlots (hi : i < v.rootSlots.length)
    (hbs : bs.length = 32) : (v.setSlot i bs).rootSlots = v.rootSlots.set i bs := by
  unfold rootSlots
  rw [setSlot_chainData hroot hi (by omega)]
  unfold rootSlots at hi
  rw [slots_length] at hi
  exact slots_patch hi hbs

/-- `setSlot` with the one byte `delete_directory_entry` writes. -/
lemma setSlot_head_rootSlots (hS : v.rootSlots = A ++ raw :: B) (x : UInt8) :
    (v.setSlot A.length [x]).rootSlots = A ++ (x :: raw.tail) :: B := by
  have hi : A.length < v.rootSlots.length := by
    rw [hS, length_append, length_cons]
    omega
  have hraw : slice (v.chainData fs.rootCluster) (A.length * 32) 32 = raw := by
    have hget := slots_getElem hi
    have hS' : slots (v.chainData fs.rootCluster) = A ++ raw :: B := hS
    rw [← hget]
    simp only [hS', getElem_append_right (Nat.le_refl _), Nat.sub_self, getElem_cons_zero]
  have h := slots_patch_head x (by simpa [rootSlots] using hi)
  unfold rootSlots at hS ⊢
  rw [setSlot_chainData hroot hi (by simp), h, hS, hraw]
  simp

end

end Volume

/-! ## The driver's directory calls -/

lemma lt_length_of_findIdx? {α : Type} {p : α → Bool} {l : List α}
    (h : l.findIdx? p = some i) : i < l.length := by
  obtain ⟨A, x, B, rfl, rfl, _, _⟩ := findIdx?_split h
  rw [length_append, length_cons]
  omega

section
variable (g : Geometry fs) {R : Disk → Volume fs → Prop} [Table g R] {v : Volume fs}

variable {name : Str}

include g

lemma readDirectoryWithLfn_runs (h : v.Chained c) :
    Runs R (fs.readDirectoryWithLfn c) v (.ok (v.listing c)) v :=
  Runs.bind (readClusterChain_runs g v h) (.pure _)

lemma readDirectory_runs (h : v.Chained c) :
    Runs R (fs.readDirectory c) v (.ok ((v.listing c).map (·.1))) v :=
  Runs.bind (readDirectoryWithLfn_runs g h) (.pure _)

lemma findFileInDirectory_runs (h : v.Chained c) (name : Str) :
    Runs R (fs.findFileInDirectory c name) v (.ok (v.lookup c name)) v :=
  Runs.bind (readDirectoryWithLfn_runs g h) (.pure _)

section

variable (hroot : v.Chained fs.rootCluster)
include hroot

/-- Rewriting the root directory with one slot patched. -/
lemma setSlot_runs {bs : List UInt8}
    (hi : i < v.rootSlots.length) (hbs : bs.length ≤ 32) :
    Runs R (fs.writeClusterChain fs.rootCluster
        (patch (v.chainData fs.rootCluster) (i * 32) bs)) v (.ok ()) (v.setSlot i bs) := by
  have h := writeClusterChain_runs (R := R) g v hroot
    (patch (v.chainData fs.rootCluster) (i * 32) bs)
  have hok : fs.storeOutcome (v.chainOf fs.rootCluster)
      (patch (v.chainData fs.rootCluster) (i * 32) bs) = .ok () := by
    refine if_pos (le_of_eq ?_)
    rw [patch_length (patch_fits hi hbs), chainData_length]
  rwa [hok] at h

lemma writeDirectoryEntryToRoot_runs (e : DirectoryEntry)
    (hi : v.freeSlot = some i) :
    Runs R (fs.writeDirectoryEntryToRoot e) v (.ok ()) (v.setSlot i e.toBytes) := by
  refine .bind (readClusterChain_runs g v hroot) ?_
  have hi' : (slots (v.chainData fs.rootCluster)).findIdx? (fun raw =>
      (ofBytes raw).isFree || (ofBytes raw).isLast) = some i := hi
  rw [hi']
  exact setSlot_runs g hroot (lt_length_of_findIdx? hi) (by rw [toBytes_length])

lemma writeDirectoryEntryToRoot_full (e : DirectoryEntry)
    (hi : v.freeSlot = none) :
    Runs R (fs.writeDirectoryEntryToRoot e) v (.err "No free directory entries") v := by
  refine .bind (readClusterChain_runs g v hroot) ?_
  have hi' : (slots (v.chainData fs.rootCluster)).findIdx? (fun raw =>
      (ofBytes raw).isFree || (ofBytes raw).isLast) = none := hi
  rw [hi']
  exact .fail _

/-- `create_file_entry` and `create_dir_entry`: the entry goes into the first
free slot, if the name has an 8.3 form and there is such a slot. -/
lemma createEntry_runs {n : Vector UInt8 11}
    (hn : toShortName name = .ok n) (hi : v.freeSlot = some i) (attributes : UInt8)
    (first size : Nat) :
    Runs R (Prog.lift (shortNameOf name) >>= fun n =>
        fs.writeDirectoryEntryToRoot (newEntry n attributes first size)) v (.ok ())
      (v.setSlot i (newEntry n attributes first size).toBytes) := by
  have hname : shortNameOf name = .ok n := by
    unfold shortNameOf
    rw [hn]
  exact .lift_bind hname (writeDirectoryEntryToRoot_runs g hroot _ hi)

/-- No entry is made without a name or a slot. -/
lemma createEntry_fails (h : ∀ n i, toShortName name = .ok n → v.freeSlot ≠ some i)
    (attributes : UInt8) (first size : Nat) :
    ∃ m, Runs R (Prog.lift (shortNameOf name) >>= fun n =>
        fs.writeDirectoryEntryToRoot (newEntry n attributes first size)) v (.err m) v := by
  unfold shortNameOf
  split
  next n hn =>
    have hi : v.freeSlot = none := Option.eq_none_iff_forall_ne_some.mpr fun i => h n i hn
    exact ⟨_, .lift_bind rfl (writeDirectoryEntryToRoot_full g hroot _ hi)⟩
  next m hm => exact ⟨m, .bind_err (.lift _)⟩

end

omit g in
/-- The slot of a name is the first one that holds its short name. -/
lemma slotFor_some (hi : v.slotFor name = some i) : ∃ n, toShortName name = .ok n
    ∧ (slots (v.chainData fs.rootCluster)).findIdx? (holdsShortName n) = some i := by
  unfold slotFor at hi
  cases hn : toShortName name with
  | ok n =>
    rw [hn] at hi
    exact ⟨n, rfl, hi⟩
  | error m =>
    rw [hn] at hi
    cases hi

variable (hroot : v.Chained fs.rootCluster)
include hroot

/-- `update_directory_entry` overwrites the slot of the name. -/
lemma updateDirectoryEntry_runs
    (hi : v.slotFor name = some i) (e : DirectoryEntry) :
    Runs R (fs.updateDirectoryEntry name e) v (.ok ()) (v.setSlot i e.toBytes) := by
  obtain ⟨n, hn, hi⟩ := slotFor_some hi
  unfold updateDirectoryEntry shortNameOf
  rw [hn]
  refine .lift_bind rfl (.bind (readClusterChain_runs g v hroot) ?_)
  rw [hi]
  exact setSlot_runs g hroot (lt_length_of_findIdx? hi) (by rw [toBytes_length])

/-- `delete_directory_entry` marks the slot of the name deleted. -/
lemma deleteDirectoryEntry_runs
    (hi : v.slotFor name = some i) :
    Runs R (fs.deleteDirectoryEntry name) v (.ok ()) (v.setSlot i [0xE5]) := by
  obtain ⟨n, hn, hi⟩ := slotFor_some hi
  unfold deleteDirectoryEntry shortNameOf
  rw [hn]
  refine .lift_bind rfl (.bind (readClusterChain_runs g v hroot) ?_)
  rw [hi]
  exact setSlot_runs g hroot (lt_length_of_findIdx? hi) (by simp)

/-- Without a slot for the name both calls fail and write nothing. -/
lemma directoryEntry_missing
    (hi : v.slotFor name = none) :
    (∀ e, ∃ m, Runs R (fs.updateDirectoryEntry name e) v (.err m) v)
      ∧ ∃ m, Runs R (fs.deleteDirectoryEntry name) v (.err m) v := by
  unfold slotFor at hi
  unfold updateDirectoryEntry deleteDirectoryEntry shortNameOf
  cases hn : toShortName name with
  | ok n =>
    rw [hn] at hi
    have hi' : (slots (v.chainData fs.rootCluster)).findIdx? (holdsShortName n) = none := hi
    constructor
    · intro e
      refine ⟨"File not found in directory",
        Runs.lift_bind rfl (.bind (readClusterChain_runs g v hroot) ?_)⟩
      rw [hi']
      exact .fail _
    · refine ⟨"File not found in directory",
        Runs.lift_bind rfl (.bind (readClusterChain_runs g v hroot) ?_)⟩
      rw [hi']
      exact .fail _
  | error m => exact ⟨fun _ => ⟨m, .bind_err (.lift _)⟩, ⟨m, .bind_err (.lift _)⟩⟩

end

end RustOs.Fs.Fat32
