import RustOs.Fs.Ext2.BlockMap
import RustOs.Lib.Invariant

/-!
# The journal replay as a program

What the replay loop of `maybe_replay_journal` does to an image whatever it
finds there: every call of `read_block` and `write_block` comes back, the log
index stays below the twelve direct blocks of the journal file, and the image
keeps its size. The loop is bounded by `max_iters`, so the only thing left that
can go wrong is the product `max_iters` itself (`replayJournal_returns`).
-/

namespace RustOs.Fs.Ext2

open Lib Outcome Prog UInt32 Image

/-! ## Blocks of an image -/

namespace Image

variable {img : Image}

lemma setBlock_length {b : Nat} {buf : List UInt8} (hb : img.Holds b)
    (hbuf : buf.length = img.blockSize) :
    (img.setBlock b buf).data.length = img.data.length := by
  have hle : b * img.blockSize + img.blockSize ≤ img.data.length := hb
  exact patch_length (by omega)

end Image

/-- An image of `len` bytes in blocks of `bs`. -/
def Framed (bs len : Nat) (img : Image) : Prop := img.blockSize = bs ∧ img.data.length = len

section Frame

variable {bs len : Nat}

lemma Framed.sized {img : Image} (h : Framed bs len img) (hbs : Supported bs) : img.Sized := by
  rw [Image.Sized, h.1]
  exact hbs

/-- A block is read whole. -/
lemma load_keeps (hbs : Supported bs) {b : Nat} (hb : b < 2 ^ 50) :
    Keeps (Framed bs len) (load b bs) fun blk => blk.length = bs := by
  intro img himg
  have hsz := himg.sized hbs
  have hrun : load b bs img =
    (if img.Holds b then .ok (img.block b) else .err "read past end", img) := by
    show (img.readBlock b (zeros bs), img) = _
    rw [readBlock_eq (hsz.offset hb) (by rw [zeros_length, himg.1])]
  rw [hrun]
  split
  next hheld =>
    refine ⟨trivial, himg, fun blk h => ?_⟩
    cases h
    rw [block_length hheld, himg.1]
  next => exact ⟨trivial, himg, nofun⟩

/-- A block is written inside the image. -/
lemma store_keeps (hbs : Supported bs) {b : Nat} (hb : b < 2 ^ 50) {buf : List UInt8}
    (hbuf : buf.length = bs) : Keeps (Framed bs len) (store b buf) fun _ => True := by
  intro img himg
  have hsz := himg.sized hbs
  have hlen : buf.length = img.blockSize := by rw [hbuf, himg.1]
  by_cases hheld : img.Holds b
  · have hrun : store b buf img = (.ok (), img.setBlock b buf) := by
      rw [store, bind_ok (get_apply img)]
      have hlift : (lift (img.writeBlock b buf) : Prog Image String _) img
          = (.ok (img.setBlock b buf), img) := by
        rw [lift_apply, writeBlock_eq (hsz.offset hb) hlen, if_pos hheld]
      rw [bind_ok hlift]
      rfl
    rw [hrun]
    exact ⟨trivial, ⟨himg.1, by rw [setBlock_length hheld hlen, himg.2]⟩, fun _ _ => trivial⟩
  · have hrun : store b buf img = (.err "write past end", img) := by
      rw [store, bind_ok (get_apply img)]
      have hlift : (lift (img.writeBlock b buf) : Prog Image String _) img
          = (.err "write past end", img) := by
        rw [lift_apply, writeBlock_eq (hsz.offset hb) hlen, if_neg hheld]
      rw [bind_err hlift]
    rw [hrun]
    exact ⟨trivial, himg, nofun⟩

/-! ## The replay -/

lemma logBlock_some {inode : Inode} {idx phys : Nat} (h : logBlock inode idx = some phys) :
    idx < 12 ∧ phys < 2 ^ 32 := by
  rw [logBlock] at h
  split at h
  next hlt =>
    cases h
    exact ⟨hlt, toNat_lt _⟩
  next => cases h

lemma nextIndex_returns {maxlen cur : Nat} (hmax : maxlen ≠ 0) (hcur : cur < 12) :
    (nextIndex maxlen cur).Returns := by
  rw [nextIndex, uadd_of_lt (by omega), ok_bind, urem_of_ne hmax]
  exact trivial

lemma unescape_length {flags : Nat} {data : List UInt8} (h : 4 ≤ data.length) :
    (unescape flags data).length = data.length := by
  rw [unescape]
  split
  next => exact patch_length h
  next => rfl

/-- Replaying a tag keeps the size of the image. -/
lemma replayTag_keeps (hbs : Supported bs) (inode : Inode) {maxlen blocknr : Nat}
    (flags cur : Nat) (hmax : maxlen ≠ 0) (hblk : blocknr < 2 ^ 32) :
    Keeps (Framed bs len) (replayTag inode maxlen bs blocknr flags cur) fun _ => True := by
  rw [replayTag]
  split
  next => exact .pure trivial
  next =>
    cases hlog : logBlock inode cur with
    | none => exact .pure trivial
    | some phys =>
      obtain ⟨hcur, hphys⟩ := logBlock_some hlog
      refine .bind (load_keeps hbs (by omega)) fun data hdata => ?_
      have hlen : (unescape flags data).length = bs := by
        rw [unescape_length, hdata]
        rcases hbs with h | h | h <;> omega
      refine .bind (store_keeps hbs (by omega) hlen) fun _ _ => ?_
      refine .bind (.lift (nextIndex_returns hmax hcur) (Q := fun _ => True) fun _ _ => trivial)
        fun cur _ => .pure trivial

section

variable (hbs : Supported bs) (inode : Inode) {maxlen : Nat}
include hbs

/-- All tags; each has 16 bytes at least. -/
lemma replayTags_keeps (hdr : List UInt8)
    (hmax : maxlen ≠ 0) (fuel : Nat) : ∀ pos cur : Nat, 0 < fuel → bs < pos + 16 * fuel →
      Keeps (Framed bs len) (replayTags inode maxlen bs hdr fuel pos cur) fun _ => True := by
  induction fuel with
  | zero =>
    intro pos cur hpos
    omega
  | succ fuel ih =>
    intro pos cur _ hfuel
    rw [replayTags]
    split
    next hpos =>
      refine .bind (replayTag_keeps hbs inode _ _ hmax (beAt_lt _ _ 4)) fun next _ => ?_
      cases next with
      | none => exact .pure trivial
      | some cur =>
        show Keeps _ (if _ then _ else _) _
        split
        next => exact .pure trivial
        next => exact ih _ _ (by omega) (by split <;> omega)
    next => exact .pure trivial

/-- Replaying a block keeps the size of the image. -/
lemma replayBlock_keeps (first cur seq : Nat)
    (hmax : maxlen ≠ 0) :
    Keeps (Framed bs len) (replayBlock inode maxlen first bs cur seq) fun _ => True := by
  rw [replayBlock]
  cases hlog : logBlock inode cur with
  | none => exact .pure trivial
  | some phys =>
    obtain ⟨hcur, hphys⟩ := logBlock_some hlog
    have hnext : Keeps (Framed bs len)
        (lift (nextIndex maxlen cur) : Prog Image String Nat) fun _ => True :=
      .lift (nextIndex_returns hmax hcur) fun _ _ => trivial
    have hpos : 0 < bs := by rcases hbs with h | h | h <;> omega
    refine .bind (load_keeps hbs (by omega)) fun hdr _ => ?_
    split
    next => exact .pure trivial
    next =>
      split
      next => exact .pure trivial
      next =>
        split
        next =>
          refine .bind hnext fun cur _ => ?_
          refine .bind (replayTags_keeps hbs inode hdr hmax bs 12 cur hpos (by omega))
            fun next _ => ?_
          cases next <;> exact .pure trivial
        next =>
          split
          next => exact .bind hnext fun _ _ => .pure trivial
          next =>
            split
            next => exact .bind hnext fun _ _ => .pure trivial
            next => exact .pure trivial

lemma replayLoop_keeps (first : Nat)
    (hmax : maxlen ≠ 0) (n : Nat) : ∀ cur seq : Nat,
      Keeps (Framed bs len) (replayLoop inode maxlen first bs n cur seq) fun _ => True := by
  induction n with
  | zero => exact fun _ _ => .pure trivial
  | succ n ih =>
    intro cur seq
    refine .bind (replayBlock_keeps hbs inode first cur seq hmax) fun next _ => ?_
    cases next with
    | none => exact .pure trivial
    | some next => exact ih next.1 next.2

end

/-- The journal superblock asks for a replay. -/
def Dirty (jsb : List UInt8) (bs : Nat) : Prop :=
  beAt jsb 0 4 = jbd2Magic ∧ beAt jsb 12 4 = bs ∧ beAt jsb 28 4 ≠ 0

instance (jsb : List UInt8) (bs : Nat) : Decidable (Dirty jsb bs) :=
  inferInstanceAs (Decidable (_ ∧ _))

/-- The loop under the bound the driver gives it; an empty log has no rounds. -/
lemma boundedLoop_keeps (hbs : Supported bs) (inode : Inode) (maxlen first cur seq : Nat) :
    Keeps (Framed bs len) (replayLoop inode maxlen first bs ((maxlen - first) * 2) cur seq)
      fun _ => True := by
  rcases Nat.eq_zero_or_pos maxlen with h0 | hpos
  · rw [h0, Nat.zero_sub, Nat.zero_mul]
    exact .pure trivial
  · exact replayLoop_keeps hbs inode first (by omega) _ cur seq

/-- What is run on a journal superblock that asks for it. -/
def replayDirty (inode : Inode) (bs : Nat) (jsb : List UInt8) : Prog Image String Bool := do
  let maxIters ← Prog.lift (umul 32 (beAt jsb 16 4 - beAt jsb 20 4) 2)
  replayLoop inode (beAt jsb 16 4) (beAt jsb 20 4) bs maxIters (beAt jsb 28 4) (beAt jsb 24 4)
  store inode.start.toNat (patch jsb 28 [0, 0, 0, 0])
  pure true

/-- A replay looks at the journal superblock and then runs or does nothing. -/
lemma replayJournal_eq (hbs : Supported bs) (inode : Inode) {img : Image}
    (himg : Framed bs len img) :
    replayJournal inode bs img =
      if img.Holds inode.start.toNat then
        if Dirty (img.block inode.start.toNat) bs then
          replayDirty inode bs (img.block inode.start.toNat) img
        else (.ok true, img)
      else (.err "read past end", img) := by
  have hb : inode.start.toNat < 2 ^ 50 := by
    have := toNat_lt inode.start
    omega
  have hload : load inode.start.toNat bs img
      = (if img.Holds inode.start.toNat then .ok (img.block inode.start.toNat)
          else .err "read past end", img) := by
    show (img.readBlock inode.start.toNat (zeros bs), img) = _
    rw [readBlock_eq ((himg.sized hbs).offset hb) (by rw [zeros_length, himg.1])]
  by_cases hheld : img.Holds inode.start.toNat
  · rw [if_pos hheld] at hload
    rw [replayJournal, bind_ok hload, if_pos hheld]
    generalize img.block inode.start.toNat = jsb
    by_cases hmagic : beAt jsb 0 4 = jbd2Magic
    · rw [if_neg (not_not.mpr hmagic)]
      by_cases hsize : beAt jsb 12 4 = bs
      · rw [if_neg (not_not.mpr hsize)]
        by_cases hstart : beAt jsb 28 4 = 0
        · rw [if_pos hstart, if_neg fun h => h.2.2 hstart]
          rfl
        · rw [if_neg hstart, if_pos ⟨hmagic, hsize, hstart⟩]
          rfl
      · rw [if_pos hsize, if_neg fun h => hsize h.2.1]
        rfl
    · rw [if_pos hmagic, if_neg fun h => hmagic h.1]
      rfl
  · rw [if_neg hheld] at hload
    rw [replayJournal, bind_err hload, if_neg hheld]

/-- Replaying the journal keeps the size of the image. -/
lemma replayDirty_keeps (hbs : Supported bs) (inode : Inode) {jsb : List UInt8}
    (hlen : jsb.length = bs) (hlt : (beAt jsb 16 4 - beAt jsb 20 4) * 2 < 2 ^ 32) :
    Keeps (Framed bs len) (replayDirty inode bs jsb) fun _ => True := by
  have hb : inode.start.toNat < 2 ^ 50 := by
    have := toNat_lt inode.start
    omega
  have hpatch : (patch jsb 28 [0, 0, 0, 0]).length = bs := by
    rw [patch_length, hlen]
    rw [hlen, show ([0, 0, 0, 0] : List UInt8).length = 4 from rfl]
    rcases hbs with h | h | h <;> omega
  rw [replayDirty, umul_of_lt hlt]
  refine .bind (Q := fun n => n = (beAt jsb 16 4 - beAt jsb 20 4) * 2)
    (.lift trivial fun _ h => (ok.inj h).symm) fun n hn => ?_
  rw [hn]
  refine .bind (boundedLoop_keeps hbs inode _ _ _ _) fun _ _ => ?_
  exact .bind (store_keeps hbs hb hpatch) fun _ _ => .pure trivial

lemma replayDirty_panics (inode : Inode) {jsb : List UInt8} (img : Image)
    (hge : ¬ (beAt jsb 16 4 - beAt jsb 20 4) * 2 < 2 ^ 32) :
    replayDirty inode bs jsb img = (.panic, img) := by
  have hpanic : (lift (umul 32 (beAt jsb 16 4 - beAt jsb 20 4) 2)
      : Prog Image String Nat) img = (.panic, img) := by
    rw [lift_apply, umul, if_neg hge]
  rw [replayDirty, bind_panic hpanic]

/-- The replay comes back unless the bound on its rounds overflows. -/
lemma replayJournal_returns (hbs : Supported bs) (inode : Inode) {img : Image}
    (himg : Framed bs len img) :
    ((replayJournal inode bs img).1.Returns ↔
      (img.Holds inode.start.toNat → Dirty (img.block inode.start.toNat) bs →
        (beAt (img.block inode.start.toNat) 16 4 - beAt (img.block inode.start.toNat) 20 4) * 2
          < 2 ^ 32)) ∧
    Framed bs len (replayJournal inode bs img).2 := by
  rw [replayJournal_eq hbs inode himg]
  by_cases hheld : img.Holds inode.start.toNat
  · have hlen : (img.block inode.start.toNat).length = bs := by
      rw [block_length hheld, himg.1]
    rw [if_pos hheld]
    generalize img.block inode.start.toNat = jsb at hlen
    by_cases hdirty : Dirty jsb bs
    · rw [if_pos hdirty]
      by_cases hlt : (beAt jsb 16 4 - beAt jsb 20 4) * 2 < 2 ^ 32
      · obtain ⟨hret, hinv, -⟩ := replayDirty_keeps hbs inode hlen hlt img himg
        exact ⟨⟨fun _ _ _ => hlt, fun _ => hret⟩, hinv⟩
      · rw [replayDirty_panics inode img hlt]
        exact ⟨⟨fun h => absurd h id, fun h => absurd (h hheld hdirty) hlt⟩, himg⟩
    · rw [if_neg hdirty]
      exact ⟨⟨fun _ _ h => absurd h hdirty, fun _ => trivial⟩, himg⟩
  · rw [if_neg hheld]
    exact ⟨⟨fun _ h => absurd h hheld, fun _ => trivial⟩, himg⟩

end Frame

end RustOs.Fs.Ext2
