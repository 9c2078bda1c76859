import RustOs.Elf.Safety
import RustOs.Lib.Safe

/-!
# Relocating from any ELF file

The relocation engine on a file and an image of which nothing is known. A relocation can be
applied if its place ends below 2^64 and its symbol can be looked up (`RelaFits`). A table can be
gone through if that holds of each of its entries, in the image as those before it have left it,
and if it has an end (`LoopFits`): an entry of size 0 has none.

`parsesSafely_iff` puts this together with the lookups: all ten functions come back, all program
headers come from the file and the hashed lookup falls back as documented, exactly if `Fits`.
-/

namespace RustOs.Elf

open Lib Outcome MultiObjectResolver Prog ElfLoader Nat

/-! ## One relocation -/

/-- The relocation needs the value of its symbol. -/
def Rela.NeedsSymbol (r : Rela) : Prop :=
  r.type = rX866464 ∧ r.sym ≠ 0 ∨ r.type = rX8664GlobDat ∨ r.type = rX8664JumpSlot

/-- The relocation can be applied to the image. -/
structure RelaFits (symFits : Nat → Prop) (r : Rela) (image : List UInt8) : Prop where
  place : r.offset + 8 < 2 ^ 64
  symbol : r.offset + 8 ≤ image.length → r.NeedsSymbol → symFits r.sym

/-- The word a relocation stores, if it stores one. -/
def relaValue (imageBase : Nat) (r : Rela) (resolve : Nat → Outcome Unit Nat) :
    Outcome String (Option Nat) :=
  if r.type = rX8664None then .ok none
  else if r.type = rX8664Relative then .ok (some ((imageBase + r.addend) % 2 ^ 64))
  else if r.type = rX866464 then do
    let s ← (if r.sym = 0 then .ok 0 else resolve r.sym).mapErr fun _ => "rela: unresolved symbol"
    .ok (some ((s + r.addend) % 2 ^ 64))
  else if r.type = rX8664GlobDat ∨ r.type = rX8664JumpSlot then do
    let s ← (resolve r.sym).mapErr fun _ => "rela: unresolved symbol"
    .ok (some s)
  else .err "rela: unsupported relocation type"

/-- The image with a word stored, if there is one. -/
def storeAt (image : List UInt8) (off : Nat) : Option Nat → List UInt8
  | none => image
  | some val => patch image off (leBytes 8 val)

section One

variable {imageBase : Nat} {r : Rela} {resolve : Nat → Outcome Unit Nat} {image : List UInt8}

/-- An entry writes eight bytes of the image. -/
lemma applyRelaWith_eq (hfit : r.offset + 8 < 2 ^ 64) : applyRelaWith imageBase r resolve image =
    if r.offset + 8 > image.length then (.err "rela: r_offset out of bounds", image)
    else
      match relaValue imageBase r resolve with
      | .ok val => (.ok (), storeAt image r.offset val)
      | .err e => (.err e, image)
      | .panic => (.panic, image)
      | .diverge => (.diverge, image) := by
  unfold applyRelaWith relaValue
  rw [bind_ok (get_apply image), uadd_of_lt hfit, lift_ok_bind]
  split
  next => rfl
  split
  next => rfl
  split
  next => rfl
  split
  next => cases (if r.sym = 0 then .ok 0 else resolve r.sym : Outcome Unit Nat) <;> rfl
  split
  next => cases resolve r.sym <;> rfl
  next => rfl

lemma relaValue_returns :
    (relaValue imageBase r resolve).Returns ↔ (r.NeedsSymbol → (resolve r.sym).Returns) := by
  simp only [relaValue, returns_ite, returns_bind, returns_mapErr, returns_ok, returns_err]
  grind [Rela.NeedsSymbol, rX8664None, rX8664Relative, rX866464, rX8664GlobDat, rX8664JumpSlot]

/-- When an entry is applied or refused. -/
lemma applyRelaWith_returns {symFits : Nat → Prop}
    (hsym : ∀ sym, (resolve sym).Returns ↔ symFits sym) :
    (applyRelaWith imageBase r resolve image).1.Returns ↔ RelaFits symFits r image := by
  have hval : (relaValue imageBase r resolve).Returns ↔ (r.NeedsSymbol → symFits r.sym) :=
    relaValue_returns.trans (imp_congr_right fun _ => hsym r.sym)
  have hfits : RelaFits symFits r image ↔
      r.offset + 8 < 2 ^ 64 ∧ (r.offset + 8 ≤ image.length → r.NeedsSymbol → symFits r.sym) :=
    ⟨fun h => ⟨h.place, h.symbol⟩, fun h => ⟨h.1, h.2⟩⟩
  rw [hfits, ← hval]
  by_cases hfit : r.offset + 8 < 2 ^ 64
  · rw [applyRelaWith_eq hfit]
    split
    next => exact iff_of_true trivial ⟨hfit, fun hin => by omega⟩
    next hin =>
      rw [and_iff_right hfit, forall_prop_of_true (not_lt.mp hin)]
      cases relaValue imageBase r resolve <;> exact .rfl
  · refine iff_of_false (fun hret => hfit ?_) fun h => hfit h.1
    have hsafe := returns_iff_safe.mp hret
    unfold applyRelaWith at hsafe
    rw [safe_bind, safe_get, safe_bind, safe_uadd] at hsafe
    exact hsafe.1

lemma applyRelaWith_length :
    (applyRelaWith imageBase r resolve image).2.length = image.length := by
  by_cases hfit : r.offset + 8 < 2 ^ 64
  · rw [applyRelaWith_eq hfit]
    split
    next => rfl
    next hin =>
      rcases relaValue imageBase r resolve with (- | val) | - | - | -
      · rfl
      · exact patch_length (by rw [leBytes_length]; omega)
      · rfl
      · rfl
      · rfl
  · unfold applyRelaWith
    rw [bind_ok (get_apply image)]
    have hpanic : (lift (uadd 64 r.offset 8) : Prog (List UInt8) String Nat) image =
      (.panic, image) := by
      unfold uadd
      rw [if_neg hfit]
      rfl
    rw [bind_panic hpanic]

end One

/-! ## A table of relocations -/

/-- What the loop asks of the function for one entry: it comes back where `fits` says so, and the
image keeps its length. -/
structure EntrySpec (onEntry : Rela → Prog (List UInt8) String Nat)
    (fits : Rela → List UInt8 → Prop) : Prop where
  returns : ∀ r image, (onEntry r image).1.Returns ↔ fits r image
  length : ∀ r image k image', onEntry r image = (.ok k, image') → image'.length = image.length

/-- The loop is over an entry: there is room for it before `stop` and in the image. -/
structure AtEntry (ent stop pos : Nat) (image : List UInt8) : Prop where
  table : pos + ent ≤ stop
  inside : pos + 24 ≤ image.length

/-- The table can be gone through from `pos`, and `after` holds of the image at its end. -/
inductive LoopFits (fits : Rela → List UInt8 → Prop) (onEntry : Rela → Prog (List UInt8) String Nat)
    (ent stop : Nat) (after : List UInt8 → Prop) : Nat → List UInt8 → Prop where
  | intro {pos : Nat} {image : List UInt8}
      (next : pos + ent < 2 ^ 64)
      (room : pos + ent ≤ stop → pos + 24 < 2 ^ 64)
      (done : ¬ AtEntry ent stop pos image → after image)
      (entry : AtEntry ent stop pos image → fits (Rela.at image pos) image)
      (on : AtEntry ent stop pos image → ∀ k image',
        onEntry (Rela.at image pos) image = (.ok k, image') →
          LoopFits fits onEntry ent stop after (pos + ent) image') :
      LoopFits fits onEntry ent stop after pos image

/-- A table of `sz` bytes at `off` can be gone through. -/
structure RelocsFit (fits : Rela → List UInt8 → Prop)
    (onEntry : Rela → Prog (List UInt8) String Nat)
    (off sz ent : Nat) (after : List UInt8 → Prop) (image : List UInt8) : Prop where
  stop : off + sz < 2 ^ 64
  loop : LoopFits fits onEntry ent (off + sz) after off image

section Table

variable {fits : Rela → List UInt8 → Prop} {onEntry : Rela → Prog (List UInt8) String Nat}
variable {ent stop pos : Nat} {after : List UInt8 → Prop} {image : List UInt8}

/-- One turn of the loop. -/
lemma relaLoop_turn {fuel : Nat} :
    (relaLoop onEntry ent stop (fuel + 1) pos).Safe image (fun _ => after) ↔
      pos + ent < 2 ^ 64 ∧ (pos + ent ≤ stop → pos + 24 < 2 ^ 64) ∧
      (¬ AtEntry ent stop pos image → after image) ∧
      (AtEntry ent stop pos image → (onEntry (Rela.at image pos)).Safe image fun _ image' =>
        (relaLoop onEntry ent stop fuel (pos + ent)).Safe image' fun _ => after) := by
  have hat : AtEntry ent stop pos image ↔ pos + ent ≤ stop ∧ pos + 24 ≤ image.length :=
    ⟨fun h => ⟨h.table, h.inside⟩, fun h => ⟨h.1, h.2⟩⟩
  simp only [relaLoop, safe_bind, safe_uadd, safe_get, safe_ite, safe_pure]
  grind

/-- A loop that is safe fits. -/
lemma loopFits_of_safe (spec : EntrySpec onEntry fits) (fuel : Nat) : ∀ pos image,
    (relaLoop onEntry ent stop fuel pos).Safe image (fun _ => after) →
      LoopFits fits onEntry ent stop after pos image := by
  induction fuel with
  | zero => exact fun pos image h => absurd h id
  | succ fuel ih =>
    intro pos image h
    obtain ⟨hnext, hroom, hdone, hentry⟩ := relaLoop_turn.mp h
    refine .intro hnext hroom hdone (fun hat => ?_) fun hat k image' heq => ?_
    · exact (spec.returns _ _).mp (safe_iff.mp (hentry hat)).1
    · exact ih _ _ ((safe_iff.mp (hentry hat)).2 k image' heq)

/-- With entries of size 0 the loop does not get away from an entry that never fails. -/
lemma not_atEntry_of_zero (spec : EntrySpec onEntry fits)
    (hok : ∀ r image, fits r image → ∃ k image', onEntry r image = (.ok k, image'))
    (h : LoopFits fits onEntry 0 stop after pos image) : ¬ AtEntry 0 stop pos image := by
  induction h with
  | @intro pos image _ _ _ entry _ ih =>
    intro hat
    obtain ⟨k, image', heq⟩ := hok _ _ (entry hat)
    refine ih hat k image' heq ⟨hat.table, ?_⟩
    rw [spec.length _ _ k image' heq]
    exact hat.inside

/-- Each turn moves the loop on in the image, whose length is fuel enough. -/
lemma safe_of_loopFits (spec : EntrySpec onEntry fits)
    (hok : ent = 0 → ∀ r image, fits r image → ∃ k image', onEntry r image = (.ok k, image'))
    (h : LoopFits fits onEntry ent stop after pos image) : ∀ fuel, image.length < fuel + 1 + pos →
      (relaLoop onEntry ent stop (fuel + 1) pos).Safe image fun _ => after := by
  induction h with
  | @intro pos image next room done entry on ih =>
    intro fuel hfuel
    refine relaLoop_turn.mpr ⟨next, room, done, fun hat => ?_⟩
    refine safe_iff.mpr ⟨(spec.returns _ _).mpr (entry hat), fun k image' heq => ?_⟩
    have hlen := spec.length _ _ k image' heq
    have hinside := hat.inside
    by_cases hzero : ent = 0
    · subst hzero
      exact absurd hat (not_atEntry_of_zero spec (hok rfl) (.intro next room done entry on))
    · obtain ⟨fuel, rfl⟩ : ∃ n, fuel = n + 1 := ⟨fuel - 1, by omega⟩
      exact ih hat k image' heq fuel (by omega)

/-- A table is safe exactly if it fits. -/
lemma relaTable_safe {off sz : Nat} (spec : EntrySpec onEntry fits)
    (hok : ent = 0 → ∀ r image, fits r image → ∃ k image', onEntry r image = (.ok k, image')) :
    (relaTable onEntry off sz ent).Safe image (fun _ => after) ↔
      RelocsFit fits onEntry off sz ent after image := by
  unfold relaTable
  rw [safe_bind, safe_uadd, safe_bind, safe_get]
  constructor
  · intro ⟨hstop, hloop⟩
    exact ⟨hstop, loopFits_of_safe spec _ _ _ hloop⟩
  · intro h
    exact ⟨h.stop, safe_of_loopFits spec hok h.loop _ (by omega)⟩

end Table

/-! ## Relocating a position-independent program -/

/-- An entry can be handled by `apply_pie_relocations`. -/
def PieFits (r : Rela) (_image : List UInt8) : Prop :=
  r.type = rX8664Relative → r.offset + 8 < 2 ^ 64

/-- When an entry of a program is applied. -/
lemma pieEntry_spec (imageBase : Nat) : EntrySpec (pieEntry imageBase) PieFits where
  returns r image := by
    unfold pieEntry PieFits
    split
    next htype =>
      have hret : (applyRela imageBase r image).1.Returns ↔ RelaFits (fun _ => True) r image :=
        applyRelaWith_returns fun _ => .rfl
      rw [returns_iff_safe, safe_bind]
      refine (returns_iff_safe (x := applyRela imageBase r)).symm.trans (hret.trans ?_)
      exact ⟨fun h _ => h.place, fun h => ⟨h htype, fun _ _ => trivial⟩⟩
    next htype => exact iff_of_true trivial fun h => absurd h htype
  length r image k image' h := by
    unfold pieEntry at h
    split at h
    next =>
      obtain ⟨u, image₁, happly, hpure⟩ := bind_eq_ok h
      cases hpure
      have hlen : (applyRela imageBase r image).2.length = image.length := applyRelaWith_length
      rw [happly] at hlen
      exact hlen
    next =>
      cases h
      rfl

/-- The file and the image are such that `apply_pie_relocations` comes back. -/
structure PieSafe (l : ElfLoader) (imageBase : Nat) (image : List UInt8) : Prop where
  dynamic : l.DynamicFits
  table : ∀ off sz ent, lastOf dtRela l.entries = some off → lastOf dtRelasz l.entries = some sz →
    lastOf dtRelaent l.entries = some ent → 24 ≤ ent →
      RelocsFit PieFits (pieEntry imageBase) off sz ent (fun _ => True) image

variable {image : List UInt8} {l : ElfLoader} {r : MultiObjectResolver}

/-- A program that starts by reading the dynamic section. -/
lemma dynamicEntries_safe {ε α : Type}
    {f : List (Nat × Nat) → Prog (List UInt8) ε α} {post : α → List UInt8 → Prop} :
    (lift l.dynamicEntries >>= f).Safe image post ↔
      l.DynamicFits ∧ (f l.entries).Safe image post := by
  rw [safe_bind, safe_lift, dynamicEntries_returns]
  refine and_congr_right fun h => ?_
  rw [dynamicEntries_eq h]
  refine ⟨fun hf => hf _ rfl, fun hf entries heq => ?_⟩
  cases heq
  exact hf

/-- When the relocations of a program come back. -/
lemma applyPieRelocations_returns {imageBase : Nat} :
    (l.applyPieRelocations imageBase image).1.Returns ↔ PieSafe l imageBase image := by
  have htable (off sz ent : Nat) (hent : 24 ≤ ent) :
      (relaTable (pieEntry imageBase) off sz ent).Safe image (fun _ _ => True) ↔
        RelocsFit PieFits (pieEntry imageBase) off sz ent (fun _ => True) image :=
    relaTable_safe (pieEntry_spec imageBase) fun h : ent = 0 => by omega
  rw [returns_iff_safe]
  unfold ElfLoader.applyPieRelocations
  rw [dynamicEntries_safe]
  constructor
  · intro ⟨hdyn, h⟩
    refine ⟨hdyn, fun off sz ent hoff hsz hent' hle => ?_⟩
    rw [hoff, hsz, hent'] at h
    dsimp only at h
    rw [if_neg (not_lt.mpr hle)] at h
    exact (htable off sz ent hle).mp h
  · intro h
    refine ⟨h.dynamic, ?_⟩
    split
    next off sz ent hoff hsz hent =>
      refine safe_ite.mpr ⟨fun _ => trivial, fun hlt => ?_⟩
      exact (htable off sz ent (not_lt.mp hlt)).mpr
        (h.table off sz ent hoff hsz hent (not_lt.mp hlt))
    next => trivial

/-! ## Linking -/

/-- A name can be looked up in the objects: in each of them until one defines it. -/
def ResolveFits (name : List UInt8) : List (Nat × ElfLoader) → Prop
  | [] => True
  | (_, l) :: rest => l.HashedSafe name ∧ (¬ l.Defines name → ResolveFits name rest)

/-- The symbol of a number can be looked up. -/
structure SymFits (r : MultiObjectResolver) (l : ElfLoader) (symtabAddr : Nat) (strtab : List UInt8)
    (sym : Nat) : Prop where
  place : sym ≠ 0 → symtabAddr + sym * symSize + symSize < 2 ^ 64
  name : sym ≠ 0 → symtabAddr + sym * symSize + symSize ≤ l.data.length →
    (Elf64Sym.parse (slice l.data (symtabAddr + sym * symSize) symSize)).name < strtab.length →
    ResolveFits (nameAt strtab
      (Elf64Sym.parse (slice l.data (symtabAddr + sym * symSize) symSize)).name) r.objects

/-- When a name is looked up in all objects. -/
lemma resolveIn_returns {name : List UInt8} (objects : List (Nat × ElfLoader)) :
    (resolveIn name objects).Returns ↔ ResolveFits name objects := by
  induction objects with
  | nil => exact .rfl
  | cons object rest ih =>
    obtain ⟨base, l⟩ := object
    unfold resolveIn ResolveFits
    rw [← lookupSymbolHashed_returns]
    have hfound (hs : (l.lookupSymbolHashed name).Returns) :=
      lookupSymbolHashed_found (lookupSymbolHashed_returns.mp hs)
    cases hlook : l.lookupSymbolHashed name with
    | ok value =>
      rw [hlook] at hfound
      exact iff_of_true trivial ⟨trivial, fun hno => absurd ((hfound trivial).mp ⟨value, rfl⟩) hno⟩
    | err e =>
      rw [hlook] at hfound
      have hno : ¬ l.Defines name := fun hdef => nomatch (hfound trivial).mpr hdef
      exact ih.trans ⟨fun h => ⟨trivial, fun _ => h⟩, fun h => h.2 hno⟩
    | _ => exact iff_of_false id fun h => h.1

/-- When a symbol is resolved. -/
lemma resolveSym_returns {symtabAddr : Nat}
    {strtab : List UInt8} (sym : Nat) :
    (r.resolveSym l symtabAddr strtab sym).Returns ↔ SymFits r l symtabAddr strtab sym := by
  have hfits : SymFits r l symtabAddr strtab sym ↔
    (sym ≠ 0 → symtabAddr + sym * symSize + symSize < 2 ^ 64 ∧
      (symtabAddr + sym * symSize + symSize ≤ l.data.length → _ → _)) :=
    ⟨fun h hsym => ⟨h.place hsym, h.name hsym⟩,
      fun h => ⟨fun hsym => (h hsym).1, fun hsym => (h hsym).2⟩⟩
  rw [hfits, resolveSym, returns_ite,
    and_iff_right (a := sym = 0 → (err ()).Returns) fun _ => trivial]
  refine imp_congr_right fun _ => ?_
  simp only [returns_uadd_bind, returns_sliceChecked_bind, returns_ite, resolve,
    resolveIn_returns, returns_err, implies_true, true_and, not_le]
  exact and_iff_right_of_imp fun h => by omega

section Link

variable {imageBase : Nat} {resolve : Nat → Outcome Unit Nat} {symFits : Nat → Prop}

/-- `link` ignores the error of a relocation, so an entry that comes back is passed. -/
lemma linkEntry_ok {r : Rela}
    (h : (applyRelaWith imageBase r resolve image).1.Returns) :
    ∃ k, linkEntry imageBase resolve r image =
      (.ok k, (applyRelaWith imageBase r resolve image).2) := by
  rcases heq : applyRelaWith imageBase r resolve image with ⟨o, image'⟩
  rw [heq] at h
  cases o with
  | ok u => exact ⟨1, bind_ok (attempt_ok heq)⟩
  | err e => exact ⟨0, bind_ok (attempt_err heq)⟩
  | _ => exact absurd h id

lemma linkEntry_returns {r : Rela} :
    (linkEntry imageBase resolve r image).1.Returns ↔
      (applyRelaWith imageBase r resolve image).1.Returns := by
  constructor
  · intro h
    rw [returns_iff_safe] at h
    unfold linkEntry at h
    rw [safe_bind] at h
    exact attempt_returns.mp (safe_iff.mp h).1
  · intro h
    obtain ⟨k, heq⟩ := linkEntry_ok h
    rw [heq]
    trivial

lemma linkEntry_spec (hsym : ∀ sym, (resolve sym).Returns ↔ symFits sym) :
    EntrySpec (linkEntry imageBase resolve) (RelaFits symFits) where
  returns r image := linkEntry_returns.trans (applyRelaWith_returns hsym)
  length r image k image' h := by
    have hret : (linkEntry imageBase resolve r image).1.Returns := by
      rw [h]
      trivial
    obtain ⟨k', heq⟩ := linkEntry_ok (linkEntry_returns.mp hret)
    cases heq.symm.trans h
    exact applyRelaWith_length

/-- A table can be gone through by `link`. -/
lemma linkTable_safe (hsym : ∀ sym, (resolve sym).Returns ↔ symFits sym) {off sz ent : Nat}
    {after : List UInt8 → Prop} :
    (relaTable (linkEntry imageBase resolve) off sz ent).Safe image (fun _ => after) ↔
      RelocsFit (RelaFits symFits) (linkEntry imageBase resolve) off sz ent after image := by
  refine relaTable_safe (linkEntry_spec hsym) fun _ r image hfits => ?_
  obtain ⟨k, heq⟩ := linkEntry_ok ((applyRelaWith_returns hsym).mpr hfits)
  exact ⟨k, _, heq⟩

end Link

/-- The `DT_RELA` table can be gone through, if there is one. -/
def RelaTableFits (fits : Rela → List UInt8 → Prop) (onEntry : Rela → Prog (List UInt8) String Nat)
    (entries : List (Nat × Nat)) (after : List UInt8 → Prop) (image : List UInt8) : Prop :=
  match lastOf dtRela entries, lastOf dtRelasz entries, lastOf dtRelaent entries with
  | some off, some sz, some ent => RelocsFit fits onEntry off sz ent after image
  | _, _, _ => after image

/-- The `DT_JMPREL` table can be gone through, if there is one. -/
def PltTableFits (fits : Rela → List UInt8 → Prop) (onEntry : Rela → Prog (List UInt8) String Nat)
    (entries : List (Nat × Nat)) (image : List UInt8) : Prop :=
  match lastOf dtJmprel entries, lastOf dtPltrelsz entries with
  | some off, some sz => RelocsFit fits onEntry off sz 24 (fun _ => True) image
  | _, _ => True

/-- The files and the image are such that `link` comes back. The second table is gone through in
the image that the first one leaves. -/
structure LinkSafe (r : MultiObjectResolver) (l : ElfLoader) (imageBase : Nat)
    (image : List UInt8) :
    Prop where
  strtab : l.StrtabSafe
  tables : ∀ st a, l.strtab = some st → firstOf dtSymtab l.entries = some a →
    RelaTableFits (RelaFits (SymFits r l a st))
      (linkEntry imageBase (r.resolveSym l a st)) l.entries
      (PltTableFits (RelaFits (SymFits r l a st))
        (linkEntry imageBase (r.resolveSym l a st)) l.entries)
      image

/-- The two tables, one after the other. -/
lemma linkTables_safe {imageBase a : Nat}
    {st image : List UInt8} {entries : List (Nat × Nat)} :
    ((do
      let relaApplied ← linkRela (linkEntry imageBase (r.resolveSym l a st)) entries
      let pltApplied ← linkPlt (linkEntry imageBase (r.resolveSym l a st)) entries
      pure (relaApplied, pltApplied)) : Prog (List UInt8) String (Nat × Nat)).Safe image
        (fun _ _ => True) ↔
    RelaTableFits (RelaFits (SymFits r l a st)) (linkEntry imageBase (r.resolveSym l a st)) entries
      (PltTableFits (RelaFits (SymFits r l a st))
        (linkEntry imageBase (r.resolveSym l a st)) entries)
      image := by
  have hsym (sym : Nat) : (r.resolveSym l a st sym).Returns ↔ SymFits r l a st sym :=
    resolveSym_returns sym
  have hplt (k : Nat) (image : List UInt8) : ((do
      let pltApplied ← linkPlt (linkEntry imageBase (r.resolveSym l a st)) entries
      pure (k, pltApplied)) : Prog (List UInt8) String (Nat × Nat)).Safe image (fun _ _ => True) ↔
      PltTableFits (RelaFits (SymFits r l a st)) (linkEntry imageBase (r.resolveSym l a st)) entries
        image := by
    rw [safe_bind]
    unfold linkPlt PltTableFits
    rcases lastOf dtJmprel entries with - | off
    · exact iff_of_true trivial trivial
    · rcases lastOf dtPltrelsz entries with - | sz
      · exact iff_of_true trivial trivial
      · exact linkTable_safe hsym
  rw [safe_bind]
  refine (safe_congr hplt).trans ?_
  unfold linkRela RelaTableFits
  rcases lastOf dtRela entries with - | off
  · exact safe_pure
  · rcases lastOf dtRelasz entries with - | sz
    · exact safe_pure
    · rcases lastOf dtRelaent entries with - | ent
      · exact safe_pure
      · exact linkTable_safe hsym

/-- When linking comes back. -/
lemma link_returns {imageBase : Nat} :
    (r.link l imageBase image).1.Returns ↔ LinkSafe r l imageBase image := by
  rw [returns_iff_safe]
  unfold link
  rw [dynamicEntries_safe, safe_bind, safe_lift, returns_mapErr, dynamicStrtab_returns]
  constructor
  · intro ⟨hdyn, hstr, h⟩
    refine ⟨hstr, fun st a hst ha => ?_⟩
    have hst' : l.dynamicStrtab.mapErr (fun _ => "link: no DT_STRTAB") = .ok st := by
      rw [dynamicStrtab_eq hstr, hst]
      rfl
    have h := h st hst'
    rw [ha] at h
    exact linkTables_safe.mp h
  · intro h
    refine ⟨h.strtab.dynamic, h.strtab, fun st hst => ?_⟩
    have hst := mapErr_eq_ok.mp hst
    rw [dynamicStrtab_eq h.strtab] at hst
    cases ha : firstOf dtSymtab l.entries with
    | none => trivial
    | some a =>
      refine linkTables_safe.mpr (h.tables st a ?_ ha)
      cases hs : l.strtab <;> simp_all [ElfLoader.required]

/-! ## All of it -/

namespace ElfLoader

/-- `program_headers` comes back, and the bytes each of its headers is decoded from lie inside the
file. -/
def HeadersInside (l : ElfLoader) : Prop :=
  ∃ headers, (l.programHeaders : Outcome Unit _) = .ok headers ∧ ∀ i < headers.length,
    ∀ j < programHeaderSize, l.header.phoff + i * programHeaderSize + j < l.data.length

/-- The table of program headers, if it is read, can be reached and lies inside the file. -/
structure TableInside (l : ElfLoader) : Prop where
  reachable : l.TableReachable
  inside : l.header.phentsize = programHeaderSize → l.header.phnum ≠ 0 →
    l.header.phoff + l.header.phnum * programHeaderSize ≤ l.data.length

/-- The headers are inside exactly if their table is. -/
lemma headersInside_iff : l.HeadersInside ↔ l.TableInside := by
  constructor
  · rintro ⟨headers, heq, hin⟩
    have hreach : l.TableReachable := by
      rw [← programHeaders_returns (ε := Unit), heq]
      trivial
    refine ⟨hreach, fun hsize hnum => ?_⟩
    rw [programHeaders_eq hreach] at heq
    cases heq
    unfold ElfLoader.headers headerTable programHeaderSize at *
    rw [if_neg (not_not_intro hsize), List.length_map, List.length_range] at hin
    have hlast := hin (l.header.phnum - 1) (by omega) 55 (by omega)
    omega
  · intro h
    refine ⟨_, programHeaders_eq h.reachable, fun i hi j hj => ?_⟩
    unfold ElfLoader.headers headerTable programHeaderSize at *
    split at hi
    next => exact absurd hi (not_lt_zero i)
    next hsize =>
      rw [List.length_map, List.length_range] at hi
      have := h.inside (not_not.mp hsize) (by omega)
      unfold programHeaderSize at this
      omega

/-- The table can be reached, and the name of the interpreter ends below 2^64. -/
structure InterpFits (l : ElfLoader) : Prop where
  table : l.TableReachable
  ends : ∀ ph, l.firstHeader ptInterp = some ph → ph.offset + ph.filesz < 2 ^ 64

lemma interpPath_returns : l.interpPath.Returns ↔ l.InterpFits := by
  unfold interpPath
  rw [segment_bind]
  refine Iff.trans (and_congr_right fun _ => ?_) ⟨fun h => ⟨h.1, h.2⟩, fun h => ⟨h.1, h.2⟩⟩
  cases l.firstHeader ptInterp <;> simp

/-- Every function of the parser comes back, works with headers that are in the file, and the
hashed lookup falls back to the linear one. -/
structure ParsesSafely (l : ElfLoader) (name : List UInt8) (image : List UInt8) (imageBase : Nat)
    (r : MultiObjectResolver) : Prop where
  headers : l.HeadersInside ∧ ∀ object ∈ r.objects, object.2.HeadersInside
  interp : l.interpPath.Returns
  entries : (l.dynamicEntries : Outcome Unit _).Returns
  needed : (l.neededLibraries : Outcome Unit _).Returns
  soname : l.soname.Returns
  symbols : l.dynamicSymbols.Returns
  lookup : (l.lookupSymbol name).Returns
  hashed : (l.lookupSymbolHashed name).Returns
  relocates : (l.applyPieRelocations imageBase image).1.Returns
  links : (r.link l imageBase image).1.Returns
  fallsBack : l.FallsBack name

/-- The numbers in the file are such that it can be parsed. -/
structure Fits (l : ElfLoader) (name : List UInt8) (image : List UInt8) (imageBase : Nat)
    (r : MultiObjectResolver) : Prop where
  headers : l.TableInside ∧ ∀ object ∈ r.objects, object.2.TableInside
  interp : l.InterpFits
  strtab : l.StrtabSafe
  symbols : l.SymbolsSafe
  hashed : l.HashedSafe name
  relocates : PieSafe l imageBase image
  links : LinkSafe r l imageBase image
  malformed : l.HashMalformed name → ¬ l.Listed name

/-- On every file that `new` accepts the parser is safe exactly if the numbers in it fit. -/
theorem parsesSafely_iff (l : ElfLoader) (name : List UInt8) (image : List UInt8) (imageBase : Nat)
    (r : MultiObjectResolver) :
    l.ParsesSafely name image imageBase r ↔ l.Fits name image imageBase r := by
  have hheaders : (l.HeadersInside ∧ ∀ object ∈ r.objects, object.2.HeadersInside) ↔
      l.TableInside ∧ ∀ object ∈ r.objects, object.2.TableInside :=
    and_congr headersInside_iff (forall₂_congr fun _ _ => headersInside_iff)
  constructor
  · intro h
    have hsymbols := dynamicSymbols_returns.mp h.symbols
    have hhashed := lookupSymbolHashed_returns.mp h.hashed
    exact {
      headers := hheaders.mp h.headers
      interp := interpPath_returns.mp h.interp
      strtab := soname_returns.mp h.soname
      symbols := hsymbols
      hashed := hhashed
      relocates := applyPieRelocations_returns.mp h.relocates
      links := link_returns.mp h.links
      malformed := (fallsBack_iff hhashed hsymbols).mp h.fallsBack }
  · intro h
    exact {
      headers := hheaders.mpr h.headers
      interp := interpPath_returns.mpr h.interp
      entries := dynamicEntries_returns.mpr h.strtab.dynamic
      needed := neededLibraries_returns.mpr h.strtab
      soname := soname_returns.mpr h.strtab
      symbols := dynamicSymbols_returns.mpr h.symbols
      lookup := lookupSymbol_returns.mpr h.symbols
      hashed := lookupSymbolHashed_returns.mpr h.hashed
      relocates := applyPieRelocations_returns.mpr h.relocates
      links := link_returns.mpr h.links
      fallsBack := (fallsBack_iff h.hashed h.symbols).mpr h.malformed }

/-- A file that is a header only, for a program header that would stand right behind it. -/
def headerOnly : List UInt8 :=
  [0x7F, 0x45, 0x4C, 0x46, 2, 1, 1, 0] ++ List.replicate 8 0 ++ [2, 0, 62, 0, 1, 0, 0, 0] ++
    List.replicate 8 0 ++ [64, 0, 0, 0, 0, 0, 0, 0] ++ List.replicate 12 0 ++
    [64, 0, 56, 0, 1, 0] ++ List.replicate 6 0

/-- The loader of that file, on a page of a memory of zeros. -/
def headerOnlyLoader : ElfLoader :=
  ⟨headerOnly, fun _ => 0, 4096, by decide, by decide, by decide, by decide⟩

/-- Its program header is read from behind the file. -/
theorem headerOnly_reads_outside : ¬ headerOnlyLoader.ParsesSafely [] [] 0 ⟨[]⟩ := by
  intro h
  obtain ⟨headers, heq, hinside⟩ := h.headers.1
  have hcount : 0 < headers.length := by
    cases heq
    decide
  exact absurd (hinside 0 hcount 0 (by decide)) (by decide)

end ElfLoader

end RustOs.Elf
