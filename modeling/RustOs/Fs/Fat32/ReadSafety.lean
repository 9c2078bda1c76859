import RustOs.Fs.Fat32.Mount
import RustOs.Fs.Fat32.Ownership
import RustOs.Lib.Follow
import RustOs.Lib.Safe

/-!
# Reading any volume

What `FileSystem::read` does on a drive with any content at all, as long as the volume could be
mounted and has 512-byte sectors. Nothing is known of the FAT and of the directories, so cluster
numbers, links and sizes can be anything.

Each function has its rule for `Safe`: what it takes to come back, and what it comes back with.
Reading only looks at the drive, so the loop over a chain is a `follow` of `clusterStep`. A
cluster can be read if its number is at least 2 and not so large that an address leaves its 32
bits (`SafeCluster`); a chain can be followed if all its clusters can be read and there are
finitely many (`ChainSafe`). `ReadSafe` asks this of every directory on the path and of the file,
and that the file is not longer than its chain. `read_returns_iff`: these are exactly the reads
that come back.
-/

namespace RustOs.Fs.Fat32

open Lib Outcome Nat List
open Prog (Safe safe_iff returns_iff_safe safe_congr safe_bind safe_pure safe_lift safe_fail
    safe_ite safe_mapErr
  safe_lift_bind safe_lift_fst eq_ok_iff_safe safe_uadd safe_usub safe_umul safe_udiv safe_urem)
open Drivers

/-! ## Sectors -/

/-- The drive delivers `n` sectors from `lba` on. -/
def delivers (d : Image) (lba n : Nat) : Prop := ∀ i < n, (d ((lba + i) % 2 ^ 28)).isSome

/-- Their bytes. -/
def bytesAt (d : Image) (lba n : Nat) : List UInt8 :=
  (List.range n).flatMap fun i => ((d ((lba + i) % 2 ^ 28)).map Sector.bytes).getD []

/-- The addresses of `n` sectors from `lba` on stay in 32 bits, as far as the drive delivers. -/
def Addressed (d : Image) (lba n : Nat) : Prop := ∀ i < n, delivers d lba i → lba + i < 2 ^ 32

section Sectors

variable {d : Image} {lba n : Nat}

lemma delivers_succ :
    delivers d lba (n + 1) ↔ (d (lba % 2 ^ 28)).isSome ∧ delivers d (lba + 1) n := by
  constructor
  · intro h
    refine ⟨h 0 (succ_pos n), fun i hi => ?_⟩
    have := h (i + 1) (Nat.succ_lt_succ hi)
    rwa [Nat.add_right_comm]
  · rintro ⟨h0, h⟩ i hi
    cases i with
    | zero => exact h0
    | succ i =>
      have := h i (Nat.lt_of_succ_lt_succ hi)
      rwa [Nat.add_right_comm] at this

lemma addressed_succ : Addressed d lba (n + 1) ↔
    lba < 2 ^ 32 ∧ ((d (lba % 2 ^ 28)).isSome → Addressed d (lba + 1) n) := by
  constructor
  · intro h
    refine ⟨h 0 (succ_pos n) fun i hi => absurd hi (not_lt_zero i), fun h0 i hi hd => ?_⟩
    have := h (i + 1) (Nat.succ_lt_succ hi) (delivers_succ.mpr ⟨h0, hd⟩)
    rwa [Nat.add_right_comm]
  · rintro ⟨h0, h⟩ i hi hd
    cases i with
    | zero => exact h0
    | succ i =>
      obtain ⟨hsome, hd⟩ := delivers_succ.mp hd
      have := h hsome i (Nat.lt_of_succ_lt_succ hi) hd
      rwa [Nat.add_right_comm] at this

lemma bytesAt_succ {s : Sector} (h : d (lba % 2 ^ 28) = some s) :
    bytesAt d lba (n + 1) = s.bytes ++ bytesAt d (lba + 1) n := by
  unfold bytesAt
  rw [range_succ_eq_map, flatMap_cons, Nat.add_zero, h, flatMap_map]
  refine congrArg (s.bytes ++ ·) (flatMap_congr fun i _ => ?_)
  rw [Nat.add_right_comm, Nat.add_assoc]

lemma bytesAt_length (h : delivers d lba n) : (bytesAt d lba n).length = n * 512 := by
  induction n generalizing lba with
  | zero => rfl
  | succ n ih =>
    obtain ⟨hsome, hrest⟩ := delivers_succ.mp h
    obtain ⟨s, hs⟩ := Option.isSome_iff_exists.mp hsome
    rw [bytesAt_succ hs, length_append, s.len, ih hrest]
    omega

lemma readSector_safe {post : Sector → Image → Prop} :
    (Drive.readSector lba : Prog Image String Sector).Safe d post ↔
      ∀ s, d (lba % 2 ^ 28) = some s → post s d := by
  show (Prog.lift (d.sector lba)).Safe d post ↔ _
  unfold Image.sector
  cases d (lba % 2 ^ 28) <;> simp [Safe]

/-- The loop of `read_sectors` comes back while the addresses fit, and delivers the sectors. -/
lemma readSectorsFrom_safe (lba n : Nat) : ∀ i (post : List UInt8 → Image → Prop),
    (readSectorsFrom lba i n : Prog Image String _).Safe d post ↔
      Addressed d (lba + i) n ∧ (delivers d (lba + i) n → post (bytesAt d (lba + i) n) d) := by
  induction n with
  | zero => simp [readSectorsFrom, safe_pure, Addressed, delivers, bytesAt]
  | succ n ih =>
    intro i post
    simp only [readSectorsFrom, safe_bind, safe_uadd, readSector_safe, ih, safe_pure,
      addressed_succ, delivers_succ]
    cases hs : d ((lba + i) % 2 ^ 28) with
    | none => simp
    | some s => simp [bytesAt_succ hs, add_assoc, and_assoc]

end Sectors

/-! ## Clusters -/

/-- A cluster that can be read, and whose FAT entry can be looked up then. -/
structure SafeCluster (fs : Fat32) (d : Image) (c : Nat) : Prop where
  two : 2 ≤ c
  sectors : Addressed d (fs.firstSector c) fs.sectorsPerCluster
  entry : delivers d (fs.firstSector c) fs.sectorsPerCluster → c < 2 ^ 30

/-- The FAT entry of a cluster, if the drive delivers it. -/
def fatEntry (fs : Fat32) (d : Image) (c : Nat) : Option Nat :=
  (d ((fs.firstFatSector + c / 128) % 2 ^ 28)).map fun s => entryIn s c % 2 ^ 28

/-- The cluster is delivered and its entry leads on. -/
structure Next (fs : Fat32) (d : Image) (c next : Nat) : Prop where
  delivered : delivers d (fs.firstSector c) fs.sectorsPerCluster
  entry : fs.fatEntry d c = some next
  low : 2 ≤ next
  high : next < 0x0FFFFFF8

/-- The cluster is delivered and its entry ends the chain. -/
structure Last (fs : Fat32) (d : Image) (c : Nat) : Prop where
  delivered : delivers d (fs.firstSector c) fs.sectorsPerCluster
  entry : ∃ e, fs.fatEntry d c = some e ∧ 0x0FFFFFF8 ≤ e

/-- One turn of the loop of `read_cluster_chain`: the bytes of a cluster and the next one. -/
def clusterStep (fs : Fat32) (d : Image) (c : Nat) : Outcome String (List UInt8 × Option Nat) := do
  let data ← (fs.readCluster c d).1
  let next ← (fs.getNextCluster c d).1
  pure (data, next)

variable {post : List UInt8 → Image → Prop}

section Clusters

variable {fs : Fat32} {d : Image} {c : Nat}

variable (hbps : fs.bytesPerSector = 512)
include hbps

/-- `read_cluster` comes back while the addresses fit, and delivers the cluster. -/
lemma readCluster_safe (hspc : 0 < fs.sectorsPerCluster) :
    (fs.readCluster c : Prog Image String _).Safe d post ↔
      (2 ≤ c ∧ Addressed d (fs.firstSector c) fs.sectorsPerCluster) ∧
        (delivers d (fs.firstSector c) fs.sectorsPerCluster →
          post (bytesAt d (fs.firstSector c) fs.sectorsPerCluster) d) := by
  have hlba : Addressed d (fs.firstSector c) fs.sectorsPerCluster →
      (c - 2) * fs.sectorsPerCluster + fs.firstDataSector < 2 ^ 32 :=
    fun h => h 0 hspc fun i hi => absurd hi (not_lt_zero i)
  have hsize : ¬ fs.clusterSize < fs.sectorsPerCluster * 512 := by
    rw [clusterSize, hbps]
    exact lt_irrefl _
  have hpad : delivers d (fs.firstSector c) fs.sectorsPerCluster →
      padTo fs.clusterSize (bytesAt d (fs.firstSector c) fs.sectorsPerCluster) =
        bytesAt d (fs.firstSector c) fs.sectorsPerCluster :=
    fun h => padTo_of_length (by rw [bytesAt_length h, clusterSize, hbps])
  simp only [readCluster, clusterToSector, readSectors, if_neg hsize, safe_bind, safe_lift_bind,
    safe_usub, safe_umul,
    safe_uadd, readSectorsFrom_safe]
  constructor
  · rintro ⟨h2, _, _, haddr, hpost⟩
    exact ⟨⟨h2, haddr⟩, fun hd => hpad hd ▸ hpost hd⟩
  · rintro ⟨⟨h2, haddr⟩, hpost⟩
    have hfits := hlba haddr
    exact ⟨h2, by omega, hfits, haddr, fun hd => (hpad hd).symm ▸ hpost hd⟩

omit hbps in
/-- What it takes to read a FAT entry, whatever the size of a sector. -/
lemma readFatEntry_safe {post : Nat → Image → Prop} :
    (fs.readFatEntry c : Prog Image String _).Safe d post ↔
      c * 4 < 2 ^ 32 ∧ fs.bytesPerSector ≠ 0 ∧
        fs.firstFatSector + c * 4 / fs.bytesPerSector < 2 ^ 32 ∧
      ∀ s, d ((fs.firstFatSector + c * 4 / fs.bytesPerSector) % 2 ^ 28) = some s →
        c * 4 % fs.bytesPerSector + 4 ≤ 512 ∧
          post (leAt s.bytes (c * 4 % fs.bytesPerSector) 4 % 2 ^ 28) d := by
  have hraw (s : Sector) (off : Nat) (post : Nat → Image → Prop) :
      (Prog.lift (le32In s off)).Safe d post ↔ off + 4 ≤ 512 ∧ post (leAt s.bytes off 4) d := by
    unfold le32In
    split <;> simp [Safe, *]
  simp only [readFatEntry, safe_bind, safe_umul, safe_udiv, safe_uadd, safe_urem,
    readSector_safe, safe_pure]
  grind

/-- The FAT entry of a cluster, which can be looked up if the number has at most 30 bits. -/
lemma getNextCluster_safe (hfat : fs.firstFatSector < 2 ^ 16) {post : Option Nat → Image → Prop} :
    (fs.getNextCluster c : Prog Image String _).Safe d post ↔
      c < 2 ^ 30 ∧ ∀ e, fs.fatEntry d c = some e →
        (0x0FFFFFF8 ≤ e → post none d) ∧ (e < 0x0FFFFFF8 → 2 ≤ e → post (some e) d) := by
  have hq : c * 4 / 512 = c / 128 := by omega
  have hr : c * 4 % 512 = c % 128 * 4 := by omega
  simp only [getNextCluster, safe_bind, readFatEntry_safe, safe_ite, safe_pure, safe_fail, fatEntry,
    Option.map_eq_some_iff, entryIn]
  grind

variable (hm : Mounted fs)
include hm

/-- A turn of the loop: what it takes, and what it delivers. -/
lemma clusterStep_safe {post : List UInt8 × Option Nat → Image → Prop} :
    (Prog.lift (fs.clusterStep d c)).Safe d post ↔ fs.SafeCluster d c ∧
      (fs.Last d c → post (bytesAt d (fs.firstSector c) fs.sectorsPerCluster, none) d) ∧
      ∀ next, fs.Next d c next →
        post (bytesAt d (fs.firstSector c) fs.sectorsPerCluster, some next) d := by
  unfold clusterStep
  simp only [safe_lift_bind, safe_lift_fst (readCluster_readOnly fs c),
    readCluster_safe hbps hm.spc,
    safe_lift_fst (getNextCluster_readOnly fs c), getNextCluster_safe hbps hm.firstFat]
  constructor
  · intro ⟨⟨h2, haddr⟩, h⟩
    refine ⟨⟨h2, haddr, fun hd => (h hd).1⟩, fun ⟨hd, e, he, hlast⟩ => ((h hd).2 e he).1 hlast, ?_⟩
    exact fun next ⟨hd, he, hlow, hhigh⟩ => ((h hd).2 next he).2 hhigh hlow
  · intro ⟨⟨h2, haddr, hc⟩, hlast, hnext⟩
    refine ⟨⟨h2, haddr⟩, fun hd => ⟨hc hd, fun e he => ⟨fun hge => hlast ⟨hd, e, he, hge⟩, ?_⟩⟩⟩
    exact fun hlt hlow => hnext e ⟨hd, he, hlow, hlt⟩

lemma clusterStep_returns : (fs.clusterStep d c).Returns ↔ fs.SafeCluster d c := by
  refine (returns_iff_safe (x := Prog.lift (fs.clusterStep d c)) (s := d)).trans
    ((clusterStep_safe hbps hm).trans ?_)
  exact and_iff_left ⟨fun _ => trivial, fun _ _ => trivial⟩

/-- What a turn of the loop delivers. -/
lemma clusterStep_ok {b : List UInt8} {next : Option Nat} :
    fs.clusterStep d c = .ok (b, next) ↔
      fs.SafeCluster d c ∧ b = bytesAt d (fs.firstSector c) fs.sectorsPerCluster ∧
        match next with
        | none => fs.Last d c
        | some c' => fs.Next d c c' := by
  rw [eq_ok_iff_safe (s := d), clusterStep_returns hbps hm, clusterStep_safe hbps hm]
  cases next <;> simp <;> grind

end Clusters

/-! ## Chains -/

/-- A chain that can be followed: all its clusters can be read, and it ends. -/
inductive ChainSafe (fs : Fat32) (d : Image) : Nat → Prop where
  | intro {c : Nat} (here : fs.SafeCluster d c)
      (on : ∀ next, fs.Next d c next → ChainSafe fs d next) :
      ChainSafe fs d c

/-- The bytes along a chain that ends properly. -/
inductive ChainHolds (fs : Fat32) (d : Image) : Nat → List UInt8 → Prop where
  | last {c : Nat} (h : fs.Last d c) :
      ChainHolds fs d c (bytesAt d (fs.firstSector c) fs.sectorsPerCluster)
  | cons {c next : Nat} {rest : List UInt8} (h : fs.Next d c next) (t : ChainHolds fs d next rest) :
      ChainHolds fs d c (bytesAt d (fs.firstSector c) fs.sectorsPerCluster ++ rest)

section Chains

variable {fs : Fat32} {d : Image} {c : Nat}

/-- The loop follows the clusters. -/
lemma readClusterChainFrom_image (fs : Fat32) (d : Image) (fuel : Nat) : ∀ c,
    (fs.readClusterChainFrom fuel c d).1 =
      (follow (fs.clusterStep d) fuel c >>= fun l => .ok l.flatten) := by
  induction fuel with
  | zero => exact fun c => rfl
  | succ fuel ih =>
    intro c
    have hstep : fs.clusterStep d c = ((fs.readCluster c d).1 >>= fun data =>
        (fs.getNextCluster c d).1 >>= fun next => pure (data, next)) := rfl
    conv_lhs => unfold readClusterChainFrom
    conv_rhs => unfold follow
    rw [hstep, (readCluster_readOnly fs c).bind_fst, bind_assoc, bind_assoc]
    refine congrArg _ (funext fun data => ?_)
    rw [(getNextCluster_readOnly fs c).bind_fst, bind_assoc]
    refine congrArg _ (funext fun next => ?_)
    rw [pure_eq, ok_bind]
    cases next with
    | none =>
      show ok data = .ok ([data].flatten)
      rw [flatten_singleton]
    | some next =>
      rw [(readClusterChainFrom_readOnly fs fuel next).bind_fst, ih next, bind_assoc, bind_assoc]
      rfl

variable (hbps : fs.bytesPerSector = 512) (hm : Mounted fs)
include hbps hm

/-- A chain is safe exactly if it can be followed to its end. -/
lemma chainSafe_iff : fs.ChainSafe d c ↔ Follows (fs.clusterStep d) c := by
  constructor
  · intro h
    induction h with
    | intro here _ ih =>
      refine .intro ((clusterStep_returns hbps hm).mpr here) fun b next hstep => ?_
      exact ih next ((clusterStep_ok hbps hm).mp hstep).2.2
  · intro h
    induction h with
    | intro here _ ih =>
      have hsafe := (clusterStep_returns hbps hm).mp here
      refine .intro hsafe fun next hnext => ?_
      exact ih _ next ((clusterStep_ok hbps hm).mpr ⟨hsafe, rfl, hnext⟩)

/-- `read_cluster_chain` comes back from the chains that can be followed. -/
lemma readClusterChain_returns : (fs.readClusterChain c d).1.Returns ↔ fs.ChainSafe d c := by
  unfold readClusterChain
  rw [readClusterChainFrom_image, returns_bind, chainSafe_iff hbps hm]
  have hlinks : ∀ x b y, fs.clusterStep d x = .ok (b, some y) → y ∈ Finset.range (2 ^ 28) := by
    intro x b y hstep
    have hnext : fs.Next d x y := ((clusterStep_ok hbps hm).mp hstep).2.2
    have hhigh := hnext.high
    exact Finset.mem_range.mpr (by omega)
  have hfuel : (Finset.range (2 ^ 28)).card < chainFuel := by
    rw [Finset.card_range]
    exact Nat.lt_add_of_pos_right (by omega)
  rw [follow_returns_iff hlinks hfuel]
  exact ⟨fun h => h.1, fun h => ⟨h, fun _ _ => trivial⟩⟩

/-- What it delivers. -/
lemma readClusterChain_ok {data : List UInt8} :
    (fs.readClusterChain c d).1 = .ok data ↔ fs.ChainSafe d c ∧ fs.ChainHolds d c data := by
  by_cases hsafe : fs.ChainSafe d c
  · have hret := (readClusterChain_returns hbps hm).mpr hsafe
    unfold readClusterChain at hret ⊢
    rw [readClusterChainFrom_image] at hret ⊢
    rw [bind_eq_ok]
    have hcollects : ∀ c l, Collects (fs.clusterStep d) c l → fs.ChainHolds d c l.flatten := by
      intro c l h
      induction h with
      | last hstep =>
        obtain ⟨-, rfl, hlast⟩ := (clusterStep_ok hbps hm).mp hstep
        rw [flatten_singleton]
        exact .last hlast
      | cons hstep _ ih =>
        obtain ⟨-, rfl, hnext⟩ := (clusterStep_ok hbps hm).mp hstep
        exact .cons hnext ih
    have hholds : ∀ c data, fs.ChainHolds d c data → fs.ChainSafe d c →
        ∃ l, Collects (fs.clusterStep d) c l ∧ data = l.flatten := by
      intro c data h
      induction h with
      | last hlast =>
        rintro ⟨here, -⟩
        exact ⟨_, .last ((clusterStep_ok hbps hm).mpr ⟨here, rfl, hlast⟩), flatten_singleton.symm⟩
      | cons hnext _ ih =>
        rintro ⟨here, on⟩
        obtain ⟨l, hl, rfl⟩ := ih (on _ hnext)
        exact ⟨_, .cons ((clusterStep_ok hbps hm).mpr ⟨here, rfl, hnext⟩) hl, rfl⟩
    constructor
    · rintro ⟨l, hl, heq⟩
      cases heq
      exact ⟨hsafe, hcollects c l ((follow_eq_ok_iff (returns_bind.mp hret).1).mp hl)⟩
    · rintro ⟨-, h⟩
      obtain ⟨l, hl, rfl⟩ := hholds c data h hsafe
      exact ⟨l, (follow_eq_ok_iff (returns_bind.mp hret).1).mpr hl, rfl⟩
  · refine iff_of_false (fun h => hsafe ?_) fun h => hsafe h.1
    refine (readClusterChain_returns hbps hm).mp ?_
    rw [h]
    trivial

lemma readClusterChain_safe :
    (fs.readClusterChain c : Prog Image String _).Safe d post ↔
      fs.ChainSafe d c ∧ ∀ data, fs.ChainHolds d c data → post data d := by
  rw [← safe_lift_fst (readClusterChain_readOnly fs c), safe_lift, readClusterChain_returns hbps hm]
  refine and_congr_right fun hsafe => forall_congr' fun data => ?_
  rw [readClusterChain_ok hbps hm, and_iff_right hsafe]

end Chains

/-! ## Paths -/

/-- The entry that a name finds in the bytes of a directory. -/
def entryFor (data : List UInt8) (name : Str) : Option DirectoryEntry :=
  ((scanSlots (slots data) LfnState.init).find? (nameMatches name)).map (·.1)

/-- A file whose chain can be followed and is not shorter than its size. -/
structure FileSafe (fs : Fat32) (d : Image) (entry : DirectoryEntry) : Prop where
  chain : fs.ChainSafe d entry.firstCluster
  size : ∀ data, fs.ChainHolds d entry.firstCluster data → entry.fileSize.toNat ≤ data.length

/-- From this directory on, every directory on the path and the file at its end can be read. -/
def PathSafe (fs : Fat32) (d : Image) : Nat → List Str → Prop
  | _, [] => True
  | c, [name] => fs.ChainSafe d c ∧ ∀ data entry, fs.ChainHolds d c data →
      entryFor data name = some entry → entry.isDirectory = false → fs.FileSafe d entry
  | c, name :: next :: rest => fs.ChainSafe d c ∧ ∀ data entry, fs.ChainHolds d c data →
      entryFor data name = some entry → entry.isDirectory = true →
      PathSafe fs d entry.firstCluster (next :: rest)

/-- The path can be read. -/
def ReadSafe (fs : Fat32) (d : Image) (path : Str) : Prop :=
  fs.PathSafe d fs.rootCluster (components (trimStartMatches '/' path))

section Paths

variable {fs : Fat32} {d : Image}

variable (hbps : fs.bytesPerSector = 512) (hm : Mounted fs)
include hbps hm

lemma findFileInDirectory_safe {c : Nat} {name : Str}
    {post : Option DirectoryEntry → Image → Prop} :
    (fs.findFileInDirectory c name : Prog Image String _).Safe d post ↔
      fs.ChainSafe d c ∧ ∀ data, fs.ChainHolds d c data → post (entryFor data name) d := by
  simp only [findFileInDirectory, readDirectoryWithLfn, safe_bind, readClusterChain_safe hbps hm]
  exact .rfl

/-- The search comes back, and finds only files that can be read, exactly if the path is safe. -/
lemma pathSafe_iff (names : List Str) : ∀ c, fs.PathSafe d c names ↔
    (fs.findFileFrom c names).Safe d fun found d' =>
      ∀ entry, found = some entry → entry.isDirectory = false → fs.FileSafe d' entry := by
  induction names with
  | nil => exact fun c => iff_of_true trivial fun entry h => nomatch h
  | cons name rest ih =>
    intro c
    cases rest with
    | nil =>
      unfold PathSafe findFileFrom
      rw [findFileInDirectory_safe hbps hm]
      grind
    | cons next rest =>
      unfold PathSafe findFileFrom
      rw [safe_bind, findFileInDirectory_safe hbps hm]
      refine and_congr_right fun _ => forall_congr' fun data => ?_
      rw [forall_comm]
      refine imp_congr_right fun _ => ?_
      cases entryFor data name with
      | none => exact iff_of_true (fun entry h => nomatch h) fun entry h => nomatch h
      | some entry =>
        rw [safe_ite, ← ih]
        simp [safe_fail]

/-- The second half of `read`: the file comes back if it can be read. -/
lemma readFile_safe (entry : DirectoryEntry) :
    (do
      let data ← (fs.readClusterChain entry.firstCluster).mapErr fun _ => VfsError.ioError
      if entry.fileSize.toNat ≤ data.length then pure (data.take entry.fileSize.toNat)
      else Prog.lift .panic : Prog Image VfsError (List UInt8)).Safe d (fun _ _ => True) ↔
        fs.FileSafe d entry := by
  simp only [safe_bind, safe_mapErr, readClusterChain_safe hbps hm, safe_ite, safe_lift]
  exact ⟨fun h => ⟨h.1, fun data hdata => not_lt.mp fun hlt =>
    ((h.2 data hdata).2 (not_le.mpr hlt)).1⟩,
    fun h => ⟨h.chain, fun data hdata => ⟨fun _ => trivial,
      fun hlt => absurd (h.size data hdata) hlt⟩⟩⟩

end Paths

/-- `FileSystem::read` on a mounted volume with 512-byte sectors comes back, with a value or an
error, exactly if the path can be read. -/
theorem read_returns_iff {d₀ : Image} {fs : Fat32} (hnew : (new d₀).1 = .ok fs)
    (hbps : fs.bytesPerSector = 512) (path : Str) :
    (fs.read path (new d₀).2).1.Returns ↔ fs.ReadSafe (new d₀).2 path := by
  have hm : Mounted fs := new_ok (Prod.ext hnew rfl)
  unfold ReadSafe read
  rw [pathSafe_iff hbps hm, returns_iff_safe, safe_bind, safe_mapErr]
  refine safe_congr fun found d => ?_
  cases found with
  | none => exact iff_of_true trivial fun entry h => nomatch h
  | some entry =>
    rw [safe_ite, readFile_safe hbps hm]
    simp [safe_fail]

/-! ## A small volume

The disk of `smallFs` with a boot sector that names no FSInfo sector. -/

def smallBoot : Sector :=
  Sector.ofBytes (patch (padTo 512 ([0xEB, 0x58, 0x90] ++ List.replicate 8 0x20 ++ leBytes 2 512
    ++ leBytes 1 1 ++ leBytes 2 32 ++ leBytes 1 2 ++ leBytes 2 0 ++ leBytes 2 0 ++ [0xF8]
    ++ leBytes 2 0 ++ leBytes 2 0 ++ leBytes 2 0 ++ leBytes 4 0 ++ leBytes 4 66581
    ++ leBytes 4 512 ++ leBytes 2 0 ++ leBytes 2 0 ++ leBytes 4 2 ++ leBytes 2 0))
    510 (leBytes 2 0xAA55))

def smallImage : Image := fun n => some (if n = 0 then smallBoot else smallDisk n)

def smallVolume : Fat32 := { smallFs with fsInfoSector := 0 }

lemma new_smallImage : (new smallImage).1 = .ok smallVolume := by decide +kernel

/-- The file `D/F` can be read. -/
theorem read_returns_small : (new smallImage).1 = .ok smallVolume ∧
    smallVolume.ReadSafe (new smallImage).2 ['D', '/', 'F'] := by
  have hread : (smallVolume.read ['D', '/', 'F'] (new smallImage).2).1 = .ok [1, 2, 3] := by
    decide +kernel
  refine ⟨new_smallImage, (read_returns_iff new_smallImage rfl ['D', '/', 'F']).mp ?_⟩
  rw [hread]
  trivial

/-- The entry `..` of `D` points at the root with cluster 0, so a path through it panics. -/
theorem dotdot_panics : (new smallImage).1 = .ok smallVolume ∧ smallVolume.bytesPerSector = 512 ∧
    ¬ (smallVolume.read ['D', '/', '.', '.', '/', 'B'] (new smallImage).2).1.Returns := by
  have hread : (smallVolume.read ['D', '/', '.', '.', '/', 'B'] (new smallImage).2).1 = .panic := by
    decide +kernel
  refine ⟨by decide +kernel, rfl, ?_⟩
  rw [hread]
  exact not_returns_panic

end RustOs.Fs.Fat32
