import OsKernel.Fat32.Frame
import OsKernel.Shell.RequestFields

/-!
# `mkdir` and `cd`

`mkdir` takes its word for the bytes of a name and an extension, `cd` for a path. After a reported
`mkdir` the same word leads `cd` into the new folder, and `..` back, exactly for the words of one to
nine characters without a separator that named no folder before (`mkdir_cd_iff`). Nothing refuses
the others: a separator becomes part of a name that no path reaches, a word of ten or more
characters is longer than what `get_deep_folder_cluster` can look up, and from the twelfth character
on a word may send the folder to another directory.
-/

namespace OsKernel

open Lib Relation

/-! ## The commands -/

/-- `mkdir`, with the request that it builds from the word. -/
def mkdirWord (c : CommandInput) (y : RequestContext) (goal : Argument) (x : Session) :
    Except Fault (Int × Session) := do
  match ← mkdirRequest { y with cwd := x.state.cwdClusterNumber } goal with
  | none => return (3, x)
  | some request =>
    let (answer, k) ← mkdir { c with mem := storeRequest c.mem c.request request } x.kernel
    return (answer.returned, { x with kernel := k })

/-- What `cd` returns. -/
def cdReturns (goal : List UInt8) (x : Session) : Except Fault Int := do
  let newCluster ←
    getDeepFolderCluster x.kernel.fs (goal.length + 2) goal x.state.cwdClusterNumber
  if newCluster = 0xFFFFFFFF then return 1
  else if newCluster ≠ 0 then return 0
  else return 2

/-- `cd` returns 0, and the working directory is then the one at `d`. -/
structure Enters (goal : List UInt8) (x : Session) (d : UInt32) : Prop where
  returned : cdReturns goal x = .ok 0
  moved : ∃ y, (cd goal x).result = .ok y ∧ y.state.cwdClusterNumber = d

/-- The session with another working directory. -/
def Session.inside (x : Session) (d : UInt32) : Session :=
  { x with state := { x.state with cwdClusterNumber := d } }

/-- After `mkdir` the word leads into the new folder of the working directory, and `..` back. -/
def FolderEntered (goal : List UInt8) (x x' : Session) : Prop :=
  ∃ e, e ∈ x'.kernel.fs.entries x.state.cwdClusterNumber ∧
    e ∉ x.kernel.fs.entries x.state.cwdClusterNumber ∧ e.isSubdirectory = true ∧
    Enters goal x' e.cluster ∧ Enters [0x2E, 0x2E] (x'.inside e.cluster) x.state.cwdClusterNumber

/-- A word of one to nine characters, none of them a separator, that names no folder so far. -/
structure FolderWord (fs : FileSystem) (cwd : UInt32) (goal : List UInt8) : Prop where
  nonempty : goal ≠ []
  length : goal.length ≤ 9
  plain : ∀ c ∈ goal, isSeparator c = false
  new : ∀ i : Fin 64, 1 ≤ i.val → matchesFolder goal (fs.tableAt cwd i) = false

/-! ## Directories that can be walked through -/

/-- The entries are in order, the ones for the parent directories lead up, and the string of every
entry ends within the entry. -/
structure FileSystem.Walkable (fs : FileSystem) : Prop extends fs.Tidy, fs.LinksUp where
  terminated : ∀ {d e}, fs.LiveDir d → e ∈ fs.entries d → 0 ∈ e.bytes
  rootUp : (fs.tableAt rootClusterNumber 1).cluster = rootClusterNumber

section Bytes
variable {e : DirectoryEntry} {request : DriverRequest} {c : UInt32}

theorem DirectoryEntry.byte_mem_bytes {k : Nat} (hk : k < 32) : e.byte k ∈ e.bytes :=
  List.mem_map.2 ⟨⟨k, hk⟩, List.mem_finRange _, rfl⟩

/-- A new entry has a zero byte behind its name. -/
theorem zero_mem_createdEntry : 0 ∈ (createdEntry request c).bytes :=
  DirectoryEntry.byte_mem_bytes (e := createdEntry request c) (k := 13) (by decide)

theorem zero_mem_folder {name : Vector UInt8 8} :
    0 ∈ (DirectoryEntry.zero.folder name c).bytes :=
  DirectoryEntry.byte_mem_bytes (e := DirectoryEntry.zero.folder name c) (k := 13) (by decide)

end Bytes

section Walkable
variable {fs fs' : FileSystem} {d : UInt32}

theorem FileSystem.Headed.walkable (h : fs.Headed) : fs.Walkable where
  toTidy := h.toTidy
  toLinksUp := h.toLinksUp
  terminated {d e} hd he := by
    obtain ⟨i, hi, rfl, -⟩ := mem_records.1 he
    exact h.zero_mem_slot hd (le_of_lt hi)
  rootUp := h.rootUp

namespace FileSystem.Walkable
variable (h : fs.Walkable)
include h

/-- The string of a slot ends within the slot. -/
theorem zero_mem_slot (hd : fs.LiveDir d) {i : Fin 64} (hi : 1 ≤ i.val) :
    0 ∈ (fs.tableAt d i).bytes := by
  rcases Nat.eq_or_lt_of_le hi with h1 | h2
  · obtain rfl : i = 1 := Fin.ext h1.symm
    have hname := DirectoryEntry.zero_mem_of_isDotDot (h.dotdot hd)
    exact DirectoryEntry.zero_mem_bytes (.inl hname)
  · cases hlive : (fs.tableAt d i).live with
    | true => exact h.terminated hd (slot_mem_records h2 hlive)
    | false =>
      rw [h.clean hd i h2 hlive]
      exact DirectoryEntry.zero_mem_bytes (.inr (.inr rfl))

/-- A folder in a slot of a directory is a directory of the tree. -/
theorem live_slot (hd : fs.LiveDir d) {i : Fin 64} (hi : 1 ≤ i.val)
    (hf : (fs.tableAt d i).isSubdirectory = true) : fs.LiveDir (fs.tableAt d i).cluster := by
  rcases Nat.eq_or_lt_of_le hi with h1 | h2
  · obtain rfl : i = 1 := Fin.ext h1.symm
    rcases hd.cases with rfl | ⟨a, e, ha, he, hef, hfirst⟩
    · have hup : (fs.tableAt fatFormat.root 1).cluster = rootClusterNumber := h.rootUp
      rw [hup]
      exact .root
    · rw [h.parent ha ⟨e, he, hef, hfirst⟩]
      exact ha
  · cases hlive : (fs.tableAt d i).live with
    | true => exact hd.tail (slot_mem_records h2 hlive) hf
    | false =>
      rw [h.clean hd i h2 hlive] at hf
      cases hf

theorem notMem_free (hd : fs.LiveDir d) : d ∉ freeClusters fs.clusterMap :=
  fun hmem => h.live_ne_free hd (mem_freeClusters.1 hmem) rfl

end FileSystem.Walkable

/-- A request keeps what a walk needs. -/
theorem Request.Outcome.walkable {q : Request} {code : Int8} (h : fs.Walkable)
    (ho : Outcome q fs code fs') : fs'.Walkable := by
  have htidy := ho.tidy h.toTidy
  have hup := ho.linksUp h.toSound h.toLinksUp
  have hroot : fs.LiveDir rootClusterNumber := .root
  have hroot' : fs'.LiveDir rootClusterNumber := .root
  cases ho with
  | refused _ => exact ⟨htidy, hup, h.terminated, h.rootUp⟩
  | @created _ request _ i c l _ hw =>
    refine ⟨htidy, hup, fun {d e} hd he => ?_, ?_⟩
    · rcases (hw.grows h.toSound).mem_cases hd he with ⟨hd, he⟩ | ⟨rfl, rfl⟩
      · exact h.terminated hd he
      · exact zero_mem_createdEntry
    · rw [hw.slot_head h.toSound hroot (by decide)]
      exact h.rootUp
  | @deleted request _ e l _ hw _ =>
    have hp := (hw.shrinks h.toSound).prunes h.volume
    refine ⟨htidy, hup, fun {d e} hd he => ?_, ?_⟩
    · obtain ⟨hd, -, he, -⟩ := hp.mem_of_live h.volume hd he
      exact h.terminated hd he
    · rw [hw.slot_head h.toSound hroot' (by decide)]
      exact h.rootUp

/-- Runs of `write` and `delete` keep what a walk needs, whatever the names. -/
theorem Reachable.walkable (h : Reachable fs) : fs.Walkable := by
  induction h with
  | create pad0 pad1 disk => exact headed_createFat32.walkable
  | step hr hq hrun ih =>
    obtain ⟨code', fs'', hrun', ho⟩ := hq.outcome hr.inOrder.tidy
    rw [hrun] at hrun'
    cases hrun'
    exact ho.walkable ih

end Walkable

/-! ## `get_deep_folder_cluster` -/

section Deep
variable {fs : FileSystem} {b d : UInt32} {goal path : List UInt8} {x : Session}
  {t : DirectoryTable}

theorem find?_drop_one (p : Fin 64 → Bool) :
    ((List.finRange 64).drop 1).find? p = findFrom 1 p := by
  have hsplit : List.finRange 64 = 0 :: (List.finRange 64).drop 1 := by decide
  have hlo : ∀ i ∈ (List.finRange 64).drop 1, 1 ≤ i.val := by decide
  rw [findFrom]
  nth_rewrite 2 [hsplit]
  rw [List.find?_cons_of_neg (by simp)]
  generalize (List.finRange 64).drop 1 = l at hlo
  induction l with
  | nil => rfl
  | cons i l ih =>
    rw [List.forall_mem_cons] at hlo
    rw [List.find?_cons, List.find?_cons, decide_eq_true hlo.1, Bool.true_and, ih hlo.2]

/-- The loop over the slots from 1 on. -/
theorem findFolder_findFrom (hzero : ∀ i : Fin 64, 1 ≤ i.val → 0 ∈ (t i).bytes) :
    findFolder t path ((List.finRange 64).drop 1) =
      .ok (findFrom 1 fun i => matchesFolder path (t i)) := by
  have hlo : ∀ i ∈ (List.finRange 64).drop 1, 1 ≤ i.val := by decide
  rw [findFolder_eq fun i hi => hzero i (hlo i hi), find?_drop_one]

/-- The string of an entry compares equal to the same string only. -/
theorem matchesFolder_of_lt {e : DirectoryEntry} (hlen : path.length < 256) :
    matchesFolder path e = true ↔ path = e.text ∧ e.isSubdirectory = true := by
  have htext : e.text.length ≤ 32 := by
    have hle := (e.bytes.takeWhile_sublist (· ≠ 0)).length_le
    rwa [DirectoryEntry.bytes, List.length_map, List.length_finRange] at hle
  rw [matchesFolder, Bool.and_eq_true, isStrEqual_of_lt hlen (by omega)]

/-- A component of a path holds no separator, and is short enough to be looked up. -/
theorem getParent_eq_ok {parent : List UInt8} (h : getParent path = .ok parent) :
    (∀ c ∈ parent, isSeparator c = false) ∧ parent.length < 10 := by
  rw [getParent] at h
  split at h
  · next hlen =>
    cases h
    exact ⟨fun c hc => by simpa using List.mem_takeWhile_imp hc, hlen⟩
  · cases h

/-- A path of one component. -/
theorem deep_single (hne : path ≠ []) (hplain : ∀ c ∈ path, isSeparator c = false)
    (hlen : path.length < 10) (hzero : ∀ i : Fin 64, 1 ≤ i.val → 0 ∈ (fs.tableAt b i).bytes)
    {steps : Nat} : getDeepFolderCluster fs (steps + 1) path b =
      .ok ((findFrom 1 fun i => matchesFolder path (fs.tableAt b i)).elim 0
        fun i => (fs.tableAt b i).cluster) := by
  have hparent : getParent (path ++ []) = _ := getParent_append hplain (by simp)
  rw [List.append_nil, if_pos hlen] at hparent
  rw [getDeepFolderCluster, if_neg hne, hparent, ok_bind]
  dsimp only
  rw [findFolder_findFrom hzero, ok_bind]
  cases findFrom 1 fun i => matchesFolder path (fs.tableAt b i) with
  | none => rfl
  | some i =>
    dsimp only
    rw [if_pos ((isStrEqual_of_lt (by omega) (by omega)).2 rfl)]
    rfl

/-- `cd` enters the directory that the path leads to. -/
theorem enters_iff : Enters goal x d ↔
    getDeepFolderCluster x.kernel.fs (goal.length + 2) goal x.state.cwdClusterNumber = .ok d ∧
      d ≠ 0xFFFFFFFF ∧ d ≠ 0 := by
  have hmoved : ∀ r, getDeepFolderCluster x.kernel.fs (goal.length + 2) goal
      x.state.cwdClusterNumber = .ok r → r ≠ 0xFFFFFFFF → r ≠ 0 →
        (cd goal x).result = .ok (x.inside r) := by
    intro r hr h1 h0
    rw [cd, hr, Traced.lift_ok_bind, if_neg h1, if_pos h0]
    rfl
  constructor
  · rintro ⟨hret, y, hcd, hy⟩
    rw [cdReturns] at hret
    obtain ⟨r, hr, hret⟩ := bind_eq_ok.1 hret
    split at hret
    · cases hret
    next h1 =>
    split at hret
    · next h0 =>
      rw [hmoved r hr h1 h0] at hcd
      cases hcd
      cases hy
      exact ⟨hr, h1, h0⟩
    · cases hret
  · rintro ⟨hr, h1, h0⟩
    refine ⟨?_, x.inside d, hmoved d hr h1 h0, rfl⟩
    rw [cdReturns, hr, ok_bind, if_neg h1, if_pos h0]
    rfl

/-- `cd` from another directory. -/
theorem enters_inside : Enters goal (x.inside b) d ↔
    getDeepFolderCluster x.kernel.fs (goal.length + 2) goal b = .ok d ∧ d ≠ 0xFFFFFFFF ∧ d ≠ 0 :=
  enters_iff

end Deep

/-! ## The request of `mkdir` -/

section Request
variable {w : List UInt8} {temp cwd : UInt32} {r : DriverRequest} {mem : UInt32 → UInt8}
  {fs fs' : FileSystem} {c : UInt32}

theorem toNat_blockAddress_eq (c : UInt32) : (blockAddress c).toNat = c.toNat % 2 ^ 26 * 4 := by
  have hmask : (blockAddress c).toNat = (clusterToLba c).toNat % 2 ^ 28 := by
    rw [blockAddress, UInt32.toNat_and]
    exact Nat.and_two_pow_sub_one_eq_mod _ 28
  rw [hmask, clusterToLba, UInt32.toNat_mul]
  show c.toNat * 4 % 4294967296 % 268435456 = c.toNat % 67108864 * 4
  omega

theorem leByte_two_of_lt (hcwd : cwd.toNat < 512) : leByte cwd.toNat 2 = 0 := by
  apply UInt8.toNat_inj.1
  simp only [leByte, UInt8.toNat_ofNat']
  show cwd.toNat / 65536 % 256 = 0
  omega

section
variable (hne : ∀ c ∈ w, c ≠ 0) (hreq : memcpyName w 0 (emptyRequest temp cwd 0) = .ok r)
include hne hreq

/-- A word that replaces the third byte of the directory's number replaces it by another one. -/
theorem length_le_of_byte (hbyte : leByte r.parentClusterNumber.toNat 2 = 0) : w.length ≤ 13 := by
  by_contra hlong
  have hcopied := parent_memcpyName hreq (show 2 < 4 by decide)
  rw [hbyte, List.getD_eq_getElem _ _ (by omega)] at hcopied
  exact hne _ (List.getElem_mem _) hcopied.symm

/-- The request is for the blocks of the working directory only if it is for the working
directory. -/
theorem blockAddress_ne_parent (hcwd : cwd.toNat < 512) (hp : r.parentClusterNumber ≠ cwd) :
    blockAddress cwd ≠ blockAddress r.parentClusterNumber := by
  intro heq
  have hval := congrArg UInt32.toNat heq
  rw [toNat_blockAddress_eq, toNat_blockAddress_eq] at hval
  have hzero : leByte r.parentClusterNumber.toNat 2 = 0 := by
    apply UInt8.toNat_inj.1
    simp only [leByte, UInt8.toNat_ofNat']
    show r.parentClusterNumber.toNat / 65536 % 256 = 0
    omega
  have hlen := length_le_of_byte hne hreq hzero
  refine hp (eq_of_leByte fun j hj => ?_)
  have hbytes : j < 2 ∨ j = 2 ∨ j = 3 := by omega
  rcases hbytes with hlow | rfl | rfl
  · obtain rfl | rfl : j = 0 ∨ j = 1 := by omega
    · apply UInt8.toNat_inj.1
      simp only [leByte, UInt8.toNat_ofNat']
      omega
    · apply UInt8.toNat_inj.1
      simp only [leByte, UInt8.toNat_ofNat']
      omega
  · rw [parent_memcpyName hreq hj, List.getD_eq_default _ _ (by omega)]
    rfl
  · rw [parent_memcpyName hreq hj, List.getD_eq_default _ _ (by omega)]
    rfl

/-- A request for the working directory is one for a folder. -/
theorem bufferSize_of_parent (hcwd : cwd.toNat < 512) (hp : r.parentClusterNumber = cwd) :
    r.bufferSize = 0 := by
  have hlen := length_le_of_byte hne hreq (by rw [hp, leByte_two_of_lt hcwd])
  refine eq_of_leByte fun j hj => ?_
  rw [bufferSize_memcpyName hreq hj, List.getD_eq_default _ _ (by omega)]
  rfl

end

/-- A word of at most eleven characters leaves the directory alone. -/
theorem parent_of_length_le (hreq : memcpyName w 0 (emptyRequest temp cwd 0) = .ok r)
    (hlen : w.length ≤ 11) : r.parentClusterNumber = cwd := by
  refine eq_of_leByte fun j hj => ?_
  rw [parent_memcpyName hreq hj, List.getD_eq_default _ _ (by omega)]
  rfl

/-- The string of the new entry starts with the word, as far as name and extension take it. -/
theorem text_createdEntry (hne : ∀ c ∈ w, c ≠ 0)
    (hreq : memcpyName w 0 (emptyRequest temp cwd 0) = .ok r) :
    ∃ tail, (createdEntry r c).text = w.take 11 ++ tail ∧ (w.length ≤ 10 → tail = []) := by
  obtain ⟨rest, hbytes⟩ := (createdEntry r c).bytes_eq
  have hfields : (createdEntry r c).name.toList ++ (createdEntry r c).ext.toList =
      w.take 11 ++ List.replicate (11 - w.length) 0 := by
    refine List.ext_getElem ?_ fun j hj hj' => ?_
    · simp only [List.length_append, Vector.length_toList, List.length_take, List.length_replicate]
      omega
    · have hright : (w.take 11 ++ List.replicate (11 - w.length) 0)[j] = w.getD j 0 := by
        rw [List.getElem_append]
        split
        · next hlt =>
          rw [List.length_take] at hlt
          rw [List.getElem_take, List.getD_eq_getElem _ _ (by omega)]
        · next hge =>
          rw [List.length_take] at hge
          rw [List.getElem_replicate, List.getD_eq_default]
          simp only [List.length_append, Vector.length_toList] at hj
          omega
      rw [hright, List.getElem_append]
      split
      · next hlt =>
        rw [Vector.length_toList] at hlt
        rw [Vector.getElem_toList]
        refine (name_memcpyName hreq hlt).trans ?_
        show w.getD j (Vector.replicate 8 (0 : UInt8))[j] = _
        rw [Vector.getElem_replicate]
      · next hge =>
        have hlen : (createdEntry r c).name.toList.length = 8 := Vector.length_toList
        rw [List.length_append, hlen, Vector.length_toList] at hj
        obtain ⟨k, rfl⟩ := Nat.exists_eq_add_of_le (show 8 ≤ j by omega)
        have hk : k < 3 := by omega
        simp only [hlen, Nat.add_sub_cancel_left]
        rw [Vector.getElem_toList]
        refine (ext_memcpyName hreq hk).trans ?_
        show w.getD (8 + k) (Vector.replicate 3 (0 : UInt8))[k] = _
        rw [Vector.getElem_replicate]
  rw [DirectoryEntry.text, hbytes, ← List.append_assoc, hfields, List.append_assoc,
    List.takeWhile_append_of_pos fun c hc => by simpa using hne c (List.mem_of_mem_take hc)]
  refine ⟨_, rfl, fun hlen => ?_⟩
  have hcount : 11 - w.length = 10 - w.length + 1 := by omega
  rw [hcount, List.replicate_succ]
  rfl

end Request

/-! ## The new folder -/

/-- What a reported `write` for a folder in the directory at `b` comes to: the entry is in slot
`i`. -/
structure FolderAdded (r : DriverRequest) (fs fs' : FileSystem) (b : UInt32) (i : Fin 64) :
    Prop where
  slot : IsFirstUnused 2 DirectoryEntry.live (fs.tableAt b) i
  folder : r.bufferSize = 0
  fresh : ∀ e ∈ fs.entries b, e.key ≠ r.key
  cluster : folderCluster fs ∈ freeClusters fs.clusterMap
  table : fs'.tableAt b =
    Function.update (fs.tableAt b) i (createdEntry r (folderCluster fs))
  other : ∀ {d}, fs.LiveDir d → d ≠ b → fs'.tableAt d = fs.tableAt d
  made : fs'.tableAt (folderCluster fs) = newFolderTable r.name b (strayCluster fs)

section Added
variable {r : DriverRequest} {fs fs' : FileSystem} {b d c : UInt32} {i : Fin 64} {w : List UInt8}
  {mem : UInt32 → UInt8} {x x' : Session}

theorem exists_folderAdded (h : fs.Walkable) (hb : fs.LiveDir r.parentClusterNumber)
    (h0 : r.bufferSize = 0) (hwrite : write mem r fs = .ok (0, fs')) :
    ∃ i, FolderAdded r fs fs' r.parentClusterNumber i := by
  have hp := h.toSound.placed hb
  obtain ⟨i, hi, hfresh, htable⟩ := write_folder_entry hp h0 (h.table hb) hwrite
  obtain ⟨-, hfree, -⟩ := write_folder_run h0 hwrite
  refine ⟨i, hi, h0, hfresh, hfree, htable, fun {d} hd hne => ?_, write_folder_table hp h0 hwrite⟩
  exact FileSystem.tableAt_congr (write_frame hwrite (h.live_lt hd) (h.notMem_free hd)
    (h.live_ne_fat hd)
    (FileSystem.blockAddress_ne hp.lt (h.live_lt hd) hne))

namespace FolderAdded
variable (ha : FolderAdded r fs fs' b i) (h : fs.Walkable)
include ha

theorem ne_of_live (h : fs.Walkable) (hd : fs.LiveDir d) : d ≠ folderCluster fs :=
  h.live_ne_free hd (mem_freeClusters.1 ha.cluster)

theorem data : DataCluster (folderCluster fs) := (mem_freeClusters.1 ha.cluster).1

/-- The entry of the new folder is the only new one. -/
theorem new_iff {e : DirectoryEntry} : e ∈ fs'.entries b ∧ e ∉ fs.entries b ↔
    e = createdEntry r (folderCluster fs) := by
  have hmem : fs'.entries b = insert (createdEntry r (folderCluster fs)) (fs.entries b) := by
    rw [FileSystem.entries, ha.table, records_store ha.slot rfl]
    rfl
  rw [hmem, Set.mem_insert_iff]
  constructor
  · rintro ⟨rfl | hold, hnew⟩
    · rfl
    · exact absurd hold hnew
  · rintro rfl
    exact ⟨.inl rfl, fun hold => ha.fresh _ hold createdEntry_key⟩

include h

theorem zero_mem_slot (hd : fs.LiveDir d) {j : Fin 64} (hj : 1 ≤ j.val) :
    0 ∈ (fs'.tableAt d j).bytes := by
  by_cases heq : d = b
  · subst heq
    rw [ha.table, Function.update_apply]
    split
    · exact zero_mem_createdEntry
    · exact h.zero_mem_slot hd hj
  · rw [ha.other hd heq]
    exact h.zero_mem_slot hd hj

/-- A folder in a slot of an old directory is an old folder, unless it is the new one. -/
theorem slot_cases (hd : fs.LiveDir d) {j : Fin 64} (hj : 1 ≤ j.val)
    (hf : (fs'.tableAt d j).isSubdirectory = true) : (d = b ∧ j = i) ∨
      fs'.tableAt d j = fs.tableAt d j ∧ fs.LiveDir (fs'.tableAt d j).cluster := by
  have hold : fs'.tableAt d j = fs.tableAt d j → fs.LiveDir (fs'.tableAt d j).cluster := by
    intro heq
    rw [heq] at hf ⊢
    exact h.live_slot hd hj hf
  by_cases heq : d = b
  · subst heq
    by_cases hji : j = i
    · exact .inl ⟨rfl, hji⟩
    · have hslot : fs'.tableAt d j = fs.tableAt d j := by
        rw [ha.table, Function.update_of_ne hji]
      exact .inr ⟨hslot, hold hslot⟩
  · have hslot : fs'.tableAt d j = fs.tableAt d j := by rw [ha.other hd heq]
    exact .inr ⟨hslot, hold hslot⟩

omit h in
/-- `..` leads back out of the new folder. -/
theorem deep_dotdot (steps : Nat) : getDeepFolderCluster fs' (steps + 1) [0x2E, 0x2E]
    (folderCluster fs) = .ok b := by
  have hzero : ∀ j : Fin 64, 1 ≤ j.val → 0 ∈ (fs'.tableAt (folderCluster fs) j).bytes := by
    intro j hj
    rw [ha.made]
    rcases Nat.eq_or_lt_of_le hj with h1 | h2
    · obtain rfl : j = 1 := Fin.ext h1.symm
      rw [newFolderTable_one]
      exact zero_mem_folder
    · rw [newFolderTable_slot h2]
      exact DirectoryEntry.zero_mem_bytes (.inr (.inr rfl))
  have hmatch : matchesFolder [0x2E, 0x2E] (fs'.tableAt (folderCluster fs) 1) = true := by
    rw [ha.made, newFolderTable_one, matchesFolder, DirectoryEntry.text_of_isDotDot rfl]
    rfl
  rw [deep_single (by simp) (by simp [isSeparator]) (by simp) hzero]
  have hfind : (findFrom 1 fun i => matchesFolder [0x2E, 0x2E] (fs'.tableAt (folderCluster fs) i)) =
      some 1 := by
    refine findFrom_eq_some.2 ⟨le_refl _, hmatch, fun j hj hj' => ?_⟩
    exact absurd hj (not_lt.2 hj')
  rw [hfind, Option.elim_some, ha.made, newFolderTable_one, folder_cluster]

/-- As long as no component is taken for the new folder, a path from an old directory leads to old
directories. -/
theorem deep_live (hsep : ∃ s ∈ (createdEntry r (folderCluster fs)).text, isSeparator s = true)
    {steps : Nat} {path : List UInt8} (hd : fs.LiveDir d)
    (hrun : getDeepFolderCluster fs' steps path d = .ok c) : c = 0 ∨ fs.LiveDir c := by
  induction steps generalizing path d with
  | zero => cases hrun
  | succ steps ih =>
    rw [getDeepFolderCluster] at hrun
    split at hrun
    · cases hrun
      exact .inr hd
    obtain ⟨parent, hparent, hrun⟩ := bind_eq_ok.1 hrun
    have hloop : findFolder (fs'.tableAt d) parent ((List.finRange 64).drop 1) = _ :=
      findFolder_findFrom fun j hj => ha.zero_mem_slot h hd hj
    dsimp only at hrun
    rw [hloop, ok_bind] at hrun
    split at hrun
    · cases hrun
      exact .inl rfl
    next j hfind =>
    obtain ⟨hj, hmatch, -⟩ := findFrom_eq_some.1 (by simpa using hfind)
    obtain ⟨hplain, hlen⟩ := getParent_eq_ok hparent
    obtain ⟨htext, hf⟩ := (matchesFolder_of_lt (by omega)).1 hmatch
    have hslot : fs.LiveDir (fs'.tableAt d j).cluster := by
      rcases ha.slot_cases h hd hj hf with ⟨rfl, rfl⟩ | ⟨-, hslot⟩
      · obtain ⟨s, hs, hsep⟩ := hsep
        rw [ha.table, Function.update_self] at htext
        rw [hplain s (htext ▸ hs)] at hsep
        cases hsep
      · exact hslot
    split at hrun
    · cases hrun
      exact .inr hslot
    · exact ih hslot hrun

section Word
variable (hb : fs.LiveDir b) (hne : ∀ c ∈ w, c ≠ 0) {temp cwd : UInt32}
  (hreq : memcpyName w 0 (emptyRequest temp cwd 0) = .ok r)
include hb hne hreq

/-- A word that leads to the new folder has no separator: up to the ninth character it would be part
of the name. -/
theorem plain_of_deep {steps : Nat}
    (hrun : getDeepFolderCluster fs' (steps + 1) w b = .ok (folderCluster fs)) :
    w ≠ [] ∧ w.length ≤ 9 ∧ ∀ c ∈ w, isSeparator c = false := by
  have hnil : w ≠ [] := by
    rintro rfl
    rw [getDeepFolderCluster, if_pos rfl] at hrun
    exact ha.ne_of_live h hb (Except.ok.inj hrun)
  have hfirst : (w.takeWhile fun c => !isSeparator c).length < 10 := by
    rw [getDeepFolderCluster, if_neg hnil] at hrun
    obtain ⟨parent, hparent, -⟩ := bind_eq_ok.1 hrun
    rw [getParent] at hparent
    split at hparent
    · assumption
    · cases hparent
  have hsplit :
      (w.takeWhile fun c => !isSeparator c) ++ w.dropWhile (fun c => !isSeparator c) = w :=
    List.takeWhile_append_dropWhile
  cases hrest : w.dropWhile fun c => !isSeparator c with
  | nil =>
    rw [hrest, List.append_nil] at hsplit
    rw [hsplit] at hfirst
    refine ⟨hnil, by omega, fun c hc => ?_⟩
    rw [← hsplit] at hc
    simpa using List.mem_takeWhile_imp hc
  | cons s rest =>
    have hs : isSeparator s = true := by
      have hhead := List.head_dropWhile_not (fun c => !isSeparator c) (by rw [hrest]; simp)
      simpa [hrest] using hhead
    obtain ⟨tail, htext, -⟩ := text_createdEntry (c := folderCluster fs) hne hreq
    have hmem : s ∈ (createdEntry r (folderCluster fs)).text := by
      rw [htext, ← hsplit, hrest, List.take_append]
      obtain ⟨n, hn⟩ := Nat.exists_eq_add_of_lt
        (show (w.takeWhile fun c => !isSeparator c).length < 11 by omega)
      rw [show 11 - (w.takeWhile fun c => !isSeparator c).length = n + 1 by omega,
        List.take_succ_cons]
      simp
    rcases ha.deep_live h ⟨s, hmem, hs⟩ hb hrun with hzero | hlive
    · have hdata := ha.data
      rw [hzero] at hdata
      exact absurd hdata (by decide)
    · exact absurd rfl (ha.ne_of_live h hlive)

/-- The word leads to the new folder exactly when it is a proper word for it. -/
theorem deep_iff (steps : Nat) :
    getDeepFolderCluster fs' (steps + 1) w b = .ok (folderCluster fs) ↔ FolderWord fs b w := by
  have hzero : ∀ j : Fin 64, 1 ≤ j.val → 0 ∈ (fs'.tableAt b j).bytes :=
    fun j hj => ha.zero_mem_slot h hb hj
  have hslot : ∀ j, j ≠ i → fs'.tableAt b j = fs.tableAt b j := fun j hj => by
    rw [ha.table, Function.update_of_ne hj]
  have hlo : 1 ≤ i.val := le_of_lt ha.slot.1
  constructor
  · intro hrun
    obtain ⟨hnil, hlen, hplain⟩ := ha.plain_of_deep h hb hne hreq hrun
    refine ⟨hnil, hlen, hplain, fun k hk => ?_⟩
    rw [deep_single hnil hplain (by omega) hzero] at hrun
    by_contra hold
    have hold := Bool.eq_true_of_not_eq_false hold
    obtain ⟨-, hf⟩ := (matchesFolder_of_lt (by omega)).1 hold
    have hki : k < i := by
      by_contra hge
      have hdead := (h.table hb).packed.unused_after ha.slot (not_lt.1 hge)
      rw [h.clean hb k (ha.slot.1.trans (not_lt.1 hge)) hdead] at hf
      cases hf
    -- an older folder of that string stands before the new one
    cases hfind : findFrom 1 fun j => matchesFolder w (fs'.tableAt b j) with
    | none =>
      have hnone := findFrom_eq_none.1 hfind k hk
      rw [hslot k (ne_of_lt hki), hold] at hnone
      cases hnone
    | some j =>
      obtain ⟨hj, hmatch, hbefore⟩ := findFrom_eq_some.1 hfind
      rw [hfind] at hrun
      have hji : j ≠ i := by
        rintro rfl
        have hnone := hbefore k hki hk
        rw [hslot k (ne_of_lt hki), hold] at hnone
        cases hnone
      have hjf := ((matchesFolder_of_lt (by omega)).1 hmatch).2
      rcases ha.slot_cases h hb hj hjf with ⟨-, hji'⟩ | ⟨-, hlive⟩
      · exact hji hji'
      · exact ha.ne_of_live h hlive (Except.ok.inj hrun)
  · intro hw
    have hlen := hw.length
    obtain ⟨tail, htext, htail⟩ := text_createdEntry (c := folderCluster fs) hne hreq
    rw [htail (by omega), List.append_nil, List.take_of_length_le (by omega)] at htext
    have hfind : findFrom 1 (fun j => matchesFolder w (fs'.tableAt b j)) = some i := by
      refine findFrom_eq_some.2 ⟨hlo, ?_, fun j hj hj' => ?_⟩
      · rw [ha.table, Function.update_self]
        exact (matchesFolder_of_lt (by omega)).2
          ⟨htext.symm, createdEntry_isSubdirectory.2 ha.folder⟩
      · rw [hslot j (ne_of_lt hj)]
        exact hw.new j hj'
    rw [deep_single hw.nonempty hw.plain (by omega) hzero, hfind, Option.elim_some, ha.table,
      Function.update_self, createdEntry_cluster]

end Word

end FolderAdded
end Added

/-! ## Every word -/

section Every
variable {c : CommandInput} {y : RequestContext} {goal : Argument} {x x' : Session}

theorem mkdirBranch_returned {v : Int} : (mkdirBranch c v).returned = 0 ↔ v = 0 := by
  unfold mkdirBranch
  split <;> simp_all

/-- A `mkdir` that returned 0 wrote a folder under the word. -/
theorem mkdirWord_write (hrun : mkdirWord c y goal x = .ok (0, x')) : ∃ mem r fs',
    memcpyName goal.chars 0 (emptyRequest y.temp x.state.cwdClusterNumber 0) = .ok r ∧
      write mem r x.kernel.fs = .ok (0, fs') ∧
      x' = { x with kernel := { x.kernel with fs := fs' } } := by
  rw [mkdirWord] at hrun
  obtain ⟨o, hrequest, hrun⟩ := bind_eq_ok.1 hrun
  cases o with
  | none => cases hrun
  | some r =>
    obtain ⟨⟨answer, k⟩, hmkdir, hrun⟩ := bind_eq_ok.1 hrun
    rw [mkdir] at hmkdir
    obtain ⟨⟨bits, k'⟩, hcall, hmkdir⟩ := bind_eq_ok.1 hmkdir
    rw [callKernel] at hcall
    obtain ⟨⟨store, k''⟩, hsyscall, hcall⟩ := bind_eq_ok.1 hcall
    obtain ⟨⟨code, fs'⟩, hwrite, hsyscall⟩ := bind_eq_ok.1 hsyscall
    cases hsyscall
    cases hcall
    cases hmkdir
    rw [requestAt_storeRequest] at hwrite
    have hret := congrArg Prod.fst (Except.ok.inj hrun)
    dsimp only at hret
    rw [value_uint8, mkdirBranch_mod, mkdirBranch_returned] at hret
    obtain rfl : code = 0 := Int8.toInt_inj.1 hret
    refine ⟨_, r, fs', ?_, hwrite, (congrArg Prod.snd (Except.ok.inj hrun)).symm⟩
    rw [mkdirRequest] at hrequest
    split at hrequest
    · cases hrequest
    · obtain ⟨r', hr, hrequest⟩ := bind_eq_ok.1 hrequest
      cases hrequest
      rwa [goal.take_bytes] at hr

/-- A `write` that reports the folder makes `mkdir` return 0. -/
theorem mkdirWord_of_write {r : DriverRequest} {fs' : FileSystem}
    (hrequest : mkdirRequest { y with cwd := x.state.cwdClusterNumber } goal = .ok (some r))
    (hwrite : write (storeRequest c.mem c.request r) r x.kernel.fs = .ok (0, fs')) :
    mkdirWord c y goal x = .ok (0, { x with kernel := { x.kernel with fs := fs' } }) := by
  rw [mkdirWord, hrequest, ok_bind]
  dsimp only
  rw [mkdir, callKernel_write (by rw [requestAt_storeRequest]; exact hwrite), ok_bind]
  dsimp only
  rw [value_uint8]
  rfl

/-- With the folder in the working directory. -/
theorem FolderAdded.entered_iff {fs' : FileSystem} {r : DriverRequest} {i : Fin 64} {w : List UInt8}
    {temp cwd : UInt32} (ha : FolderAdded r x.kernel.fs fs' x.state.cwdClusterNumber i)
    (h : x.kernel.fs.Walkable) (hcwd : x.kernel.fs.LiveDir x.state.cwdClusterNumber)
    (hne : ∀ c ∈ w, c ≠ 0) (hreq : memcpyName w 0 (emptyRequest temp cwd 0) = .ok r) :
    FolderEntered w x { x with kernel := { x.kernel with fs := fs' } } ↔
      FolderWord x.kernel.fs x.state.cwdClusterNumber w := by
  rw [← ha.deep_iff h hcwd hne hreq (w.length + 1)]
  constructor
  · rintro ⟨e, hnew, hold, -, henter, -⟩
    obtain rfl := ha.new_iff.1 ⟨hnew, hold⟩
    rw [createdEntry_cluster] at henter
    exact (enters_iff.1 henter).1
  · intro hrun
    obtain ⟨hnew, hold⟩ := ha.new_iff.2 rfl
    have hback : x.state.cwdClusterNumber ≠ 0xFFFFFFFF ∧ x.state.cwdClusterNumber ≠ 0 := by
      rcases h.live_cluster hcwd with heq | ⟨hdata, -⟩
      · rw [heq]
        decide
      · exact ⟨hdata.ne_noCluster, hdata.ne_empty⟩
    refine ⟨_, hnew, hold, createdEntry_isSubdirectory.2 ha.folder, ?_, ?_⟩
    · rw [createdEntry_cluster]
      exact enters_iff.2 ⟨hrun, ha.data.ne_noCluster, ha.data.ne_empty⟩
    · rw [createdEntry_cluster]
      exact enters_inside.2 ⟨ha.deep_dotdot 3, hback⟩

/-- After a reported `mkdir` its word leads `cd` into the new folder, and `..` back, exactly when
the word has one to nine characters, none of them a separator, and led to no folder before. -/
theorem mkdir_cd_iff (h : x.kernel.fs.Walkable)
    (hcwd : x.kernel.fs.LiveDir x.state.cwdClusterNumber)
    (hrun : mkdirWord c y goal x = .ok (0, x')) :
    FolderEntered goal.chars x x' ↔
      FolderWord x.kernel.fs x.state.cwdClusterNumber goal.chars := by
  obtain ⟨mem, r, fs', hreq, hwrite, rfl⟩ := mkdirWord_write hrun
  have hne := goal.ne_zero
  have hlt := h.live_lt hcwd
  by_cases hp : r.parentClusterNumber = x.state.cwdClusterNumber
  · obtain ⟨i, ha⟩ := exists_folderAdded h (hp.symm ▸ hcwd)
      (bufferSize_of_parent hne hreq hlt hp) hwrite
    rw [hp] at ha
    exact ha.entered_iff h hcwd hne hreq
  · -- the folder went to another directory
    have hkept : fs'.tableAt x.state.cwdClusterNumber =
        x.kernel.fs.tableAt x.state.cwdClusterNumber :=
      FileSystem.tableAt_congr (write_frame hwrite hlt (h.notMem_free hcwd) (h.live_ne_fat hcwd)
        (blockAddress_ne_parent hne hreq hlt hp))
    refine iff_of_false ?_ fun hw => ?_
    · rintro ⟨e, hnew, hold, -⟩
      exact hold (FileSystem.entries_congr hkept ▸ hnew)
    · have hlen := hw.length
      exact hp (parent_of_length_le hreq (by omega))

end Every

/-! ### Two words in a new file system -/

/-- The shell at the start. -/
def Session.start (fs : FileSystem) : Session where
  state := .initial
  kernel := .initial fs

/-- The shell at the start, on a new file system. -/
def blankSession : Session := .start blankFileSystem

/-- The word `a`. -/
def plainWord : Argument where
  chars := [0x61]
  behind := []
  plain := by simp [isBlank]
  short := by decide

/-- The word `a/b`. -/
def dividedWord : Argument where
  chars := [0x61, 0x2F, 0x62]
  behind := []
  plain := by simp [isBlank]
  short := by decide

theorem walkable_blank : blankFileSystem.Walkable := headed_createFat32.walkable

/-- A short word makes a folder in the root directory of a new file system. -/
theorem mkdirWord_blank (goal : Argument) (hlen : goal.chars.length ≤ 11)
    (hfirst : goal.bytes.head? ≠ some rootContext.firstByte) : ∃ r fs' i,
    memcpyName goal.chars 0 (emptyRequest 0x100000 2 0) = .ok r ∧
      mkdirWord sampleInput rootContext goal blankSession =
        .ok (0, { blankSession with kernel := { blankSession.kernel with fs := fs' } }) ∧
      FolderAdded r blankFileSystem fs' 2 i := by
  obtain ⟨r, hreq⟩ := (memcpyName_ok_iff (r := emptyRequest 0x100000 2 0)).2
    (.inr (show 0 + goal.chars.length ≤ 19 by omega))
  have hne := goal.ne_zero
  have hp : r.parentClusterNumber = 2 := parent_of_length_le hreq hlen
  have h0 := bufferSize_of_parent hne hreq (by decide) hp
  obtain ⟨c, l, fs', hwrite, -⟩ := write_blank (storeRequest sampleMemory 0 r) r hp
    (by rw [h0]; decide)
  obtain ⟨i, ha⟩ := exists_folderAdded walkable_blank (hp.symm ▸ .root) h0 hwrite
  refine ⟨r, fs', i, hreq, ?_, hp ▸ ha⟩
  refine mkdirWord_of_write ?_ hwrite
  show mkdirRequest rootContext goal = _
  rw [mkdirRequest, if_neg hfirst, goal.take_bytes]
  show (memcpyName goal.chars 0 (emptyRequest 0x100000 2 0) >>= fun req => pure (some req)) = _
  rw [hreq]
  rfl

theorem folderWord_plain : FolderWord blankFileSystem 2 plainWord.chars where
  nonempty := by decide
  length := by decide
  plain := by simp [plainWord, isSeparator]
  new j hj := by
    rcases Nat.eq_or_lt_of_le hj with h1 | h2
    · obtain rfl : j = 1 := Fin.ext h1.symm
      have htext : (blankFileSystem.tableAt 2 1).text = [0x2E, 0x2E] :=
        DirectoryEntry.text_of_isDotDot (walkable_blank.dotdot .root)
      rw [matchesFolder, htext]
      rfl
    · have hzero : blankFileSystem.tableAt 2 j = .zero := tableAt_createFat32 j h2
      rw [hzero]
      exact Bool.and_false _

/-- `mkdir a`, `cd a` and `cd ..`. -/
theorem mkdir_cd_plain : ∃ x', mkdirWord sampleInput rootContext plainWord blankSession =
    .ok (0, x') ∧ FolderEntered plainWord.chars blankSession x' := by
  obtain ⟨r, fs', i, -, hrun, -⟩ := mkdirWord_blank plainWord (by decide) (by decide)
  exact ⟨_, hrun, (mkdir_cd_iff walkable_blank .root hrun).2 folderWord_plain⟩

/-- `mkdir a/b` makes a folder of that name, to which `cd a/b` does not lead. -/
theorem mkdir_divided : ∃ x', mkdirWord sampleInput rootContext dividedWord blankSession =
    .ok (0, x') ∧ ¬ FolderEntered dividedWord.chars blankSession x' := by
  obtain ⟨r, fs', i, hreq, hrun, ha⟩ := mkdirWord_blank dividedWord (by decide) (by decide)
  refine ⟨_, hrun, fun h => ?_⟩
  have hw := (ha.entered_iff (x := blankSession) walkable_blank .root dividedWord.ne_zero hreq).1 h
  exact absurd (hw.plain 0x2F (by decide)) (by decide)

end OsKernel
