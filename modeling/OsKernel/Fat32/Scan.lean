import OsKernel.Fat32.Integrity
import OsKernel.Fat32.ReadBounds

/-!
# What `read` finds in any table

`read` goes through the slots of a table from 2 on, and when it has come to the end without a result
it starts again with slot 0. So a `read` that returned 0 stored clusters from the first slot with
the name in this order, whatever the table is (`read_scanned`), and as many of them as the buffer
has room for.
-/

namespace OsKernel

open Lib

/-! ## The clusters that are stored -/

/-- The first `n` clusters from `c` on. -/
def FileSystem.clustersFrom (fs : FileSystem) (n : Nat) (c : UInt32) : List UInt32 :=
  follow fs.clusterMap.next fatEndOfFile n c

section Copy
variable {fs : FileSystem} {c remaining : UInt32} {stored : List ClusterBuffer} {steps n : Nat}
  {l : List UInt32} {bytes : List UInt8} {e : DirectoryEntry}

/-- A buffer of `n` clusters gets the first `n` clusters. -/
theorem stored_eq_clustersFrom (hn : remaining.toNat = 2048 * n)
    (h : copyLongCluster fs steps remaining c = .ok stored) :
    stored = (fs.clustersFrom n c).map fs.clusterAt := by
  induction n generalizing steps remaining c stored with
  | zero =>
    obtain rfl : remaining = 0 := UInt32.toNat_inj.1 hn
    cases steps with
    | zero => cases h
    | succ steps =>
      rw [copyLongCluster, if_pos rfl] at h
      cases h
      rfl
  | succ n ih =>
    have hpos : remaining ≠ 0 := by
      rintro rfl
      rw [UInt32.toNat_zero] at hn
      omega
    cases steps with
    | zero => cases h
    | succ steps =>
      rw [copyLongCluster, if_neg hpos] at h
      obtain ⟨next, hget, h⟩ := bind_eq_ok.1 h
      rw [ClusterMap.get] at hget
      split at hget
      · cases hget
        rw [FileSystem.clustersFrom, follow]
        split at h
        · next hne =>
          obtain ⟨rest, hrest, h⟩ := bind_eq_ok.1 h
          cases h
          have hsub : (remaining - 2048).toNat = 2048 * n := by
            rw [UInt32.toNat_sub_of_le]
            · show remaining.toNat - 2048 = 2048 * n
              omega
            · rw [UInt32.le_iff_toNat_le]
              show 2048 ≤ remaining.toNat
              omega
          rw [if_neg hne, List.map_cons, ih hsub hrest]
          rfl
        · next heq =>
          cases h
          rw [if_pos (not_not.1 heq)]
          rfl
      · cases hget

/-- The beginning of a chain holds the bytes that fit into it. -/
theorem Stores.take (h : Stores fs l bytes) (hlen : bytes.length ≤ 2048 * n) :
    Stores fs (l.take n) bytes := by
  intro k hk
  rw [← h k hk, bufferByte, bufferByte, List.map_take, List.getElem?_take_of_lt (by omega)]

/-- Bytes that clusters hold fit into them. -/
theorem Stores.length_le (h : Stores fs l bytes) : bytes.length ≤ 2048 * l.length := by
  by_contra hlong
  have hout := h (2048 * l.length) (by omega)
  rw [List.getElem?_eq_getElem (by omega), bufferByte, Nat.mul_div_cancel_left _ (by decide),
    List.getElem?_eq_none (by rw [List.length_map])] at hout
  cases hout

end Copy

/-! ## The slot that is found -/

/-- The place of a slot in the order in which `read` comes to it. -/
def scanPlace (i : Fin 64) : Nat := (i.val + 62) % 64

/-- `i` is the first slot with the name, in the order in which `read` goes through the table. -/
structure FirstScanned (t : DirectoryTable) (name : Vector UInt8 8) (i : Fin 64) : Prop where
  named : (t i).name = name
  before : ∀ j, scanPlace j < scanPlace i → (t j).name ≠ name

section Scan
variable {t : DirectoryTable} {name : Vector UInt8 8} {i j : Fin 64} {fs : FileSystem}
  {request : DriverRequest} {r : ReadResult}

theorem FirstScanned.unique (hi : FirstScanned t name i) (hj : FirstScanned t name j) : i = j := by
  rcases Nat.lt_trichotomy (scanPlace i) (scanPlace j) with h | h | h
  · exact absurd hi.named (hj.before i h)
  · rw [scanPlace, scanPlace] at h
    exact Fin.ext (by omega)
  · exact absurd hj.named (hi.before j h)

theorem scanPlace_eq (j : Fin 64) : scanPlace j = if 2 ≤ j.val then j.val - 2 else j.val + 62 := by
  revert j
  decide

/-- The first slot from 2 on that stops the loop is the first with its name. -/
theorem firstScanned_of_two
    (hfind : findFrom 2 (fun i => request.stops (t i)) = some i)
    (hname : (t i).name = request.name) :
    FirstScanned t request.name i := by
  obtain ⟨hlo, -, hbefore⟩ := findFrom_eq_some.1 hfind
  refine ⟨hname, fun j hj hname' => ?_⟩
  rw [scanPlace_eq, scanPlace_eq, if_pos hlo] at hj
  split at hj
  · have hpass := hbefore j (Fin.lt_def.2 (by omega)) (by omega)
    simp [DriverRequest.stops, hname'] at hpass
  · omega

/-- If there is none, it is the first from 0 on. -/
theorem firstScanned_of_zero (hnone : findFrom 2 (fun i => request.stops (t i)) = none)
    (hfind : findFrom 0 (fun i => request.stops (t i)) = some i)
    (hname : (t i).name = request.name) :
    FirstScanned t request.name i := by
  obtain ⟨-, hstop, hbefore⟩ := findFrom_eq_some.1 hfind
  have hhigh : ∀ j : Fin 64, 2 ≤ j.val → request.stops (t j) = false := findFrom_eq_none.1 hnone
  refine ⟨hname, fun j hj hname' => ?_⟩
  have hstops : request.stops (t j) = true := by simp [DriverRequest.stops, hname']
  have hi : ¬ 2 ≤ i.val := fun hi => by
    rw [hhigh i hi] at hstop
    cases hstop
  have hj' : ¬ 2 ≤ j.val := fun hj' => by
    rw [hhigh j hj'] at hstops
    cases hstops
  rw [scanPlace_eq, scanPlace_eq, if_neg hi, if_neg hj'] at hj
  rw [hbefore j (Fin.lt_def.2 (by omega)) (Nat.zero_le _)] at hstops
  cases hstops

/-- A `read` that returned 0 stored clusters from the first slot with the name, which is used and
has the extension. -/
theorem read_scanned (h : read request fs = .ok r) (hcode : r.code = 0) :
    ∃ i, FirstScanned (fs.tableAt request.parentClusterNumber) request.name i ∧
      (fs.tableAt request.parentClusterNumber i).live = true ∧
      (fs.tableAt request.parentClusterNumber i).key = request.key ∧
      copyLongCluster fs copySteps request.bufferSize
        (fs.tableAt request.parentClusterNumber i).cluster = .ok r.stored := by
  have hcopied : ∀ i, copiedSlot (fun e => decide (e.ext = request.ext)) request fs = some i →
      copyLongCluster fs copySteps request.bufferSize
        (fs.tableAt request.parentClusterNumber i).cluster = .ok r.stored := by
    intro i hi
    have hstored := readEntry_stored h
    rw [hi] at hstored
    exact copyLongCluster_readDirTableBuf.symm.trans hstored
  obtain ⟨hself, hend, hfound⟩ := (read_code_iff h).1 hcode
  have hlive : ¬ ((fs.tableAt request.parentClusterNumber 0).live = false ∨
      request.parentClusterNumber = fatEndOfFile) := by simp [hself, hend]
  rcases hfound with ⟨i, hfind, hilive, hkey⟩ | ⟨hnone, hnext, i, hfind, hilive, hkey⟩
  · obtain ⟨hname, hext⟩ := Prod.mk.inj hkey
    refine ⟨i, firstScanned_of_two hfind hname, hilive, hkey, hcopied i ?_⟩
    rw [copiedSlot, if_neg hlive, if_pos (by simp [hfind]), copiedFrom, hfind,
      Option.filter_some_pos (by simp [hname, hext])]
  · obtain ⟨hname, hext⟩ := Prod.mk.inj hkey
    have hnext' : fs.clusterMap.next request.parentClusterNumber ≠ fatEndOfFile := by
      intro heq
      rw [ClusterMap.get] at hnext
      split at hnext
      · exact hnext (congrArg _ heq)
      · next hout =>
        rw [ClusterMap.next, dif_neg hout] at heq
        exact absurd heq (by decide)
    refine ⟨i, firstScanned_of_zero hnone hfind hname, hilive, hkey, hcopied i ?_⟩
    rw [copiedSlot, if_neg hlive, if_neg (not_not.2 hnone), if_pos hnext', copiedFrom, hfind,
      Option.filter_some_pos (by simp [hname, hext])]

end Scan

end OsKernel
