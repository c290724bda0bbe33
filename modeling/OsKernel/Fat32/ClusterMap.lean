import OsKernel.Lib.Chain
import OsKernel.Fat32.Driver

/-!
# The file allocation table as a successor map

`ClusterMap.next` turns the array of `fat_table` into the successor map whose chains
`Lib.IsChain` describes. `get_empty_cluster` takes the clusters of `freeClusters` one by one, from
the lowest (`getEmptyCluster_cons`, `freeClusters_store`).
-/

namespace OsKernel

open Lib

/-- The clusters that file data and folders may use, 3 to 511. -/
def DataCluster (c : UInt32) : Prop := 3 ≤ c.toNat ∧ c.toNat < 512

instance (c : UInt32) : Decidable (DataCluster c) := inferInstanceAs (Decidable (_ ∧ _))

theorem DataCluster.ne_empty {c : UInt32} (h : DataCluster c) : c ≠ fatEmptyEntry := by
  rintro rfl
  exact absurd h.1 (by decide)

theorem DataCluster.ne_noCluster {c : UInt32} (h : DataCluster c) : c ≠ noCluster := by
  rintro rfl
  exact absurd h.2 (by decide)

theorem DataCluster.ne_root {c : UInt32} (h : DataCluster c) : c ≠ rootClusterNumber := by
  rintro rfl
  exact absurd h.1 (by decide)

theorem DataCluster.ne_fat {c : UInt32} (h : DataCluster c) : c ≠ fatClusterNumber := by
  rintro rfl
  exact absurd h.1 (by decide)

/-- The mark for the end of a chain is not a cluster number. -/
theorem ne_endOfFile_of_lt {c : UInt32} (h : c.toNat < 512) : c ≠ fatEndOfFile := by
  intro heq
  rw [heq] at h
  exact absurd h (by decide)

namespace ClusterMap

variable {m : ClusterMap} {c c' v : UInt32}

theorem get_eq (h : c.toNat < 512) : m.get c = .ok (m.next c) := if_pos h

theorem get_eq_ok (h : m.get c = .ok v) : c.toNat < 512 ∧ v = m.next c := by
  unfold get at h
  split at h
  · next hc =>
    cases h
    exact ⟨hc, rfl⟩
  · cases h

theorem set_eq (h : c.toNat < 512) : m.set c v = .ok (m.store c v) := if_pos h

theorem next_store (h : c.toNat < 512) : (m.store c v).next = Function.update m.next c v := by
  funext x
  by_cases hx : x = c
  · subst hx
    simp [next, store, h]
  · have hne : x.toNat ≠ c.toNat := fun he => hx (UInt32.toNat_inj.1 he)
    rw [Function.update_of_ne hx, store, dif_pos h, next, next]
    split
    · next hx' =>
      have hne' : (⟨x.toNat, hx'⟩ : Fin 512) ≠ ⟨c.toNat, h⟩ := by
        intro he
        exact hne (Fin.mk.inj he)
      rw [Function.update_apply, if_neg hne']
    · rfl

/-- Of two assignments to a cell the second one counts. -/
theorem store_store (v' : UInt32) : (m.store c v).store c v' = m.store c v' := by
  rw [store, store, store]
  split
  · rw [Function.update_idem]
  · rfl

end ClusterMap

/-- The free clusters, in the order in which `get_empty_cluster` finds them. -/
def freeClusters (m : ClusterMap) : List UInt32 :=
  (matchesFrom 3 fun i => m i == fatEmptyEntry).map fun i => UInt32.ofNat i.val

section
variable {m : ClusterMap} {c v : UInt32} {l : List UInt32}

/-- A cell's number as a cluster number. -/
theorem toNat_ofNat_cell (i : Fin 512) : (UInt32.ofNat i.val).toNat = i.val := by
  rw [UInt32.toNat_ofNat']
  omega

theorem mem_freeClusters : c ∈ freeClusters m ↔ DataCluster c ∧ m.next c = fatEmptyEntry := by
  simp only [freeClusters, List.mem_map, mem_matchesFrom, beq_iff_eq]
  constructor
  · rintro ⟨i, ⟨hi, hfree⟩, rfl⟩
    have hi' := toNat_ofNat_cell i
    refine ⟨⟨by omega, by omega⟩, ?_⟩
    rw [ClusterMap.next, dif_pos (by omega)]
    simpa only [hi', Fin.eta] using hfree
  · rintro ⟨hc, hfree⟩
    refine ⟨⟨c.toNat, hc.2⟩, ⟨hc.1, ?_⟩, by simp⟩
    rwa [ClusterMap.next, dif_pos hc.2] at hfree

theorem nodup_freeClusters (m : ClusterMap) : (freeClusters m).Nodup := by
  refine (nodup_matchesFrom _ _).map fun i j h => Fin.ext ?_
  have := congrArg UInt32.toNat h
  rwa [toNat_ofNat_cell, toNat_ofNat_cell] at this

/-- `get_empty_cluster` returns the first free cluster, or -1. -/
theorem getEmptyCluster_eq (m : ClusterMap) :
    getEmptyCluster m = (freeClusters m).head?.getD noCluster := by
  unfold getEmptyCluster freeClusters
  rw [findFrom_eq_head?, List.head?_map]
  cases (matchesFrom 3 fun i => m i == fatEmptyEntry).head? <;> rfl

theorem getEmptyCluster_cons (h : freeClusters m = c :: l) : getEmptyCluster m = c := by
  rw [getEmptyCluster_eq, h, List.head?_cons, Option.getD_some]

theorem getEmptyCluster_nil (h : freeClusters m = []) : getEmptyCluster m = noCluster := by
  rw [getEmptyCluster_eq, h, List.head?_nil, Option.getD_none]

/-- Once the first free cluster is taken, the other ones are free. -/
theorem freeClusters_store (h : freeClusters m = c :: l) (hv : v ≠ fatEmptyEntry) :
    freeClusters (m.store c v) = l := by
  have hc : c ∈ freeClusters m := h ▸ List.mem_cons_self
  have hlt := (mem_freeClusters.1 hc).1.2
  rw [freeClusters] at h ⊢
  cases hm : matchesFrom 3 fun i => m i == fatEmptyEntry with
  | nil => rw [hm] at h; cases h
  | cons i is =>
    rw [hm] at h
    obtain ⟨rfl, rfl⟩ := List.cons.inj h
    rw [matchesFrom_erase hm]
    intro j
    have hi : (⟨(UInt32.ofNat i.val).toNat, hlt⟩ : Fin 512) = i := Fin.ext (toNat_ofNat_cell i)
    rw [ClusterMap.store, dif_pos hlt, hi, Function.update_apply]
    by_cases hj : j = i
    · simp [hj, hv]
    · simp [hj]

end

end OsKernel
