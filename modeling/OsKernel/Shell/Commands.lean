import OsKernel.Fat32.Codes
import OsKernel.Process.Lifecycle

/-!
# Commands of the shell and the results of their system calls

A command passes the address of its variable `retcode` in a register; the kernel stores the result
of the operation there as a single byte, and the command branches on the whole variable.
`Command.run` is a command from its system call on, `Command.documented` the same with the branch
for the value that the kernel operation returned. The two agree for `mkdir`, `rm`, `rmr` and `kill`,
and for the other commands under the condition `Command.ReadsResult` (`command_branch_iff`): the
byte leaves the upper bytes of `retcode` as they were, `-1` reads back as 255, and the system call
of `exec` stores nothing.
-/

namespace OsKernel

open Lib

/-! ## System calls -/

/-- `struct FAT32DriverRequest` at an address of the caller's memory. -/
def requestAt (mem : UInt32 → UInt8) (addr : UInt32) : DriverRequest where
  buf := le32 (mem addr) (mem (addr + 1)) (mem (addr + 2)) (mem (addr + 3))
  name := Vector.ofFn fun j : Fin 8 => mem (addr + 4 + UInt32.ofNat j.val)
  ext := Vector.ofFn fun j : Fin 3 => mem (addr + 12 + UInt32.ofNat j.val)
  parentClusterNumber :=
    le32 (mem (addr + 15)) (mem (addr + 16)) (mem (addr + 17)) (mem (addr + 18))
  bufferSize := le32 (mem (addr + 19)) (mem (addr + 20)) (mem (addr + 21)) (mem (addr + 22))

/-- A request takes 23 bytes. -/
theorem requestAt_congr {mem mem' : UInt32 → UInt8} {addr : UInt32}
    (h : ∀ i < 23, mem (addr + UInt32.ofNat i) = mem' (addr + UInt32.ofNat i)) :
    requestAt mem addr = requestAt mem' addr := by
  have hword (i : Nat) (hi : i + 4 ≤ 23) :
      le32 (mem (addr + UInt32.ofNat i)) (mem (addr + UInt32.ofNat (i + 1)))
        (mem (addr + UInt32.ofNat (i + 2))) (mem (addr + UInt32.ofNat (i + 3))) =
      le32 (mem' (addr + UInt32.ofNat i)) (mem' (addr + UInt32.ofNat (i + 1)))
        (mem' (addr + UInt32.ofNat (i + 2))) (mem' (addr + UInt32.ofNat (i + 3))) := by
    rw [h i (by omega), h (i + 1) (by omega), h (i + 2) (by omega), h (i + 3) (by omega)]
  have hbyte (base j : Nat) (hj : base + j < 23) :
      mem (addr + UInt32.ofNat base + UInt32.ofNat j) =
        mem' (addr + UInt32.ofNat base + UInt32.ofNat j) := by
    rw [UInt32.add_assoc, ← UInt32.ofNat_add]
    exact h _ hj
  have hbuf := hword 0 (by decide)
  rw [show addr + UInt32.ofNat 0 = addr from UInt32.add_zero addr] at hbuf
  rw [requestAt, requestAt, DriverRequest.mk.injEq]
  refine ⟨hbuf, ?_, ?_, hword 15 (by decide), hword 19 (by decide)⟩
  · exact congrArg Vector.ofFn (funext fun j => hbyte 4 j (by omega))
  · exact congrArg Vector.ofFn (funext fun j => hbyte 12 j (by omega))

/-- `frame.cpu.general`, as far as a system call passes its arguments in it. -/
structure CallRegisters where
  eax : UInt32
  ebx : UInt32
  ecx : UInt32
  edx : UInt32

/-- A store through `(int8_t*) addr`. -/
structure ResultStore where
  addr : UInt32
  value : Int8

/-- The return codes `PROCESS_CREATE_*`. -/
def ProcessCreateCode.toInt : ProcessCreateCode → Int
  | success => 0
  | failMaxProcessExceeded => 1
  | failInvalidEntrypoint => 2
  | failNotEnoughMemory => 3
  | failFsReadFailure => 4

/-- `syscall`: the result that it stores, and the kernel afterwards. The other calls are for the
keyboard, the screen and the clock and for copies of tables. A `delete_all` goes down to a depth of
`steps` folders. -/
def syscall (mem : UInt32 → UInt8) (steps : Nat) (general : CallRegisters) (k : Kernel) :
    Except Fault (Option ResultStore × Kernel) :=
  match general.eax.toNat with
  | 0 => do
    let result ← read (requestAt mem general.ebx) k.fs
    return (some ⟨general.ecx, result.code⟩, { k with fs := result.fs })
  | 1 => do
    let result ← readDirectory (requestAt mem general.ebx) k.fs
    return (some ⟨general.ecx, result.code⟩, { k with fs := result.fs })
  | 2 => do
    let (code, fs) ← write mem (requestAt mem general.ebx) k.fs
    return (some ⟨general.ecx, code⟩, { k with fs := fs })
  | 3 => do
    let (code, fs) ← delete (requestAt mem general.ebx) k.fs
    return (some ⟨general.ecx, code⟩, { k with fs := fs })
  | 9 => do
    let (code, fs) ← deleteAll steps (requestAt mem general.ebx) k.fs
    return (some ⟨general.ecx, code⟩, { k with fs := fs })
  | 12 => do
    let (code, fs) ← move (requestAt mem general.ebx) (requestAt mem general.ecx) k.fs
    return (some ⟨general.edx, code⟩, { k with fs := fs })
  | 13 => do
    let (destroyed, k) ← processDestroy general.ebx k
    return (some ⟨general.edx, if destroyed then 1 else 0⟩, k)
  | 14 => do
    let (_, k) ← processCreateUserProcess (requestAt mem general.ebx) k
    return (none, k)
  | 20 => do
    let (_, k) ← processDestroy (UInt32.ofInt k.currentProcessListId) k
    return (none, k)
  | _ => .ok (none, k)

/-! ## The variable `retcode` -/

/-- The types of the variables called `retcode`. -/
inductive ResultType
  | int
  | uint8
  | uint32

/-- The value of a variable, whose bytes are the ones of `bits`; a `uint8_t` has the lowest one. -/
def ResultType.value : ResultType → UInt32 → Int
  | int, bits => bits.toInt32.toInt
  | uint8, bits => bits.toUInt8.toNat
  | uint32, bits => bits.toNat

/-- The variable at `addr` after a store. -/
def assign (addr bits : UInt32) : Option ResultStore → UInt32
  | none => bits
  | some store =>
    let byte (i : Nat) : UInt8 :=
      if store.addr = addr + UInt32.ofNat i then store.value.toUInt8 else leByte bits.toNat i
    le32 (byte 0) (byte 1) (byte 2) (byte 3)

/-! ## Commands -/

/-- What a command returns, and what it prints after its system call. -/
structure Answer where
  returned : Int
  printed : List String
  deriving DecidableEq

/-- What a command passes on: its memory, the addresses of its requests (`kill` passes the pid) and
of `retcode`, what `retcode` holds before the call if it is not initialized, the argument `goal`,
and the text that a file that is read holds. `cp` makes its second call with the request in
`copyMem`. -/
structure CommandInput where
  mem : UInt32 → UInt8
  copyMem : UInt32 → UInt8
  request : UInt32
  target : UInt32
  retcodeAddr : UInt32
  garbage : UInt32
  goal : String
  text : String
  steps : Nat

/-- The switch of `cat`. -/
def catBranch (c : CommandInput) (retcode : Int) : Answer :=
  match retcode with
  | 1 => ⟨1, ["\n", c.goal, " bukan sebuah file\n"]⟩
  | 2 => ⟨2, ["\nfile ", c.goal, " tidak ditemukan\n"]⟩
  | -1 => ⟨3, ["\nterjadi anomali pada pembacaan file ", c.goal, "\n"]⟩
  | 0 => ⟨0, ["\n", c.goal, ":\n", c.text, "\n"]⟩
  | _ => ⟨3, []⟩

/-- The first switch of `cp`; it goes on when the file was read. -/
def cpReadBranch (c : CommandInput) (retcode : Int) : Option Answer :=
  match retcode with
  | 1 => some ⟨1, ["\n", c.goal, " bukan sebuah file\n"]⟩
  | 2 => some ⟨2, ["\nfile ", c.goal, " tidak ditemukan\n"]⟩
  | -1 => some ⟨3, ["\nterjadi anomali pada pembacaan file ", c.goal, "\n"]⟩
  | 0 => none
  | _ => some ⟨3, []⟩

/-- The second switch of `cp`. -/
def cpWriteBranch (c : CommandInput) (retcode : Int) : Answer :=
  match retcode with
  | 1 => ⟨1, ["\nFile dengan nama ", c.goal, " sudah ada\n"]⟩
  | 2 => ⟨2, ["\nanomali\n"]⟩
  | -1 => ⟨3, ["\nterjadi anomali pada pembacaan file ", c.goal, "\n"]⟩
  | 0 => ⟨0, ["\nCopy berhasil\n"]⟩
  | _ => ⟨3, []⟩

/-- The switch of `mkdir`. -/
def mkdirBranch (c : CommandInput) (retcode : Int) : Answer :=
  match retcode with
  | 0 => ⟨0, ["\n", "Folder '" ++ c.goal ++ "' has been made", "\n", "\n"]⟩
  | 1 => ⟨1, ["\n", "A folder with the same name already exists"]⟩
  | _ => ⟨2, []⟩

/-- The switch of `rm`. -/
def rmBranch (c : CommandInput) (retcode : Int) : Answer :=
  match retcode with
  | 0 => ⟨0, ["\n", "File/folder '" ++ c.goal ++ "' deleted", "\n"]⟩
  | 1 => ⟨2, ["\n", "File/folder '" ++ c.goal ++ "' not found", "\n"]⟩
  | 2 => ⟨1, ["\n", "Folder '" ++ c.goal ++ "' not empty", "\n"]⟩
  | _ => ⟨3, []⟩

/-- The switch of `rmr`. -/
def rmrBranch (c : CommandInput) (retcode : Int) : Answer :=
  match retcode with
  | 0 => ⟨0, ["\n", "File/folder '" ++ c.goal ++ "' deleted", "\n"]⟩
  | 1 => ⟨2, ["\n", "File/folder '" ++ c.goal ++ "' not found", "\n"]⟩
  | _ => ⟨3, ["Anomaly in deleting"]⟩

/-- The switch of `mv`. -/
def mvBranch (c : CommandInput) (retcode : Int) : Answer :=
  match retcode with
  | 1 => ⟨1, ["\nFile/folder '", c.goal, "' tidak ditemukan\n"]⟩
  | 2 => ⟨2, ["\nFile/folder dengan nama dan ekstensi ", c.goal, " sudah ada di folder tujuan\n"]⟩
  | 3 => ⟨3, ["\nFolder tujuan penuh\n "]⟩
  | 4 => ⟨4, ["\nTidak dapat memindah '", c.goal, "' ke dirinya sendiri\n"]⟩
  | 0 => ⟨0, ["\nmove berhasil\n"]⟩
  | _ => ⟨-1, ["\nAnomali dalam pemindahan\n"]⟩

/-- The branches of `kill`. -/
def killBranch (retcode : Int) : Answer :=
  if retcode ≠ 0 then ⟨0, ["\nPembunuhan berhasil\n"]⟩ else ⟨1, ["\nPembunuhan gagal\n"]⟩

/-- The switch of `exec`. -/
def execBranch (retcode : Int) : Answer :=
  match retcode with
  | 4 => ⟨3, ["\nGagal dalam pembacaan file\n"]⟩
  | 2 => ⟨3, ["\nEntrypoint sus\n"]⟩
  | 1 => ⟨3, ["\nToo many process\n"]⟩
  | 3 => ⟨3, ["\nNot enough memory\n"]⟩
  | 0 => ⟨0, ["\nPembuatan proses berhasil\n"]⟩
  | _ => ⟨3, ["\nTerjadi Anomali\n"]⟩

/-- A system call of a command: the bytes of `retcode` afterwards. -/
def callKernel (c : CommandInput) (mem : UInt32 → UInt8) (general : CallRegisters)
    (retcode : UInt32)
    (k : Kernel) : Except Fault (UInt32 × Kernel) := do
  let (store, k) ← syscall mem c.steps general k
  return (assign c.retcodeAddr retcode store, k)

/-- `cat`, from its system call on. -/
def cat (c : CommandInput) (k : Kernel) : Except Fault (Answer × Kernel) := do
  let (retcode, k) ← callKernel c c.mem ⟨0, c.request, c.retcodeAddr, 0⟩ c.garbage k
  return (catBranch c (ResultType.int.value retcode), k)

/-- `cp`, from its first system call on. -/
def cp (c : CommandInput) (k : Kernel) : Except Fault (Answer × Kernel) := do
  let (retcode, k) ← callKernel c c.mem ⟨0, c.request, c.retcodeAddr, 0⟩ 0 k
  match cpReadBranch c (ResultType.int.value retcode) with
  | some answer => return (answer, k)
  | none =>
    let (retcode, k) ← callKernel c c.copyMem ⟨2, c.request, c.retcodeAddr, 0⟩ retcode k
    return (cpWriteBranch c (ResultType.int.value retcode), k)

/-- `mkdir`, from its system call on. -/
def mkdir (c : CommandInput) (k : Kernel) : Except Fault (Answer × Kernel) := do
  let (retcode, k) ← callKernel c c.mem ⟨2, c.request, c.retcodeAddr, 0⟩ c.garbage k
  return (mkdirBranch c (ResultType.uint8.value retcode), k)

/-- `rm`, from its system call on. -/
def rm (c : CommandInput) (k : Kernel) : Except Fault (Answer × Kernel) := do
  let (retcode, k) ← callKernel c c.mem ⟨3, c.request, c.retcodeAddr, 0⟩ c.garbage k
  return (rmBranch c (ResultType.uint8.value retcode), k)

/-- `rmr`, from its system call on. -/
def rmr (c : CommandInput) (k : Kernel) : Except Fault (Answer × Kernel) := do
  let (retcode, k) ← callKernel c c.mem ⟨9, c.request, c.retcodeAddr, 0⟩ c.garbage k
  return (rmrBranch c (ResultType.uint8.value retcode), k)

/-- `mv`, from its system call on. -/
def mv (c : CommandInput) (k : Kernel) : Except Fault (Answer × Kernel) := do
  let (retcode, k) ← callKernel c c.mem ⟨12, c.request, c.target, c.retcodeAddr⟩ c.garbage k
  return (mvBranch c (ResultType.uint32.value retcode), k)

/-- `kill`, with the pid in place of the request. -/
def kill (c : CommandInput) (k : Kernel) : Except Fault (Answer × Kernel) := do
  let (retcode, k) ← callKernel c c.mem ⟨13, c.request, 0, c.retcodeAddr⟩ 0 k
  return (killBranch (ResultType.uint32.value retcode), k)

/-- `exec`, from its system call on. -/
def exec (c : CommandInput) (k : Kernel) : Except Fault (Answer × Kernel) := do
  let (retcode, k) ← callKernel c c.mem ⟨14, c.request, 0, c.retcodeAddr⟩ 0 k
  return (execBranch (ResultType.uint32.value retcode), k)

/-- The commands that ask the kernel for a result. -/
inductive Command
  | cat
  | cp
  | mkdir
  | rm
  | rmr
  | mv
  | kill
  | exec

namespace Command

/-- The command of the shell. -/
def run : Command → CommandInput → Kernel → Except Fault (Answer × Kernel)
  | cat => OsKernel.cat
  | cp => OsKernel.cp
  | mkdir => OsKernel.mkdir
  | rm => OsKernel.rm
  | rmr => OsKernel.rmr
  | mv => OsKernel.mv
  | kill => OsKernel.kill
  | exec => OsKernel.exec

/-- The command with the branch for the value that the kernel operation returns. -/
def documented (command : Command) (c : CommandInput) (k : Kernel) :
    Except Fault (Answer × Kernel) :=
  match command with
  | cat => do
    let result ← read (requestAt c.mem c.request) k.fs
    return (catBranch c result.code.toInt, { k with fs := result.fs })
  | cp => do
    let result ← read (requestAt c.mem c.request) k.fs
    match cpReadBranch c result.code.toInt with
    | some answer => return (answer, { k with fs := result.fs })
    | none =>
      let (code, fs) ← write c.copyMem (requestAt c.copyMem c.request) result.fs
      return (cpWriteBranch c code.toInt, { k with fs := fs })
  | mkdir => do
    let (code, fs) ← write c.mem (requestAt c.mem c.request) k.fs
    return (mkdirBranch c code.toInt, { k with fs := fs })
  | rm => do
    let (code, fs) ← delete (requestAt c.mem c.request) k.fs
    return (rmBranch c code.toInt, { k with fs := fs })
  | rmr => do
    let (code, fs) ← deleteAll c.steps (requestAt c.mem c.request) k.fs
    return (rmrBranch c code.toInt, { k with fs := fs })
  | mv => do
    let (code, fs) ← move (requestAt c.mem c.request) (requestAt c.mem c.target) k.fs
    return (mvBranch c code.toInt, { k with fs := fs })
  | kill => do
    let (destroyed, k) ← processDestroy c.request k
    return (killBranch (if destroyed then 1 else 0), k)
  | exec => do
    let (code, k) ← processCreateUserProcess (requestAt c.mem c.request) k
    return (execBranch code.toInt, k)

end Command

/-! ## The byte that is stored -/

section Value
variable {addr bits : UInt32} {code : Int8}

/-- A byte that is stored at the address of a variable replaces the lowest one. -/
theorem toNat_assign : (assign addr bits (some ⟨addr, code⟩)).toNat =
    bits.toNat / 256 * 256 + code.toUInt8.toNat := by
  have hbits := bits.toNat_lt
  have hcode := code.toUInt8.toNat_lt
  have hother : ∀ i : UInt32, i ≠ 0 → addr ≠ addr + i := by
    intro i hi heq
    exact hi (by simpa using heq.symm)
  unfold assign
  dsimp only
  rw [if_pos (by simp), if_neg (hother _ (by decide)), if_neg (hother _ (by decide)),
    if_neg (hother _ (by decide))]
  simp only [le32, leByte, UInt32.toNat_ofNat', UInt8.toNat_ofNat']
  omega

/-- The byte of a result is the result modulo 256. -/
theorem toUInt8_toNat_eq : (code.toUInt8.toNat : Int) = code.toInt % 256 := by
  have hlt := code.toUInt8.toNat_lt
  have hcond : code.toInt = if 2 * code.toUInt8.toNat < 2 ^ 8 then (code.toUInt8.toNat : Int)
      else code.toUInt8.toNat - (2 ^ 8 : Nat) := BitVec.toInt_eq_toNat_cond code.toBitVec
  rw [hcond]
  split <;> omega

theorem toInt_bounds : -128 ≤ code.toInt ∧ code.toInt < 128 := by
  have hlt := code.toUInt8.toNat_lt
  have hcond : code.toInt = if 2 * code.toUInt8.toNat < 2 ^ 8 then (code.toUInt8.toNat : Int)
      else code.toUInt8.toNat - (2 ^ 8 : Nat) := BitVec.toInt_eq_toNat_cond code.toBitVec
  rw [hcond]
  split <;> omega

/-- A `uint8_t` holds the result modulo 256. -/
theorem value_uint8 : ResultType.uint8.value (assign addr bits (some ⟨addr, code⟩)) =
    code.toInt % 256 := by
  have hassign := @toNat_assign addr bits code
  have hcode := code.toUInt8.toNat_lt
  rw [ResultType.value, UInt32.toNat_toUInt8, hassign, ← toUInt8_toNat_eq]
  omega

/-- A `uint32_t` keeps its upper bytes. -/
theorem value_uint32 : ResultType.uint32.value (assign addr bits (some ⟨addr, code⟩)) =
    (bits.toNat / 256 * 256 : Nat) + code.toInt % 256 := by
  rw [ResultType.value, toNat_assign, ← toUInt8_toNat_eq]
  omega

/-- An `int` holds the result when its upper bytes were those of the result. -/
theorem value_int_eq_iff :
    ResultType.int.value (assign addr bits (some ⟨addr, code⟩)) = code.toInt ↔
    bits.toNat / 256 = if code.toInt < 0 then 0xFFFFFF else 0 := by
  have hassign := @toNat_assign addr bits code
  have hmod := @toUInt8_toNat_eq code
  have hbounds := @toInt_bounds code
  have hbits := bits.toNat_lt
  have hcond : ∀ x : UInt32, x.toInt32.toInt = if 2 * x.toNat < 2 ^ 32 then (x.toNat : Int)
      else x.toNat - (2 ^ 32 : Nat) := fun x => BitVec.toInt_eq_toNat_cond x.toBitVec
  rw [ResultType.value, hcond, hassign]
  split <;> split <;> omega

/-- An `int` that was 0 holds the result modulo 256. -/
theorem value_int_zero : ResultType.int.value (assign addr 0 (some ⟨addr, code⟩)) =
    code.toInt % 256 := by
  have hassign : (assign addr 0 (some ⟨addr, code⟩)).toNat = code.toUInt8.toNat := by
    simpa using @toNat_assign addr 0 code
  have hcond : (assign addr 0 (some ⟨addr, code⟩)).toInt32.toInt =
      if 2 * (assign addr 0 (some ⟨addr, code⟩)).toNat < 2 ^ 32
      then ((assign addr 0 (some ⟨addr, code⟩)).toNat : Int)
      else (assign addr 0 (some ⟨addr, code⟩)).toNat - (2 ^ 32 : Nat) :=
    BitVec.toInt_eq_toNat_cond _
  have hlt := code.toUInt8.toNat_lt
  rw [ResultType.value, hcond, hassign, if_pos (by omega), toUInt8_toNat_eq]

end Value

/-! ## Branches -/

section Branches
variable {c : CommandInput} {v : Int} {code : Int8}

/-- The codes of `read` and `write`. -/
def AnswerCode (code : Int) : Prop := code = -1 ∨ code = 0 ∨ code = 1 ∨ code = 2

/-- The branches of `cat` are different from each other. -/
theorem catBranch_eq_iff {code : Int} (hcode : AnswerCode code) :
    catBranch c v = catBranch c code ↔ v = code := by
  refine ⟨fun h => ?_, fun h => by rw [h]⟩
  rcases hcode with rfl | rfl | rfl | rfl
  all_goals
    unfold catBranch at h
    split at h <;> simp_all

/-- A variable without a sign shows a switch the result modulo 256; this is the result unless it is
negative, and then neither has a case. -/
theorem switch_mod {β : Type} {switch : Int → β}
    (hother : ∀ v, v < 0 ∨ 128 ≤ v → switch v = switch (-1)) :
    switch (code.toInt % 256) = switch code.toInt := by
  obtain ⟨hlow, hhigh⟩ := @toInt_bounds code
  rcases lt_or_ge code.toInt 0 with hneg | hpos
  · rw [hother _ (.inr (by omega)), hother _ (.inl hneg)]
  · rw [Int.emod_eq_of_lt hpos (by omega)]

theorem mkdirBranch_mod : mkdirBranch c (code.toInt % 256) = mkdirBranch c code.toInt := by
  refine switch_mod fun v hv => ?_
  unfold mkdirBranch
  split
  · omega
  · omega
  · rfl

theorem rmBranch_mod : rmBranch c (code.toInt % 256) = rmBranch c code.toInt := by
  refine switch_mod fun v hv => ?_
  unfold rmBranch
  split
  · omega
  · omega
  · omega
  · rfl

theorem rmrBranch_mod : rmrBranch c (code.toInt % 256) = rmrBranch c code.toInt := by
  refine switch_mod fun v hv => ?_
  unfold rmrBranch
  split
  · omega
  · omega
  · rfl

/-- The values that `mv` has a case for. -/
theorem mvBranch_other (hv : v < 0 ∨ 4 < v) :
    mvBranch c v = ⟨-1, ["\nAnomali dalam pemindahan\n"]⟩ := by
  unfold mvBranch
  split
  · omega
  · omega
  · omega
  · omega
  · omega
  · rfl

theorem mvBranch_eq_iff {code : Int}
    (hcode : code = 0 ∨ code = 1 ∨ code = 2 ∨ code = 3 ∨ code = 4) :
    mvBranch c v = mvBranch c code ↔ v = code := by
  refine ⟨fun h => ?_, fun h => by rw [h]⟩
  rcases hcode with rfl | rfl | rfl | rfl | rfl
  all_goals
    unfold mvBranch at h
    split at h <;> simp_all

/-- `exec` reports a success for the code of a success only. -/
theorem execBranch_eq_iff {created : ProcessCreateCode} :
    execBranch 0 = execBranch created.toInt ↔ created = .success := by
  cases created <;> decide

end Branches

/-- A creation that completes succeeds exactly when its checks pass and the executable is found. -/
theorem created_iff {request : DriverRequest} {k k' : Kernel} {created : ProcessCreateCode}
    (h : processCreateUserProcess request k = .ok (created, k')) :
    created = .success ↔ checkCreate request k = none ∧ FindsFile request k.fs := by
  unfold processCreateUserProcess at h
  split at h
  · next code hcheck =>
    cases h
    rw [hcheck]
    refine iff_of_false (fun h => ?_) (fun h => nomatch h.1)
    unfold checkCreate at hcheck
    split at hcheck
    · cases h
      cases hcheck
    · split at hcheck
      · cases h
        cases hcheck
      · split at hcheck
        · cases h
          cases hcheck
        · cases hcheck
  · next hcheck =>
    obtain ⟨⟨pageDir, paging⟩, -, h⟩ := bind_eq_ok.1 h
    dsimp only at h
    unfold createInSlot at h
    split at h
    · cases h
    · dsimp only at h
      obtain ⟨paging₁, -, h⟩ := bind_eq_ok.1 h
      obtain ⟨result, hread, h⟩ := bind_eq_ok.1 h
      rw [hcheck, and_iff_right rfl, ← read_code_iff hread]
      split at h
      · next hcode =>
        obtain ⟨x, -, h⟩ := bind_eq_ok.1 h
        obtain ⟨paging₂, -, h⟩ := bind_eq_ok.1 h
        cases h
        exact iff_of_false (fun h => nomatch h) hcode
      · next hcode =>
        obtain ⟨paging₂, -, h⟩ := bind_eq_ok.1 h
        cases h
        exact iff_of_true rfl (Classical.not_not.1 hcode)

/-! ## Results that are read back -/

/-- A command reads back the result of its kernel operation. In `cat` and `mv` the bytes of
`retcode` above the one that is stored have to be those of the result; `cp` must not get the result
`-1`; `exec` gets no result at all, and the creation has to succeed. -/
def Command.ReadsResult (command : Command) (c : CommandInput) (k : Kernel) : Prop :=
  let request := requestAt c.mem c.request
  match command with
  | cat => c.garbage.toNat / 256 =
      if (k.fs.tableAt request.parentClusterNumber 0).live then 0 else 0xFFFFFF
  | cp => (k.fs.tableAt request.parentClusterNumber 0).live = true ∧
      (FindsFile request k.fs → ¬ OutOfClusters (requestAt c.copyMem c.request) k.fs)
  | mv => (k.fs.tableAt request.parentClusterNumber 0).live = true → c.garbage.toNat / 256 = 0
  | exec => checkCreate request k = none ∧ FindsFile request k.fs
  | mkdir | rm | rmr | kill => True

section Calls
variable {c : CommandInput} {k k' : Kernel} {mem : UInt32 → UInt8} {bits : UInt32} {code : Int8}
  {answer : Answer}

theorem callKernel_read {result : ReadResult}
    (h : read (requestAt mem c.request) k.fs = .ok result) :
    callKernel c mem ⟨0, c.request, c.retcodeAddr, 0⟩ bits k =
      .ok (assign c.retcodeAddr bits (some ⟨c.retcodeAddr, result.code⟩),
        { k with fs := result.fs }) := by
  unfold callKernel syscall
  rw [h]
  rfl

theorem callKernel_write {fs : FileSystem}
    (h : write mem (requestAt mem c.request) k.fs = .ok (code, fs)) :
    callKernel c mem ⟨2, c.request, c.retcodeAddr, 0⟩ bits k =
      .ok (assign c.retcodeAddr bits (some ⟨c.retcodeAddr, code⟩), { k with fs := fs }) := by
  unfold callKernel syscall
  dsimp only
  rw [h]
  rfl

theorem callKernel_delete {fs : FileSystem}
    (h : delete (requestAt mem c.request) k.fs = .ok (code, fs)) :
    callKernel c mem ⟨3, c.request, c.retcodeAddr, 0⟩ bits k =
      .ok (assign c.retcodeAddr bits (some ⟨c.retcodeAddr, code⟩), { k with fs := fs }) := by
  unfold callKernel syscall
  dsimp only
  rw [h]
  rfl

theorem callKernel_deleteAll {fs : FileSystem}
    (h : deleteAll c.steps (requestAt mem c.request) k.fs = .ok (code, fs)) :
    callKernel c mem ⟨9, c.request, c.retcodeAddr, 0⟩ bits k =
      .ok (assign c.retcodeAddr bits (some ⟨c.retcodeAddr, code⟩), { k with fs := fs }) := by
  unfold callKernel syscall
  dsimp only
  rw [h]
  rfl

theorem callKernel_move {fs : FileSystem}
    (h : move (requestAt mem c.request) (requestAt mem c.target) k.fs = .ok (code, fs)) :
    callKernel c mem ⟨12, c.request, c.target, c.retcodeAddr⟩ bits k =
      .ok (assign c.retcodeAddr bits (some ⟨c.retcodeAddr, code⟩), { k with fs := fs }) := by
  unfold callKernel syscall
  dsimp only
  rw [h]
  rfl

theorem callKernel_destroy {b : Bool} (h : processDestroy c.request k = .ok (b, k')) :
    callKernel c mem ⟨13, c.request, 0, c.retcodeAddr⟩ bits k =
      .ok (assign c.retcodeAddr bits (some ⟨c.retcodeAddr, if b then 1 else 0⟩), k') := by
  unfold callKernel syscall
  dsimp only
  rw [h]
  rfl

/-- The system call of `exec` leaves `retcode` as it is. -/
theorem callKernel_create {created : ProcessCreateCode}
    (h : processCreateUserProcess (requestAt mem c.request) k = .ok (created, k')) :
    callKernel c mem ⟨14, c.request, 0, c.retcodeAddr⟩ bits k = .ok (bits, k') := by
  unfold callKernel syscall
  dsimp only
  rw [h]
  rfl

/-! ## Each command -/

theorem readCode_answers {request : DriverRequest} {fs : FileSystem} {result : ReadResult}
    (h : read request fs = .ok result) : AnswerCode result.code.toInt := by
  rcases readEntry_code h with ⟨-, hcode⟩ | ⟨-, hcode | hcode | hcode⟩
  · exact .inl (congrArg Int8.toInt hcode)
  · exact .inr (.inl (congrArg Int8.toInt hcode))
  · exact .inr (.inr (.inl (congrArg Int8.toInt hcode)))
  · exact .inr (.inr (.inr (congrArg Int8.toInt hcode)))

theorem cat_branch_iff (h : Command.documented .cat c k = .ok (answer, k')) :
    OsKernel.cat c k = .ok (answer, k') ↔ Command.ReadsResult .cat c k := by
  obtain ⟨result, hread, h⟩ := bind_eq_ok.1 h
  cases h
  have hrun : OsKernel.cat c k = .ok
      (catBranch c (ResultType.int.value (assign c.retcodeAddr c.garbage
        (some ⟨c.retcodeAddr, result.code⟩))), { k with fs := result.fs }) := by
    rw [OsKernel.cat, callKernel_read hread]
    rfl
  rw [hrun, Except.ok.injEq, Prod.mk.injEq, and_iff_left rfl,
    catBranch_eq_iff (readCode_answers hread), value_int_eq_iff]
  unfold Command.ReadsResult
  dsimp only
  rcases readEntry_code hread with ⟨hself, hcode⟩ | ⟨hself, hcode⟩
  · rw [hself, hcode]
    rfl
  · have hpos : ¬ result.code.toInt < 0 := by
      rcases hcode with hcode | hcode | hcode <;> rw [hcode] <;> decide
    rw [hself, if_neg hpos]
    rfl

/-- The first system call of `cp`, which starts with 0 in `retcode`. -/
theorem cp_of_read {result : ReadResult} (h : read (requestAt c.mem c.request) k.fs = .ok result) :
    OsKernel.cp c k = match cpReadBranch c (result.code.toInt % 256) with
      | some answer => .ok (answer, { k with fs := result.fs })
      | none => do
        let (retcode, k) ← callKernel c c.copyMem ⟨2, c.request, c.retcodeAddr, 0⟩
          (assign c.retcodeAddr 0 (some ⟨c.retcodeAddr, result.code⟩)) { k with fs := result.fs }
        return (cpWriteBranch c (ResultType.int.value retcode), k) := by
  rw [OsKernel.cp, callKernel_read h, ok_bind]
  dsimp only
  rw [value_int_zero]
  rfl

/-- The second system call of `cp`, which comes after a 0. -/
theorem cp_of_write {result : ReadResult} {fs : FileSystem}
    (h : read (requestAt c.mem c.request) k.fs = .ok result) (hcode : result.code = 0)
    (hwrite : write c.copyMem (requestAt c.copyMem c.request) result.fs = .ok (code, fs)) :
    OsKernel.cp c k = .ok (cpWriteBranch c (code.toInt % 256), { k with fs := fs }) := by
  have hzero : assign c.retcodeAddr 0 (some ⟨c.retcodeAddr, 0⟩) = 0 := by
    rw [← UInt32.toNat_inj, toNat_assign]
    rfl
  have hcall := @callKernel_write c { k with fs := result.fs } c.copyMem 0 code fs hwrite
  have hgo : cpReadBranch c (Int8.toInt 0 % 256) = none := rfl
  rw [cp_of_read h, hcode, hzero, hgo, hcall]
  dsimp only
  rw [ok_bind, value_int_zero]
  rfl

theorem cp_branch_iff (h : Command.documented .cp c k = .ok (answer, k')) :
    OsKernel.cp c k = .ok (answer, k') ↔ Command.ReadsResult .cp c k := by
  obtain ⟨result, hread, h⟩ := bind_eq_ok.1 h
  unfold Command.ReadsResult
  dsimp only
  rcases readEntry_code hread with ⟨hself, hcode⟩ | ⟨hself, hcode⟩
  · -- the -1 reads back as 255
    rw [cp_of_read hread]
    rw [hcode] at h ⊢
    cases h
    refine iff_of_false (fun h => ?_) fun h => ?_
    · cases h
    · rw [hself] at h
      cases h.1
  · rw [and_iff_right hself, ← read_code_iff hread]
    have hfails : result.code = 1 ∨ result.code = 2 →
        (OsKernel.cp c k = .ok (answer, k') ↔ (result.code = 0 →
          ¬ OutOfClusters (requestAt c.copyMem c.request) k.fs)) := by
      intro hcode
      refine iff_of_true ?_ fun hzero => ?_
      · rw [cp_of_read hread]
        rcases hcode with hcode | hcode
        · rw [hcode] at h ⊢
          exact h
        · rw [hcode] at h ⊢
          exact h
      · rw [hzero] at hcode
        exact absurd hcode (by decide)
    rcases hcode with hcode | hcode
    · rw [hcode] at h
      obtain ⟨⟨code, fs⟩, hwrite, h⟩ := bind_eq_ok.1 h
      cases h
      rw [cp_of_write hread hcode hwrite, Except.ok.injEq, Prod.mk.injEq, and_iff_left rfl,
        hcode, eq_self, true_implies]
      rw [readEntry_fs hread] at hwrite
      rcases write_code hwrite with ⟨hout, hcode⟩ | ⟨hout, hcode⟩
      · rw [hcode]
        refine iff_of_false (fun h => ?_) (fun h => h hout)
        cases h
      · refine iff_of_true ?_ hout
        rcases hcode with hcode | hcode | hcode
        · rw [hcode]
          rfl
        · rw [hcode]
          rfl
        · rw [hcode]
          rfl
    · exact hfails hcode

theorem mkdir_documented (h : Command.documented .mkdir c k = .ok (answer, k')) :
    OsKernel.mkdir c k = .ok (answer, k') := by
  obtain ⟨⟨code, fs⟩, hwrite, h⟩ := bind_eq_ok.1 h
  cases h
  rw [OsKernel.mkdir, callKernel_write hwrite, ok_bind]
  dsimp only
  rw [value_uint8, mkdirBranch_mod]
  rfl

theorem rm_documented (h : Command.documented .rm c k = .ok (answer, k')) :
    OsKernel.rm c k = .ok (answer, k') := by
  obtain ⟨⟨code, fs⟩, hdelete, h⟩ := bind_eq_ok.1 h
  cases h
  rw [OsKernel.rm, callKernel_delete hdelete, ok_bind]
  dsimp only
  rw [value_uint8, rmBranch_mod]
  rfl

theorem rmr_documented (h : Command.documented .rmr c k = .ok (answer, k')) :
    OsKernel.rmr c k = .ok (answer, k') := by
  obtain ⟨⟨code, fs⟩, hdelete, h⟩ := bind_eq_ok.1 h
  cases h
  rw [OsKernel.rmr, callKernel_deleteAll hdelete, ok_bind]
  dsimp only
  rw [value_uint8, rmrBranch_mod]
  rfl

theorem kill_documented (h : Command.documented .kill c k = .ok (answer, k')) :
    OsKernel.kill c k = .ok (answer, k') := by
  obtain ⟨⟨b, k₁⟩, hdestroy, h⟩ := bind_eq_ok.1 h
  cases h
  rw [OsKernel.kill, callKernel_destroy hdestroy, ok_bind]
  dsimp only
  rw [value_uint32]
  cases b with
  | false => rfl
  | true => rfl

/-- Every negative result of `mv` has the same branch, and every one from 256 on. -/
theorem mv_branch_iff (h : Command.documented .mv c k = .ok (answer, k')) :
    OsKernel.mv c k = .ok (answer, k') ↔ Command.ReadsResult .mv c k := by
  obtain ⟨⟨code, fs⟩, hmove, h⟩ := bind_eq_ok.1 h
  cases h
  have hrun : OsKernel.mv c k = .ok (mvBranch c
      ((c.garbage.toNat / 256 * 256 : Nat) + code.toInt % 256), { k with fs := fs }) := by
    rw [OsKernel.mv, callKernel_move hmove, ok_bind]
    dsimp only
    rw [value_uint32]
    rfl
  rw [hrun, Except.ok.injEq, Prod.mk.injEq, and_iff_left rfl]
  unfold Command.ReadsResult
  dsimp only
  rcases move_code hmove with ⟨hself, hcode⟩ | ⟨hself, hcode⟩
  · rw [hself, hcode]
    refine iff_of_true ?_ (fun h => nomatch h)
    have hother : ((c.garbage.toNat / 256 * 256 : Nat) + Int8.toInt (-1) % 256 : Int) < 0 ∨
        4 < ((c.garbage.toNat / 256 * 256 : Nat) + Int8.toInt (-1) % 256 : Int) := by
      rw [show Int8.toInt (-1) % 256 = 255 from rfl]
      omega
    rw [mvBranch_other hother]
    rfl
  · rw [hself, eq_self, true_implies]
    have hcode' : code.toInt = 0 ∨ code.toInt = 1 ∨ code.toInt = 2 ∨ code.toInt = 3 ∨
        code.toInt = 4 := by
      rcases hcode with rfl | rfl | rfl | rfl | rfl <;> decide
    rw [mvBranch_eq_iff hcode']
    omega

theorem exec_branch_iff (h : Command.documented .exec c k = .ok (answer, k')) :
    OsKernel.exec c k = .ok (answer, k') ↔ Command.ReadsResult .exec c k := by
  obtain ⟨⟨created, k₁⟩, hcreate, h⟩ := bind_eq_ok.1 h
  cases h
  have hrun : OsKernel.exec c k = .ok (execBranch 0, k') := by
    rw [OsKernel.exec, callKernel_create hcreate]
    rfl
  rw [hrun, Except.ok.injEq, Prod.mk.injEq, and_iff_left rfl, execBranch_eq_iff]
  exact created_iff hcreate

/-- A command whose kernel operation completes takes the branch for the value that it returned
exactly when the command reads the result back. -/
theorem command_branch_iff {command : Command} (h : command.documented c k = .ok (answer, k')) :
    command.run c k = .ok (answer, k') ↔ command.ReadsResult c k := by
  cases command with
  | cat => exact cat_branch_iff h
  | cp => exact cp_branch_iff h
  | mkdir => exact iff_of_true (mkdir_documented h) trivial
  | rm => exact iff_of_true (rm_documented h) trivial
  | rmr => exact iff_of_true (rmr_documented h) trivial
  | mv => exact mv_branch_iff h
  | kill => exact iff_of_true (kill_documented h) trivial
  | exec => exact exec_branch_iff h

end Calls

/-! ## A missing file -/

/-- The memory of a command with the request for the file `A` of the root folder at address 0. -/
def sampleMemory (addr : UInt32) : UInt8 :=
  if addr = 4 then 0x41 else if addr = 15 then 2 else if addr = 20 then 0x20 else 0

/-- A command that is given the argument `A`. -/
def sampleInput : CommandInput where
  mem := sampleMemory
  copyMem := sampleMemory
  request := 0
  target := 0
  retcodeAddr := 64
  garbage := 0
  goal := "A"
  text := ""
  steps := 1

/-- A blank disk has no file `A`. -/
theorem read_sample : read (requestAt sampleMemory 0) blankFileSystem =
    .ok ⟨2, [], blankFileSystem.readDirTableBuf 2⟩ :=
  read_blank_eq (by decide) (by decide)

/-- `cat` reports the missing file when the upper bytes of `retcode` happen to be 0. -/
theorem command_branch_cat : ∃ k, Command.cat.run sampleInput (.initial blankFileSystem) =
    .ok (⟨2, ["\nfile ", "A", " tidak ditemukan\n"]⟩, k) := by
  have hdocumented : Command.cat.documented sampleInput (.initial blankFileSystem) =
      .ok (catBranch sampleInput 2, _) := bind_eq_ok.2 ⟨_, read_sample, rfl⟩
  have hself : (blankFileSystem.tableAt 2 0).live = true :=
    (inOrder_createFat32.toWellFormed.table .root).self
  have hparent : (requestAt sampleMemory 0).parentClusterNumber = 2 := by decide
  refine ⟨_, (command_branch_iff hdocumented).2 ?_⟩
  show 0 / 256 =
    if (blankFileSystem.tableAt (requestAt sampleMemory 0).parentClusterNumber 0).live then 0
    else 0xFFFFFF
  rw [hparent, if_pos hself]

/-- The file is missing, the creation fails, and `exec` reports a success. -/
theorem exec_missing_reported : ∃ k,
    Command.exec.documented sampleInput (.initial blankFileSystem) =
      .ok (⟨3, ["\nGagal dalam pembacaan file\n"]⟩, k) ∧
    Command.exec.run sampleInput (.initial blankFileSystem) =
      .ok (⟨0, ["\nPembuatan proses berhasil\n"]⟩, k) := by
  have hcreate := @processCreateUserProcess_failed (.initial blankFileSystem)
    (requestAt sampleMemory 0) 0 _ _ _ rfl rfl rfl read_sample (fun h => nomatch h) (by decide)
    fun i hi => nomatch hi
  have hcall := @callKernel_create sampleInput _ _ sampleMemory 0 _ hcreate
  refine ⟨_, bind_eq_ok.2 ⟨_, hcreate, rfl⟩, ?_⟩
  exact bind_eq_ok.2 ⟨_, hcall, rfl⟩

end OsKernel
