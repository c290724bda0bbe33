import OsKernel.Shell.Execute

/-!
# `cat`

`cat` reads up to four clusters into an array of zeros and prints them as a string. `printToScreen`
takes the length of a string from `strlen`, which counts in a byte, so of a string of 256 characters
or more only the first ones are printed: `puts` gets the bytes of a text file exactly when there are
fewer than 256 of them (`cat_body_iff`).
-/

namespace OsKernel

open Lib

/-! ## The command -/

/-- `printToScreen`, with the characters that it has `puts` print. -/
def printToScreen (msg : List UInt8) : List UInt8 := msg.take (strlen msg).toNat

/-- The bytes of a string literal. -/
def literal (text : String) : List UInt8 := ascii text.toList

/-- The array `temp` of `cat`, with the clusters that were stored in it. -/
def catTemp (stored : List ClusterBuffer) : List UInt8 :=
  (List.range (4 * 2048)).map fun k => (bufferByte stored k).getD 0

/-- The switch of `cat`: what it returns, and what `puts` gets for each of the strings. -/
def catPrint (goal temp : List UInt8) (retcode : Int) : Except Fault (Int × List (List UInt8)) :=
  match retcode with
  | 1 => return (1, [literal "\n", goal, literal " bukan sebuah file\n"].map printToScreen)
  | 2 => return (2, [literal "\nfile ", goal, literal " tidak ditemukan\n"].map printToScreen)
  | -1 => return (3, [literal "\nterjadi anomali pada pembacaan file ", goal,
      literal "\n"].map printToScreen)
  | 0 => do
    let body ← cString temp
    return (0, [literal "\n", goal, literal ":\n", body, literal "\n"].map printToScreen)
  | _ => return (3, [])

/-- `cat`, with the request that it builds from the word. -/
def catWord (c : CommandInput) (y : RequestContext) (goal : Argument) (x : Session) :
    Except Fault (Int × List (List UInt8) × Session) := do
  match ← (catRequest { y with cwd := x.state.cwdClusterNumber } goal).result with
  | none => return (3, [], x)
  | some req => do
    let mem := storeRequest c.mem c.request req
    let (retcode, k) ← callKernel c mem ⟨0, c.request, c.retcodeAddr, 0⟩ c.garbage x.kernel
    let result ← read req x.kernel.fs
    let (returned, printed) ← catPrint goal.chars (catTemp result.stored)
      (ResultType.int.value retcode)
    return (returned, printed, { x with kernel := k })

/-- What `puts` gets for the file, if `cat` returned 0. -/
def fileBody (printed : List (List UInt8)) : Option (List UInt8) := printed[3]?

/-! ## What is read -/

section Cat
variable {c : CommandInput} {y : RequestContext} {goal : Argument} {x x' : Session}
  {printed : List (List UInt8)} {req : DriverRequest} {key : Vector UInt8 8 × Vector UInt8 3}
  {bytes : List UInt8} {e : DirectoryEntry} {l : List UInt32} {fs : FileSystem}

/-- A string is printed as a whole exactly if its length fits into a byte. -/
theorem printToScreen_eq_iff {msg : List UInt8} : printToScreen msg = msg ↔ msg.length < 256 := by
  rw [printToScreen, toNat_strlen, List.take_eq_self_iff]
  omega

/-- A word that is a name is looked up under it in the working directory. -/
theorem catRequest_spells (hname : Spells goal.chars key)
    (hreq : (catRequest y goal).result = .ok (some req)) :
    req.parentClusterNumber = y.cwd ∧ req.key = key ∧ req.bufferSize = 4 * 2048 := by
  rw [catRequest] at hreq
  split at hreq
  · cases hreq
  obtain ⟨req', hparse, hsome⟩ := Traced.bind_result_eq_ok.1 hreq
  obtain rfl : req' = req := Option.some.inj (Except.ok.inj hsome)
  have hle := hname.length_le
  obtain ⟨hfit, hparsedName, hparsedExt⟩ :=
    hname.parsed (m := 64 - goal.chars.length) (by omega) (goal.behind ++ [0, 0])
  have hlen := goal.length_bytes
  have hdecides : Traced.Decides NameStore.InRange (fun _ : Fault => False) _ _
      (parseFilename
      (goal.chars ++ (List.replicate (64 - goal.chars.length) 0 ++ (goal.behind ++ [0, 0])))
        goal.chars.length (emptyRequest y.temp y.cwd (4 * 2048))) :=
    parseFilename_decides goal.ne_zero ((by decide : 12 ≤ 66).trans hlen)
  rw [Argument.length_eq] at hparse
  have hresult := (hdecides.ensures hfit).result _ hparse
  rw [hresult]
  refine ⟨rfl, Prod.ext hparsedName hparsedExt, rfl⟩

/-- A result of `cat` is the one of its system call. -/
theorem code_of_value_int {addr bits : UInt32} {code : Int8}
    (h : ResultType.int.value (assign addr bits (some ⟨addr, code⟩)) = 0) : code = 0 := by
  have hassign := @toNat_assign addr bits code
  have hmod := @toUInt8_toNat_eq code
  have hlt := (assign addr bits (some ⟨addr, code⟩)).toNat_lt
  have hcond : (assign addr bits (some ⟨addr, code⟩)).toInt32.toInt =
      if 2 * (assign addr bits (some ⟨addr, code⟩)).toNat < 2 ^ 32
      then ((assign addr bits (some ⟨addr, code⟩)).toNat : Int)
      else (assign addr bits (some ⟨addr, code⟩)).toNat - (2 ^ 32 : Nat) :=
    BitVec.toInt_eq_toNat_cond _
  rw [ResultType.value, hcond] at h
  refine code_eq_zero_of_mod ?_
  split at h <;> omega

/-- Only the branch for 0 returns 0. -/
theorem catPrint_zero {chars temp : List UInt8} {retcode : Int}
    (h : catPrint chars temp retcode = .ok (0, printed)) :
    retcode = 0 ∧ ∃ body, cString temp = .ok body ∧
        fileBody printed = some (printToScreen body) := by
  unfold catPrint at h
  split at h
  · cases h
  · cases h
  · cases h
  · obtain ⟨body, hbody, h⟩ := bind_eq_ok.1 h
    cases h
    exact ⟨rfl, body, hbody, rfl⟩
  · cases h

/-- A `cat` that returned 0 read a file, and printed the string in the array. -/
theorem catWord_run (hrun : catWord c y goal x = .ok (0, printed, x')) : ∃ req fs' stored body,
    (catRequest { y with cwd := x.state.cwdClusterNumber } goal).result = .ok (some req) ∧
      read req x.kernel.fs = .ok ⟨0, stored, fs'⟩ ∧ cString (catTemp stored) = .ok body ∧
      fileBody printed = some (printToScreen body) := by
  rw [catWord] at hrun
  obtain ⟨o, hreq, hrun⟩ := bind_eq_ok.1 hrun
  cases o with
  | none => cases hrun
  | some req =>
    dsimp only at hrun
    obtain ⟨⟨retcode, k⟩, hcall, hrun⟩ := bind_eq_ok.1 hrun
    obtain ⟨⟨code, stored, fs'⟩, hread, hrun⟩ := bind_eq_ok.1 hrun
    obtain ⟨⟨returned, printed'⟩, hprint, hrun⟩ := bind_eq_ok.1 hrun
    cases hrun
    have hcall' := @callKernel_read { c with request := c.request } x.kernel
      (storeRequest c.mem c.request req) c.garbage ⟨code, stored, fs'⟩
      (by rw [requestAt_storeRequest]; exact hread)
    cases hcall.symm.trans hcall'
    obtain ⟨hzero, body, hbody, hprinted⟩ := catPrint_zero hprint
    obtain rfl := code_of_value_int hzero
    exact ⟨req, fs', stored, body, hreq, hread, hbody, hprinted⟩

/-- The switch prints what `catBranch` says, as long as the strings are the ones of the input. -/
theorem catPrint_eq {chars temp : List UInt8} {retcode : Int} (hgoal : literal c.goal = chars)
    (htext : retcode = 0 → cString temp = .ok (literal c.text)) : catPrint chars temp retcode =
      .ok ((catBranch c retcode).returned,
        (catBranch c retcode).printed.map fun text => printToScreen (literal text)) := by
  subst hgoal
  unfold catBranch
  split
  · rfl
  · rfl
  · rfl
  · show (cString temp >>= _) = _
    rw [htext rfl]
    rfl
  · next h₁ h₂ h₃ h₀ =>
    unfold catPrint
    split
    · exact absurd rfl h₁
    · exact absurd rfl h₂
    · exact absurd rfl h₃
    · exact absurd rfl h₀
    · rfl

/-- From its request on `cat` does what the command does whose goal and text it has. -/
theorem catWord_eq_cat {returned : Int} (hgoal : literal c.goal = goal.chars)
    (hreq : (catRequest { y with cwd := x.state.cwdClusterNumber } goal).result = .ok (some req))
    (htext : ∀ r, read req x.kernel.fs = .ok r → r.code = 0 →
      cString (catTemp r.stored) = .ok (literal c.text))
    (hrun : catWord c y goal x = .ok (returned, printed, x')) :
    ∃ answer, cat { c with mem := storeRequest c.mem c.request req } x.kernel =
        .ok (answer, x'.kernel) ∧ returned = answer.returned ∧
      printed = answer.printed.map fun text => printToScreen (literal text) := by
  rw [catWord] at hrun
  obtain ⟨o, hreq', hrun⟩ := bind_eq_ok.1 hrun
  obtain rfl := Except.ok.inj (hreq.symm.trans hreq')
  dsimp only at hrun
  obtain ⟨⟨retcode, k⟩, hcall, hrun⟩ := bind_eq_ok.1 hrun
  obtain ⟨r, hread, hrun⟩ := bind_eq_ok.1 hrun
  obtain ⟨⟨returned', printed'⟩, hprint, hrun⟩ := bind_eq_ok.1 hrun
  cases hrun
  have hcall' := @callKernel_read { c with request := c.request } x.kernel
    (storeRequest c.mem c.request req) c.garbage r (by rw [requestAt_storeRequest]; exact hread)
  cases hcall.symm.trans hcall'
  rw [catPrint_eq hgoal fun hzero => htext r hread (code_of_value_int hzero)] at hprint
  cases hprint
  exact ⟨_, bind_eq_ok.2 ⟨_, hcall, rfl⟩, rfl, rfl⟩

/-- The array holds the bytes of a text, and a zero behind them. -/
theorem cString_catTemp (hbytes : Stores fs l bytes) (hlen : bytes.length < 4 * 2048)
    (htext : ∀ b ∈ bytes, b ≠ 0)
    (htail : ∀ k, bytes.length ≤ k → ∀ b ∈ bufferByte (l.map fs.clusterAt) k, b = 0) :
    cString (catTemp ((l.take 4).map fs.clusterAt)) = .ok bytes := by
  have htemp : ∀ k < 4 * 2048, (bufferByte ((l.take 4).map fs.clusterAt) k).getD 0 =
      (bufferByte (l.map fs.clusterAt) k).getD 0 := fun k hk => by
    rw [bufferByte, bufferByte, List.map_take, List.getElem?_take_of_lt (by omega)]
  -- the bytes, a zero, and the rest of the array
  have hsplit : catTemp ((l.take 4).map fs.clusterAt) = (bytes ++ [0]) ++
      (catTemp ((l.take 4).map fs.clusterAt)).drop (bytes.length + 1) := by
    have htake : (catTemp ((l.take 4).map fs.clusterAt)).take (bytes.length + 1) =
        bytes ++ [0] := by
      refine List.ext_getElem ?_ fun k hk hk' => ?_
      · rw [List.length_take, catTemp, List.length_map, List.length_range, List.length_append]
        exact Nat.min_eq_left hlen
      · rw [List.length_append] at hk'
        have hk8 : k < 4 * 2048 := by
          rw [List.length_singleton] at hk'
          omega
        rw [List.getElem_take]
        simp only [catTemp, List.getElem_map, List.getElem_range]
        rw [htemp k hk8]
        rcases Nat.lt_or_ge k bytes.length with hlt | hge
        · rw [hbytes k hlt, List.getElem_append_left hlt, List.getElem?_eq_getElem hlt,
            Option.getD_some]
        · rw [List.getElem_append_right hge, List.getElem_singleton]
          cases hbyte : bufferByte (l.map fs.clusterAt) k with
          | none => rfl
          | some b => exact htail k hge b hbyte
    rw [← htake, List.take_append_drop]
  rw [hsplit, cString_append (List.mem_append_right _ List.mem_cons_self),
    List.takeWhile_append_of_pos fun b hb => decide_eq_true (htext b hb)]
  exact congrArg Except.ok (List.append_nil _)

/-- For all text files of at most 8191 bytes: a `cat` that returned 0 has `puts` print the bytes of
the file exactly when there are fewer than 256. -/
theorem cat_body_iff (h : x.kernel.fs.Sound)
    (hf : Holds x.kernel.fs ⟨x.state.cwdClusterNumber, key, bytes⟩ e l)
    (hname : Spells goal.chars key)
    (hlen : bytes.length < 4 * 2048) (htext : ∀ b ∈ bytes, b ≠ 0)
    (htail : ∀ k, bytes.length ≤ k → ∀ b ∈ bufferByte (l.map x.kernel.fs.clusterAt) k, b = 0)
    (hrun : catWord c y goal x = .ok (0, printed, x')) :
    fileBody printed = some bytes ↔ bytes.length < 256 := by
  obtain ⟨req, fs', stored, body, hreq, hread, hbody, hprinted⟩ := catWord_run hrun
  obtain ⟨hparent, hkey, hsize⟩ := catRequest_spells hname hreq
  dsimp only at hparent
  have hcopy :=
    copied_of_read (e := e) (h.table (hparent ▸ hf.parent)) (h.live_lt (hparent ▸ hf.parent))
    (hparent ▸ hf.mem) (hf.key.trans hkey.symm) hread rfl
  have hstored := stored_eq_clustersFrom (n := 4) (by rw [hsize]; rfl) hcopy
  rw [FileSystem.clustersFrom, hf.chain.follow_eq_take] at hstored
  obtain rfl : stored = _ := hstored
  rw [cString_catTemp hf.bytes hlen htext htail] at hbody
  obtain rfl := Except.ok.inj hbody
  rw [hprinted, Option.some_inj, printToScreen_eq_iff]

/-- A `cat` whose file is found returns 0. -/
theorem catWord_of_read {stored : List ClusterBuffer} {fs' : FileSystem} {body : List UInt8}
    (hgarbage : c.garbage = 0)
    (hreq : (catRequest { y with cwd := x.state.cwdClusterNumber } goal).result = .ok (some req))
    (hread : read req x.kernel.fs = .ok ⟨0, stored, fs'⟩)
    (hbody : cString (catTemp stored) = .ok body) :
    ∃ printed, catWord c y goal x =
        .ok (0, printed, { x with kernel := { x.kernel with fs := fs' } }) := by
  have hcall := @callKernel_read c x.kernel (storeRequest c.mem c.request req) c.garbage
    ⟨0, stored, fs'⟩
    (by rw [requestAt_storeRequest]; exact hread)
  obtain ⟨printed, hprint⟩ : ∃ printed, catPrint goal.chars (catTemp stored)
      (ResultType.int.value (assign c.retcodeAddr c.garbage (some ⟨c.retcodeAddr, 0⟩))) =
        .ok (0, printed) := by
    rw [hgarbage, assign_zero]
    exact ⟨_, bind_eq_ok.2 ⟨body, hbody, rfl⟩⟩
  refine ⟨printed, ?_⟩
  rw [catWord, hreq, ok_bind]
  dsimp only
  rw [hcall, ok_bind, hread, ok_bind]
  exact bind_eq_ok.2 ⟨_, hprint, rfl⟩

end Cat

/-! ### Texts in a new file system -/

/-- The request of `cat` for `a`. -/
theorem catRequest_plainWord : (catRequest rootContext plainWord).result =
    .ok (some { fileRequest (4 * 2048) with buf := rootContext.temp }) := by
  rfl

/-- A memory with a text of `n` letters at the address 0. -/
def textMemory (n : UInt32) (addr : UInt32) : UInt8 := if addr.toNat < n.toNat then 0x78 else 0

/-- A text `a` of one cluster at most in a new file system, and a `cat a` that returns 0. -/
theorem exists_text {n : UInt32} (hn : n ≠ 0) (hone : clusterNeeded n = 1) : ∃ fs e l printed x',
    fs.Sound ∧ Holds fs ⟨2, (padded 8 [0x61], padded 3 []), List.replicate n.toNat 0x78⟩ e l ∧
      (∀ k, n.toNat ≤ k → ∀ b ∈ bufferByte (l.map fs.clusterAt) k, b = 0) ∧
      catWord sampleInput rootContext plainWord (.start fs) = .ok (0, printed, x') := by
  have hblank : blankFileSystem.WellFormed := inOrder_createFat32.toWellFormed
  have hroom : clustersWanted (fileRequest n).bufferSize ≤ 509 := by
    rw [clustersWanted, if_neg (show (fileRequest n).bufferSize ≠ 0 from hn)]
    exact hone.le.trans (by decide)
  obtain ⟨c, l, fs, -, hw⟩ := write_blank (textMemory n) (fileRequest n) rfl hroom
  have hwf := hw.wellFormed hblank
  have hholds := hw.holds hblank.sound hn
  have hnil : l = [] := by
    have hlength := hw.length
    rw [show clusterNeeded (fileRequest n).bufferSize = 1 from hone, List.length_cons] at hlength
    exact List.eq_nil_of_length_eq_zero (Nat.succ_inj.1 hlength)
  subst hnil
  have hbyte : ∀ k < 2 ^ 32, textMemory n (0 + UInt32.ofNat k) =
      if k < n.toNat then 0x78 else 0 := by
    intro k hk
    have hval : (UInt32.ofNat k).toNat = k := by
      rw [UInt32.toNat_ofNat']
      exact Nat.mod_eq_of_lt hk
    rw [textMemory, UInt32.zero_add, hval]
  have hbytes : givenBytes (textMemory n) (fileRequest n) = List.replicate n.toNat 0x78 := by
    refine List.ext_getElem (by simp [givenBytes, fileRequest]) fun k hk hk' => ?_
    rw [List.length_replicate] at hk'
    have hlt := n.toNat_lt
    simp only [givenBytes, List.getElem_map, List.getElem_range, List.getElem_replicate]
    exact (hbyte k (by omega)).trans (if_pos hk')
  rw [hbytes] at hholds
  have htail : ∀ k, n.toNat ≤ k → ∀ b ∈ bufferByte ([c].map fs.clusterAt) k, b = 0 := by
    intro k hk b hb
    rcases Nat.lt_or_ge k 2048 with hlt | hge
    · have hdata : fs.clusterAt c = bufCluster (textMemory n) 0 0 := hw.data hn 0 Nat.one_pos
      rw [List.map_singleton, bufferByte_cons hlt, hdata, bufCluster] at hb
      obtain rfl := Option.some_inj.1 hb
      dsimp only
      rw [Nat.mul_zero, Nat.zero_add, hbyte k (by omega), if_neg (by omega)]
    · rw [bufferByte,
        List.getElem?_eq_none (by rw [List.length_map, List.length_singleton]; omega)] at hb
      cases hb
  let req : DriverRequest := { fileRequest (4 * 2048) with buf := rootContext.temp }
  obtain ⟨⟨code, stored, fs'⟩, hread, rfl⟩ : ∃ r, read req fs = .ok r ∧ r.code = 0 :=
    exists_read (hwf.readableDir hholds.parent) hholds.mem hholds.key fun z hz _ =>
      (hw.eq_createdEntry rfl).1 z hz
  have hcopy : copyLongCluster fs copySteps req.bufferSize _ = .ok stored :=
    copied_of_read
      (show TableOk (fs.tableAt req.parentClusterNumber) from hwf.sound.table hholds.parent)
      (hwf.sound.live_lt hholds.parent) hholds.mem hholds.key hread rfl
  obtain rfl : stored = _ := stored_eq_clustersFrom (n := 4) rfl hcopy
  rw [FileSystem.clustersFrom, hholds.chain.follow_eq_take] at hread
  have hlen : (List.replicate n.toNat (0x78 : UInt8)).length < 4 * 2048 := by
    rw [clusterNeeded] at hone
    rw [List.length_replicate]
    split_ifs at hone <;> omega
  have hbody := cString_catTemp hholds.bytes hlen (fun b hb => by
    rw [List.eq_of_mem_replicate hb]
    decide) (by rwa [List.length_replicate])
  obtain ⟨printed, hcat⟩ :=
    catWord_of_read (c := sampleInput) (y := rootContext) (x := .start fs) rfl
    catRequest_plainWord hread hbody
  exact ⟨fs, _, _, printed, _, hwf.sound, hholds, htail, hcat⟩

theorem spells_plainWord : Spells plainWord.chars (padded 8 [0x61], padded 3 []) :=
  .plain (by decide) (by decide) (by decide)

/-- A text of 100 letters is printed. -/
theorem cat_body_short : ∃ fs printed x',
    catWord sampleInput rootContext plainWord (.start fs) = .ok (0, printed, x') ∧
      fileBody printed = some (List.replicate 100 0x78) := by
  obtain ⟨fs, e, l, printed, x', h, hholds, htail, hrun⟩ :=
    exists_text (n := 100) (by decide) (by decide)
  have hbody := cat_body_iff (x := .start fs) h hholds spells_plainWord (by simp)
    (fun b hb => by rw [List.eq_of_mem_replicate hb]; decide)
    (by rw [List.length_replicate]; exact htail) hrun
  exact ⟨fs, printed, x', hrun, hbody.2 (by simp)⟩

/-- Of a text of 300 letters `puts` gets 44. -/
theorem cat_body_long : ∃ fs printed e l x', fs.Sound ∧
    Holds fs ⟨2, (padded 8 [0x61], padded 3 []), List.replicate 300 0x78⟩ e l ∧
      (∀ k, 300 ≤ k → ∀ b ∈ bufferByte (l.map fs.clusterAt) k, b = 0) ∧
      catWord sampleInput rootContext plainWord (.start fs) = .ok (0, printed, x') ∧
      fileBody printed ≠ some (List.replicate 300 0x78) := by
  obtain ⟨fs, e, l, printed, x', h, hholds, htail, hrun⟩ :=
    exists_text (n := 300) (by decide) (by decide)
  refine ⟨fs, printed, e, l, x', h, hholds, htail, hrun, fun hprinted => ?_⟩
  obtain ⟨req, fs', stored, body, -, -, -, hbody⟩ := catWord_run hrun
  have hlen := congrArg (Option.map List.length) (hbody.symm.trans hprinted)
  rw [Option.map_some, Option.map_some, Option.some_inj, printToScreen, List.length_take,
    toNat_strlen, List.length_replicate] at hlen
  omega

end OsKernel
