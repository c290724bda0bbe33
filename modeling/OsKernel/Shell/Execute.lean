import OsKernel.Process.Loading
import OsKernel.Shell.Copy

/-!
# `exec`

`exec` looks for the last component of its path in the working directory, with a buffer of four
clusters, whatever the directory components and the size of the file are. So the process that is
created has the file of the path in its memory exactly when that file has at most 8192 bytes and
lies in the working directory, or when the entry of its name there happens to start with the same
bytes (`exec_loads_iff`).
-/

namespace OsKernel

open Lib

/-! ## The command -/

/-- `exec`, with the request that it builds from the word. -/
def execWord (c : CommandInput) (y : RequestContext) (filePath : Argument) (x : Session) :
    Except Fault (Int × Session) := do
  let req ← (execRequest { y with cwd := x.state.cwdClusterNumber } filePath).result
  let (answer, k) ← exec { c with mem := storeRequest c.mem c.request req } x.kernel
  return (answer.returned, { x with kernel := k })

/-! ## What a path denotes -/

/-- The component stands for the name of at most 8 characters in front of its first dot, and the
extension of at most 3 behind it. -/
inductive Spells : List UInt8 → Vector UInt8 8 × Vector UInt8 3 → Prop
  | plain {name : List UInt8} : name ≠ [] → name.length ≤ 8 → 0x2E ∉ name →
      Spells name (padded 8 name, padded 3 [])
  | dotted {name ext : List UInt8} : name ≠ [] → name.length ≤ 8 → 0x2E ∉ name → ext.length ≤ 3 →
      Spells (name ++ 0x2E :: ext) (padded 8 name, padded 3 ext)

/-- The path leads to the directory of the file, and its last component is the name of the file. -/
structure PathTo (fs : FileSystem) (cwd : UInt32) (path : List UInt8) (f : StoredFile) : Prop where
  leads : ∃ parts leaf, path = prefixText parts ++ leaf ∧ (∀ c ∈ leaf, isSeparator c = false) ∧
    fs.Follows cwd parts f.parent ∧ Spells leaf f.key

/-- The path leads to a file, nothing of the file was left out, and the bytes from address 0 on are
the ones of the file. -/
def FileLoaded (fs : FileSystem) (cwd : UInt32) (path : List UInt8) (size : Nat)
    (byte : UInt32 → Except Fault (Option UInt8)) : Prop :=
  ∃ f e l, PathTo fs cwd path f ∧ Holds fs f e l ∧ f.bytes.length ≤ size ∧
    ∀ n < f.bytes.length, byte (UInt32.ofNat n) = .ok f.bytes[n]?

/-- The path leads to a file of at most four clusters, and it is the one in the working directory
with the name and extension `key`; or else the first slot with that name in the working directory
starts four clusters with the same bytes. -/
def Loadable (fs : FileSystem) (cwd : UInt32) (path : List UInt8)
    (key : Vector UInt8 8 × Vector UInt8 3) : Prop :=
  ∃ f e l, PathTo fs cwd path f ∧ Holds fs f e l ∧ f.bytes.length ≤ 4 * 2048 ∧
    (f.parent = cwd ∧ f.key = key ∨ ∃ i, FirstScanned (fs.tableAt cwd) key.1 i ∧
      Stores fs (fs.clustersFrom 4 (fs.tableAt cwd i).cluster) f.bytes)

section Exec
variable {c : CommandInput} {y : RequestContext} {filePath : Argument} {x x' : Session} {n : Int}
  {req : DriverRequest}

/-- An `exec` is a creation of a process for its request. -/
theorem execWord_run (hrun : execWord c y filePath x = .ok (n, x')) : ∃ req code,
    (execRequest { y with cwd := x.state.cwdClusterNumber } filePath).result = .ok req ∧
      processCreateUserProcess req x.kernel = .ok (code, x'.kernel) := by
  rw [execWord] at hrun
  obtain ⟨req, hreq, hrun⟩ := bind_eq_ok.1 hrun
  obtain ⟨⟨answer, k⟩, hexec, hrun⟩ := bind_eq_ok.1 hrun
  cases hrun
  rw [exec] at hexec
  obtain ⟨⟨retcode, k'⟩, hcall, hexec⟩ := bind_eq_ok.1 hexec
  cases hexec
  rw [callKernel] at hcall
  obtain ⟨⟨store, k'⟩, hsyscall, hcall⟩ := bind_eq_ok.1 hcall
  cases hcall
  obtain ⟨⟨code, k'⟩, hcreate, hsyscall⟩ := bind_eq_ok.1 hsyscall
  cases hsyscall
  dsimp only at hcreate
  rw [requestAt_storeRequest] at hcreate
  exact ⟨req, code, hreq, hcreate⟩

/-- The request is for four clusters at the address 0 from the working directory. -/
theorem execRequest_fields (hreq : (execRequest y filePath).result = .ok req) :
    req.buf = 0 ∧ req.parentClusterNumber = y.cwd ∧ req.bufferSize = 4 * 2048 := by
  have hsame := getOnlyFilename_sameTarget hreq
  exact ⟨hsame.buf, hsame.parent, hsame.bufferSize⟩

end Exec

/-! ## The name that is looked up -/

section Padded
variable {n m : Nat} {l : List UInt8}

/-- Zero bytes behind the characters are there anyway. -/
theorem padded_append_replicate (hm : n ≤ l.length + m) (r : List UInt8) :
    padded n (l ++ (List.replicate m 0 ++ r)) = padded n l := by
  refine Vector.ext fun j hj => ?_
  rw [padded, padded, Vector.getElem_ofFn, Vector.getElem_ofFn]
  rcases Nat.lt_or_ge j l.length with hlt | hge
  · rw [List.getD_append _ _ _ _ hlt]
  · rw [List.getD_append_right _ _ _ _ hge, List.getD_eq_default l _ hge,
      List.getD_append _ _ _ _ (by rw [List.length_replicate]; omega),
      List.getD_eq_getElem?_getD, List.getElem?_replicate]
    split <;> rfl

section Spells
variable {leaf : List UInt8} {key : Vector UInt8 8 × Vector UInt8 3}

theorem Spells.ne_nil (h : Spells leaf key) : leaf ≠ [] := by
  cases h with
  | plain hne => exact hne
  | dotted => exact List.append_ne_nil_of_right_ne_nil _ (List.cons_ne_nil _ _)

theorem Spells.length_le (h : Spells leaf key) : leaf.length ≤ 12 := by
  cases h with
  | plain _ hlen => omega
  | dotted _ hlen _ hext =>
    rw [List.length_append, List.length_cons]
    omega

/-- `parse_filename` takes a component for the name that it spells. -/
theorem Spells.parsed (h : Spells leaf key) (hm : 12 ≤ leaf.length + m) (r : List UInt8) :
    (namePart leaf).length ≤ 8 ∧
      overlay (Vector.replicate 8 0) 0 (namePart leaf) = key.1 ∧
      parsedExt (Vector.replicate 3 0) leaf (List.replicate m 0 ++ r) = key.2 := by
  cases h with
  | @plain _ hne hlen hdot =>
    refine ⟨?_, ?_, ?_⟩
    · rw [namePart_eq_self hdot]
      exact hlen
    · rw [namePart_eq_self hdot, overlay_zero]
    · rw [parsedExt, afterDot, if_neg hdot]
      rfl
  | @dotted name ext hne hlen hdot hext =>
    have hname : namePart (name ++ 0x2E :: ext) = name := by
      rw [namePart, List.takeWhile_append_of_pos]
      · rw [List.takeWhile_cons_of_neg (by simp), List.append_nil]
      · intro c hc
        simpa using fun heq : c = 0x2E => hdot (heq ▸ hc)
    rw [hname]
    refine ⟨hlen, overlay_zero name, ?_⟩
    have hafter : afterDot (name ++ 0x2E :: ext) (List.replicate m 0 ++ r) =
        some (ext ++ (List.replicate m 0 ++ r)) := by
      rw [afterDot, if_pos (by simp), hname, List.append_assoc, List.drop_length_add_append]
      rfl
    rw [List.length_append, List.length_cons] at hm
    rw [parsedExt_eq hafter, padded_append_replicate (by omega)]
    rw [List.length_append, List.length_append, List.length_replicate]
    omega

end Spells

end Padded

section Path
variable {comp rest leaf path : List UInt8} {b : UInt8} {parts : List PathPart} {fs : FileSystem}
  {c d : UInt32}

/-- The components of a path, with a zero byte behind it and another one behind that. -/
theorem components_path (hne : leaf ≠ []) (hleaf : ∀ c ∈ leaf, inComponent c = true)
    (hparts : ∀ c ∈ prefixText parts, c ≠ 0) :
    components (prefixText parts ++ (leaf ++ 0 :: 0 :: rest)) =
      parts.map PathPart.component ++ [leaf] := by
  induction parts with
  | nil =>
    show components (leaf ++ 0 :: 0 :: rest) = [leaf]
    rw [components_append_of_ne_nil hne hleaf rfl, components_zero]
  | cons part parts ih =>
    rw [prefixText_cons] at hparts ⊢
    rw [List.forall_mem_append, List.forall_mem_cons] at hparts
    have hcomp : ∀ c ∈ part.component, inComponent c = true := by
      intro c hc
      simp [inComponent, part.plain c hc, hparts.1 c hc]
    have hsep : inComponent part.separator = false := by simp [inComponent, part.separates]
    rw [List.append_assoc, List.cons_append, components_append_of_ne_nil part.nonempty hcomp hsep,
      ih hparts.2.2]
    rfl

/-- The components that lead to a directory are short. -/
theorem FileSystem.Follows.length_le (h : fs.Follows c parts d) :
    ∀ comp ∈ parts.map PathPart.component, comp.length ≤ 8 := by
  induction h with
  | nil => exact fun comp hcomp => nomatch hcomp
  | @cons _ _ _ part parts hlead _ ih =>
    rw [List.map_cons, List.forall_mem_cons]
    refine ⟨?_, ih⟩
    generalize part.component = comp at hlead
    cases hlead with
    | child => exact nameChars_length_le _
    | parent => exact (by decide : 2 ≤ 8)
    | root => exact (by decide : 2 ≤ 8)

/-- Behind short components `currentCandidate` holds the last one and zero bytes. -/
theorem candidateOf_eq {comps : List (List UInt8)} (hcomps : components path = comps ++ [leaf])
    (hshort : ∀ comp ∈ comps, comp.length ≤ 8) (hleaf : leaf.length ≤ 12) :
    List.ofFn (candidateOf path) = leaf ++ List.replicate (12 - leaf.length) 0 := by
  have hne : ∀ comp ∈ comps, ∀ b ∈ comp, b ≠ 0 := fun comp hcomp b hb =>
    ne_zero_of_inComponent (inComponent_of_mem (hcomps ▸ List.mem_append_left _ hcomp) b hb)
  refine List.ext_getElem ?_ fun k hk hk' => ?_
  · rw [List.length_ofFn, List.length_append, List.length_replicate]
    omega
  rw [List.length_ofFn] at hk
  rw [List.getElem_ofFn, candidateOf, hcomps]
  rcases Nat.lt_or_ge k leaf.length with hlt | hge
  · rw [filled_concat_lt hlt, List.getElem_append_left hlt]
  · rw [filled_concat_ge hge, List.getElem_append_right hge, List.getElem_replicate]
    split
    · rfl
    · next hlong =>
      have hten : 10 ≤ k := not_lt.1 hlong
      exact (filled_eq_zero_iff hne hten).2 fun comp hcomp =>
        (hshort comp hcomp).trans (le_trans (by decide) hten)

end Path

section Key
variable {path leaf : List UInt8} {comps : List (List UInt8)} {r r' : DriverRequest}
  {key : Vector UInt8 8 × Vector UInt8 3} {y : RequestContext} {filePath : Argument}
  {req : DriverRequest} {fs : FileSystem} {f : StoredFile}

/-- A result needs a zero byte behind the components in `currentCandidate`. -/
theorem zero_mem_of_result (hends : Ends path) (hfits : ∀ comp ∈ components path, comp.length ≤ 12)
    (h : (getOnlyFilename path r).result = .ok r') : 0 ∈ List.ofFn (candidateOf path) := by
  rw [getOnlyFilename] at h
  obtain ⟨candidate, hcopy, h⟩ := Traced.bind_result_eq_ok.1 h
  obtain ⟨str, hstr, -⟩ := Traced.bind_result_eq_ok.1 h
  obtain rfl : candidate = candidateOf path :=
    ((copyComponents_decides (Nat.lt_succ_self _) hends).ensures hfits).result _ hcopy
  have hstr : cString (List.ofFn (candidateOf path)) = .ok str := hstr
  by_contra hzero
  have hall : (List.ofFn (candidateOf path)).takeWhile (· ≠ 0) = List.ofFn (candidateOf path) :=
    List.takeWhile_eq_self_iff.2 fun b hb => by simpa using fun heq : b = 0 => hzero (heq ▸ hb)
  rw [cString, hall, if_neg (lt_irrefl _)] at hstr
  cases hstr

/-- The last component of a path is looked up under the name that it spells. -/
theorem getOnlyFilename_spells (hends : Ends path) (hcomps : components path = comps ++ [leaf])
    (hshort : ∀ comp ∈ comps, comp.length ≤ 8) (hleaf : Spells leaf key)
    (hname : r.name = Vector.replicate 8 0) (hext : r.ext = Vector.replicate 3 0)
    (h : (getOnlyFilename path r).result = .ok r') : r'.key = key := by
  have hlen := hleaf.length_le
  have hmem : leaf ∈ components path := hcomps ▸ List.mem_append_right _ List.mem_cons_self
  have hlast : lastComponent path = leaf := by
    rw [lastComponent, hcomps, List.getLast?_concat]
    rfl
  have hfits : ∀ comp ∈ components path, comp.length ≤ 12 := by
    rw [hcomps, List.forall_mem_append, List.forall_mem_singleton]
    exact ⟨fun comp hcomp => (hshort comp hcomp).trans (by decide), hlen⟩
  have hzero := zero_mem_of_result hends hfits h
  have hbytes := candidateOf_eq hcomps hshort hlen
  have hnonzero : ∀ b ∈ leaf, decide (b ≠ 0) = true := fun b hb =>
    decide_eq_true (ne_zero_of_inComponent (inComponent_of_mem hmem b hb))
  have hnone : (List.replicate (12 - leaf.length) (0 : UInt8)).takeWhile (· ≠ 0) = [] := by
    cases 12 - leaf.length <;> rfl
  have hall : (List.replicate (12 - leaf.length) (0 : UInt8)).dropWhile (· ≠ 0) =
      List.replicate (12 - leaf.length) 0 := by
    cases 12 - leaf.length <;> rfl
  have htext : candidateText path = leaf := by
    rw [candidateText, hbytes, List.takeWhile_append_of_pos hnonzero, hnone, List.append_nil]
  have hrest : candidateRest path = List.replicate (12 - leaf.length) 0 := by
    rw [candidateRest, hbytes, List.dropWhile_append_of_pos hnonzero, hall]
  obtain ⟨hfit, hparsedName, hparsedExt⟩ := hleaf.parsed (Nat.add_sub_cancel' hlen).ge []
  rw [List.append_nil] at hparsedExt
  have hpath : PathFits path := ⟨hfits, zero_mem_candidateOf.1 hzero, hlast.symm ▸ hfit⟩
  have hresult := ((getOnlyFilename_decides (d := r) hends).ensures hpath).result r' h
  rw [htext, hrest] at hresult
  rw [hresult]
  refine Prod.ext ?_ ?_
  · show overlay r.name 0 (namePart leaf) = key.1
    rw [hname, hparsedName]
  · show parsedExt r.ext leaf (List.replicate (12 - leaf.length) 0) = key.2
    rw [hext, hparsedExt]

/-- A word of at most 62 characters that leads to a file is looked up under the name of the file. -/
theorem execRequest_key (hlen : filePath.chars.length ≤ 62) {cwd : UInt32}
    (hpath : PathTo fs cwd filePath.chars f) (hreq : (execRequest y filePath).result = .ok req) :
    req.key = f.key := by
  obtain ⟨parts, leaf, hchars, hplain, hfollows, hspells⟩ := hpath.leads
  have hne := filePath.ne_zero
  rw [hchars, List.forall_mem_append] at hne
  have hbytes : filePath.bytes = prefixText parts ++ (leaf ++ 0 :: 0 ::
      (List.replicate (62 - filePath.chars.length) 0 ++ (filePath.behind ++ [0, 0]))) := by
    have hzeros : 64 - filePath.chars.length = 62 - filePath.chars.length + 1 + 1 := by omega
    rw [Argument.bytes, hzeros, List.replicate_succ, List.replicate_succ, hchars, List.append_assoc]
    rfl
  have hleaf : ∀ c ∈ leaf, inComponent c = true := by
    intro c hc
    simp [inComponent, hplain c hc, hne.2 c hc]
  have hcomps : components filePath.bytes = parts.map PathPart.component ++ [leaf] := by
    rw [hbytes, components_path hspells.ne_nil hleaf hne.1]
  exact getOnlyFilename_spells filePath.ends hcomps hfollows.length_le hspells rfl rfl hreq

end Key

/-! ## What is loaded -/

section Loaded
variable {fs : FileSystem} {cwd : UInt32} {path : List UInt8}
  {key : Vector UInt8 8 × Vector UInt8 3} {i : Fin 64} {k k' : Kernel} {request : DriverRequest}
  {m : PhysicalMemory} {p : Fin 16} {r : ReadResult} {image : ProcessImage} {f : StoredFile}
  {e : DirectoryEntry} {l : List UInt32}

/-- The clusters of slot `i` start with the bytes of a file that the path leads to. -/
def SlotHolds (fs : FileSystem) (cwd : UInt32) (path : List UInt8) (i : Fin 64) : Prop :=
  ∃ f e l, PathTo fs cwd path f ∧ Holds fs f e l ∧
    Stores fs (fs.clustersFrom 4 (fs.tableAt cwd i).cluster) f.bytes

/-- The memory holds what the clusters of the slot hold that `read` found. -/
theorem LoadedAtZero.fileLoaded_iff (h : LoadedAtZero request k k' m p r image)
    (hstored : r.stored = (k.fs.clustersFrom 4 (k.fs.tableAt cwd i).cluster).map k.fs.clusterAt) :
    FileLoaded k.fs cwd path image.size (processByte k' p image.memory) ↔
        SlotHolds k.fs cwd path i := by
  constructor
  · rintro ⟨f, e, l, hpath, hf, hsize, hbytes⟩
    refine ⟨f, e, l, hpath, hf, fun n hn => ?_⟩
    have hbyte := (h.bytes n (hn.trans_le hsize)).symm.trans (hbytes n hn)
    rw [← hstored]
    exact Except.ok.inj hbyte
  · rintro ⟨f, e, l, hpath, hf, hstores⟩
    have hsize : f.bytes.length ≤ image.size := by
      have hlen := hstores.length_le
      rw [h.size, hstored, List.length_map]
      exact hlen
    refine ⟨f, e, l, hpath, hf, hsize, fun n hn => ?_⟩
    rw [h.bytes n (hn.trans_le hsize), hstored, hstores n hn]

/-- The entry of a file is the first slot of its name if that slot has its extension as well. -/
theorem Holds.slot_eq (h : fs.Sound) (hf : Holds fs f e l)
    (hi : FirstScanned (fs.tableAt f.parent) f.key.1 i)
    (hlive : (fs.tableAt f.parent i).live = true)
    (hkey : (fs.tableAt f.parent i).key = f.key) : fs.tableAt f.parent i = e := by
  obtain ⟨j, hj, hslot, hjlive⟩ := mem_records.1 hf.mem
  have hlo : 2 ≤ i.val := by
    by_contra hlow
    have hname : (fs.tableAt f.parent j).name = f.key.1 := by
      rw [hslot]
      exact congrArg Prod.fst hf.key
    refine hi.before j ?_ hname
    rw [scanPlace, scanPlace]
    omega
  exact h.eq_of_key hf.parent (slot_mem_records hlo hlive) hf.mem (hkey.trans hf.key.symm)

/-- When `read` found slot `i`, the file can be loaded exactly if the clusters of the slot hold
it. -/
theorem loadable_iff (h : fs.Sound) (hi : FirstScanned (fs.tableAt cwd) key.1 i)
    (hlive : (fs.tableAt cwd i).live = true) (hkey : (fs.tableAt cwd i).key = key) :
    Loadable fs cwd path key ↔ SlotHolds fs cwd path i := by
  constructor
  · rintro ⟨f, e, l, hpath, hf, hlen, ⟨rfl, rfl⟩ | ⟨j, hj, hstores⟩⟩
    · refine ⟨f, e, l, hpath, hf, ?_⟩
      rw [hf.slot_eq h hi hlive hkey, FileSystem.clustersFrom, hf.chain.follow_eq_take]
      exact hf.bytes.take hlen
    · rw [hj.unique hi] at hstores
      exact ⟨f, e, l, hpath, hf, hstores⟩
  · rintro ⟨f, e, l, hpath, hf, hstores⟩
    have hfour : (fs.clustersFrom 4 (fs.tableAt cwd i).cluster).length ≤ 4 := length_follow_le
    have hlen := hstores.length_le
    exact ⟨f, e, l, hpath, hf, by omega, .inr ⟨i, hi, hstores⟩⟩

end Loaded

section Every
variable {c : CommandInput} {y : RequestContext} {filePath : Argument} {x x' : Session} {n : Int}
  {req : DriverRequest} {fs : FileSystem} {k k' : Kernel}

/-- What a creation for a request of `exec` loads. -/
theorem created_loads_iff (h : k.fs.Sound) (hreq : (execRequest y filePath).result = .ok req)
    (hcreate : processCreateUserProcess req k = .ok (.success, k')) (m : PhysicalMemory) :
    ∃ p image, processListGetInactiveIndex k = some p ∧
      processCreateImage req k m = .ok (some image) ∧
      (FileLoaded k.fs y.cwd filePath.chars image.size (processByte k' p image.memory) ↔
        Loadable k.fs y.cwd filePath.chars req.key) := by
  obtain ⟨hbuf, hparent, hsize⟩ := execRequest_fields hreq
  obtain ⟨p, r, image, hl⟩ := exists_loaded hbuf hsize hcreate m
  obtain ⟨i, hi, hlive, hkey, hcopy⟩ := read_scanned hl.read hl.code
  rw [hparent] at hi hlive hkey hcopy
  have hstored := stored_eq_clustersFrom (n := 4) (by rw [hsize]; rfl) hcopy
  exact ⟨p, image, hl.slot, hl.computed,
    (hl.fileLoaded_iff hstored).trans (loadable_iff h hi hlive hkey).symm⟩

/-- For every path and every state: when an `exec` creates a process, the memory of the process from
address 0 on holds the file of the path, all of which was loaded, exactly if the file has at most
8192 bytes and is the one that the working directory has under the last component. -/
theorem exec_loads_iff (h : x.kernel.fs.Sound) (hrun : execWord c y filePath x = .ok (n, x'))
    (m : PhysicalMemory) : ∃ req code,
    (execRequest { y with cwd := x.state.cwdClusterNumber } filePath).result = .ok req ∧
      processCreateUserProcess req x.kernel = .ok (code, x'.kernel) ∧
      (code = .success → ∃ p image, processListGetInactiveIndex x.kernel = some p ∧
        processCreateImage req x.kernel m = .ok (some image) ∧
        (FileLoaded x.kernel.fs x.state.cwdClusterNumber filePath.chars image.size
            (processByte x'.kernel p image.memory) ↔
          Loadable x.kernel.fs x.state.cwdClusterNumber filePath.chars req.key)) := by
  obtain ⟨req, code, hreq, hcreate⟩ := execWord_run hrun
  refine ⟨req, code, hreq, hcreate, ?_⟩
  rintro rfl
  exact created_loads_iff h hreq hcreate m

/-- An `exec` whose process is created returns 0. -/
theorem execWord_of_create
    (hreq : (execRequest { y with cwd := x.state.cwdClusterNumber } filePath).result = .ok req)
    (hcreate : processCreateUserProcess req x.kernel = .ok (.success, k')) :
    execWord c y filePath x = .ok (0, { x with kernel := k' }) := by
  have hsyscall : syscall (storeRequest c.mem c.request req) c.steps
      ⟨14, c.request, 0, c.retcodeAddr⟩ x.kernel = .ok (none, k') := by
    show (processCreateUserProcess _ x.kernel >>= _) = _
    dsimp only
    rw [requestAt_storeRequest, hcreate]
    rfl
  rw [execWord, hreq, ok_bind, exec, callKernel, hsyscall]
  rfl

end Every

/-! ### Two paths in a new file system -/

/-- The word `d/a`. -/
def nestedWord : Argument where
  chars := [0x64, 0x2F, 0x61]
  behind := []
  plain := by simp [isBlank]
  short := by decide

/-- The request of `exec` for `a`, or for `a` in any directory. -/
theorem execRequest_plainWord : (execRequest rootContext plainWord).result =
    .ok (fileRequest (4 * 2048)) := by
  rfl

theorem execRequest_nestedWord : (execRequest rootContext nestedWord).result =
    .ok (fileRequest (4 * 2048)) := by
  rfl

/-- A file `a` of 100 bytes in a new file system, for which a process is created. -/
theorem exists_createdFrom : ∃ fs e k', fs.Sound ∧ fs.LiveDir 2 ∧ e ∈ fs.entries 2 ∧
    e.key = (fileRequest 100).key ∧ e.isSubdirectory = false ∧ e.filesize = 100 ∧
      (∀ z ∈ fs.entries 2, z = e) ∧
      processCreateUserProcess (fileRequest (4 * 2048)) (.initial fs) = .ok (.success, k') := by
  obtain ⟨fs, e, -, hwf, hlive, -, he, hkey, hfile, hsize, hall, -⟩ :=
    exists_oneFile (show (fileRequest 100).parentClusterNumber = rootClusterNumber from rfl)
      (by decide) (by decide)
  obtain ⟨r, hread, hcode⟩ : ∃ r, read (fileRequest (4 * 2048)) fs = .ok r ∧ r.code = 0 :=
    exists_read (hwf.readableDir hlive) he hkey fun z hz _ => hall z hz
  obtain ⟨k', hcreate⟩ := creates_initial (by rfl) hread hcode
  exact ⟨fs, e, k', hwf.sound, hlive, he, hkey, hfile, hsize, hall, hcreate⟩

/-- `exec a` loads a small file. -/
theorem exec_small : ∃ fs x' req p image,
    execWord sampleInput rootContext plainWord (.start fs) = .ok (0, x') ∧
      processCreateUserProcess req (.initial fs) = .ok (.success, x'.kernel) ∧
      processCreateImage req (.initial fs) (fun _ => 0) = .ok (some image) ∧
      FileLoaded fs 2 plainWord.chars image.size (processByte x'.kernel p image.memory) := by
  obtain ⟨fs, e, k', h, hlive, he, hkey, hfile, hsize, -, hcreate⟩ := exists_createdFrom
  have hrun : execWord sampleInput rootContext plainWord (.start fs) = .ok (0, _) :=
    execWord_of_create (x := .start fs) execRequest_plainWord hcreate
  obtain ⟨req, code, hreq, hcreate', hload⟩ := exec_loads_iff (x := .start fs) h hrun fun _ => 0
  obtain rfl : fileRequest (4 * 2048) = req := Except.ok.inj (execRequest_plainWord.symm.trans hreq)
  obtain rfl : ProcessCreateCode.success = code :=
    congrArg Prod.fst (Except.ok.inj (hcreate.symm.trans hcreate'))
  obtain ⟨p, image, -, himage, hiff⟩ := hload rfl
  obtain ⟨bytes, l, hlen, hholds⟩ := exists_holds h hlive he hfile
  have hspells : Spells [0x61] e.key := by
    have hkey' : e.key = (padded 8 [0x61], padded 3 []) := hkey
    rw [hkey']
    exact .plain (by decide) (by decide) (by decide)
  have hpath : PathTo fs 2 plainWord.chars ⟨2, e.key, bytes⟩ :=
    ⟨[], [0x61], rfl, by simp [isSeparator], .nil, hspells⟩
  have hfits : bytes.length ≤ 4 * 2048 := by
    rw [hlen, hsize]
    decide
  have hsame := execRequest_key (by decide) hpath hreq
  exact ⟨fs, _, _, p, image, hrun, hcreate', himage,
    hiff.2 ⟨_, e, l, hpath, hholds, hfits, .inl ⟨rfl, hsame.symm⟩⟩⟩

/-- `exec d/a` creates a process from the file `a` of the working directory, although there is no
directory `d`. -/
theorem exec_misplaced : ∃ fs x' req p image,
    execWord sampleInput rootContext nestedWord (.start fs) = .ok (0, x') ∧
      processCreateUserProcess req (.initial fs) = .ok (.success, x'.kernel) ∧
      processCreateImage req (.initial fs) (fun _ => 0) = .ok (some image) ∧
      ¬ FileLoaded fs 2 nestedWord.chars image.size (processByte x'.kernel p image.memory) := by
  obtain ⟨fs, e, k', -, -, -, -, hfile, -, hall, hcreate⟩ := exists_createdFrom
  obtain ⟨p, r, image, hl⟩ := exists_loaded rfl rfl hcreate fun _ => 0
  refine ⟨fs, _, _, p, image, execWord_of_create (x := .start fs) execRequest_nestedWord hcreate,
    hcreate, hl.computed, ?_⟩
  rintro ⟨f, x, l, ⟨parts, leaf, hchars, hplain, hfollows, -⟩, -⟩
  generalize f.parent = d at hfollows
  cases hfollows with
  | nil =>
    obtain rfl : nestedWord.chars = leaf := hchars
    exact absurd (hplain 0x2F (by decide)) (by decide)
  | @cons _ _ _ part parts hlead _ =>
    rw [prefixText_cons, List.append_assoc] at hchars
    generalize part.component = comp at hlead hchars
    cases hlead with
    | child hz hf =>
      rw [hall _ hz, hfile] at hf
      cases hf
    | parent => cases hchars
    | root => cases hchars

end OsKernel
