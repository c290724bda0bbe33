import OsKernel.Shell.Filenames

/-!
# The fields of the requests

`mkdir` copies a word over the packed request: the first eleven characters are name and extension,
and from the twelfth on they replace the parent directory and the size (`byte_memcpyName`). The
other commands go through `parse_filename`, which leaves these fields alone as long as it stays
inside of the arrays. `requests_keep_iff` says for every command for which words that is.
-/

namespace OsKernel

open Lib

/-! ## Stores to a packed request -/

section Bytes
variable {r r' : DriverRequest} {i k : Nat} {b : UInt8} {src : List UInt8} {v : UInt32}

theorem leByte_setByte (hk : k < 4) :
    leByte (setByte v i b).toNat k = if k = i then b else leByte v.toNat k := by
  obtain ⟨h0, h1, h2, h3⟩ := leByte_le32 (if 0 = i then b else leByte v.toNat 0)
    (if 1 = i then b else leByte v.toNat 1) (if 2 = i then b else leByte v.toNat 2)
    (if 3 = i then b else leByte v.toNat 3)
  match k, hk with
  | 0, _ => exact h0
  | 1, _ => exact h1
  | 2, _ => exact h2
  | 3, _ => exact h3

/-- Two integers with the same bytes are the same. -/
theorem eq_of_leByte {u : UInt32} (h : ∀ k < 4, leByte u.toNat k = leByte v.toNat k) : u = v := by
  rw [← le32_leByte u, ← le32_leByte v, h 0 (by decide), h 1 (by decide), h 2 (by decide),
    h 3 (by decide)]

namespace DriverRequest

theorem byte_buf (hk : k < 4) : r.byte k = leByte r.buf.toNat k := by
  rw [byte, if_pos hk]

theorem byte_name (hk : k < 8) : r.byte (4 + k) = r.name[k] := by
  rw [byte, if_neg (by omega), dif_pos (by omega)]
  simp only [Nat.add_sub_cancel_left]

theorem byte_ext (hk : k < 3) : r.byte (12 + k) = r.ext[k] := by
  rw [byte, if_neg (by omega), dif_neg (by omega), dif_pos (by omega)]
  simp only [Nat.add_sub_cancel_left]

theorem byte_parent (hk : k < 4) : r.byte (15 + k) = leByte r.parentClusterNumber.toNat k := by
  rw [byte, if_neg (by omega), dif_neg (by omega), dif_neg (by omega), if_pos (by omega),
    Nat.add_sub_cancel_left]

theorem byte_bufferSize (hk : k < 4) : r.byte (19 + k) = leByte r.bufferSize.toNat k := by
  rw [byte, if_neg (by omega), dif_neg (by omega), dif_neg (by omega), if_neg (by omega),
    Nat.add_sub_cancel_left]

/-- The five fields take up the 23 bytes. -/
theorem byte_cases (hk : k < 23) {motive : Nat → Prop} (buf : ∀ j < 4, motive j)
    (name : ∀ j < 8, motive (4 + j)) (ext : ∀ j < 3, motive (12 + j))
    (parent : ∀ j < 4, motive (15 + j)) (bufferSize : ∀ j < 4, motive (19 + j)) : motive k := by
  rcases Nat.lt_or_ge k 4 with h | h
  · exact buf k h
  obtain ⟨j, rfl⟩ := Nat.exists_eq_add_of_le h
  rcases Nat.lt_or_ge j 8 with h | h
  · exact name j h
  obtain ⟨j, rfl⟩ := Nat.exists_eq_add_of_le h
  rw [← Nat.add_assoc] at hk ⊢
  rcases Nat.lt_or_ge j 3 with h | h
  · exact ext j h
  obtain ⟨j, rfl⟩ := Nat.exists_eq_add_of_le h
  rw [← Nat.add_assoc] at hk ⊢
  rcases Nat.lt_or_ge j 4 with h | h
  · exact parent j h
  obtain ⟨j, rfl⟩ := Nat.exists_eq_add_of_le h
  rw [← Nat.add_assoc] at hk ⊢
  exact bufferSize j (by omega)

end DriverRequest

/-- A store behind the name is one to that byte of the packed struct, and to no other. -/
theorem DriverRequest.byte_storeBehindName (hi : 8 ≤ i) (h : r.storeBehindName i b = .ok r')
    (hk : k < 23) : r'.byte k = if k = 4 + i then b else r.byte k := by
  rw [DriverRequest.storeBehindName] at h
  refine DriverRequest.byte_cases (motive := fun k => r'.byte k =
    if k = 4 + i then b else r.byte k) hk (fun j hj => ?_) (fun j hj => ?_) (fun j hj => ?_)
    (fun j hj => ?_) fun j hj => ?_
  · rw [if_neg (by omega), DriverRequest.byte_buf hj, DriverRequest.byte_buf hj]
    split_ifs at h <;> cases h <;> rfl
  · rw [if_neg (by omega), DriverRequest.byte_name hj, DriverRequest.byte_name hj]
    split_ifs at h <;> cases h <;> rfl
  · rw [DriverRequest.byte_ext hj, DriverRequest.byte_ext hj]
    split_ifs at h with h3 h15 h19
    · cases h
      rw [Vector.getElem_set]
      exact if_congr (by omega) rfl rfl
    · cases h
      rw [if_neg (by omega)]
    · cases h
      rw [if_neg (by omega)]
  · rw [DriverRequest.byte_parent hj, DriverRequest.byte_parent hj]
    split_ifs at h with h3 h15 h19
    · cases h
      rw [if_neg (by omega)]
    · cases h
      rw [leByte_setByte hj]
      exact if_congr (by omega) rfl rfl
    · cases h
      rw [if_neg (by omega)]
  · rw [DriverRequest.byte_bufferSize hj, DriverRequest.byte_bufferSize hj]
    split_ifs at h with h3 h15 h19
    · cases h
      rw [if_neg (by omega)]
    · cases h
      rw [if_neg (by omega)]
    · cases h
      rw [leByte_setByte hj]
      exact if_congr (by omega) rfl rfl

/-- A store to `name[i]` is one to byte `4 + i` of the packed struct, and to no other. -/
theorem byte_storeName (h : storeName i b r = .ok r') (hk : k < 23) :
    r'.byte k = if k = 4 + i then b else r.byte k := by
  rw [storeName] at h
  split at h
  · next hi =>
    cases h
    refine DriverRequest.byte_cases (motive := fun k => DriverRequest.byte _ k =
      if k = 4 + i then b else r.byte k) hk (fun j hj => ?_) (fun j hj => ?_) (fun j hj => ?_)
      (fun j hj => ?_) fun j hj => ?_
    · rw [if_neg (by omega), DriverRequest.byte_buf hj, DriverRequest.byte_buf hj]
      rfl
    · rw [DriverRequest.byte_name hj, DriverRequest.byte_name hj]
      show (r.name.set i b)[j] = _
      rw [Vector.getElem_set]
      exact if_congr (by omega) rfl rfl
    · rw [if_neg (by omega), DriverRequest.byte_ext hj, DriverRequest.byte_ext hj]
      rfl
    · rw [if_neg (by omega), DriverRequest.byte_parent hj, DriverRequest.byte_parent hj]
      rfl
    · rw [if_neg (by omega), DriverRequest.byte_bufferSize hj, DriverRequest.byte_bufferSize hj]
      rfl
  · next hi => exact DriverRequest.byte_storeBehindName (Nat.le_of_not_lt hi) h hk

/-- The struct ends with byte 22. -/
theorem storeName_ok_iff : (∃ r', storeName i b r = .ok r') ↔ i < 19 := by
  rw [storeName]
  show (∃ r', (if h : i < 8 then _ else r.storeBehindName i b) = Except.ok r') ↔ _
  rw [DriverRequest.storeBehindName]
  split_ifs with h1 h2 h3 h4
  · exact ⟨fun _ => by omega, fun _ => ⟨_, rfl⟩⟩
  · exact ⟨fun _ => by omega, fun _ => ⟨_, rfl⟩⟩
  · exact ⟨fun _ => by omega, fun _ => ⟨_, rfl⟩⟩
  · exact ⟨fun _ => h4, fun _ => ⟨_, rfl⟩⟩
  · refine ⟨fun h => ?_, fun h => absurd h h4⟩
    obtain ⟨r', h⟩ := h
    cases h

/-- `memcpy` to the name stays inside of the struct exactly if there are at most 19 characters. -/
theorem memcpyName_ok_iff :
    (∃ r', memcpyName src i r = .ok r') ↔ src = [] ∨ i + src.length ≤ 19 := by
  induction src generalizing i r with
  | nil => exact ⟨fun _ => .inl rfl, fun _ => ⟨r, rfl⟩⟩
  | cons c src ih =>
    rw [memcpyName, List.length_cons]
    constructor
    · rintro ⟨r', h⟩
      cases hs : storeName i c r with
      | error e =>
        rw [hs] at h
        cases h
      | ok r₁ =>
        rw [hs, ok_bind] at h
        have hi := storeName_ok_iff.1 ⟨r₁, hs⟩
        rcases ih.1 ⟨r', h⟩ with rfl | hle
        · exact .inr (by rw [List.length_nil]; omega)
        · exact .inr (by omega)
    · intro h
      have hle : i + (src.length + 1) ≤ 19 := h.resolve_left (List.cons_ne_nil _ _)
      obtain ⟨r₁, hs⟩ := (storeName_ok_iff (b := c) (r := r)).2 (show i < 19 by omega)
      obtain ⟨r', h'⟩ := (ih (i := i + 1) (r := r₁)).2 (.inr (by omega))
      exact ⟨r', by rw [hs, ok_bind, h']⟩

/-- The characters replace the bytes from `name[i]` on. -/
theorem byte_memcpyName (h : memcpyName src i r = .ok r') (hk : k < 23) :
    r'.byte k = if 4 + i ≤ k then src.getD (k - (4 + i)) (r.byte k) else r.byte k := by
  induction src generalizing i r with
  | nil =>
    cases h
    simp
  | cons c src ih =>
    rw [memcpyName] at h
    cases hs : storeName i c r with
    | error e =>
      rw [hs] at h
      cases h
    | ok r₁ =>
      rw [hs, ok_bind] at h
      rw [ih h, byte_storeName hs hk]
      rcases lt_trichotomy k (4 + i) with hlt | rfl | hgt
      · rw [if_neg (by omega), if_neg (by omega), if_neg (by omega)]
      · rw [if_neg (by omega), if_pos rfl, if_pos le_rfl, Nat.sub_self]
        rfl
      · have hsub : k - (4 + i) = k - (4 + (i + 1)) + 1 := by omega
        rw [if_pos (by omega), if_neg (by omega), if_pos (by omega), hsub, List.getD_cons_succ]

end Bytes

/-! ## Requests in memory -/

/-- The memory with a request at an address. -/
def storeRequest (mem : UInt32 → UInt8) (addr : UInt32) (r : DriverRequest) : UInt32 → UInt8 :=
  fun a => if (a - addr).toNat < 23 then r.byte (a - addr).toNat else mem a

section Memory
variable {mem : UInt32 → UInt8} {addr : UInt32} {r : DriverRequest} {k : Nat}

theorem storeRequest_add (hk : k < 23) :
    storeRequest mem addr r (addr + UInt32.ofNat k) = r.byte k := by
  have hsub : (addr + UInt32.ofNat k - addr).toNat = k := by
    rw [UInt32.add_comm, UInt32.add_sub_cancel, UInt32.toNat_ofNat']
    exact Nat.mod_eq_of_lt (by omega)
  rw [storeRequest, hsub, if_pos hk]

/-- The kernel reads the request that the shell stored. -/
@[simp] theorem requestAt_storeRequest : requestAt (storeRequest mem addr r) addr = r := by
  have hword : ∀ k, k + 4 ≤ 23 → ∀ v : UInt32, (∀ j < 4, r.byte (k + j) = leByte v.toNat j) →
      le32 (storeRequest mem addr r (addr + UInt32.ofNat k))
        (storeRequest mem addr r (addr + UInt32.ofNat (k + 1)))
        (storeRequest mem addr r (addr + UInt32.ofNat (k + 2)))
        (storeRequest mem addr r (addr + UInt32.ofNat (k + 3))) = v := by
    intro k hk v hv
    rw [storeRequest_add (by omega), storeRequest_add (by omega), storeRequest_add (by omega),
      storeRequest_add (by omega), hv 1 (by decide), hv 2 (by decide), hv 3 (by decide)]
    have h0 := hv 0 (by decide)
    rw [Nat.add_zero] at h0
    rw [h0, le32_leByte]
  have hbyte : ∀ base j, base + j < 23 →
      storeRequest mem addr r (addr + UInt32.ofNat base + UInt32.ofNat j) = r.byte (base + j) := by
    intro base j hj
    rw [UInt32.add_assoc, ← UInt32.ofNat_add, storeRequest_add hj]
  have hbuf := hword 0 (by decide) r.buf fun j hj => by
    rw [Nat.zero_add, DriverRequest.byte_buf hj]
  have hparent := hword 15 (by decide) r.parentClusterNumber fun j hj =>
    DriverRequest.byte_parent hj
  have hsize := hword 19 (by decide) r.bufferSize fun j hj => DriverRequest.byte_bufferSize hj
  rw [show addr + UInt32.ofNat 0 = addr from UInt32.add_zero addr] at hbuf
  obtain ⟨buf, name, ext, parent, bufferSize⟩ := r
  rw [requestAt, DriverRequest.mk.injEq]
  refine ⟨hbuf, ?_, ?_, hparent, hsize⟩
  · refine Vector.ext fun j hj => ?_
    rw [Vector.getElem_ofFn]
    exact (hbyte 4 j (by omega)).trans (DriverRequest.byte_name hj)
  · refine Vector.ext fun j hj => ?_
    rw [Vector.getElem_ofFn]
    exact (hbyte 12 j (by omega)).trans (DriverRequest.byte_ext hj)

end Memory

/-! ## Arguments -/

namespace Argument
variable (w : Argument)

theorem length_eq : w.length = w.chars.length := by
  have := w.short
  rw [length, toNat_strlen, Nat.mod_eq_of_lt (by omega)]

theorem ne_zero : ∀ c ∈ w.chars, c ≠ 0 := by
  rintro c hc rfl
  have := w.plain 0 hc
  cases this

theorem take_bytes : w.bytes.take w.length = w.chars := by
  rw [length_eq, bytes, List.take_left]

theorem ends : Ends w.bytes := by
  refine .inr ⟨w.chars ++ (List.replicate (64 - w.chars.length) 0 ++ w.behind), ?_⟩
  simp only [bytes, List.append_assoc]

/-- The first character, or the zero byte of an empty word. -/
theorem head?_bytes : w.bytes.head? = some (w.chars.headD 0) := by
  rw [bytes]
  cases hchars : w.chars with
  | nil => rfl
  | cons c chars => rfl

theorem length_bytes : 66 ≤ w.bytes.length := by
  have := w.short
  simp only [bytes, List.length_append, List.length_replicate, List.length_cons, List.length_nil]
  omega

end Argument

/-! ## The requests of the commands -/

/-- A command with the words that it is called with. -/
inductive FileCommand
  | mkdir (goal : Argument)
  | cat (goal : Argument)
  | rm (goal : Argument)
  | rmr (goal : Argument)
  | cp (goal dest : Argument)
  | mv (goal1 goal2 : Argument)
  | exec (filePath : Argument)

namespace FileCommand

/-- The requests that a command hands to the kernel, one after the other. -/
def requests (x : RequestContext) : FileCommand → Traced NameStore Fault (List DriverRequest)
  | mkdir goal => do
    let req ← .lift (mkdirRequest x goal)
    return req.toList
  | cat goal => do
    let req ← catRequest x goal
    return req.toList
  | rm goal => do
    let req ← rmRequest x goal
    return req.toList
  | rmr goal => do
    let req ← rmrRequest x goal
    return req.toList
  | cp goal dest => cpRequests x goal dest
  | mv goal1 goal2 => mvRequests x goal1 goal2
  | exec filePath => do
    let req ← execRequest x filePath
    return [req]

/-- The buffer that a command chooses. -/
def buf (x : RequestContext) : FileCommand → UInt32
  | exec _ => 0
  | _ => x.temp

/-- The directory that a command chooses for its request number `i`. -/
def directory (x : RequestContext) (i : Nat) : FileCommand → UInt32
  | cp _ _ => if i = 0 then x.sourceCluster else x.destCluster
  | mv _ _ => if i = 0 then x.sourceCluster else x.destCluster
  | _ => x.cwd

/-- The size that a command chooses. The ones that remove an entry choose it by the extension. -/
def bufferSize (r : DriverRequest) : FileCommand → UInt32
  | mkdir _ => 0
  | cat _ => 8192
  | rm _ => if r.ext.get 0 = 0 then 0 else 512
  | rmr _ => if r.ext.get 0 = 0 then 0 else 512
  | cp _ _ => 2048
  | mv _ _ => 2048
  | exec _ => 8192

/-- The requests have the buffer, the directory and the size of the command. -/
def Chosen (x : RequestContext) (command : FileCommand) (rs : List DriverRequest) : Prop :=
  ∀ i r, rs[i]? = some r → r.buf = command.buf x ∧
    r.parentClusterNumber = command.directory x i ∧ r.bufferSize = command.bufferSize r

/-- The words of a command that leave the other fields of its requests alone. -/
def Fits (x : RequestContext) : FileCommand → Prop
  | mkdir goal => goal.chars.headD 0 = x.firstByte ∨
      goal.chars.drop 11 <+: (List.range 4).map (leByte x.cwd.toNat)
  | cat goal => (namePart goal.chars).length ≤ 8
  | rm goal => (namePart goal.chars).length ≤ 8
  | rmr goal => (namePart goal.chars).length ≤ 8
  | cp goal dest => x.sourceCluster = 0 ∨ x.destCluster = 0 ∨
      PathFits goal.bytes ∧ (x.retcode = 0 → PathFits dest.bytes)
  | mv goal1 goal2 => PathFits goal1.bytes ∧ PathFits goal2.bytes
  | exec filePath => PathFits filePath.bytes

end FileCommand

section Commands
variable {x : RequestContext} {goal : Argument} {r r' : DriverRequest}

/-- `parse_filename` on the word in its array. -/
theorem parseFilename_argument {D : Type} [NameFields D] (d : D) (goal : Argument) :
    ∃ ext, Traced.Decides NameStore.InRange (fun _ : Fault => False)
      ((namePart goal.chars).length ≤ 8)
      (fun _ d' => d' = NameFields.setExt ext
        (NameFields.setName (overlay (NameFields.name d) 0 (namePart goal.chars)) d))
      (parseFilename goal.bytes goal.length d) := by
  have hlen := goal.length_bytes
  have hparse : Traced.Decides NameStore.InRange _ _ _ (parseFilename (goal.chars ++
      (List.replicate (64 - goal.chars.length) 0 ++ (goal.behind ++ [0, 0]))) _ d) :=
    parseFilename_decides goal.ne_zero ((by decide : 12 ≤ 66).trans hlen)
  rw [Argument.length_eq]
  exact ⟨_, hparse⟩

/-! ### The fields behind `memcpy` -/

section Copied
variable {src : List UInt8} {j : Nat}

theorem name_memcpyName (h : memcpyName src 0 r = .ok r') (hj : j < 8) :
    r'.name[j] = src.getD j r.name[j] := by
  have hbyte := byte_memcpyName h (show 4 + j < 23 by omega)
  rw [if_pos (by omega), DriverRequest.byte_name hj, DriverRequest.byte_name hj] at hbyte
  rw [hbyte]
  congr 1
  omega

theorem ext_memcpyName (h : memcpyName src 0 r = .ok r') (hj : j < 3) :
    r'.ext[j] = src.getD (8 + j) r.ext[j] := by
  have hbyte := byte_memcpyName h (show 12 + j < 23 by omega)
  rw [if_pos (by omega), DriverRequest.byte_ext hj, DriverRequest.byte_ext hj] at hbyte
  rw [hbyte]
  congr 1
  omega

theorem parent_memcpyName (h : memcpyName src 0 r = .ok r') (hj : j < 4) :
    leByte r'.parentClusterNumber.toNat j =
      src.getD (11 + j) (leByte r.parentClusterNumber.toNat j) := by
  have hbyte := byte_memcpyName h (show 15 + j < 23 by omega)
  rw [if_pos (by omega), DriverRequest.byte_parent hj, DriverRequest.byte_parent hj] at hbyte
  rw [hbyte]
  congr 1
  omega

theorem bufferSize_memcpyName (h : memcpyName src 0 r = .ok r') (hj : j < 4) :
    leByte r'.bufferSize.toNat j = src.getD (15 + j) (leByte r.bufferSize.toNat j) := by
  have hbyte := byte_memcpyName h (show 19 + j < 23 by omega)
  rw [if_pos (by omega), DriverRequest.byte_bufferSize hj,
    DriverRequest.byte_bufferSize hj] at hbyte
  rw [hbyte]
  congr 1
  omega

theorem leByte_zero : leByte (0 : UInt32).toNat j = 0 := by
  simp [leByte]

end Copied

/-- The characters from the twelfth on are the first bytes of an integer. -/
theorem drop_prefix_iff {src : List UInt8} {f : Nat → UInt8} :
    src.drop 11 <+: (List.range 4).map f ↔
      src.length ≤ 15 ∧ ∀ j < 4, src.getD (11 + j) (f j) = f j := by
  constructor
  · intro h
    have hle := h.length_le
    rw [List.length_drop, List.length_map, List.length_range] at hle
    refine ⟨by omega, fun j hj => ?_⟩
    rcases Nat.lt_or_ge (11 + j) src.length with hlt | hge
    · rw [List.getD_eq_getElem _ _ hlt]
      have hj' : j < (src.drop 11).length := by
        rw [List.length_drop]
        omega
      have hget := h.getElem hj'
      rw [List.getElem_drop, List.getElem_map, List.getElem_range] at hget
      exact hget
    · exact List.getD_eq_default _ _ hge
  · rintro ⟨hle, hget⟩
    refine List.prefix_iff_eq_take.2 (List.ext_getElem ?_ fun j hj hj' => ?_)
    · rw [List.length_take, List.length_map, List.length_range, List.length_drop]
      omega
    · rw [List.length_drop] at hj
      have := hget j (by omega)
      rw [List.getD_eq_getElem _ _ (by omega)] at this
      rw [List.getElem_drop, List.getElem_take, List.getElem_map, List.getElem_range, this]

/-- A word is copied over the request: directory and size stay the same exactly if the characters
from the twelfth on are bytes of the directory's number. -/
theorem memcpyName_keeps_iff {src : List UInt8} (hsrc : ∀ c ∈ src, c ≠ 0)
    (hsize : r.bufferSize = 0) :
    (∃ r', memcpyName src 0 r = .ok r' ∧ r'.buf = r.buf ∧
      r'.parentClusterNumber = r.parentClusterNumber ∧ r'.bufferSize = 0) ↔
      src.drop 11 <+: (List.range 4).map (leByte r.parentClusterNumber.toNat) := by
  rw [drop_prefix_iff]
  have hbytes : ∀ {r'}, memcpyName src 0 r = .ok r' → ∀ j < 4,
      leByte r'.bufferSize.toNat j = src.getD (15 + j) 0 := by
    intro r' h j hj
    rw [bufferSize_memcpyName h hj, hsize, leByte_zero]
  constructor
  · rintro ⟨r', h, -, hp, hs⟩
    refine ⟨?_, fun j hj => ?_⟩
    · by_contra hlong
      have hzero := hbytes h 0 (by decide)
      rw [hs, List.getD_eq_getElem _ _ (by omega)] at hzero
      exact hsrc _ (List.getElem_mem _) hzero.symm
    · rw [← parent_memcpyName h hj, hp]
  · rintro ⟨hle, hget⟩
    obtain ⟨r', h⟩ := (memcpyName_ok_iff (r := r)).2 (.inr (show 0 + src.length ≤ 19 by omega))
    refine ⟨r', h, eq_of_leByte fun j hj => ?_, eq_of_leByte fun j hj => ?_,
      eq_of_leByte fun j hj => ?_⟩
    · have hbyte := byte_memcpyName h (show j < 23 by omega)
      rw [if_neg (by omega), DriverRequest.byte_buf hj, DriverRequest.byte_buf hj] at hbyte
      exact hbyte
    · rw [parent_memcpyName h hj, hget j hj]
    · rw [hbytes h j hj, List.getD_eq_default _ _ (by omega), leByte_zero]

namespace FileCommand

/-- The requests stay in the arrays and keep the fields of the command. -/
def Keeps (x : RequestContext) (command : FileCommand) : Prop :=
  ∃ rs, Traced.Returns NameStore.InRange (command.requests x) rs ∧ command.Chosen x rs

theorem chosen_nil {command : FileCommand} : command.Chosen x [] :=
  fun _ _ hr => nomatch hr

/-- One request, or none, with the fields of the command. -/
theorem chosen_toList {command : FileCommand} {o : Option DriverRequest}
    (h : ∀ r, o = some r → r.buf = command.buf x ∧
      r.parentClusterNumber = command.directory x 0 ∧ r.bufferSize = command.bufferSize r) :
    command.Chosen x o.toList := by
  intro i r hr
  cases o with
  | none => cases hr
  | some s =>
    cases i with
    | zero =>
      cases hr
      exact h r rfl
    | succ i => cases hr

theorem keeps_mkdir_iff : (mkdir goal).Keeps x ↔ (mkdir goal).Fits x := by
  have hrun : (mkdir goal).requests x =
      ⟨[], (mkdirRequest x goal).map Option.toList⟩ := by
    show (Traced.lift _ >>= _) = _
    cases h : mkdirRequest x goal with
    | error e => rfl
    | ok o => rfl
  rw [Keeps, hrun, Fits]
  by_cases hfirst : goal.chars.headD 0 = x.firstByte
  · have hnone : mkdirRequest x goal = .ok none := by
      rw [mkdirRequest, if_pos (by rw [goal.head?_bytes, hfirst])]
      rfl
    exact ⟨fun _ => .inl hfirst, fun _ => ⟨[], ⟨by rw [hnone]; rfl, fun w hw => nomatch hw⟩,
      chosen_nil⟩⟩
  · have hsome : mkdirRequest x goal =
        (memcpyName goal.chars 0 (emptyRequest x.temp x.cwd 0)).map some := by
      rw [mkdirRequest, if_neg, goal.take_bytes]
      · cases memcpyName goal.chars 0 (emptyRequest x.temp x.cwd 0) <;> rfl
      · rw [goal.head?_bytes]
        exact fun h => hfirst (Option.some_inj.1 h)
    have hiff := memcpyName_keeps_iff (r := emptyRequest x.temp x.cwd 0) goal.ne_zero rfl
    rw [or_iff_right hfirst, ← show (emptyRequest x.temp x.cwd 0).parentClusterNumber =
      x.cwd from rfl, ← hiff, hsome]
    constructor
    · rintro ⟨rs, ⟨hres, -⟩, hchosen⟩
      cases h : memcpyName goal.chars 0 (emptyRequest x.temp x.cwd 0) with
      | error e =>
        rw [h] at hres
        cases hres
      | ok r =>
        rw [h] at hres
        cases hres
        exact ⟨r, rfl, hchosen 0 r rfl⟩
    · rintro ⟨r, h, hfields⟩
      rw [h]
      refine ⟨[r], ⟨rfl, fun w hw => nomatch hw⟩, chosen_toList (o := some r) ?_⟩
      rintro r' ⟨⟩
      exact hfields

theorem keeps_iff_of_decides {command : FileCommand} {p : Prop}
    (h : Traced.Decides NameStore.InRange (fun _ : Fault => False) p
      (fun _ rs => command.Chosen x rs) (command.requests x)) : command.Keeps x ↔ p :=
  h.returns_iff

theorem keeps_cat_iff : (cat goal).Keeps x ↔ (cat goal).Fits x := by
  refine keeps_iff_of_decides ?_
  show Traced.Decides _ _ _ _ (catRequest x goal >>= fun req => return req.toList)
  rw [catRequest, goal.head?_bytes]
  split
  · next hzero =>
    have hnil : goal.chars = [] := by
      by_contra hne
      obtain ⟨c, chars, hchars⟩ := List.exists_cons_of_ne_nil hne
      rw [hchars] at hzero
      exact goal.ne_zero c (hchars ▸ List.mem_cons_self) (Option.some_inj.1 hzero)
    refine ((Traced.Returns.pure ([] : List DriverRequest)).decides
      (Q := fun _ rs => (cat goal).Chosen x rs) chosen_nil).congr ?_
    rw [Fits, hnil]
    exact iff_of_true trivial (Nat.zero_le 8)
  · obtain ⟨ext, h⟩ := parseFilename_argument (emptyRequest x.temp x.cwd (4 * 2048)) goal
    have hsome := h.map (g := some) (K := fun o => (cat goal).Chosen x o.toList) fun _ r hr => by
      refine chosen_toList (o := some r) ?_
      rintro r' ⟨⟩
      rw [hr]
      exact ⟨rfl, rfl, rfl⟩
    exact hsome.map fun _ o ho => ho

/-- Commands that remove an entry. -/
theorem keeps_removal_iff {command : FileCommand}
    (hrun : command.requests x = removalRequest x goal >>= fun req => pure req.toList)
    (hbuf : command.buf x = x.temp) (hdir : command.directory x 0 = x.cwd)
    (hsize : ∀ r : DriverRequest, command.bufferSize r = if r.ext.get 0 = 0 then 0 else 512) :
    command.Keeps x ↔ (namePart goal.chars).length ≤ 8 := by
  refine keeps_iff_of_decides ?_
  obtain ⟨ext, h⟩ := parseFilename_argument (emptyRequest x.temp x.cwd 512) goal
  rw [hrun]
  refine Traced.Decides.map (G := fun o => command.Chosen x o.toList) ?_ fun _ o ho => ho
  refine (h.bind (q := True) fun _ t r hr => ?_).congr (by rw [and_true])
  have hread : r.buf = x.temp ∧ r.parentClusterNumber = x.cwd ∧ r.bufferSize = 512 := by
    rw [hr]
    exact ⟨rfl, rfl, rfl⟩
  obtain ⟨s, hs, hfields⟩ : ∃ s, (if r.ext.get 0 = 0 then { r with bufferSize := 0 } else r) = s ∧
      s.buf = command.buf x ∧ s.parentClusterNumber = command.directory x 0 ∧
        s.bufferSize = command.bufferSize s := by
    rw [hbuf, hdir]
    by_cases hext : r.ext.get 0 = 0
    · rw [if_pos hext]
      exact ⟨_, rfl, hread.1, hread.2.1, by rw [hsize, if_pos hext]⟩
    · rw [if_neg hext]
      exact ⟨_, rfl, hread.1, hread.2.1, by rw [hsize, if_neg hext, hread.2.2]⟩
  dsimp only
  rw [hs]
  split
  · exact (Traced.Returns.pure none).decides chosen_nil
  · refine (Traced.Returns.pure (some s)).decides (chosen_toList ?_)
    rintro r' ⟨⟩
    exact hfields

theorem keeps_exec_iff : (exec goal).Keeps x ↔ (exec goal).Fits x := by
  refine keeps_iff_of_decides ?_
  show Traced.Decides _ _ _ _ (execRequest x goal >>= fun req => return [req])
  refine Traced.Decides.map (getOnlyFilename_decides goal.ends) fun _ r hr => ?_
  refine chosen_toList (o := some r) ?_
  rintro r' ⟨⟩
  rw [hr]
  exact ⟨rfl, rfl, rfl⟩

/-- A list of two requests. -/
theorem chosen_pair {command : FileCommand} {r s : DriverRequest}
    (hr : r.buf = command.buf x ∧ r.parentClusterNumber = command.directory x 0 ∧
      r.bufferSize = command.bufferSize r)
    (hs : s.buf = command.buf x ∧ s.parentClusterNumber = command.directory x 1 ∧
      s.bufferSize = command.bufferSize s) : command.Chosen x [r, s] := by
  intro i r' hr'
  match i with
  | 0 =>
    cases hr'
    exact hr
  | 1 =>
    cases hr'
    exact hs
  | i + 2 => cases hr'

theorem keeps_cp_iff {dest : Argument} : (cp goal dest).Keeps x ↔ (cp goal dest).Fits x := by
  refine keeps_iff_of_decides ?_
  show Traced.Decides _ _ _ _ (cpRequests x goal dest)
  rw [cpRequests]
  split
  · next hsource =>
    exact ((Traced.Returns.pure []).decides chosen_nil).congr (iff_of_true trivial (.inl hsource))
  · next hsource =>
    split
    · next hdest =>
      exact ((Traced.Returns.pure []).decides chosen_nil).congr
        (iff_of_true trivial (.inr (.inl hdest)))
    · next hdest =>
      have hgoal :=
        getOnlyFilename_decides (d := emptyRequest x.temp x.sourceCluster 2048) goal.ends
      refine (hgoal.bind (q := x.retcode = 0 → PathFits dest.bytes) fun _ t r hr => ?_).congr
        (by rw [Fits, or_iff_right hsource, or_iff_right hdest])
      have hread : r.buf = x.temp ∧ r.parentClusterNumber = x.sourceCluster ∧
          r.bufferSize = 2048 := by
        rw [hr]
        exact ⟨rfl, rfl, rfl⟩
      split
      · next hret =>
        refine (Traced.Decides.map (getOnlyFilename_decides dest.ends) fun _ r' hr' => ?_).congr
          (by simp [hret])
        refine chosen_pair hread ?_
        rw [hr']
        exact ⟨hread.1, rfl, hread.2.2⟩
      · next hret =>
        refine ((Traced.Returns.pure [r]).decides ?_).congr (by simp [hret])
        refine chosen_toList (o := some r) ?_
        rintro r' ⟨⟩
        exact hread

theorem keeps_mv_iff {dest : Argument} : (mv goal dest).Keeps x ↔ (mv goal dest).Fits x := by
  refine keeps_iff_of_decides ?_
  show Traced.Decides _ _ _ _ (mvRequests x goal dest)
  rw [mvRequests]
  refine (getOnlyFilename_decides goal.ends).bind fun _ _ source _ => ?_
  refine ((getOnlyFilename_decides dest.ends).bind (q := True) fun _ _ target _ => ?_).congr
    (by rw [and_true])
  split
  · exact (Traced.Returns.pure _).decides chosen_nil
  split
  · exact (Traced.Returns.pure _).decides chosen_nil
  split
  · exact (Traced.Returns.pure _).decides chosen_nil
  · exact (Traced.Returns.pure _).decides (chosen_pair ⟨rfl, rfl, rfl⟩ ⟨rfl, rfl, rfl⟩)

/-- For every command, its words and the state that it meets: the stores stay in their arrays and
the requests have the buffer, the directory and the size that the command chose, exactly if the
words fit. -/
theorem requests_keep_iff (x : RequestContext) (command : FileCommand) :
    command.Keeps x ↔ command.Fits x := by
  cases command with
  | mkdir goal => exact keeps_mkdir_iff
  | cat goal => exact keeps_cat_iff
  | rm goal => exact keeps_removal_iff rfl rfl rfl fun _ => rfl
  | rmr goal => exact keeps_removal_iff rfl rfl rfl fun _ => rfl
  | cp goal dest => exact keeps_cp_iff
  | mv goal1 goal2 => exact keeps_mv_iff
  | exec filePath => exact keeps_exec_iff

end FileCommand

end Commands

/-! ### A name of twelve characters -/

/-- The word `aaaaaaaaaaaa`. -/
def longName : Argument where
  chars := List.replicate 12 0x61
  behind := []
  plain := by simp [isBlank]
  short := by decide

/-- The working directory is the root directory. -/
def rootContext : RequestContext where
  firstByte := 0x55
  temp := 0x100000
  cwd := 2
  sourceCluster := 2
  destCluster := 2
  retcode := 0
  sameFile := false

/-- `mkdir aaaaaaaaaaaa` hands over the request for a folder in directory 97, and the name that `rm`
stores goes past `nameDest`. -/
theorem mkdir_redirected : (∃ r, mkdirRequest rootContext longName = .ok (some r) ∧
      r.parentClusterNumber = 97) ∧
    ¬ (FileCommand.mkdir longName).Keeps rootContext ∧
    ¬ (FileCommand.rm longName).Keeps rootContext := by
  refine ⟨⟨_, rfl, by decide⟩, fun h => ?_, fun h => ?_⟩
  · rcases FileCommand.keeps_mkdir_iff.1 h with hfirst | hprefix
    · cases hfirst
    · revert hprefix
      decide
  · have hfits := (FileCommand.keeps_removal_iff rfl rfl rfl fun _ => rfl).1 h
    revert hfits
    decide

end OsKernel
