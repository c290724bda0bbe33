import OsKernel.Shell.Commands
import OsKernel.Shell.Input
import OsKernel.Shell.Resolvers

/-!
# Requests of the shell

How the commands fill the requests that they hand to the kernel. `parse_filename` and
`get_only_filename` store characters through pointers into a request, or into local arrays of `mv`;
the stores are recorded, and one behind `name` reaches the fields that follow in the packed struct
(`byte_storeName`). What the two come to is stated on the characters of the word: the part before
the first dot has to fit into `name` (`parseFilename_decides`), and the components of a path into
`currentCandidate` (`getOnlyFilename_decides`).
-/

namespace OsKernel

open Lib

/-! ## The packed request -/

namespace DriverRequest

/-- Byte `k` of `struct FAT32DriverRequest`, which is packed. -/
def byte (r : DriverRequest) (k : Nat) : UInt8 :=
  if k < 4 then leByte r.buf.toNat k
  else if h : k - 4 < 8 then r.name[k - 4]
  else if h : k - 12 < 3 then r.ext[k - 12]
  else if k < 19 then leByte r.parentClusterNumber.toNat (k - 15)
  else leByte r.bufferSize.toNat (k - 19)

/-- A store to `name[i]` with `i` from 8 on. -/
def storeBehindName (i : Nat) (b : UInt8) (r : DriverRequest) : Except Fault DriverRequest :=
  if h : i - 8 < 3 then .ok { r with ext := r.ext.set (i - 8) b }
  else if i < 15 then .ok { r with parentClusterNumber := setByte r.parentClusterNumber (i - 11) b }
  else if i < 19 then .ok { r with bufferSize := setByte r.bufferSize (i - 15) b }
  else .error (.arrayIndex i)

end DriverRequest

/-- A place with an array `name` of 8 characters and an array `ext` of 3, and what a store behind
`name` does to it. -/
class NameFields (D : Type) where
  name : D → Vector UInt8 8
  ext : D → Vector UInt8 3
  setName : Vector UInt8 8 → D → D
  setExt : Vector UInt8 3 → D → D
  storeBehindName : Nat → UInt8 → D → Except Fault D
  name_setName : ∀ v d, name (setName v d) = v
  ext_setName : ∀ v d, ext (setName v d) = ext d
  ext_setExt : ∀ v d, ext (setExt v d) = v
  setName_name : ∀ d, setName (name d) d = d
  setExt_ext : ∀ d, setExt (ext d) d = d
  setName_setName : ∀ u v d, setName v (setName u d) = setName v d
  setExt_setExt : ∀ u v d, setExt v (setExt u d) = setExt v d

/-- The local arrays of `mv`, such as `source_name` and `source_ext`. -/
structure LocalName where
  name : Vector UInt8 8
  ext : Vector UInt8 3

instance : NameFields DriverRequest where
  name := DriverRequest.name
  ext := DriverRequest.ext
  setName v r := { r with name := v }
  setExt v r := { r with ext := v }
  storeBehindName := DriverRequest.storeBehindName
  name_setName _ _ := rfl
  ext_setName _ _ := rfl
  ext_setExt _ _ := rfl
  setName_name _ := rfl
  setExt_ext _ := rfl
  setName_setName _ _ _ := rfl
  setExt_setExt _ _ _ := rfl

instance : NameFields LocalName where
  name := LocalName.name
  ext := LocalName.ext
  setName v d := { d with name := v }
  setExt v d := { d with ext := v }
  storeBehindName i _ _ := .error (.arrayIndex i)
  name_setName _ _ := rfl
  ext_setName _ _ := rfl
  ext_setExt _ _ := rfl
  setName_name _ := rfl
  setExt_ext _ := rfl
  setName_setName _ _ _ := rfl
  setExt_setExt _ _ _ := rfl

/-! ## Stores of characters -/

/-- A store of `parse_filename` or `get_only_filename`, to an element of `nameDest`, of `extDest` or
of its own array `currentCandidate`. -/
inductive NameStore
  | name (i : Nat)
  | ext (i : Nat)
  | candidate (i : Nat)

/-- The store is inside of its array. -/
def NameStore.InRange : NameStore → Prop
  | name i => i < 8
  | ext i => i < 3
  | candidate i => i < 12

section Stores
variable {D : Type} [NameFields D]

/-- `name[i] = b` -/
def storeName (i : Nat) (b : UInt8) (d : D) : Except Fault D :=
  if h : i < 8 then .ok (NameFields.setName ((NameFields.name d).set i b) d)
  else NameFields.storeBehindName i b d

/-- `nameDest[i] = b` -/
def storeNameDest (i : Nat) (b : UInt8) (d : D) : Traced NameStore Fault D :=
  ⟨[.name i], storeName i b d⟩

/-- `extDest[i] = b` -/
def storeExtDest (i : Nat) (b : UInt8) (d : D) : Traced NameStore Fault D :=
  ⟨[.ext i], if h : i < 3 then .ok (NameFields.setExt ((NameFields.ext d).set i b) d)
    else .error (.arrayIndex i)⟩

/-- The first loop of `parse_filename`, with `file` the characters from `file[i]` on: what stands
behind the dot, if there is one. -/
def copyName : Nat → Nat → List UInt8 → D → Traced NameStore Fault (Option (List UInt8) × D)
  | 0, _, _, d => return (none, d)
  | _ + 1, i, [], _ => .lift (.error (.arrayIndex i))
  | left + 1, i, c :: file, d =>
    if c = 0 then return (none, d)
    else if c = 0x2E then return (some file, d)
    else do
      let d ← storeNameDest i c d
      copyName left (i + 1) file d

/-- The second loop of `parse_filename`, with `count` characters to go. -/
def copyExt : Nat → Nat → List UInt8 → D → Traced NameStore Fault D
  | 0, _, _, d => return d
  | _ + 1, extIndex, [], _ => .lift (.error (.arrayIndex extIndex))
  | count + 1, extIndex, c :: file, d => do
    let d ← storeExtDest extIndex c d
    copyExt count (extIndex + 1) file d

/-- `parse_filename`, with `file` the bytes from `file[0]` on. -/
def parseFilename (file : List UInt8) (nameLength : Nat) (d : D) : Traced NameStore Fault D := do
  match ← copyName nameLength 0 file d with
  | (none, d) => return d
  | (some rest, d) => copyExt 3 0 rest d

/-- `currentCandidate` -/
abbrev Candidate := Fin 12 → UInt8

/-- `currentCandidate[i] = b` -/
def storeCandidate (i : Nat) (b : UInt8) (candidate : Candidate) :
    Traced NameStore Fault Candidate :=
  ⟨[.candidate i], if h : i < 12 then .ok (Function.update candidate ⟨i, h⟩ b)
    else .error (.arrayIndex i)⟩

/-- `memset(currentCandidate, 0x0, 10)` -/
def Candidate.clear (candidate : Candidate) : Candidate :=
  fun j => if j.val < 10 then 0 else candidate j

/-- The inner loop of `get_only_filename`, and what stands behind the character at which it ends. -/
def copyComponent : List UInt8 → Nat → Candidate → Traced NameStore Fault (List UInt8 × Candidate)
  | [], i, _ => .lift (.error (.arrayIndex i))
  | c :: path, candidateIdx, candidate =>
    if isSeparator c || c == 0 then return (path, candidate)
    else do
      let candidate ← storeCandidate candidateIdx c candidate
      copyComponent path (candidateIdx + 1) candidate

/-- The outer loop of `get_only_filename`. It goes on behind the zero byte at the end of a path. -/
def copyComponents : Nat → List UInt8 → Candidate → Traced NameStore Fault Candidate
  | 0, _, _ => .lift (.error .outOfSteps)
  | _ + 1, [], _ => .lift (.error (.arrayIndex 0))
  | steps + 1, c :: path, candidate =>
    if c = 0 then return candidate
    else do
      let (path, candidate) ← copyComponent (c :: path) 0 candidate.clear
      copyComponents steps path candidate

/-- `get_only_filename`, with `filePath` the bytes from `filePath[0]` on. -/
def getOnlyFilename (filePath : List UInt8) (d : D) : Traced NameStore Fault D := do
  let candidate ← copyComponents (filePath.length + 1) filePath fun _ => 0
  let str ← .lift (cString (List.ofFn candidate))
  parseFilename (List.ofFn candidate) (strlen str).toNat d

/-- `memcpy(name, src, n)`, with `src` the bytes that are copied. -/
def memcpyName : List UInt8 → Nat → D → Except Fault D
  | [], _, d => .ok d
  | c :: src, i, d => do
    let d ← storeName i c d
    memcpyName src (i + 1) d

end Stores

/-! ## The commands -/

/-- A word in its array of 64 characters, and what is stored behind the array. Two zero bytes follow
somewhere: `currentWord` has the bytes of `cwd_cluster_number` behind it and those of
`last_index_arrow`, which is never assigned. -/
structure Argument where
  chars : List UInt8
  behind : List UInt8
  plain : ∀ c ∈ chars, isBlank c = false
  short : chars.length ≤ 63

/-- The bytes from the start of the array on. -/
def Argument.bytes (w : Argument) : List UInt8 :=
  w.chars ++ (List.replicate (64 - w.chars.length) 0 ++ (w.behind ++ [0, 0]))

/-- `strlen` of the word. -/
def Argument.length (w : Argument) : Nat := (strlen w.chars).toNat

/-- What a command knows besides its arguments: the byte at the address 0, the address of its
buffer, the working directory, the directories that `get_final_parent_cluster` returned for the
arguments of `cp` and `mv`, what the first system call of `cp` left in `retcode`, and what the
comparison of the two names in `mv` came to, which reads past arrays that the names fill. -/
structure RequestContext where
  firstByte : UInt8
  temp : UInt32
  cwd : UInt32
  sourceCluster : UInt32
  destCluster : UInt32
  retcode : Int
  sameFile : Bool

/-- A request with an empty name. -/
def emptyRequest (buf parent bufferSize : UInt32) : DriverRequest where
  buf := buf
  name := Vector.replicate 8 0
  ext := Vector.replicate 3 0
  parentClusterNumber := parent
  bufferSize := bufferSize

/-- The request of `mkdir`, unless `memcmp(goal, 0x0, 1) == 0`. -/
def mkdirRequest (x : RequestContext) (goal : Argument) : Except Fault (Option DriverRequest) :=
  if goal.bytes.head? = some x.firstByte then return none
  else do
    let req ← memcpyName (goal.bytes.take goal.length) 0 (emptyRequest x.temp x.cwd 0)
    return some req

/-- The request of `cat`. -/
def catRequest (x : RequestContext) (goal : Argument) :
    Traced NameStore Fault (Option DriverRequest) :=
  if goal.bytes.head? = some 0 then return none
  else do
    let req ← parseFilename goal.bytes goal.length (emptyRequest x.temp x.cwd (4 * 2048))
    return some req

/-- The request of a command that removes an entry. -/
def removalRequest (x : RequestContext) (goal : Argument) :
    Traced NameStore Fault (Option DriverRequest) := do
  let req ← parseFilename goal.bytes goal.length (emptyRequest x.temp x.cwd 512)
  let req := if req.ext.get 0 = 0 then { req with bufferSize := 0 } else req
  if req.name.get 0 = 0 then return none else return some req

/-- The request of `rm`. -/
def rmRequest : RequestContext → Argument → Traced NameStore Fault (Option DriverRequest) :=
  removalRequest

/-- The request of `rmr`. -/
def rmrRequest : RequestContext → Argument → Traced NameStore Fault (Option DriverRequest) :=
  removalRequest

/-- The requests of `cp`. The second one is made from the first. -/
def cpRequests (x : RequestContext) (goal dest : Argument) :
    Traced NameStore Fault (List DriverRequest) :=
  if x.sourceCluster = 0 then return []
  else if x.destCluster = 0 then return []
  else do
    let req ← getOnlyFilename goal.bytes (emptyRequest x.temp x.sourceCluster 2048)
    if x.retcode = 0 then
      let cleared : DriverRequest := { req with
        parentClusterNumber := x.destCluster
        name := Vector.replicate 8 0
        ext := Vector.replicate 3 0 }
      let req' ← getOnlyFilename dest.bytes cleared
      return [req, req']
    else return [req]

/-- The requests of `mv`, for the source and for the target. -/
def mvRequests (x : RequestContext) (goal1 goal2 : Argument) :
    Traced NameStore Fault (List DriverRequest) := do
  let source ← getOnlyFilename goal1.bytes
    (⟨Vector.replicate 8 0, Vector.replicate 3 0⟩ : LocalName)
  let dest ← getOnlyFilename goal2.bytes (⟨Vector.replicate 8 0, Vector.replicate 3 0⟩ : LocalName)
  if x.sourceCluster = x.destCluster ∧ x.sameFile = true then return []
  else if x.sourceCluster = 0 then return []
  else if x.destCluster = 0 then return []
  else return [⟨x.temp, source.name, source.ext, x.sourceCluster, 2048⟩,
    ⟨x.temp, dest.name, dest.ext, x.destCluster, 2048⟩]

/-- The request of `exec`. -/
def execRequest (x : RequestContext) (filePath : Argument) : Traced NameStore Fault DriverRequest :=
  getOnlyFilename filePath.bytes (emptyRequest 0 x.cwd (4 * 2048))

end OsKernel
