import OsKernel.Shell.Filenames

/-!
# The name at the end of a path

The name at the end of a path (`NamedPath`) is one of the form 8.3 (`ShortName`).
`get_only_filename` leaves it in `name` and `ext` as long as no component is too long: all of them
go through the same `currentCandidate`, and what is left over from a long one in its last two
characters is the end of a shorter one, or of its extension (`getOnlyFilename_name_iff`).
-/

namespace OsKernel

open Lib

/-- A name of 1 to 8 characters, and an extension of 1 to 3 characters or none. -/
structure ShortName where
  base : List UInt8
  ext : List UInt8
  base_length : 1 ≤ base.length ∧ base.length ≤ 8
  ext_length : ext.length ≤ 3
  base_chars : ∀ c ∈ base, inComponent c = true
  ext_chars : ∀ c ∈ ext, inComponent c = true
  dot_free : 0x2E ∉ base

/-- The name as it is written. -/
def ShortName.text (f : ShortName) : List UInt8 :=
  if f.ext = [] then f.base else f.base ++ 0x2E :: f.ext

/-- A path of components, each with the separator behind it, and the name at its end, behind which
there may be a separator, too. -/
structure NamedPath where
  parents : List (List UInt8 × UInt8)
  file : ShortName
  trailing : Option UInt8
  parents_chars : ∀ p ∈ parents, ∀ c ∈ p.1, inComponent c = true
  parents_separator : ∀ p ∈ parents, isSeparator p.2 = true
  trailing_separator : ∀ c ∈ trailing, isSeparator c = true

namespace NamedPath

/-- The characters of the path. -/
def chars (p : NamedPath) : List UInt8 :=
  p.parents.flatMap (fun q => q.1 ++ [q.2]) ++ (p.file.text ++ p.trailing.toList)

/-- The components of the path. -/
def parts (p : NamedPath) : List (List UInt8) := p.parents.map Prod.fst ++ [p.file.text]

/-- The path in a word of 64 bytes. -/
def word (p : NamedPath) : List UInt8 := p.chars ++ List.replicate (64 - p.chars.length) 0

/-- All components fit into `currentCandidate`. A last component that reaches the two characters
that are not cleared needs one of them for the zero behind it, and those of the three characters
behind its dot that are not its own have to be zero. -/
structure Fits (p : NamedPath) : Prop where
  candidate : ∀ comp ∈ p.parts, comp.length ≤ 12
  terminated : 10 ≤ p.file.text.length → ∀ comp ∈ p.parts, comp.length ≤ 11
  extension : p.file.ext ≠ [] → ∀ k, 10 ≤ k → p.file.text.length ≤ k → k ≤ p.file.base.length + 3 →
    ∀ comp ∈ p.parts, comp.length ≤ k

end NamedPath

/-! ## The name -/

namespace ShortName
variable {f : ShortName}

theorem text_ne_nil : f.text ≠ [] := by
  have hbase : f.base ≠ [] := List.ne_nil_of_length_pos f.base_length.1
  rw [text]
  split
  · exact hbase
  · exact List.append_ne_nil_of_left_ne_nil hbase _

theorem text_chars : ∀ c ∈ f.text, inComponent c = true := by
  intro c hc
  rw [text] at hc
  split at hc
  · exact f.base_chars c hc
  · rcases List.mem_append.1 hc with hc | hc
    · exact f.base_chars c hc
    · rcases List.mem_cons.1 hc with rfl | hc
      · decide
      · exact f.ext_chars c hc

theorem dot_mem_text : 0x2E ∈ f.text ↔ f.ext ≠ [] := by
  rw [text]
  split
  · next h => exact iff_of_false f.dot_free (not_not_intro h)
  · next h => exact iff_of_true (List.mem_append_right _ List.mem_cons_self) h

/-- The part before the dot. -/
theorem namePart_text : namePart f.text = f.base := by
  rw [text]
  split
  · exact namePart_eq_self f.dot_free
  · rw [namePart, List.takeWhile_append_of_pos, List.takeWhile_cons_of_neg (by decide),
      List.append_nil]
    exact fun c hc => by simpa using fun heq : c = 0x2E => f.dot_free (heq ▸ hc)

theorem length_text : f.text.length = if f.ext = [] then f.base.length
    else f.base.length + (f.ext.length + 1) := by
  rw [text]
  split
  · rfl
  · rw [List.length_append, List.length_cons]

theorem length_text_le : f.text.length ≤ 12 := by
  have hbase := f.base_length
  have hext := f.ext_length
  rw [length_text]
  split <;> omega

end ShortName

namespace NamedPath
variable {p : NamedPath}

theorem components_parents (parents : List (List UInt8 × UInt8)) (rest : List UInt8)
    (hchars : ∀ q ∈ parents, ∀ c ∈ q.1, inComponent c = true)
    (hsep : ∀ q ∈ parents, isSeparator q.2 = true) :
    components (parents.flatMap (fun q => q.1 ++ [q.2]) ++ rest) =
      parents.map Prod.fst ++ components rest := by
  induction parents with
  | nil => rfl
  | cons q parents ih =>
    rw [List.forall_mem_cons] at hchars hsep
    rw [List.flatMap_cons, List.append_assoc, List.append_assoc, List.singleton_append,
      components_separator hchars.1 hsep.1, ih hchars.2 hsep.2]
    rfl

/-- The components that `get_only_filename` goes over are those of the path. -/
theorem components_word (h : p.chars.length ≤ 62) : components p.word = p.parts := by
  obtain ⟨n, hn⟩ : ∃ n, 64 - p.chars.length = n + 2 := ⟨62 - p.chars.length, by omega⟩
  rw [word, hn, chars, List.append_assoc, List.append_assoc,
    components_parents _ _ p.parents_chars p.parents_separator, parts]
  refine congrArg (p.parents.map Prod.fst ++ ·) ?_
  cases htrailing : p.trailing with
  | none =>
    have hhead : ∀ b ∈ (p.file.text ++ 0 :: List.replicate (n + 1) 0).head?, b ≠ 0 := by
      intro b hb
      obtain ⟨a, text, htext⟩ := List.exists_cons_of_ne_nil p.file.text_ne_nil
      rw [htext] at hb
      cases hb
      exact ne_zero_of_inComponent (p.file.text_chars b (htext ▸ List.mem_cons_self))
    refine (components_append p.file.text_chars rfl hhead).trans ?_
    exact congrArg (p.file.text :: ·) components_zero
  | some c =>
    refine (components_separator p.file.text_chars (p.trailing_separator c htrailing)).trans ?_
    exact congrArg (p.file.text :: ·) components_zero

theorem ends_word (h : p.chars.length ≤ 62) : Ends p.word := by
  obtain ⟨n, hn⟩ : ∃ n, 64 - p.chars.length = n + 2 := ⟨62 - p.chars.length, by omega⟩
  refine .inr ⟨p.chars ++ List.replicate n 0, ?_⟩
  rw [word, hn, List.append_assoc, List.replicate_add]
  rfl

theorem lastComponent_word (h : p.chars.length ≤ 62) : lastComponent p.word = p.file.text := by
  rw [lastComponent, components_word h, parts, List.getLast?_concat]
  rfl

/-- The arrays are kept to exactly if the components are short enough. -/
theorem pathFits_word (h : p.chars.length ≤ 62) : PathFits p.word ↔
    (∀ comp ∈ p.parts, comp.length ≤ 12) ∧
      (10 ≤ p.file.text.length → ∀ comp ∈ p.parts, comp.length ≤ 11) := by
  constructor
  · rintro ⟨hfits, hterm, -⟩
    rw [components_word h] at hfits hterm
    rw [lastComponent_word h] at hterm
    exact ⟨hfits, hterm⟩
  · rintro ⟨hfits, hterm⟩
    refine ⟨?_, ?_, ?_⟩
    · rwa [components_word h]
    · rwa [components_word h, lastComponent_word h]
    · rw [lastComponent_word h, ShortName.namePart_text]
      exact p.file.base_length.2

/-! ## What `currentCandidate` holds at the end -/

variable {k : Nat}

/-- The characters of the last component. -/
theorem candidateOf_lt (h : p.chars.length ≤ 62) (hk : k < p.file.text.length) (hk' : k < 12) :
    candidateOf p.word ⟨k, hk'⟩ = p.file.text[k] := by
  rw [candidateOf, components_word h, parts]
  exact filled_concat_lt hk

/-- What is behind the last component is zero where it is cleared, or where no component reaches. -/
theorem candidateOf_eq_zero_iff (h : p.chars.length ≤ 62) (hk : p.file.text.length ≤ k)
    (hk' : k < 12) :
    candidateOf p.word ⟨k, hk'⟩ = 0 ↔ (10 ≤ k → ∀ comp ∈ p.parts, comp.length ≤ k) := by
  rcases Nat.lt_or_ge k 10 with hlt | hge
  · refine iff_of_true ?_ fun hge => absurd hlt hge.not_gt
    rw [candidateOf, components_word h, parts, filled_concat_ge hk]
    exact if_pos hlt
  · have hne : ∀ comp ∈ p.parts, ∀ b ∈ comp, b ≠ 0 := fun comp hcomp b hb =>
      ne_zero_of_inComponent (inComponent_of_mem ((components_word h).symm ▸ hcomp) b hb)
    rw [candidateOf, components_word h]
    have hzero := filled_eq_zero_iff (j := ⟨k, hk'⟩) hne hge
    exact ⟨fun hk _ => hzero.1 hk, fun hk => hzero.2 (hk hge)⟩

/-- The string in `currentCandidate` starts with the last component. -/
theorem candidateText_word (h : p.chars.length ≤ 62) :
    ∃ tail, candidateText p.word = p.file.text ++ tail ∧ (p.file.text.length ≤ 9 → tail = []) := by
  have hlast := lastComponent_word h
  have htext := candidateText_eq (hlast.symm ▸ p.file.length_text_le)
  rwa [hlast] at htext

/-- The part before the dot of the string in `currentCandidate`. -/
theorem namePart_candidateText_word (h : p.chars.length ≤ 62) :
    namePart (candidateText p.word) = p.file.base := by
  obtain ⟨tail, htext, htail⟩ := candidateText_word h
  rw [htext]
  by_cases hext : p.file.ext = []
  · have hshort : p.file.text.length ≤ 9 := by
      have hbase := p.file.base_length
      rw [ShortName.length_text, if_pos hext]
      omega
    rw [htail hshort, List.append_nil, ShortName.namePart_text]
  · rw [namePart_append (ShortName.dot_mem_text.2 hext), ShortName.namePart_text]

/-- Without a dot there is no extension. -/
theorem parsedExt_plain (h : p.chars.length ≤ 62) (hext : p.file.ext = []) (old : Vector UInt8 3) :
    parsedExt old (candidateText p.word) (candidateRest p.word) = old := by
  obtain ⟨tail, htext, htail⟩ := candidateText_word h
  have hshort : p.file.text.length ≤ 9 := by
    have hbase := p.file.base_length
    rw [ShortName.length_text, if_pos hext]
    omega
  have hdot : 0x2E ∉ candidateText p.word := by
    rw [htext, htail hshort, List.append_nil, ShortName.dot_mem_text]
    exact not_not_intro hext
  rw [parsedExt, afterDot, if_neg hdot]

/-- Behind a dot three characters are taken, whatever they are. -/
theorem parsedExt_getElem (h : p.chars.length ≤ 62) (hext : p.file.ext ≠ []) (old : Vector UInt8 3)
    {i : Nat} (hi : i < 3) :
    (parsedExt old (candidateText p.word) (candidateRest p.word))[i] =
      candidateOf p.word ⟨p.file.base.length + 1 + i, by have := p.file.base_length; omega⟩ := by
  obtain ⟨tail, htext, -⟩ := candidateText_word h
  have hdot : 0x2E ∈ candidateText p.word := by
    rw [htext]
    exact List.mem_append_left _ (ShortName.dot_mem_text.2 hext)
  have hbase := p.file.base_length
  have hafter : afterDot (candidateText p.word) (candidateRest p.word) =
      some ((List.ofFn (candidateOf p.word)).drop (p.file.base.length + 1)) := by
    rw [afterDot, if_pos hdot, candidateText_append, namePart_candidateText_word h]
  have hthree : 3 ≤ ((List.ofFn (candidateOf p.word)).drop (p.file.base.length + 1)).length := by
    rw [List.length_drop, List.length_ofFn]
    omega
  rw [parsedExt_eq hafter hthree, padded, Vector.getElem_ofFn]
  dsimp only
  rw [List.getD_eq_getElem _ _ (by omega), List.getElem_drop, List.getElem_ofFn]

/-- The extension is found exactly if the characters behind its end are zero. -/
theorem parsedExt_eq_iff (h : p.chars.length ≤ 62) :
    parsedExt (Vector.replicate 3 0) (candidateText p.word) (candidateRest p.word) =
        padded 3 p.file.ext ↔
      (p.file.ext ≠ [] → ∀ k, 10 ≤ k → p.file.text.length ≤ k → k ≤ p.file.base.length + 3 →
        ∀ comp ∈ p.parts, comp.length ≤ k) := by
  by_cases hext : p.file.ext = []
  · refine iff_of_true ?_ fun hne => absurd hext hne
    rw [parsedExt_plain h hext, hext]
    rfl
  have hbase := p.file.base_length
  have htext := p.file.length_text
  rw [if_neg hext] at htext
  -- the characters of the extension are where they should be
  have hown : ∀ i (hi : i < p.file.ext.length) (hi' : i < 3),
      candidateOf p.word ⟨p.file.base.length + 1 + i, by omega⟩ = p.file.ext[i] := by
    intro i hi hi'
    rw [candidateOf_lt h (by omega)]
    have hchars : p.file.text = (p.file.base ++ [0x2E]) ++ p.file.ext := by
      rw [ShortName.text, if_neg hext, List.append_assoc]
      rfl
    rw [List.getElem_of_eq hchars, List.getElem_append_right (by rw [List.length_append]; simp)]
    congr 1
    rw [List.length_append, List.length_singleton]
    omega
  constructor
  · intro heq _ k hk hlast hthree
    obtain ⟨i, rfl⟩ : ∃ i, k = p.file.base.length + 1 + i :=
      ⟨k - (p.file.base.length + 1), by omega⟩
    have hi : i < 3 := by omega
    have hget := parsedExt_getElem h hext (Vector.replicate 3 0) hi
    rw [heq, padded, Vector.getElem_ofFn,
      List.getD_eq_default _ _ (by show p.file.ext.length ≤ i; omega)]
      at hget
    exact (candidateOf_eq_zero_iff h hlast (by omega)).1 hget.symm hk
  · intro hlong
    refine Vector.ext fun i hi => ?_
    rw [parsedExt_getElem h hext _ hi, padded, Vector.getElem_ofFn]
    show _ = p.file.ext.getD i 0
    rcases Nat.lt_or_ge i p.file.ext.length with hlt | hge
    · rw [hown i hlt hi, List.getD_eq_getElem _ _ hlt]
    · rw [List.getD_eq_default _ _ hge]
      exact (candidateOf_eq_zero_iff h (by omega) (by omega)).2 fun hk =>
        hlong hext _ hk (by omega) (by omega)

end NamedPath

/-! ## The name that is found -/

/-- A store to `ext` leaves `name` alone. -/
class SeparateFields (D : Type) [NameFields D] : Prop where
  name_setExt : ∀ (v : Vector UInt8 3) (d : D), NameFields.name (NameFields.setExt v d) =
    NameFields.name d

instance : SeparateFields DriverRequest := ⟨fun _ _ => rfl⟩

instance : SeparateFields LocalName := ⟨fun _ _ => rfl⟩

section Found
variable {D : Type} [NameFields D]

/-- The name is in its arrays, with zeros behind it. -/
structure ShortName.StoredIn (f : ShortName) (d : D) : Prop where
  name : NameFields.name d = padded 8 f.base
  ext : NameFields.ext d = padded 3 f.ext

/-- `get_only_filename` finds the name at the end of a path, within its arrays, exactly if the
components are short enough. -/
theorem getOnlyFilename_name_iff [SeparateFields D] (p : NamedPath) (h : p.chars.length ≤ 62)
    (d : D)
    (hname : NameFields.name d = Vector.replicate 8 0)
    (hext : NameFields.ext d = Vector.replicate 3 0) :
    (∃ d', Traced.Returns NameStore.InRange (getOnlyFilename p.word d) d' ∧ p.file.StoredIn d') ↔
      p.Fits := by
  have hrun := getOnlyFilename_decides (d := d) (NamedPath.ends_word h)
  have hstored : p.file.StoredIn (NameFields.setExt
      (parsedExt (NameFields.ext d) (candidateText p.word) (candidateRest p.word))
      (NameFields.setName (overlay (NameFields.name d) 0 (namePart (candidateText p.word))) d)) ↔
      (p.file.ext ≠ [] → ∀ k, 10 ≤ k → p.file.text.length ≤ k → k ≤ p.file.base.length + 3 →
        ∀ comp ∈ p.parts, comp.length ≤ k) := by
    rw [hname, hext, NamedPath.namePart_candidateText_word h, ← NamedPath.parsedExt_eq_iff h]
    refine ⟨fun hd => ?_, fun heq => ⟨?_, ?_⟩⟩
    · rw [← hd.ext, NameFields.ext_setExt]
    · rw [SeparateFields.name_setExt, NameFields.name_setName]
      exact overlay_zero _
    · rw [NameFields.ext_setExt, heq]
  rw [hrun.returns_eq_iff, hstored, NamedPath.pathFits_word h]
  exact ⟨fun ⟨⟨hfits, hterm⟩, hlong⟩ => ⟨hfits, hterm, hlong⟩,
    fun ⟨hfits, hterm, hlong⟩ => ⟨⟨hfits, hterm⟩, hlong⟩⟩

/-- `A/B.TXT` -/
def plainPath : NamedPath where
  parents := [([0x41], 0x2F)]
  file := ⟨[0x42], [0x54, 0x58, 0x54], by decide, by decide, by simp [inComponent, isSeparator],
    by simp [inComponent, isSeparator], by decide⟩
  trailing := none
  parents_chars := by simp [inComponent, isSeparator]
  parents_separator := by simp [isSeparator]
  trailing_separator := nofun

theorem getOnlyFilename_name_plain :
    ∃ d', Traced.Returns NameStore.InRange
      (getOnlyFilename plainPath.word
        (⟨Vector.replicate 8 0, Vector.replicate 3 0⟩ : LocalName)) d' ∧
        plainPath.file.StoredIn d' := by
  refine (getOnlyFilename_name_iff plainPath (by decide)
    (⟨Vector.replicate 8 0, Vector.replicate 3 0⟩ : LocalName) rfl rfl).2
      ⟨by simp [NamedPath.parts, plainPath, ShortName.text],
      by simp [NamedPath.parts, plainPath, ShortName.text], ?_⟩
  intro _ k hten _ hfour
  exact absurd (hten.trans hfour) (by decide)

/-- `ABCDEFGH.TXT` -/
def fullPath : NamedPath where
  parents := []
  file :=
    ⟨[0x41, 0x42, 0x43, 0x44, 0x45, 0x46, 0x47, 0x48], [0x54, 0x58, 0x54], by decide, by decide,
    by simp [inComponent, isSeparator], by simp [inComponent, isSeparator], by decide⟩
  trailing := none
  parents_chars := nofun
  parents_separator := nofun
  trailing_separator := nofun

/-- The name fills `currentCandidate`, and has no zero behind it. -/
theorem getOnlyFilename_full :
    ¬ ∃ d', Traced.Returns NameStore.InRange
      (getOnlyFilename fullPath.word
        (⟨Vector.replicate 8 0, Vector.replicate 3 0⟩ : LocalName)) d' ∧
        fullPath.file.StoredIn d' := by
  rintro ⟨d', hd, -⟩
  have hnone : (getOnlyFilename fullPath.word
      (⟨Vector.replicate 8 0, Vector.replicate 3 0⟩ : LocalName)).result.toOption.isSome
        = false := by
    decide +kernel
  rw [hd.result] at hnone
  exact nomatch hnone

end Found

end OsKernel
