import Mathlib.Data.List.GetD
import OsKernel.Shell.Requests

/-!
# What `parse_filename` and `get_only_filename` store

The part of a string before its first dot goes into `name`, the three characters behind the dot into
`ext`: `parse_filename` stays inside of the two exactly if that part has at most 8 characters
(`parseFilename_decides`). `get_only_filename` copies one component of a path after the other into
`currentCandidate` and clears only the first ten characters of it in between. A component of more
than 12 characters does not fit (`copyComponents_decides`), and the string that `parse_filename` is
called with needs a zero byte (`getOnlyFilename_decides`).
-/

namespace OsKernel

open Lib

/-- The part of a string before its first dot. -/
def namePart (str : List UInt8) : List UInt8 := str.takeWhile (· ≠ 0x2E)

/-- The array with the characters stored from `i` on. -/
def overlay (v : Vector UInt8 8) (i : Nat) (chars : List UInt8) : Vector UInt8 8 :=
  .ofFn fun j => if i ≤ j.val then chars.getD (j.val - i) v[j] else v[j]

/-- Characters in an array that they do not fill. -/
def padded (n : Nat) (chars : List UInt8) : Vector UInt8 n := .ofFn fun j => chars.getD j.val 0

section Overlay
variable {v : Vector UInt8 8} {i : Nat} {c : UInt8} {chars : List UInt8}

theorem overlay_nil : overlay v i [] = v := by
  ext j hj
  simp [overlay]

theorem overlay_set (hi : i < 8) :
    overlay (v.set i c) (i + 1) chars = overlay v i (c :: chars) := by
  refine Vector.ext fun j hj => ?_
  rw [overlay, overlay, Vector.getElem_ofFn, Vector.getElem_ofFn]
  simp only [Fin.getElem_fin]
  rcases lt_trichotomy j i with hlt | rfl | hgt
  · rw [if_neg (by omega), if_neg (by omega)]
    exact Vector.getElem_set_ne hi hj (by omega)
  · rw [if_neg (by omega), if_pos le_rfl, Nat.sub_self]
    exact Vector.getElem_set_self hi
  · have hsub : j - i = j - (i + 1) + 1 := by omega
    rw [if_pos (by omega), if_pos (by omega), hsub, List.getD_cons_succ,
      Vector.getElem_set_ne hi hj (by omega)]

theorem overlay_zero (l : List UInt8) : overlay (Vector.replicate 8 0) 0 l = padded 8 l := by
  refine Vector.ext fun j hj => ?_
  simp [overlay, padded]

end Overlay

section NamePart
variable {str tail : List UInt8} {c : UInt8}

theorem namePart_cons (hc : c ≠ 0x2E) : namePart (c :: str) = c :: namePart str :=
  List.takeWhile_cons_of_pos (by simpa using hc)

theorem namePart_dot : namePart (0x2E :: str) = [] := rfl

/-- A string without a dot is a name. -/
theorem namePart_eq_self (h : 0x2E ∉ str) : namePart str = str :=
  List.takeWhile_eq_self_iff.2 fun c hc => by simpa using fun heq : c = 0x2E => h (heq ▸ hc)

/-- What stands behind the first dot does not change the name. -/
theorem namePart_append (h : 0x2E ∈ str) : namePart (str ++ tail) = namePart str := by
  induction str with
  | nil => cases h
  | cons c str ih =>
    by_cases hc : c = 0x2E
    · subst hc
      rfl
    · rw [List.cons_append, namePart_cons hc, namePart_cons hc,
        ih ((List.mem_cons.1 h).resolve_left (Ne.symm hc))]

theorem namePart_length_le_append : (namePart str).length ≤ (namePart (str ++ tail)).length := by
  by_cases h : 0x2E ∈ str
  · rw [namePart_append h]
  · rw [namePart_eq_self h, namePart, List.takeWhile_append_of_pos]
    · rw [List.length_append]
      omega
    · intro c hc
      simpa using fun heq : c = 0x2E => h (heq ▸ hc)

end NamePart

/-! ## `parse_filename` -/

section Parse
variable {D : Type} [NameFields D] {d : D} {i : Nat} {c : UInt8} {str rest : List UInt8}

/-- A store inside of `name`. -/
theorem storeNameDest_returns (hi : i < 8) : Traced.Returns NameStore.InRange (storeNameDest i c d)
    (NameFields.setName ((NameFields.name d).set i c) d) :=
  ⟨dif_pos hi, fun w hw => by rw [List.mem_singleton.1 hw]; exact hi⟩

theorem storeExtDest_returns (hi : i < 3) : Traced.Returns NameStore.InRange (storeExtDest i c d)
    (NameFields.setExt ((NameFields.ext d).set i c) d) :=
  ⟨dif_pos hi, fun w hw => by rw [List.mem_singleton.1 hw]; exact hi⟩

/-- What `parse_filename` finds behind the dot. -/
def afterDot (str rest : List UInt8) : Option (List UInt8) :=
  if 0x2E ∈ str then some ((str ++ rest).drop ((namePart str).length + 1)) else none

/-- The first loop stays inside of `name` exactly if the part before the dot fits. -/
theorem copyName_decides (hi : i ≤ 8) (hstr : ∀ c ∈ str, c ≠ 0) :
    Traced.Decides NameStore.InRange (fun _ : Fault => False) (i + (namePart str).length ≤ 8)
      (fun _ x => x = (afterDot str rest,
        NameFields.setName (overlay (NameFields.name d) i (namePart str)) d))
      (copyName str.length i (str ++ rest) d) := by
  induction str generalizing i d with
  | nil =>
    refine (Traced.Returns.pure _).decides ?_ |>.congr (by simpa [namePart] using hi)
    rw [show namePart [] = [] from rfl, overlay_nil, NameFields.setName_name]
    rfl
  | cons c str ih =>
    rw [List.length_cons, List.cons_append, copyName, if_neg (hstr c List.mem_cons_self)]
    by_cases hc : c = 0x2E
    · subst hc
      rw [if_pos rfl]
      refine (Traced.Returns.pure _).decides ?_ |>.congr (by simpa [namePart_dot] using hi)
      rw [namePart_dot, overlay_nil, NameFields.setName_name, afterDot,
        if_pos List.mem_cons_self]
      rfl
    · rw [if_neg hc, namePart_cons hc, List.length_cons]
      rcases Nat.lt_or_ge i 8 with hlt | hge
      · refine ((storeNameDest_returns hlt).decides (Q := fun _ d' => d' =
          NameFields.setName ((NameFields.name d).set i c) d) rfl).bind_true ?_ |>.congr
            (p := i + 1 + (namePart str).length ≤ 8) (by omega)
        rintro t d' rfl
        refine (ih hlt fun b hb => hstr b (List.mem_cons_of_mem _ hb)).mono fun _ _ x hx => ?_
        rw [hx, NameFields.name_setName, NameFields.setName_setName, overlay_set hlt]
        have hafter : afterDot str rest = afterDot (c :: str) rest := by
          simp [afterDot, namePart_cons hc, Ne.symm hc]
        rw [hafter]
      · refine ⟨fun h => absurd h (by omega), fun h => absurd h (by omega), fun _ => ?_⟩
        have hmem : NameStore.name i ∈ (storeNameDest i c d).trace := List.mem_singleton_self _
        have hout : ¬ (NameStore.name i).InRange := Nat.not_lt.2 hge
        exact (Traced.Breaks.of_mem hmem hout).bind_left

/-- The second loop takes three characters. -/
theorem copyExt_returns {a b c : UInt8} : Traced.Returns NameStore.InRange
    (copyExt 3 0 (a :: b :: c :: rest) d) (NameFields.setExt #v[a, b, c] d) := by
  have hset : ∀ v : Vector UInt8 3, ((v.set 0 a).set 1 b).set 2 c = #v[a, b, c] := by
    rintro ⟨⟨v⟩, hv⟩
    match v, hv with
    | [_, _, _], _ => rfl
  have h : Traced.Returns NameStore.InRange (copyExt 3 0 (a :: b :: c :: rest) d) _ :=
    (storeExtDest_returns (i := 0) (by decide)).bind
    ((storeExtDest_returns (i := 1) (by decide)).bind
      ((storeExtDest_returns (i := 2) (by decide)).bind (.pure _)))
  simp only [NameFields.ext_setExt, NameFields.setExt_setExt] at h
  rw [hset] at h
  exact h

/-- The extension behind `parse_filename`. -/
def parsedExt (old : Vector UInt8 3) (str rest : List UInt8) : Vector UInt8 3 :=
  match afterDot str rest with
  | some (a :: b :: c :: _) => #v[a, b, c]
  | _ => old

/-- Three characters behind the dot make the extension. -/
theorem parsedExt_eq {old : Vector UInt8 3} {str rest file : List UInt8}
    (h : afterDot str rest = some file) (hlen : 3 ≤ file.length) :
    parsedExt old str rest = padded 3 file := by
  rw [parsedExt, h]
  match file, hlen with
  | a :: b :: c :: file, _ => rfl

/-- `parse_filename` stays inside of the arrays exactly if the part before the dot fits into
`name`. -/
theorem parseFilename_decides (hstr : ∀ c ∈ str, c ≠ 0) (hlen : 12 ≤ (str ++ rest).length) :
    Traced.Decides NameStore.InRange (fun _ : Fault => False) ((namePart str).length ≤ 8)
      (fun _ d' => d' = NameFields.setExt (parsedExt (NameFields.ext d) str rest)
        (NameFields.setName (overlay (NameFields.name d) 0 (namePart str)) d))
      (parseFilename (str ++ rest) str.length d) := by
  refine ((copyName_decides (Nat.zero_le 8) hstr).bind (q := True) fun hfits t x hx => ?_).congr
    (by rw [and_true, Nat.zero_add])
  subst hx
  rw [Nat.zero_add] at hfits
  cases hafter : afterDot str rest with
  | none =>
    refine (Traced.Returns.pure _).decides ?_
    rw [parsedExt, hafter]
    dsimp only
    rw [← NameFields.ext_setName (overlay (NameFields.name d) 0 (namePart str)) d,
      NameFields.setExt_ext]
  | some file =>
    obtain ⟨a, b, c, rest', rfl⟩ : ∃ a b c rest', file = a :: b :: c :: rest' := by
      rw [afterDot, Option.ite_none_right_eq_some] at hafter
      have hthree : 3 ≤ file.length := by
        rw [← Option.some_inj.1 hafter.2, List.length_drop]
        omega
      match file, hthree with
      | a :: b :: c :: rest', _ => exact ⟨a, b, c, rest', rfl⟩
    refine copyExt_returns.decides ?_
    rw [parsedExt, hafter]

end Parse

/-! ## Components of a path -/

/-- A character of a component. -/
def inComponent (c : UInt8) : Bool := !(isSeparator c || c == 0)

/-- The components that `get_only_filename` goes over, one after the other. -/
def components (path : List UInt8) : List (List UInt8) :=
  match path with
  | [] => []
  | c :: rest =>
    if c = 0 then []
    else (c :: rest).takeWhile inComponent ::
      components (((c :: rest).dropWhile inComponent).drop 1)
termination_by path.length
decreasing_by
  have := (List.dropWhile_sublist (l := c :: rest) inComponent).length_le
  rw [List.length_cons] at this
  rw [List.length_drop, List.length_cons]
  omega

/-- What stands behind a component and the character that ends it. -/
def afterComponent (path : List UInt8) : List UInt8 := (path.dropWhile inComponent).drop 1

/-- The array with the characters stored from `i` on. -/
def Candidate.fill (candidate : Candidate) (i : Nat) (chars : List UInt8) : Candidate :=
  fun j => if i ≤ j.val then chars.getD (j.val - i) (candidate j) else candidate j

/-- `currentCandidate` behind the components. -/
def filled (comps : List (List UInt8)) (candidate : Candidate) : Candidate :=
  comps.foldl (fun candidate component => candidate.clear.fill 0 component) candidate

/-- Where `get_only_filename` comes to in a path: a zero byte that ends it, or characters with two
zero bytes at the end. -/
def Ends (path : List UInt8) : Prop := path = [0] ∨ [0, 0] <:+ path

section Components
variable {c : UInt8} {path rest component : List UInt8} {i : Nat} {candidate : Candidate}

theorem components_cons (hc : c ≠ 0) : components (c :: path) =
    (c :: path).takeWhile inComponent :: components (afterComponent (c :: path)) := by
  rw [components, if_neg hc]
  rfl

theorem components_zero : components (0 :: path) = [] := by
  rw [components, if_pos rfl]

theorem fill_nil : candidate.fill i [] = candidate := by
  funext j
  simp [Candidate.fill]

theorem fill_update (hi : i < 12) :
    Candidate.fill (Function.update candidate ⟨i, hi⟩ c) (i + 1) path =
      candidate.fill i (c :: path) := by
  funext j
  rw [Candidate.fill, Candidate.fill]
  rcases lt_trichotomy j.val i with hlt | heq | hgt
  · rw [if_neg (by omega), if_neg (by omega), Function.update_of_ne]
    exact fun h => by simp [h] at hlt
  · obtain rfl : j = ⟨i, hi⟩ := Fin.ext heq
    rw [if_neg (by simp), if_pos le_rfl, Function.update_self, Nat.sub_self]
    rfl
  · have hsub : j.val - i = j.val - (i + 1) + 1 := by omega
    rw [if_pos (by omega), if_pos (by omega), hsub, List.getD_cons_succ, Function.update_of_ne]
    exact fun h => by simp [h] at hgt

theorem storeCandidate_returns (hi : i < 12) :
    Traced.Returns NameStore.InRange (storeCandidate i c candidate)
      (Function.update candidate ⟨i, hi⟩ c) :=
  ⟨dif_pos hi, fun w hw => by rw [List.mem_singleton.1 hw]; exact hi⟩

/-- The inner loop stays inside of `currentCandidate` exactly if the component fits. -/
theorem copyComponent_decides (hi : i ≤ 12) (hc : inComponent c = false)
    (hcomp : ∀ b ∈ component, inComponent b = true) :
    Traced.Decides NameStore.InRange (fun _ : Fault => False) (i + component.length ≤ 12)
      (fun _ x => x = (rest, candidate.fill i component))
      (copyComponent (component ++ c :: rest) i candidate) := by
  induction component generalizing i candidate with
  | nil =>
    have hstop : (isSeparator c || c == 0) = true := by
      rwa [inComponent, Bool.not_eq_false'] at hc
    rw [List.nil_append, copyComponent, if_pos hstop]
    refine (Traced.Returns.pure _).decides ?_ |>.congr (by simpa using hi)
    rw [fill_nil]
  | cons b component ih =>
    have hgo : ¬ (isSeparator b || b == 0) = true := by
      simpa [inComponent] using hcomp b List.mem_cons_self
    rw [List.cons_append, copyComponent, if_neg hgo, List.length_cons]
    rcases Nat.lt_or_ge i 12 with hlt | hge
    · refine ((storeCandidate_returns hlt).decides (Q := fun _ x => x =
        Function.update candidate ⟨i, hlt⟩ b) rfl).bind_true ?_ |>.congr
          (p := i + 1 + component.length ≤ 12) (by omega)
      rintro t x rfl
      refine (ih hlt fun b hb => hcomp b (List.mem_cons_of_mem _ hb)).mono fun _ _ x hx => ?_
      rw [hx, fill_update hlt]
    · refine ⟨fun h => absurd h (by omega), fun h => absurd h (by omega), fun _ => ?_⟩
      have hmem : NameStore.candidate i ∈ (storeCandidate i b candidate).trace :=
        List.mem_singleton_self _
      have hout : ¬ (NameStore.candidate i).InRange := Nat.not_lt.2 hge
      exact (Traced.Breaks.of_mem hmem hout).bind_left

/-- A path that does not end here starts with a component, and goes on behind it. -/
theorem Ends.split (h : Ends (c :: path)) (hc : c ≠ 0) : ∃ e,
    c :: path = (c :: path).takeWhile inComponent ++ e :: afterComponent (c :: path) ∧
      inComponent e = false ∧ Ends (afterComponent (c :: path)) := by
  rcases h with h | h
  · exact absurd (List.cons.inj h).1 hc
  have hzero : (0 : UInt8) ∈ c :: path := h.subset List.mem_cons_self
  cases hdrop : (c :: path).dropWhile inComponent with
  | nil =>
    have hall := List.dropWhile_eq_nil_iff.1 hdrop 0 hzero
    cases hall
  | cons e rest =>
    have he : inComponent e = false := by
      have := List.head?_dropWhile_not inComponent (c :: path)
      rw [hdrop] at this
      simpa using this
    have hafter : afterComponent (c :: path) = rest := by
      rw [afterComponent, hdrop]
      rfl
    have hsplit : c :: path = (c :: path).takeWhile inComponent ++ e :: rest := by
      rw [← hdrop, List.takeWhile_append_dropWhile]
    rw [hafter]
    refine ⟨e, hsplit, he, ?_⟩
    -- two zero bytes behind the component, or one of them ends it
    obtain ⟨pre, hpre⟩ := h
    have hcomp : ∀ b ∈ (c :: path).takeWhile inComponent, b ≠ 0 := by
      rintro b hb rfl
      have := List.mem_takeWhile_imp hb
      cases this
    match rest with
    | [] =>
      rw [hsplit, show pre ++ [0, 0] = (pre ++ [0]) ++ [0] by simp] at hpre
      have hlast := List.append_inj_left' hpre rfl
      exact absurd rfl (hcomp 0 (hlast ▸ by simp))
    | [b] =>
      rw [hsplit, show pre ++ [0, 0] = (pre ++ [0]) ++ [0] by simp,
        show (c :: path).takeWhile inComponent ++ [e, b] =
          ((c :: path).takeWhile inComponent ++ [e]) ++ [b] by simp] at hpre
      exact .inl (List.append_inj_right' hpre rfl).symm
    | a :: b :: rest =>
      refine .inr ?_
      have hsuffix : [0, 0] <:+ (c :: path).takeWhile inComponent ++ e :: a :: b :: rest :=
        ⟨pre, hpre.trans hsplit⟩
      have hrest : (a :: b :: rest) <:+
          (c :: path).takeWhile inComponent ++ e :: a :: b :: rest :=
        ⟨(c :: path).takeWhile inComponent ++ [e], by simp⟩
      exact List.suffix_of_suffix_length_le hsuffix hrest (by simp)

/-- The outer loop stays inside of `currentCandidate` exactly if all components fit. -/
theorem copyComponents_decides {steps : Nat} (hsteps : path.length < steps) (hends : Ends path) :
    Traced.Decides NameStore.InRange (fun _ : Fault => False)
      (∀ comp ∈ components path, comp.length ≤ 12)
      (fun _ x => x = filled (components path) candidate)
      (copyComponents steps path candidate) := by
  induction steps generalizing path candidate with
  | zero => omega
  | succ steps ih =>
    cases path with
    | nil =>
      rcases hends with h | h
      · cases h
      · cases List.suffix_nil.1 h
    | cons c path =>
      by_cases hc : c = 0
      · subst hc
        rw [copyComponents, if_pos rfl, components_zero]
        refine ((Traced.Returns.pure candidate).decides ?_).congr (by simp)
        rfl
      · obtain ⟨e, hsplit, he, hends'⟩ := hends.split hc
        have hshort : (afterComponent (c :: path)).length < steps := by
          have := congrArg List.length hsplit
          rw [List.length_append, List.length_cons, List.length_cons] at this
          rw [List.length_cons] at hsteps
          omega
        rw [copyComponents, if_neg hc, components_cons hc]
        have hfirst : Traced.Decides NameStore.InRange (fun _ : Fault => False)
            (0 + ((c :: path).takeWhile inComponent).length ≤ 12)
            (fun _ x => x = (afterComponent (c :: path),
              candidate.clear.fill 0 ((c :: path).takeWhile inComponent)))
            (copyComponent (_ ++ e :: afterComponent (c :: path)) 0 candidate.clear) :=
          copyComponent_decides (Nat.zero_le 12) he fun b hb => List.mem_takeWhile_imp hb
        rw [← hsplit] at hfirst
        refine (hfirst.bind (q := ∀ comp ∈ components (afterComponent (c :: path)),
          comp.length ≤ 12) fun _ t x hx => ?_).congr ?_
        · subst hx
          exact (ih hshort hends').mono fun _ _ x hx => hx
        · rw [List.forall_mem_cons, Nat.zero_add]

theorem inComponent_of_mem {comp : List UInt8} (h : comp ∈ components path) :
    ∀ b ∈ comp, inComponent b = true := by
  induction path using components.induct with
  | case1 =>
    rw [components] at h
    cases h
  | case2 path =>
    rw [components_zero] at h
    cases h
  | case3 c path hc ih =>
    rw [components, if_neg hc] at h
    rcases List.mem_cons.1 h with rfl | h
    · exact fun b hb => List.mem_takeWhile_imp hb
    · exact ih h

theorem ne_zero_of_inComponent (h : inComponent c = true) : c ≠ 0 := by
  rintro rfl
  cases h

theorem inComponent_of_isSeparator (h : isSeparator c = true) : inComponent c = false := by
  rw [inComponent, h]
  rfl

/-- A component ends at a separator or at a zero byte. -/
theorem components_append (hcomp : ∀ b ∈ component, inComponent b = true)
    (hc : inComponent c = false) (hne : ∀ b ∈ (component ++ c :: rest).head?, b ≠ 0) :
    components (component ++ c :: rest) = component :: components rest := by
  have htake : (component ++ c :: rest).takeWhile inComponent = component := by
    rw [List.takeWhile_append_of_pos hcomp, List.takeWhile_cons_of_neg (by simp [hc]),
      List.append_nil]
  have hafter : afterComponent (component ++ c :: rest) = rest := by
    rw [afterComponent, List.dropWhile_append_of_pos hcomp,
      List.dropWhile_cons_of_neg (by simp [hc])]
    rfl
  cases hpath : component ++ c :: rest with
  | nil => simp at hpath
  | cons b path =>
    rw [hpath] at hne htake hafter
    rw [components_cons (hne b rfl), htake, hafter]

/-- A component with its separator. -/
theorem components_separator (hcomp : ∀ b ∈ component, inComponent b = true)
    (hc : isSeparator c = true) :
    components (component ++ c :: rest) = component :: components rest := by
  refine components_append hcomp (inComponent_of_isSeparator hc) fun b hb => ?_
  cases component with
  | nil =>
    cases hb
    rintro rfl
    exact absurd hc (by decide)
  | cons d component =>
    cases hb
    exact ne_zero_of_inComponent (hcomp b List.mem_cons_self)

/-- A component that is not empty, and the character that ends it. -/
theorem components_append_of_ne_nil (hne : component ≠ [])
    (hcomp : ∀ b ∈ component, inComponent b = true)
    (hc : inComponent c = false) :
    components (component ++ c :: rest) = component :: components rest := by
  refine components_append hcomp hc fun b hb => ?_
  obtain ⟨d, component, rfl⟩ := List.exists_cons_of_ne_nil hne
  cases hb
  exact ne_zero_of_inComponent (hcomp b List.mem_cons_self)

end Components

/-! ## The string in `currentCandidate` -/

/-- The component that `parse_filename` gets to see. -/
def lastComponent (path : List UInt8) : List UInt8 := (components path).getLast?.getD []

/-- `currentCandidate` behind all components of a path. -/
def candidateOf (path : List UInt8) : Candidate := filled (components path) fun _ => 0

/-- The string in `currentCandidate`. -/
def candidateText (path : List UInt8) : List UInt8 :=
  (List.ofFn (candidateOf path)).takeWhile (· ≠ 0)

/-- What stands behind the string. -/
def candidateRest (path : List UInt8) : List UInt8 :=
  (List.ofFn (candidateOf path)).dropWhile (· ≠ 0)

section Candidate
variable {comps : List (List UInt8)} {component path : List UInt8} {candidate : Candidate}
  {j : Fin 12}

theorem filled_concat : filled (comps ++ [component]) candidate =
    (filled comps candidate).clear.fill 0 component := by
  rw [filled, List.foldl_append]
  rfl

theorem filled_concat_lt (hj : j.val < component.length) :
    filled (comps ++ [component]) candidate j = component[j.val] := by
  rw [filled_concat, Candidate.fill, if_pos (Nat.zero_le _), Nat.sub_zero,
    List.getD_eq_getElem _ _ hj]

theorem filled_concat_ge (hj : component.length ≤ j.val) :
    filled (comps ++ [component]) candidate j =
      if j.val < 10 then 0 else filled comps candidate j := by
  rw [filled_concat, Candidate.fill, if_pos (Nat.zero_le _), Nat.sub_zero,
    List.getD_eq_default _ _ hj]
  rfl

/-- The last two characters are never cleared: they are left over from any longer component. -/
theorem filled_eq_zero_iff (hne : ∀ comp ∈ comps, ∀ b ∈ comp, b ≠ 0) (hj : 10 ≤ j.val) :
    filled comps (fun _ => 0) j = 0 ↔ ∀ comp ∈ comps, comp.length ≤ j.val := by
  induction comps using List.reverseRecOn with
  | nil => simp [filled]
  | append_singleton comps component ih =>
    rw [List.forall_mem_append, List.forall_mem_singleton] at hne
    rw [List.forall_mem_append, List.forall_mem_singleton]
    rcases Nat.lt_or_ge j.val component.length with hlt | hge
    · rw [filled_concat_lt hlt]
      exact ⟨fun h => absurd h (hne.2 _ (List.getElem_mem hlt)), fun h => absurd h.2 (by omega)⟩
    · rw [filled_concat_ge hge, if_neg (by omega), ih hne.1]
      exact ⟨fun h => ⟨h, hge⟩, fun h => h.1⟩

/-- The components of a path, with the last one apart. -/
theorem components_eq (path : List UInt8) : components path = [] ∧ lastComponent path = [] ∨
    ∃ comps, components path = comps ++ [lastComponent path] := by
  rcases List.eq_nil_or_concat (components path) with h | ⟨comps, component, h⟩
  · exact .inl ⟨h, by rw [lastComponent, h]; rfl⟩
  · refine .inr ⟨comps, ?_⟩
    rw [lastComponent, h, List.concat_eq_append, List.getLast?_concat]
    rfl

theorem candidateText_ne_zero : ∀ b ∈ candidateText path, b ≠ 0 := fun b hb => by
  simpa using List.mem_takeWhile_imp hb

theorem candidateText_append : candidateText path ++ candidateRest path =
    List.ofFn (candidateOf path) := List.takeWhile_append_dropWhile

/-- The string starts with the last component, and ends with it if that is no longer than what is
cleared. -/
theorem candidateText_eq (hfits : (lastComponent path).length ≤ 12) :
    ∃ tail, candidateText path = lastComponent path ++ tail ∧
      ((lastComponent path).length ≤ 9 → tail = []) := by
  rcases components_eq path with ⟨hnil, hlast⟩ | ⟨comps, hcomps⟩
  · refine ⟨[], ?_, fun _ => rfl⟩
    rw [hlast, candidateText, candidateOf, hnil]
    rfl
  have hmem : lastComponent path ∈ components path := by
    rw [hcomps]
    exact List.mem_append_right _ List.mem_cons_self
  have hne : ∀ b ∈ lastComponent path, b ≠ 0 := fun b hb =>
    ne_zero_of_inComponent (inComponent_of_mem hmem b hb)
  have hbytes : List.ofFn (candidateOf path) =
      lastComponent path ++ (List.ofFn (candidateOf path)).drop (lastComponent path).length := by
    have htake : (List.ofFn (candidateOf path)).take (lastComponent path).length =
        lastComponent path := by
      refine List.ext_getElem (by simpa using hfits) fun k hk hk' => ?_
      rw [List.getElem_take, List.getElem_ofFn]
      show filled (components path) _ _ = _
      rw [hcomps]
      exact filled_concat_lt hk'
    calc List.ofFn (candidateOf path) = _ := (List.take_append_drop _ _).symm
      _ = _ := by rw [htake]
  refine ⟨((List.ofFn (candidateOf path)).drop (lastComponent path).length).takeWhile (· ≠ 0), ?_,
    fun hshort => ?_⟩
  · rw [candidateText]
    nth_rewrite 1 [hbytes]
    exact List.takeWhile_append_of_pos fun b hb => by simpa using hne b hb
  · have hlt : (lastComponent path).length < (List.ofFn (candidateOf path)).length := by
      rw [List.length_ofFn]
      omega
    have hzero : candidateOf path ⟨(lastComponent path).length, by omega⟩ = 0 := by
      show filled (components path) _ _ = 0
      rw [hcomps, filled_concat_ge le_rfl]
      exact if_pos (by show (lastComponent path).length < 10; omega)
    rw [List.drop_eq_getElem_cons hlt, List.getElem_ofFn, hzero]
    rfl

/-- A path that `get_only_filename` can do with: its components fit into `currentCandidate`, one
longer than what is cleared leaves a zero byte, and the name before the dot has at most 8
characters. -/
structure PathFits (path : List UInt8) : Prop where
  fits : ∀ comp ∈ components path, comp.length ≤ 12
  terminated : 9 < (lastComponent path).length → ∀ comp ∈ components path, comp.length ≤ 11
  name : (namePart (lastComponent path)).length ≤ 8

/-- `currentCandidate` holds a zero byte exactly if no long component filled it. -/
theorem zero_mem_candidateOf :
    0 ∈ List.ofFn (candidateOf path) ↔
      (9 < (lastComponent path).length → ∀ comp ∈ components path, comp.length ≤ 11) := by
  have hne : ∀ comp ∈ components path, ∀ b ∈ comp, b ≠ 0 := fun comp hcomp b hb =>
    ne_zero_of_inComponent (inComponent_of_mem hcomp b hb)
  have heleven : candidateOf path 11 = 0 ↔ ∀ comp ∈ components path, comp.length ≤ 11 :=
    filled_eq_zero_iff hne (by decide)
  rw [List.mem_ofFn]
  constructor
  · rintro ⟨j, hj⟩ hlong
    rcases components_eq path with ⟨hnil, hlast⟩ | ⟨comps, hcomps⟩
    · rw [hnil]
      exact fun comp hcomp => nomatch hcomp
    rcases Nat.lt_or_ge j.val (lastComponent path).length with hlt | hge
    · have hmem : lastComponent path ∈ components path := by
        rw [hcomps]
        exact List.mem_append_right _ List.mem_cons_self
      rw [candidateOf, hcomps, filled_concat_lt hlt] at hj
      exact absurd hj (hne _ hmem _ (List.getElem_mem hlt))
    · have hlen := (filled_eq_zero_iff hne (by omega)).1 hj
      exact fun comp hcomp => (hlen comp hcomp).trans (by omega)
  · intro h
    rcases Nat.lt_or_ge 9 (lastComponent path).length with hlong | hshort
    · exact ⟨11, heleven.2 (h hlong)⟩
    · rcases components_eq path with ⟨hnil, hlast⟩ | ⟨comps, hcomps⟩
      · refine ⟨0, ?_⟩
        rw [candidateOf, hnil]
        rfl
      · refine ⟨9, ?_⟩
        rw [candidateOf, hcomps, filled_concat_ge hshort, if_pos (by decide)]

/-- The name before the dot is the one of the last component. -/
theorem namePart_candidateText (hfits : (lastComponent path).length ≤ 12) :
    (namePart (candidateText path)).length ≤ 8 ↔ (namePart (lastComponent path)).length ≤ 8 := by
  obtain ⟨tail, htext, htail⟩ := candidateText_eq hfits
  constructor
  · intro h
    rw [htext] at h
    exact namePart_length_le_append.trans h
  · intro h
    rw [htext]
    by_cases hdot : 0x2E ∈ lastComponent path
    · rwa [namePart_append hdot]
    · rw [namePart_eq_self hdot] at h
      rw [htail (by omega), List.append_nil, namePart_eq_self hdot]
      exact h

/-- `get_only_filename` stays inside of all three arrays exactly if the path fits. -/
theorem getOnlyFilename_decides {D : Type} [NameFields D] {d : D} (hends : Ends path) :
    Traced.Decides NameStore.InRange (fun _ : Fault => False) (PathFits path)
      (fun _ d' => d' = NameFields.setExt
        (parsedExt (NameFields.ext d) (candidateText path) (candidateRest path))
        (NameFields.setName (overlay (NameFields.name d) 0 (namePart (candidateText path))) d))
      (getOnlyFilename path d) := by
  have hlast : (∀ comp ∈ components path, comp.length ≤ 12) → (lastComponent path).length ≤ 12 := by
    intro hfits
    rcases components_eq path with ⟨-, hlast⟩ | ⟨comps, hcomps⟩
    · rw [hlast]
      exact Nat.zero_le _
    · exact hfits _ (hcomps ▸ List.mem_append_right _ List.mem_cons_self)
  refine ((copyComponents_decides (Nat.lt_succ_self _) hends).bind (q :=
    (0 ∈ List.ofFn (candidateOf path)) ∧ (namePart (candidateText path)).length ≤ 8)
    fun hfits _ x hx => ?_).congr ?_
  · subst hx
    have hbytes : (candidateText path ++ candidateRest path).length = 12 := by
      rw [candidateText_append, List.length_ofFn]
    have hstring : Traced.Decides NameStore.InRange (fun _ : Fault => False)
        (0 ∈ List.ofFn (candidateOf path)) (fun _ str => str = candidateText path)
        (.lift (cString (List.ofFn (candidateOf path)))) := by
      refine .lift_iff (fun hzero => ⟨_, ?_, rfl⟩) fun hzero str hstr => ?_
      · rw [← List.append_nil (List.ofFn (candidateOf path)), cString_append hzero]
        rfl
      · have hall : (List.ofFn (candidateOf path)).takeWhile (· ≠ 0) =
            List.ofFn (candidateOf path) :=
          List.takeWhile_eq_self_iff.2 fun b hb => by
            simpa using fun heq : b = 0 => hzero (heq ▸ hb)
        rw [cString, hall, if_neg (lt_irrefl _)] at hstr
        cases hstr
    refine hstring.bind fun hzero _ str hstr => ?_
    subst hstr
    have hlen : (strlen (candidateText path)).toNat = (candidateText path).length := by
      rw [List.length_append] at hbytes
      rw [toNat_strlen, Nat.mod_eq_of_lt (by omega)]
    rw [hlen]
    have hparse := parseFilename_decides (d := d) candidateText_ne_zero hbytes.ge
    rw [candidateText_append] at hparse
    exact hparse
  · constructor
    · rintro ⟨hfits, hzero, hname⟩
      exact ⟨hfits, zero_mem_candidateOf.1 hzero, (namePart_candidateText (hlast hfits)).1 hname⟩
    · rintro ⟨hfits, hterm, hname⟩
      exact ⟨hfits, zero_mem_candidateOf.2 hterm, (namePart_candidateText (hlast hfits)).2 hname⟩

end Candidate

end OsKernel
