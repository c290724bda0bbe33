import Mathlib.Data.List.GetD
import Mathlib.Data.Nat.Digits.Lemmas
import OsKernel.Fat32.Types
import OsKernel.Lib.Traced

/-!
# Numerals

`intToStr` and `intToStrPad` store the digits of a number from the last one on and turn them round
in place, `strToInt` reads a numeral. A store is an effect of its index, so that what is stored
where can be stated. `intToStr` makes the numeral of a number, which `strToInt` takes back
(`strToInt_intToStr`). `intToStrPad` has a case of its own for 0, which stores one character more
than the others (`padsNumber_iff`).
-/

namespace OsKernel

open Lib

/-! ## Strings that are stored -/

/-- The characters in memory from `str` on. -/
abbrev Chars := Nat → UInt8

/-- The characters with the ones of a list from `i` on. -/
def putChars (str : Chars) (i : Nat) (l : List UInt8) : Chars :=
  fun k => if i ≤ k then l.getD (k - i) (str k) else str k

/-- `digit + '0'` -/
def digitChar (digit : Int) : UInt8 := UInt8.ofInt digit + 0x30

section Conversion
-- a store to `str[i]` is the effect `elem i`
variable {ω ε : Type} (elem : Nat → ω)

/-- `str[i] = c` -/
def storeChar (i : Nat) (c : UInt8) (str : Chars) : Traced ω ε Chars :=
  ⟨[elem i], .ok (Function.update str i c)⟩

/-- The loop that turns the first `i` characters round. -/
def reverseChars (i : Nat) (str : Chars) : Traced ω ε Chars :=
  (List.range' 0 (i / 2)).foldlM (fun (str : Chars) (j : Nat) => do
    let temp := str j
    let str ← storeChar elem j (str (i - 1 - j)) str
    storeChar elem (i - 1 - j) temp str) str

/-- The loop of `intToStr` over the digits, up to `steps` of them. -/
def storeDigits : Nat → Int → Nat → Chars → Traced ω Fault (Nat × Chars)
  | 0, _, _, _ => .lift (.error .outOfSteps)
  | steps + 1, num, i, str =>
    if num > 0 then do
      let digit := num.tmod 10
      let str ← storeChar elem i (digitChar digit) str
      storeDigits steps (num.tdiv 10) (i + 1) str
    else return (i, str)

/-- `intToStr`, for a number at the address `str`. -/
def intToStrAt (num : Int) (str : Chars) : Traced ω Fault Chars := do
  let (i, str) ←
    if num = 0 then do
      let str ← storeChar elem 0 0x30 str
      pure (1, str)
    else pure (0, str)
  let (i, str) ← storeDigits elem 32 num i str
  let str ← storeChar elem i 0 str
  reverseChars elem i str

/-- `intToStrPad` -/
def intToStrPad (num : Int) (str : Chars) (bufferLength : Int) : Traced ω ε Chars := do
  let (i, str) ←
    if num = 0 then do
      let str ← storeChar elem 0 0x30 str
      pure (1, str)
    else pure (0, str)
  let (_, i, str) ← (List.range' 0 bufferLength.toNat).foldlM
    (fun (x : Int × Nat × Chars) (_ : Nat) => do
      let digit := x.1.tmod 10
      let str ← storeChar elem x.2.1 (digitChar digit) x.2.2
      pure (x.1.tdiv 10, x.2.1 + 1, str)) (num, i, str)
  reverseChars elem i str

end Conversion

/-- A signed operation with this result overflows. -/
structure Overflow where
  result : Int

/-- The result of a signed operation. -/
def checkInt (result : Int) : Except Overflow Int :=
  if -2 ^ 31 ≤ result ∧ result < 2 ^ 31 then .ok result else .error ⟨result⟩

/-- The loop of `strToInt`. -/
def readDigits : List UInt8 → Int → Except Overflow Int
  | [], res => .ok res
  | c :: str, res => do
    let res ← checkInt (res * 10)
    let res ← checkInt (res + (c.toInt8.toInt - 0x30))
    readDigits str res

/-- `strToInt` -/
def strToInt (str : List UInt8) : Except Overflow Int := readDigits str 0

/-! ## The loops -/

section Loops
variable {ω ε : Type} {elem : Nat → ω} {P : ω → Prop} {str : Chars} {i k n : Nat} {c : UInt8}
  {l : List UInt8}

theorem putChars_nil : putChars str i [] = str := by
  funext k
  simp [putChars]

/-- The first character is stored, and then the others behind it. -/
theorem putChars_cons :
    putChars str i (c :: l) = putChars (Function.update str i c) (i + 1) l := by
  funext k
  rw [putChars, putChars]
  rcases lt_trichotomy k i with hlt | rfl | hgt
  · rw [if_neg (by omega), if_neg (by omega), Function.update_of_ne hlt.ne]
  · rw [if_pos le_rfl, if_neg (by omega), Nat.sub_self, Function.update_self]
    rfl
  · rw [if_pos hgt.le, if_pos (Nat.succ_le_of_lt hgt),
      show k - i = k - (i + 1) + 1 by omega, List.getD_cons_succ, Function.update_of_ne hgt.ne']

theorem putChars_lt (hk : k < l.length) : putChars str 0 l k = l[k] := by
  rw [putChars, if_pos (Nat.zero_le k), Nat.sub_zero, List.getD_eq_getElem _ _ hk]

theorem putChars_ge (hk : l.length ≤ k) : putChars str 0 l k = str k := by
  rw [putChars, if_pos (Nat.zero_le k), Nat.sub_zero, List.getD_eq_default _ _ hk]

/-- One more character behind the ones that are there. -/
theorem putChars_concat :
    putChars str 0 (l ++ [c]) = Function.update (putChars str 0 l) l.length c := by
  funext k
  rcases lt_trichotomy k l.length with hlt | rfl | hgt
  · rw [putChars_lt (by simp; omega), Function.update_of_ne hlt.ne, putChars_lt hlt,
      List.getElem_append_left hlt]
  · rw [putChars_lt (by simp), Function.update_self, List.getElem_concat_length rfl]
  · rw [putChars_ge (by simp; omega), Function.update_of_ne hgt.ne', putChars_ge hgt.le]

theorem storeChar_returns (h : P (elem i)) :
    Traced.Returns P (storeChar elem i c str : Traced ω ε Chars) (Function.update str i c) :=
  ⟨rfl, fun w hw => by rwa [List.mem_singleton.1 hw]⟩

/-- After `j` rounds the first `j` characters have changed places with the last ones. -/
theorem reverseChars_returns (h : ∀ k < i, P (elem k)) :
    Traced.Returns P (reverseChars elem i str : Traced ω ε Chars)
      (fun k => if k < i then str (i - 1 - k) else str k) := by
  have hround : ∀ j, 0 ≤ j → j < 0 + i / 2 → ∀ t : Chars,
      (∀ k, t k = if k < i ∧ (k < j ∨ i - 1 - k < j) then str (i - 1 - k) else str k) →
      ∃ t', Traced.Returns P (do
          let temp := t j
          let t ← storeChar elem j (t (i - 1 - j)) t
          storeChar elem (i - 1 - j) temp t : Traced ω ε Chars) t' ∧
        ∀ k, t' k = if k < i ∧ (k < j + 1 ∨ i - 1 - k < j + 1) then str (i - 1 - k) else str k := by
    intro j _ hj t ht
    refine ⟨_, (storeChar_returns (h j (by omega))).bind (storeChar_returns (h _ (by omega))),
      fun k => ?_⟩
    have hj' : t j = str j := by rw [ht, if_neg (by omega)]
    have hother : t (i - 1 - j) = str (i - 1 - j) := by rw [ht, if_neg (by omega)]
    by_cases hlast : k = i - 1 - j
    · rw [hlast, Function.update_self, hj', if_pos (by omega),
        show i - 1 - (i - 1 - j) = j by omega]
    rw [Function.update_of_ne hlast]
    by_cases hfirst : k = j
    · rw [hfirst, Function.update_self, hother, if_pos (by omega)]
    rw [Function.update_of_ne hfirst, ht]
    exact if_congr (by omega) rfl rfl
  obtain ⟨str', hrun, hstr⟩ := Traced.Returns.foldlM_range' hround
    (a := str) (fun k => by rw [if_neg (by omega)])
  have hend : str' = fun k => if k < i then str (i - 1 - k) else str k := by
    funext k
    rw [hstr]
    by_cases hk : k < i
    · rw [if_pos hk]
      split
      · rfl
      · rw [show i - 1 - k = k by omega]
    · rw [if_neg hk, if_neg (by omega)]
  exact hend ▸ hrun

/-- The characters at the start are turned round, and the others stay. -/
theorem reverseChars_putChars {r : List UInt8} (h : ∀ k < l.length, P (elem k)) :
    Traced.Returns P (reverseChars elem l.length (putChars str 0 (l ++ r)) : Traced ω ε Chars)
      (putChars str 0 (l.reverse ++ r)) := by
  have hend : (fun k => if k < l.length then putChars str 0 (l ++ r) (l.length - 1 - k)
      else putChars str 0 (l ++ r) k) = putChars str 0 (l.reverse ++ r) := by
    funext k
    split
    · next hk =>
      have hlen : k < l.reverse.length := by rwa [List.length_reverse]
      rw [putChars_lt (by simp; omega), putChars_lt (by simp; omega),
        List.getElem_append_left (by omega), List.getElem_append_left hlen, List.getElem_reverse]
    · next hk =>
      rw [putChars, putChars, List.getD_append_right _ _ _ _ (by omega),
        List.getD_append_right _ _ _ _ (by rw [List.length_reverse]; omega), List.length_reverse]
  rw [← hend]
  exact reverseChars_returns h

/-- The digits are stored from the last one on. -/
theorem storeDigits_returns {steps : Nat} (hsteps : (Nat.digits 10 n).length < steps)
    (h : ∀ k < i + (Nat.digits 10 n).length, P (elem k)) :
    Traced.Returns P (storeDigits elem steps n i str) (i + (Nat.digits 10 n).length,
      putChars str i ((Nat.digits 10 n).map fun digit : Nat => digitChar digit)) := by
  induction steps generalizing n i str with
  | zero => omega
  | succ steps ih =>
    rw [storeDigits]
    rcases Nat.eq_zero_or_pos n with rfl | hpos
    · rw [if_neg (by simp), Nat.digits_zero, List.map_nil, putChars_nil]
      exact .pure _
    · have hdigits := Nat.digits_def' (by decide : 1 < 10) hpos
      rw [hdigits, List.length_cons] at h hsteps
      have hlen : i + ((Nat.digits 10 (n / 10)).length + 1) =
          i + 1 + (Nat.digits 10 (n / 10)).length := by
        omega
      rw [if_pos (by omega), hdigits, List.map_cons, List.length_cons, putChars_cons, hlen]
      exact (storeChar_returns (h i (by omega))).bind
        (ih (n := n / 10) (i := i + 1) (by omega) fun k hk => h k (by omega))

end Loops

/-! ## `intToStr` and `strToInt` -/

/-- The numeral of a number. -/
def numeral (n : Nat) : List UInt8 :=
  if n = 0 then [0x30] else ((Nat.digits 10 n).map fun digit : Nat => digitChar digit).reverse

/-- The decimal digits of a number, the first one not 0 unless it is the only one. -/
structure IsNumeral (n : Nat) (str : List UInt8) : Prop where
  digit : ∀ c ∈ str, 0x30 ≤ c ∧ c ≤ 0x39
  value : str.foldl (fun v c => v * 10 + (c.toNat - 0x30)) 0 = n
  leading : str.head? = some 0x30 → str = [0x30]
  nonempty : str ≠ []

section Numeral
variable {ω ε : Type} {elem : Nat → ω} {P : ω → Prop} {str : Chars} {n d : Nat} {l : List Nat}

theorem digitChar_natCast (d : Nat) : digitChar d = UInt8.ofNat d + 0x30 := by
  have hint : UInt8.ofInt (d : Int) = UInt8.ofNat d := by
    rw [UInt8.ofInt, show (d : Int) % 2 ^ 8 = ((d % 256 : Nat) : Int) from rfl, Int.toNat_natCast,
      ← UInt8.toNat_inj, UInt8.toNat_ofNat', UInt8.toNat_ofNat']
    exact Nat.mod_mod d 256
  rw [digitChar, hint]

theorem toNat_digitChar (hd : d < 10) : (digitChar d).toNat = d + 0x30 := by
  have hlt : d % 2 ^ 8 = d := Nat.mod_eq_of_lt (by omega)
  rw [digitChar_natCast, UInt8.toNat_add, UInt8.toNat_ofNat', hlt]
  exact Nat.mod_eq_of_lt (by show d + 48 < 256; omega)

theorem length_numeral_le (hn : n < 10 ^ 10) : (numeral n).length ≤ 10 := by
  rw [numeral]
  split
  · decide
  · rw [List.length_reverse, List.length_map]
    exact (Nat.digits_length_le_iff (by decide) n).2 hn

/-- The characters of the digits, read from the first one on. -/
theorem foldl_digitChar (hl : ∀ d ∈ l, d < 10) (v : Nat) :
    (l.map fun digit : Nat => digitChar digit).foldl (fun v c => v * 10 + (c.toNat - 0x30)) v =
      l.foldl (fun v d => v * 10 + d) v := by
  induction l generalizing v with
  | nil => rfl
  | cons d l ih =>
    rw [List.map_cons, List.foldl_cons, List.foldl_cons, toNat_digitChar (hl d List.mem_cons_self),
      Nat.add_sub_cancel]
    exact ih (fun x hx => hl x (List.mem_cons_of_mem _ hx)) _

theorem foldl_digits (n : Nat) : (Nat.digits 10 n).reverse.foldl (fun v d => v * 10 + d) 0 = n := by
  calc (Nat.digits 10 n).reverse.foldl (fun v d => v * 10 + d) 0
      = Nat.ofDigits 10 (Nat.digits 10 n) := by
        rw [List.foldl_reverse, Nat.ofDigits_eq_foldr]
        congr 1
        funext d v
        rw [Nat.mul_comm, Nat.add_comm]
        rfl
    _ = n := Nat.ofDigits_digits 10 n

theorem digits_lt (hd : d ∈ (Nat.digits 10 n).reverse) : d < 10 :=
  Nat.digits_lt_base (by decide) (List.mem_reverse.1 hd)

theorem isNumeral_numeral (n : Nat) : IsNumeral n (numeral n) := by
  rw [numeral]
  split
  · next hzero =>
    subst hzero
    exact ⟨fun c hc => by rw [List.mem_singleton.1 hc]; decide, rfl, fun _ => rfl, by decide⟩
  next hne =>
  rw [← List.map_reverse]
  have hnil : Nat.digits 10 n ≠ [] := Nat.digits_ne_nil_iff_ne_zero.2 hne
  refine ⟨fun c hc => ?_, ?_, fun hhead => ?_, by simpa using hnil⟩
  · obtain ⟨d, hd, rfl⟩ := List.mem_map.1 hc
    have hlt := digits_lt hd
    rw [UInt8.le_iff_toNat_le, UInt8.le_iff_toNat_le, toNat_digitChar hlt]
    exact ⟨Nat.le_add_left _ _, by show d + 48 ≤ 57; omega⟩
  · rw [foldl_digitChar fun d hd => digits_lt hd, foldl_digits]
  · -- the first digit is the last one in `Nat.digits`
    have hlast := Nat.getLast_digit_ne_zero 10 hne
    have hmem := List.getLast_mem hnil
    rw [List.head?_map, List.head?_reverse, List.getLast?_eq_some_getLast hnil, Option.map_some,
      Option.some_inj] at hhead
    have hval := congrArg UInt8.toNat hhead
    rw [toNat_digitChar (Nat.digits_lt_base (by decide) hmem)] at hval
    exact absurd (Nat.add_eq_right.1 hval) hlast

/-- `intToStr` stores the numeral and a zero byte behind it, and nothing else. -/
theorem intToStrAt_returns (hn : n < 10 ^ 10) (h : ∀ k ≤ (numeral n).length, P (elem k)) :
    Traced.Returns P (intToStrAt elem n str) (putChars str 0 (numeral n ++ [0])) := by
  have hzero : ∀ l : List UInt8, storeChar elem l.length 0 (putChars str 0 l) =
      (⟨[elem l.length], .ok (putChars str 0 (l ++ [0]))⟩ : Traced ω Fault Chars) := by
    intro l
    rw [storeChar, putChars_concat]
  -- the characters are there, from the last one on; what is left to do is the same for every number
  have hrest : ∀ l : List UInt8, numeral n = l.reverse → Traced.Returns P (do
      let str ← storeChar elem l.length 0 (putChars str 0 l)
      reverseChars elem l.length str : Traced ω Fault Chars)
          (putChars str 0 (numeral n ++ [0])) := by
    intro l hl
    rw [hl, List.length_reverse] at h
    rw [hzero, hl]
    refine Traced.Returns.bind (a := putChars str 0 (l ++ [0])) ⟨rfl, fun w hw => ?_⟩
      (reverseChars_putChars fun k hk => h k hk.le)
    rw [List.mem_singleton.1 hw]
    exact h _ le_rfl
  rw [intToStrAt]
  rcases Nat.eq_zero_or_pos n with rfl | hpos
  · have hfirst : Traced.Returns P (storeChar elem 0 0x30 str : Traced ω Fault Chars)
        (putChars str 0 [0x30]) := by
      rw [putChars_cons, putChars_nil]
      exact storeChar_returns (h 0 (Nat.zero_le _))
    exact (hfirst.bind (.pure _)).bind ((Traced.Returns.pure _).bind (hrest [0x30] rfl))
  · have hlen : (numeral n).length = (Nat.digits 10 n).length := by
      rw [numeral, if_neg hpos.ne', List.length_reverse, List.length_map]
    have hshort := length_numeral_le hn
    have hdigits : Traced.Returns P (storeDigits elem 32 n 0 str) _ :=
      storeDigits_returns (by omega) fun k hk => h k (by omega)
    have hback := hrest ((Nat.digits 10 n).map fun digit : Nat => digitChar digit)
      (by rw [numeral, if_neg hpos.ne'])
    rw [List.length_map] at hback
    rw [Nat.zero_add] at hdigits
    rw [if_neg (by omega)]
    exact (Traced.Returns.pure _).bind (hdigits.bind hback)

theorem checkInt_eq {v : Nat} (hv : v < 2 ^ 31) : checkInt v = .ok v :=
  if_pos ⟨by omega, by exact_mod_cast hv⟩

theorem le_foldl (l : List Nat) (v : Nat) : v ≤ l.foldl (fun v d => v * 10 + d) v := by
  induction l generalizing v with
  | nil => exact le_rfl
  | cons d l ih => exact (show v ≤ v * 10 + d by omega).trans (ih _)

theorem toInt_digitChar (hd : d < 10) : (digitChar d).toInt8.toInt - 0x30 = d := by
  interval_cases d <;> rfl

/-- Digits are read without an overflow when the number they stand for is an `int`. -/
theorem readDigits_digits (hl : ∀ d ∈ l, d < 10) (v : Nat)
    (hv : l.foldl (fun v d => v * 10 + d) v < 2 ^ 31) :
    readDigits (l.map fun digit : Nat => digitChar digit) v =
      .ok ((l.foldl (fun v d => v * 10 + d) v : Nat) : Int) := by
  induction l generalizing v with
  | nil => rfl
  | cons d l ih =>
    rw [List.foldl_cons] at hv
    have hle := (le_foldl l (v * 10 + d)).trans_lt hv
    have hten : checkInt ((v : Int) * 10) = .ok ((v * 10 : Nat) : Int) := by
      rw [show (v : Int) * 10 = ((v * 10 : Nat) : Int) by push_cast; rfl]
      exact checkInt_eq (by omega)
    have hsum : checkInt (((v * 10 : Nat) : Int) + d) = .ok ((v * 10 + d : Nat) : Int) := by
      rw [← Nat.cast_add]
      exact checkInt_eq hle
    rw [List.map_cons, readDigits, hten]
    show (checkInt (_ + ((digitChar d).toInt8.toInt - 0x30)) >>= _) = _
    rw [toInt_digitChar (hl d List.mem_cons_self), hsum]
    exact ih (fun x hx => hl x (List.mem_cons_of_mem _ hx)) _ hv

theorem strToInt_numeral (hn : n < 2 ^ 31) : strToInt (numeral n) = .ok n := by
  rw [numeral]
  split
  · next hzero =>
    subst hzero
    rfl
  · have hread := readDigits_digits (l := (Nat.digits 10 n).reverse) (fun d hd => digits_lt hd) 0
      (by rwa [foldl_digits])
    rw [foldl_digits] at hread
    rw [← List.map_reverse]
    exact hread

/-- The string that `intToStr` makes of a number is its numeral, of at most ten characters, and
`strToInt` makes the number of it again. -/
theorem strToInt_intToStr (n : Nat) (hn : n < 2 ^ 31) (str : Chars) : ∃ text,
    Traced.Returns (fun i => i < 11) (intToStrAt id n str) (putChars str 0 (text ++ [0])) ∧
      IsNumeral n text ∧ strToInt text = .ok n := by
  have hten : n < 10 ^ 10 := hn.trans (by decide)
  have hlen := length_numeral_le hten
  exact ⟨numeral n, intToStrAt_returns hten fun k hk => by rw [id]; omega, isNumeral_numeral n,
    strToInt_numeral hn⟩

/-- The greatest `int`. -/
theorem strToInt_intToStr_max : ∃ text,
    Traced.Returns (fun i => i < 11) (intToStrAt id 2147483647 fun _ => 0)
      (putChars (fun _ => 0) 0 (text ++ [0])) ∧
      IsNumeral 2147483647 text ∧ strToInt text = .ok 2147483647 :=
  strToInt_intToStr 2147483647 (by decide) fun _ => 0

end Numeral

/-! ## `intToStrPad` -/

/-- `intToStrPad` stores the last `bufferLength` digits of a number, the first of them first, and
nothing behind them. -/
def PadsNumber (num : Nat) (bufferLength : Int) : Prop :=
  ∀ str : Chars, ∃ str',
    Traced.Returns (fun i => i < bufferLength.toNat) (intToStrPad id num str bufferLength :
      Traced Nat Fault Chars) str' ∧
    (∀ i < bufferLength.toNat,
      str' i = digitChar (num / 10 ^ (bufferLength.toNat - 1 - i) % 10 : Nat)) ∧
    ∀ i, bufferLength.toNat ≤ i → str' i = str i

section Pad
variable {ω ε : Type} {elem : Nat → ω} {P : ω → Prop} {str : Chars} {num i m : Nat} {len : Int}

/-- The last digits of a number, from the last one on. -/
def lastDigits (num m : Nat) : List UInt8 :=
  (List.range m).map fun j => digitChar (num / 10 ^ j % 10 : Nat)

theorem length_lastDigits : (lastDigits num m).length = m := by
  rw [lastDigits, List.length_map, List.length_range]

theorem lastDigits_succ :
    lastDigits num (m + 1) = lastDigits num m ++ [digitChar (num / 10 ^ m % 10 : Nat)] := by
  rw [lastDigits, List.range_succ, List.map_append]
  rfl

/-- The loop over the digits, behind characters that are there. -/
theorem padDigits_returns (l : List UInt8) (h : ∀ k < l.length + m, P (elem k)) :
    Traced.Returns P ((List.range' 0 m).foldlM (fun (x : Int × Nat × Chars) (_ : Nat) => do
        let digit := x.1.tmod 10
        let str ← storeChar elem x.2.1 (digitChar digit) x.2.2
        pure (x.1.tdiv 10, x.2.1 + 1, str)) ((num : Int), l.length, putChars str 0 l) :
          Traced ω ε (Int × Nat × Chars))
      (((num / 10 ^ m : Nat) : Int), l.length + m, putChars str 0 (l ++ lastDigits num m)) := by
  have hround : ∀ j, 0 ≤ j → j < 0 + m → ∀ x : Int × Nat × Chars,
      x = (((num / 10 ^ j : Nat) : Int), l.length + j, putChars str 0 (l ++ lastDigits num j)) →
      ∃ x', Traced.Returns P (do
          let digit := x.1.tmod 10
          let str ← storeChar elem x.2.1 (digitChar digit) x.2.2
          pure (x.1.tdiv 10, x.2.1 + 1, str) : Traced ω ε (Int × Nat × Chars)) x' ∧
        x' = (((num / 10 ^ (j + 1) : Nat) : Int), l.length + (j + 1),
          putChars str 0 (l ++ lastDigits num (j + 1))) := by
    rintro j - hj x rfl
    have hplace : P (elem (l.length + j)) := h _ (by omega)
    refine ⟨_, (storeChar_returns hplace).bind (.pure _), ?_⟩
    have hlen : l.length + j = (l ++ lastDigits num j).length := by
      rw [List.length_append, length_lastDigits]
    dsimp only
    rw [lastDigits_succ, ← List.append_assoc, putChars_concat, ← hlen, Nat.pow_succ,
      ← Nat.div_div_eq_div_mul]
    rfl
  obtain ⟨x', hrun, rfl⟩ := Traced.Returns.foldlM_range' hround
    (a := ((num : Int), l.length, putChars str 0 l))
    (by
      rw [Nat.pow_zero, Nat.div_one, lastDigits, List.range_zero, List.map_nil, List.append_nil]
      rfl)
  rwa [Nat.zero_add] at hrun

/-- What is stored for a number; for 0 there is one character more. -/
theorem intToStrPad_returns (l : List UInt8) (hl : l = if num = 0 then [0x30] else [])
    (h : ∀ k < l.length + len.toNat, P (elem k)) :
    Traced.Returns P (intToStrPad elem num str len : Traced ω ε Chars)
      (putChars str 0 ((l ++ lastDigits num len.toNat).reverse)) := by
  have hloop := @padDigits_returns ω ε elem P str num len.toNat l h
  have hturn : Traced.Returns P (reverseChars elem (l ++ lastDigits num len.toNat).length
      (putChars str 0 ((l ++ lastDigits num len.toNat) ++ [])) : Traced ω ε Chars)
      (putChars str 0 ((l ++ lastDigits num len.toNat).reverse ++ [])) :=
    reverseChars_putChars fun k hk => h k (by rwa [List.length_append, length_lastDigits] at hk)
  rw [List.append_nil, List.append_nil, List.length_append, length_lastDigits] at hturn
  rw [intToStrPad]
  split at hl
  · next hzero =>
    subst hl hzero
    have hfirst : Traced.Returns P (storeChar elem 0 0x30 str : Traced ω ε Chars)
        (putChars str 0 [0x30]) := by
      rw [putChars_cons, putChars_nil]
      exact storeChar_returns (h 0 (by simp))
    exact (hfirst.bind (.pure _)).bind (hloop.bind hturn)
  · next hne =>
    subst hl
    rw [if_neg (by exact_mod_cast hne)]
    refine (Traced.Returns.pure ((0 : Nat), str)).bind ?_
    rw [putChars_nil] at hloop
    exact hloop.bind hturn

/-- `intToStrPad` stores as many characters as it should for every number but 0. -/
theorem padsNumber_iff : PadsNumber num len ↔ num ≠ 0 := by
  constructor
  · rintro h rfl
    obtain ⟨str', hrun, -, hrest⟩ := h fun _ => 0
    have hzero : Traced.Returns (fun _ => True)
        (intToStrPad id (0 : Nat) (fun _ => 0) len : Traced Nat Fault Chars) _ :=
      intToStrPad_returns [0x30] rfl fun _ _ => trivial
    have heq := Except.ok.inj (hzero.result.symm.trans hrun.result)
    have hlast := hrest len.toNat le_rfl
    rw [← heq, putChars_lt (by simp [length_lastDigits]), List.getElem_reverse] at hlast
    simp [length_lastDigits] at hlast
  · intro hne str
    have hrun : Traced.Returns (fun i => i < len.toNat)
        (intToStrPad id num str len : Traced Nat Fault Chars) _ :=
      intToStrPad_returns [] (if_neg hne).symm fun k hk => by simpa using hk
    refine ⟨_, hrun, fun i hi => ?_, fun i hi => ?_⟩
    · rw [List.nil_append, putChars_lt (by rwa [List.length_reverse, length_lastDigits]),
        List.getElem_reverse]
      simp only [lastDigits, List.getElem_map, List.getElem_range, List.length_map,
        List.length_range]
    · rw [List.nil_append, putChars_ge (by rwa [List.length_reverse, length_lastDigits])]

end Pad

end OsKernel
