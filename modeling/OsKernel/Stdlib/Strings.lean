import OsKernel.Fat32.Types
import Mathlib.Data.List.TakeWhile
import Mathlib.Data.Nat.ModEq

/-!
# Strings

A string is the list of its characters, without the zero byte at its end. `strlen` returns its
length in eight bits, so `isStrEqual` compares strings only up to a length of 255
(`isStrEqual_of_lt`): a string is equal to any extension of it by a multiple of 256 characters
(`isStrEqual_append_left`). A string in memory that is not terminated runs on into what is stored
behind it (`cString_append`).
-/

namespace OsKernel

/-- `strlen`, which returns a `uint8_t`. -/
def strlen (str : List UInt8) : UInt8 := UInt8.ofNat str.length

/-- `isStrEqual`: `memcmp` looks at `strlen(str1)` characters. -/
def isStrEqual (str1 str2 : List UInt8) : Bool :=
  strlen str1 == strlen str2 && str1.take (strlen str1).toNat == str2.take (strlen str1).toNat

section IsStrEqual
variable {str1 str2 : List UInt8}

@[simp] theorem toNat_strlen (str : List UInt8) : (strlen str).toNat = str.length % 256 := by
  rw [strlen, UInt8.toNat_ofNat']

/-- Short strings are compared as a whole. -/
theorem isStrEqual_of_lt (h1 : str1.length < 256) (h2 : str2.length < 256) :
    isStrEqual str1 str2 = true ↔ str1 = str2 := by
  rw [isStrEqual, Bool.and_eq_true, beq_iff_eq, beq_iff_eq, ← UInt8.toNat_inj, toNat_strlen,
    toNat_strlen, Nat.mod_eq_of_lt h1, Nat.mod_eq_of_lt h2]
  refine ⟨fun ⟨hlen, htake⟩ => ?_, fun heq => heq ▸ ⟨rfl, rfl⟩⟩
  rwa [List.take_length, hlen, List.take_length] at htake

/-- A string compares equal to its beginning when the rest is a multiple of 256 characters long. -/
theorem isStrEqual_append_left (h1 : str1.length < 256) :
    isStrEqual (str1 ++ str2) str1 = true ↔ 256 ∣ str2.length := by
  rw [isStrEqual, Bool.and_eq_true, beq_iff_eq, beq_iff_eq, ← UInt8.toNat_inj, toNat_strlen,
    toNat_strlen, List.length_append, Nat.mod_eq_of_lt h1]
  constructor
  · rintro ⟨hlen, -⟩
    omega
  · intro hdvd
    have hlen : (str1.length + str2.length) % 256 = str1.length := by omega
    rw [hlen, List.take_left, List.take_length]
    exact ⟨rfl, rfl⟩

theorem isStrEqual_append_right (h1 : str1.length < 256) :
    isStrEqual str1 (str1 ++ str2) = true ↔ 256 ∣ str2.length := by
  rw [isStrEqual, Bool.and_eq_true, beq_iff_eq, beq_iff_eq, ← UInt8.toNat_inj, toNat_strlen,
    toNat_strlen, List.length_append, Nat.mod_eq_of_lt h1, List.take_left, List.take_length,
    and_iff_left rfl]
  omega

end IsStrEqual

/-- The string at the start of an array, of which `bytes` are left. -/
def cString (bytes : List UInt8) : Except Fault (List UInt8) :=
  let str := bytes.takeWhile (· ≠ 0)
  if str.length < bytes.length then .ok str else .error (.arrayIndex bytes.length)

/-- A string ends in the first part of an array that holds a zero byte. -/
theorem cString_append {bytes rest : List UInt8} (h : 0 ∈ bytes) :
    cString (bytes ++ rest) = .ok (bytes.takeWhile (· ≠ 0)) := by
  have hne : bytes.takeWhile (· ≠ 0) ≠ bytes := by
    intro heq
    simpa using List.takeWhile_eq_self_iff.1 heq 0 h
  have hle := (bytes.takeWhile_sublist (· ≠ 0)).length_le
  have hlt : (bytes.takeWhile (· ≠ 0)).length < bytes.length :=
    lt_of_le_of_ne hle fun hlen => hne ((bytes.takeWhile_sublist _).eq_of_length hlen)
  rw [cString, List.takeWhile_append, if_neg hlt.ne, List.length_append]
  exact if_pos (by omega)

/-- A string that ends within an array. -/
theorem cString_eq_ok {bytes str : List UInt8} : cString bytes = .ok str ↔
    (bytes.takeWhile (· ≠ 0)).length < bytes.length ∧ str = bytes.takeWhile (· ≠ 0) := by
  rw [cString]
  split
  · next hlt => exact ⟨fun h => ⟨hlt, (Except.ok.inj h).symm⟩, fun h => congrArg _ h.2.symm⟩
  · next hge => exact ⟨fun h => (nomatch h), fun h => absurd h.1 hge⟩

/-- A string ends at the first zero byte. -/
theorem cString_zero (bytes rest : List UInt8) :
    cString (bytes ++ 0 :: rest) = .ok (bytes.takeWhile (· ≠ 0)) := by
  have hstop : (bytes ++ [0]).takeWhile (· ≠ 0) = bytes.takeWhile (· ≠ 0) := by
    rw [List.takeWhile_append]
    split
    · next hlen =>
      rw [(bytes.takeWhile_sublist _).eq_of_length hlen]
      exact List.append_nil bytes
    · rfl
  rw [List.append_cons, cString_append (List.mem_append_right _ List.mem_cons_self), hstop]

/-- `strcat` into an array of `size` characters. -/
def strcat (size : Nat) (str1 str2 : List UInt8) : Except Fault (List UInt8) :=
  if str1.length + str2.length < size then .ok (str1 ++ str2) else .error (.arrayIndex size)

theorem strcat_eq_ok {size : Nat} {str1 str2 str : List UInt8} : strcat size str1 str2 = .ok str ↔
    str1.length + str2.length < size ∧ str = str1 ++ str2 := by
  rw [strcat]
  split
  · next hlt => simp [hlt, eq_comm]
  · next hge => simp [hge]

end OsKernel
