import Mathlib.Algebra.GroupWithZero.Nat
import ExFatSlim.Error

namespace ExFatSlim

def minTimestamp : Nat := 0x00210000
def minYear : Nat := 1980
def maxYear : Nat := 2107
def utcOffsetValid : Nat := 0x80

structure Timestamp where
  year : Nat
  month : Nat
  day : Nat
  hour : Nat
  minute : Nat
  second : Nat
  centis : Nat
  utcOffset15min : Option Int
  deriving DecidableEq, Repr

structure EncodedTimestamp where
  packed : Nat := minTimestamp
  increment10ms : Nat := 0
  utcOffset : Nat := 0
  deriving DecidableEq, Repr

def isLeapYear (year : Nat) : Bool := year % 4 == 0 && (year % 100 != 0 || year % 400 == 0)

def daysInMonth (year : Nat) : Nat → Nat
  | 1 | 3 | 5 | 7 | 8 | 10 | 12 => 31
  | 4 | 6 | 9 | 11 => 30
  | 2 => if isLeapYear year then 29 else 28
  | _ => 0

def Timestamp.isValid (t : Timestamp) : Bool :=
  (minYear ≤ t.year && t.year ≤ maxYear)
    && (1 ≤ t.day && t.day ≤ daysInMonth t.year t.month)
    && t.hour ≤ 23
    && t.minute ≤ 59
    && t.second ≤ 59
    && t.centis ≤ 99
    && match t.utcOffset15min with
      | none => true
      | some offset => -48 ≤ offset && offset ≤ 56

/-- The shifts and ors of `encode` on a valid timestamp, whose fields do not overlap. -/
def Timestamp.encodeValid (t : Timestamp) : EncodedTimestamp where
  packed := (t.year - minYear) * 2 ^ 25 + t.month * 2 ^ 21 + t.day * 2 ^ 16 + t.hour * 2 ^ 11
    + t.minute * 2 ^ 5 + t.second / 2
  increment10ms := t.second % 2 * 100 + t.centis
  utcOffset := match t.utcOffset15min with
    | some offset => utcOffsetValid + (offset % 128).toNat
    | none => 0

/-- `encode`. An invalid timestamp fails the debug assertion. -/
def Timestamp.encode {σ : Type} (t : Timestamp) : ExFat σ EncodedTimestamp := do
  Exec.assert t.isValid
  pure t.encodeValid

end ExFatSlim
