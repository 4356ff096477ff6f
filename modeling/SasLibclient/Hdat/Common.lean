import SasLibclient.Hdat.SuperChunk
import SasLibclient.S2ClientError

/-!
# Cells and dates (`hdat/common.hpp`)

A cell is what `MYSQL_ROW` and its lengths say about one column: a pointer to
bytes, or `NULL`, and a length. Date and time cells point to a `MYSQL_TIME`.
-/

namespace SasLibclient

open Bytes

/-- The bytes from the pointer on, and `lengths[i]`. -/
structure Cell where
  value : Option (List UInt8)
  length : UInt64
  deriving DecidableEq, Repr

/-- The `n` bytes from a pointer. -/
def bytesAt (value : List UInt8) (n : Nat) : List UInt8 :=
  (List.range n).map fun i => value.getD i 0

/-- `*(unsigned int *)(value + at)` -/
def uint32At (value : List UInt8) (offset : Nat) : UInt32 :=
  UInt32.ofNat (ofLE (bytesAt (value.drop offset) 4))

/-- `MYSQL_TIME` -/
structure MysqlTime where
  year : UInt32
  month : UInt32
  day : UInt32
  hour : UInt32
  minute : UInt32
  second : UInt32
  secondPart : UInt64
  neg : Bool
  deriving DecidableEq, Repr

def MysqlTime.ofBytes (value : List UInt8) : MysqlTime where
  year := uint32At value 0
  month := uint32At value 4
  day := uint32At value 8
  hour := uint32At value 12
  minute := uint32At value 16
  second := uint32At value 20
  secondPart := UInt64.ofNat (ofLE (bytesAt (value.drop 24) 8))
  neg := value.getD 32 0 != 0

/-- The fields of `struct tm` that `timegm` reads, each an `int`. -/
structure Tm where
  sec : Int
  min : Int
  hour : Int
  mday : Int
  mon : Int
  year : Int
  deriving DecidableEq, Repr

/-- The days before the first of a month that counts from zero, in a year that
is not a leap year. -/
def daysBeforeMonth (month : Int) : Int :=
  [0, 31, 59, 90, 120, 151, 181, 212, 243, 273, 304, 334].getD month.toNat 0

def isLeapYear (year : Int) : Bool :=
  year % 4 == 0 && (year % 100 != 0 || year % 400 == 0)

/-- The days from 1 January 1970 to 1 January of `year`. -/
def daysBeforeYear (year : Int) : Int :=
  365 * (year - 1970) + ((year - 1) / 4 - (year - 1) / 100 + (year - 1) / 400 - 477)

/-- `timegm`: the months and smaller units may be out of their range. -/
def timegm (tm : Tm) : Int :=
  let year := tm.year + 1900 + tm.mon / 12
  let mon := tm.mon % 12
  let days := daysBeforeYear year + daysBeforeMonth mon +
    (if isLeapYear year && mon > 1 then 1 else 0) + (tm.mday - 1)
  ((days * 24 + tm.hour) * 60 + tm.min) * 60 + tm.sec

def zeroTimePointCAS : Int := timegm ⟨0, 0, 0, 1, 0, 60⟩

def secToMicroSec : UInt64 := 1000000

/-- Conversion of an `unsigned int` to `int`. -/
def toInt32 (x : UInt32) : Int := Int.bmod x.toNat (2 ^ 32)

/-- `toTimeCAS`; the result is the bit pattern of the `int64_t`. -/
def toTimeCAS (input : List UInt8) : UInt64 :=
  let dt := MysqlTime.ofBytes input
  let timeVal := dt.secondPart +
    secToMicroSec * UInt64.ofNat (dt.second + dt.minute * 60 + dt.hour * 3600).toNat
  if dt.neg then -timeVal else timeVal

/-- The date fields as `toDateCAS` and `toDateTimeCAS` pass them on. -/
def tmDate (dt : MysqlTime) (hour min sec : Int) : Tm where
  sec := sec
  min := min
  hour := hour
  mday := toInt32 dt.day
  mon := toInt32 (dt.month - 1)
  year := toInt32 (dt.year - 1900)

def toDateCAS (input : List UInt8) : Except S2ClientError UInt32 :=
  let inputDate := timegm (tmDate (MysqlTime.ofBytes input) 0 0 0)
  if inputDate = -1 then
    .error ⟨s2cErrorInvArg, "Invalid Date read from DB"⟩
  else
    .ok (UInt32.ofInt ((inputDate - zeroTimePointCAS) / (3600 * 24)))

def toDateTimeCAS (input : List UInt8) : Except S2ClientError UInt64 :=
  let dt := MysqlTime.ofBytes input
  let inputDate := timegm (tmDate dt (toInt32 dt.hour) (toInt32 dt.minute) (toInt32 dt.second))
  if inputDate = -1 then
    .error ⟨s2cErrorInvArg, "Invalid Date read from DB"⟩
  else
    .ok (UInt64.ofInt (inputDate - zeroTimePointCAS) * secToMicroSec + dt.secondPart)

theorem toDateCAS_error {input : List UInt8} {e : S2ClientError}
    (h : toDateCAS input = .error e) : e.errorCode ≠ 0 := by
  unfold toDateCAS at h
  dsimp only at h
  split at h
  · obtain rfl := Except.error.inj h
    decide
  · cases h

theorem toDateTimeCAS_error {input : List UInt8} {e : S2ClientError}
    (h : toDateTimeCAS input = .error e) : e.errorCode ≠ 0 := by
  unfold toDateTimeCAS at h
  dsimp only at h
  split at h
  · obtain rfl := Except.error.inj h
    decide
  · cases h

/-- One step of the loop of `rowSize`. -/
def columnSize (column : Column) (length : UInt64) : UInt64 :=
  match column.type with
  | .variable => length + 2 * defaultAlignmentSize
  | .fixed => sizeofAligned8 (UInt64.ofInt column.size)
  | _ => defaultAlignmentSize

/-- The loop of `rowSize`; a missing cell stands for whatever follows the row. -/
def rowSizeFrom (total : UInt64) : List Column → List Cell → UInt64
  | [], _ => total
  | column :: columns, cells =>
    rowSizeFrom (total + columnSize column (cells.headD ⟨none, 0⟩).length) columns cells.tail

def rowSize (schema : RowSchema) (row : List Cell) : UInt64 :=
  rowSizeFrom 0 schema.columnInfo row

example : zeroTimePointCAS = -315619200 := by decide

end SasLibclient
