namespace SyscallFilter.Numeral

/-- Hexadecimal digits in lower case, `0x` in front, and zeros between them up
    to `width` digits. -/
def hex (width n : Nat) : String :=
  let digits := Nat.toDigits 16 n
  String.ofList ('0' :: 'x' :: (List.replicate (width - digits.length) '0' ++ digits))

/-- Decimal digits, with spaces in front up to `width` characters. -/
def padded (width n : Nat) : String :=
  let digits := Nat.toDigits 10 n
  String.ofList (List.replicate (width - digits.length) ' ' ++ digits)

/-- Why a text is not a number. -/
inductive Error where
  | empty
  | invalidDigit
  | tooLarge
  deriving DecidableEq

def Error.message : Error → String
  | .empty => "cannot parse integer from empty string"
  | .invalidDigit => "invalid digit found in string"
  | .tooLarge => "number too large to fit in target type"

/-- Appends decimal digits to `value`. The first character that is no digit, or
    the first digit that takes the value above `limit`, decides the error. -/
def readDigits (limit : Nat) : Nat → List Char → Except Error Nat
  | value, [] => .ok value
  | value, c :: rest =>
    if c.isDigit then
      let next := 10 * value + (c.toNat - '0'.toNat)
      if next ≤ limit then readDigits limit next rest else .error .tooLarge
    else .error .invalidDigit

/-- Reads decimal digits, which a single plus sign may precede, as a number up
    to `limit`. -/
def read (limit : Nat) : List Char → Except Error Nat
  | [] => .error .empty
  | ['+'] => .error .invalidDigit
  | '+' :: digits => readDigits limit 0 digits
  | digits => readDigits limit 0 digits

/-- Reads a number that fits 32 bits. -/
def readWord (text : List Char) : Except Error UInt32 :=
  (read (UInt32.size - 1) text).map UInt32.ofNat

end SyscallFilter.Numeral
