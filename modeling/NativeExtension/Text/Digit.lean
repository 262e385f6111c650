/-!
# NativeExtension.Text.Digit

**Decimal digits and unsigned numerals.** `isDecimalDigit` is the Unicode general
category Nd, which comes in runs of ten; `zeros` lists where each run starts.
A numeral is read from ASCII digits alone, so a digit of another script is a digit
to the scanner and yet no numeral.
-/

namespace NativeExtension.Text

/-- The code points of the digit zero in every script that has decimal digits. -/
def zeros : List Nat :=
  [0x0030, 0x0660, 0x06F0, 0x07C0, 0x0966, 0x09E6, 0x0A66, 0x0AE6, 0x0B66, 0x0BE6,
   0x0C66, 0x0CE6, 0x0D66, 0x0DE6, 0x0E50, 0x0ED0, 0x0F20, 0x1040, 0x1090, 0x17E0,
   0x1810, 0x1946, 0x19D0, 0x1A80, 0x1A90, 0x1B50, 0x1BB0, 0x1C40, 0x1C50, 0xA620,
   0xA8D0, 0xA900, 0xA9D0, 0xA9F0, 0xAA50, 0xABF0, 0xFF10, 0x104A0, 0x10D30, 0x10D40,
   0x11066, 0x110F0, 0x11136, 0x111D0, 0x112F0, 0x11450, 0x114D0, 0x11650, 0x116C0,
   0x116D0, 0x116DA, 0x11730, 0x118E0, 0x11950, 0x11BF0, 0x11C50, 0x11D50, 0x11DA0,
   0x11F50, 0x16130, 0x16A60, 0x16AC0, 0x16B50, 0x16D70, 0x1CCF0, 0x1D7CE, 0x1D7D8,
   0x1D7E2, 0x1D7EC, 0x1D7F6, 0x1E140, 0x1E2F0, 0x1E4F0, 0x1E5F1, 0x1E950, 0x1FBF0]

/-- The Unicode general category Nd. -/
def isDecimalDigit (c : Char) : Bool :=
  zeros.any fun first => first ≤ c.toNat && c.toNat < first + 10

/-- The value of a row of ASCII digits read after the value `acc`. -/
def digitsFrom (acc : Nat) : List Char → Option Nat
  | [] => some acc
  | c :: rest =>
    if c.isDigit then digitsFrom (acc * 10 + (c.toNat - '0'.toNat)) rest else none

/-- Two to the power of 32: a 32-bit unsigned number is less than this. -/
def numeralLimit : Nat := 4294967296

/-- A 32-bit unsigned numeral: one or more ASCII digits, whose value fits. -/
def numeral? (digits : List Char) : Option Nat :=
  if digits = [] then none
  else (digitsFrom 0 digits).filter (· < numeralLimit)

/-- A numeral that may carry a leading plus sign. -/
def signedNumeral? : List Char → Option Nat
  | '+' :: digits => numeral? digits
  | digits => numeral? digits

end NativeExtension.Text
