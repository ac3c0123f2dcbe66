/-! Texts of numbers, as messages and reports show them. -/

namespace PowerFirmware.Text

/-- The digits of `n` to base sixteen, in lower case and without leading zeros. -/
def hexDigits (n : Nat) : String := String.ofList (Nat.toDigits 16 n)

/-- `text` filled up on its left to `width` characters. -/
def padLeft (width : Nat) (fill : Char) (text : String) : String :=
  String.ofList (List.replicate (width - text.length) fill) ++ text

/-- The shortest hexadecimal text of `n`. -/
def hex (n : Nat) : String := "0x" ++ hexDigits n

/-- The hexadecimal text of a word, with all eight digits. -/
def hexWord (w : UInt32) : String := "0x" ++ padLeft 8 '0' (hexDigits w.toNat)

/-- Bytes as two digits each. -/
def hexBytes (bs : List UInt8) : String :=
  String.join (bs.map fun b => padLeft 2 '0' (hexDigits b.toNat))

/-! ### Reading -/

/-- The value of a digit to base sixteen, in either case. -/
def digitValue (c : Char) : Nat :=
  if c.isDigit then c.toNat - 48
  else if 'a' ≤ c && c ≤ 'f' then c.toNat - 87
  else if 'A' ≤ c && c ≤ 'F' then c.toNat - 55
  else 0

/-- The number that digits to a base stand for, the most significant first. -/
def ofDigits (base : Nat) (digits : List Char) : Nat :=
  digits.foldl (fun n c => base * n + digitValue c) 0

/-- A number is read to base sixteen after `0x`, and to base ten otherwise. -/
def readNat (text : String) : Nat :=
  match text.toList with
  | '0' :: 'x' :: digits => ofDigits 16 digits
  | digits => ofDigits 10 digits

/-- Each two digits stand for a byte. -/
def bytesOfDigits : List Char → List UInt8
  | high :: low :: rest => UInt8.ofNat (ofDigits 16 [high, low]) :: bytesOfDigits rest
  | _ => []

def readBytes (text : String) : List UInt8 := bytesOfDigits text.toList

end PowerFirmware.Text
