import ScriptCore.Text.Utf8

/-!
# Base 64

Bytes written with the standard alphabet and padding.  Line breaks are ignored.
-/

namespace ScriptCore
namespace Text

def base64Digit? (c : Char) : Option Nat :=
  let n := c.toNat
  if 65 ≤ n ∧ n ≤ 90 then some (n - 65)
  else if 97 ≤ n ∧ n ≤ 122 then some (n - 71)
  else if 48 ≤ n ∧ n ≤ 57 then some (n + 4)
  else if c = '+' then some 62
  else if c = '/' then some 63
  else none

/-- The bytes of digits without line breaks, four at a time. -/
def base64Groups? : List Char → Option (List UInt8)
  | [] => some []
  | [a, b, '=', '='] => do
      let x := (← base64Digit? a) * 64 + (← base64Digit? b)
      return [(x / 16).toUInt8]
  | [a, b, c, '='] => do
      let x := ((← base64Digit? a) * 64 + (← base64Digit? b)) * 64 + (← base64Digit? c)
      return [(x / 1024).toUInt8, (x / 4 % 256).toUInt8]
  | a :: b :: c :: d :: rest => do
      let x :=
        (((← base64Digit? a) * 64 + (← base64Digit? b)) * 64 + (← base64Digit? c)) * 64
          + (← base64Digit? d)
      let bytes ← base64Groups? rest
      return (x / 65536).toUInt8 :: (x / 256 % 256).toUInt8 :: (x % 256).toUInt8 :: bytes
  | _ => none

def ofBase64? (s : String) : Option (List UInt8) :=
  base64Groups? (s.toList.filter fun c => c ≠ '\n' ∧ c ≠ '\r')

end Text
end ScriptCore
