/-!
# Bytes of text

Text is decoded from bytes with the replacement character in place of every
byte that is not part of a valid sequence.
-/

namespace ScriptCore
namespace Text

def replacement : Char := '�'

def toBytes (s : String) : List UInt8 :=
  s.toUTF8.toList

/-- The number of bytes that a first byte announces, and its share of the code. -/
def leadByte? (b : UInt8) : Option (Nat × Nat) :=
  let n := b.toNat
  if n < 0x80 then some (1, n)
  else if 0xC2 ≤ n ∧ n < 0xE0 then some (2, n - 0xC0)
  else if 0xE0 ≤ n ∧ n < 0xF0 then some (3, n - 0xE0)
  else if 0xF0 ≤ n ∧ n < 0xF5 then some (4, n - 0xF0)
  else none

def continuation? (b : UInt8) : Option Nat :=
  if 0x80 ≤ b.toNat ∧ b.toNat < 0xC0 then some (b.toNat - 0x80) else none

/-- A sequence of the given length has at least this code. -/
def leastCode : Nat → Nat
  | 3 => 0x800
  | 4 => 0x10000
  | _ => 0

/-- The character at the start of the bytes and the number of its bytes. -/
def firstChar? : List UInt8 → Option (Char × Nat)
  | [] => none
  | b :: rest => do
      let (length, share) ← leadByte? b
      let tail := rest.take (length - 1)
      if tail.length + 1 ≠ length then none
      let code ← tail.foldlM (fun acc b => (continuation? b).map (acc * 64 + ·)) share
      if code < leastCode length then none
      if h : code.isValidChar then some (Char.ofNatAux code h, length) else none

def decodeBytes : (fuel : Nat) → List UInt8 → List Char
  | 0, _ => []
  | _, [] => []
  | fuel + 1, b :: rest =>
      match firstChar? (b :: rest) with
      | some (c, length) => c :: decodeBytes fuel (rest.drop (length - 1))
      | none => replacement :: decodeBytes fuel rest

def ofBytes (bytes : List UInt8) : String :=
  String.ofList (decodeBytes bytes.length bytes)

end Text
end ScriptCore
