import ScriptCore.Text.Hex
import ScriptCore.Text.Printable

/-!
# Quoted text

Names in messages and values in log lines are written between double quotes.
Quotes and backslashes are escaped, printable characters stand for themselves,
and every other character is written as an escape sequence.
-/

namespace ScriptCore
namespace Text

def shortEscape? : Char → Option Char
  | '\x07' => some 'a'
  | '\x08' => some 'b'
  | '\x0c' => some 'f'
  | '\n' => some 'n'
  | '\r' => some 'r'
  | '\t' => some 't'
  | '\x0b' => some 'v'
  | _ => none

def quoteChar (c : Char) : List Char :=
  if c = '"' ∨ c = '\\' then ['\\', c]
  else if isPrintable c then [c]
  else
    match shortEscape? c with
    | some e => ['\\', e]
    | none =>
        let n := c.toNat
        if n < 0x20 ∨ n = 0x7f then '\\' :: 'x' :: hex 2 n
        else if n < 0x10000 then '\\' :: 'u' :: hex 4 n
        else '\\' :: 'U' :: hex 8 n

def quote (s : String) : String :=
  String.ofList ('"' :: s.toList.flatMap quoteChar ++ ['"'])

end Text
end ScriptCore
