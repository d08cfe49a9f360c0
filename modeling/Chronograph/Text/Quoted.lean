import Chronograph.Text.Hidden

set_option autoImplicit false

/-!
# Quoted text

Text between single quotes, or between double quotes when it holds a single one
and no double one. The quote in use and the backslash are written after a
backslash; a character that shows nothing is written by name or by its number.
-/
namespace Chronograph.Text.Quoted

def hexadecimal (width n : Nat) : List Char :=
  let digits := Nat.toDigits 16 n
  List.replicate (width - digits.length) '0' ++ digits

def written (mark c : Char) : List Char :=
  if c = mark ∨ c = '\\' then ['\\', c]
  else if c = '\n' then ['\\', 'n']
  else if c = '\r' then ['\\', 'r']
  else if c = '\t' then ['\\', 't']
  else if Hidden.isHidden c = false then [c]
  else if c.toNat < 256 then '\\' :: 'x' :: hexadecimal 2 c.toNat
  else if c.toNat < 65536 then '\\' :: 'u' :: hexadecimal 4 c.toNat
  else '\\' :: 'U' :: hexadecimal 8 c.toNat

def mark (text : List Char) : Char :=
  if '\'' ∈ text ∧ '"' ∉ text then '"' else '\''

def quote (text : List Char) : List Char :=
  let m := mark text
  m :: text.flatMap (written m) ++ [m]

end Chronograph.Text.Quoted
