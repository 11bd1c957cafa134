import Netfilter.Text.Hex
import Netfilter.Text.Hidden

/-!
# Quoted text

A text between quotation marks on one line. Marks, backslashes, line ends and
characters that do not show are escaped: the common ones by a letter, the others
by their number.
-/

namespace Netfilter.Quoted

def byNumber (c : Char) : List Char := ['\\', 'u', '{'] ++ (Hex.text c.toNat).toList ++ ['}']

def escape (c : Char) : List Char :=
  if c = '\x00' then ['\\', '0']
  else if c = '\t' then ['\\', 't']
  else if c = '\r' then ['\\', 'r']
  else if c = '\n' then ['\\', 'n']
  else if c = '"' then ['\\', '"']
  else if c = '\\' then ['\\', '\\']
  else if Hidden.isHidden c then byNumber c
  else [c]

def write (text : List Char) : List Char := '"' :: text.flatMap escape ++ ['"']

end Netfilter.Quoted
