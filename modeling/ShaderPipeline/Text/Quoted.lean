import ShaderPipeline.Text.Hex
import ShaderPipeline.Text.Obscure

/-!
# Quoted names in messages

A name inside a message stands between double quotes. A double quote and a backslash in it get a
backslash in front, the common controls have a letter of their own, and a character that is hard
to see is written by its number.
-/

namespace ShaderPipeline

def escapedChar (c : Char) : List Char :=
  if c = '"' then ['\\', '"']
  else if c = '\\' then ['\\', '\\']
  else if c = '\n' then ['\\', 'n']
  else if c = '\t' then ['\\', 't']
  else if c = '\r' then ['\\', 'r']
  else if c.toNat = 0 then ['\\', '0']
  else if isObscure c then
    ['\\', 'u', '\x7b'] ++ (hexText 1 c.toNat).toList ++ ['\x7d']
  else [c]

def quoted (s : String) : String :=
  String.ofList ('"' :: (s.toList.flatMap escapedChar ++ ['"']))

end ShaderPipeline
