import LinkGraph.Text.Hidden

namespace LinkGraph.Text

def quoteChar (hidden : Char → Bool) (c : Char) : List Char :=
  if c = '\x00' then ['\\', '0']
  else if c = '\t' then ['\\', 't']
  else if c = '\n' then ['\\', 'n']
  else if c = '\r' then ['\\', 'r']
  else if c = '\"' then ['\\', '\"']
  else if c = '\\' then ['\\', '\\']
  else if hidden c then ['\\', 'u', '\x7b'] ++ Nat.toDigits 16 c.toNat ++ ['\x7d']
  else [c]

def quoteChars (hidden : Char → Bool) (cs : List Char) : List Char :=
  '\"' :: (cs.flatMap (quoteChar hidden) ++ ['\"'])

def quoted (s : String) : String :=
  String.ofList (quoteChars isHidden s.toList)

end LinkGraph.Text
