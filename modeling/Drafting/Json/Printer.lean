import Drafting.Json

namespace Drafting.Json

def hexDigit (n : Nat) : Char := Nat.digitChar (n % 16)

/-- Quotes, backslashes and control characters are escaped; nothing else is. -/
def escape (c : Char) : List Char :=
  if c = '"' then ['\\', '"']
  else if c = '\\' then ['\\', '\\']
  else if c = '\x08' then ['\\', 'b']
  else if c = '\x0c' then ['\\', 'f']
  else if c = '\n' then ['\\', 'n']
  else if c = '\r' then ['\\', 'r']
  else if c = '\t' then ['\\', 't']
  else if c.toNat < 0x20 then ['\\', 'u', '0', '0', hexDigit (c.toNat / 16), hexDigit c.toNat]
  else [c]

/-- A string without a text is written as an empty one. -/
def quoted (s : Option String) : List Char :=
  '"' :: ((s.getD "").toList.flatMap escape ++ ['"'])

mutual

def chars : Json → List Char
  | .null => ['n', 'u', 'l', 'l']
  | .bool true => ['t', 'r', 'u', 'e']
  | .bool false => ['f', 'a', 'l', 's', 'e']
  | .number l => l.chars
  | .string s => quoted s
  | .array [] => ['[', ']']
  | .array (j :: js) => '[' :: (j.chars ++ itemsChars js)
  | .object [] => ['\x7b', '\x7d']
  | .object ((k, j) :: ms) => '\x7b' :: (quoted k ++ ':' :: (j.chars ++ membersChars ms))

/-- The items after the first, and the closing bracket. -/
def itemsChars : List Json → List Char
  | [] => [']']
  | j :: js => ',' :: (j.chars ++ itemsChars js)

/-- The members after the first, and the closing brace. -/
def membersChars : List (Option String × Json) → List Char
  | [] => ['\x7d']
  | (k, j) :: ms => ',' :: (quoted k ++ ':' :: (j.chars ++ membersChars ms))

end

def compact (j : Json) : String := String.ofList j.chars

def lineBreak (level : Nat) : List Char := '\n' :: List.replicate (2 * level) ' '

mutual

def prettyChars (level : Nat) : Json → List Char
  | .null => ['n', 'u', 'l', 'l']
  | .bool true => ['t', 'r', 'u', 'e']
  | .bool false => ['f', 'a', 'l', 's', 'e']
  | .number l => l.chars
  | .string s => quoted s
  | .array [] => ['[', ']']
  | .array (j :: js) =>
    '[' :: (lineBreak (level + 1) ++ prettyChars (level + 1) j ++ prettyItems level js)
  | .object [] => ['\x7b', '\x7d']
  | .object ((k, j) :: ms) =>
    '\x7b' :: (lineBreak (level + 1) ++ quoted k ++ ':' :: ' ' :: prettyChars (level + 1) j
      ++ prettyMembers level ms)

def prettyItems (level : Nat) : List Json → List Char
  | [] => lineBreak level ++ [']']
  | j :: js => ',' :: (lineBreak (level + 1) ++ prettyChars (level + 1) j ++ prettyItems level js)

def prettyMembers (level : Nat) : List (Option String × Json) → List Char
  | [] => lineBreak level ++ ['\x7d']
  | (k, j) :: ms =>
    ',' :: (lineBreak (level + 1) ++ quoted k ++ ':' :: ' ' :: prettyChars (level + 1) j
      ++ prettyMembers level ms)

end

def pretty (j : Json) : String := String.ofList (j.prettyChars 0)

end Drafting.Json
