import Drafting.Decimal.Literal

namespace Drafting

/-- A string has no text if one of its escapes names half of a surrogate pair. -/
inductive Json where
  | null
  | bool (b : Bool)
  | number (l : Decimal.Literal)
  | string (text : Option String)
  | array (items : List Json)
  | object (members : List (Option String × Json))

namespace Json

instance : Inhabited Json := ⟨.null⟩

def text (s : String) : Json := .string (some s)

def nat (n : Nat) : Json := .number (.ofNat n)

def fields (fs : List (String × Json)) : Json := .object (fs.map fun (k, v) => (some k, v))

mutual

def depth : Json → Nat
  | .array items => itemsDepth items + 1
  | .object members => membersDepth members + 1
  | _ => 0

def itemsDepth : List Json → Nat
  | [] => 0
  | j :: js => max j.depth (itemsDepth js)

def membersDepth : List (Option String × Json) → Nat
  | [] => 0
  | (_, j) :: ms => max j.depth (membersDepth ms)

end

mutual

def all (string : Option String → Bool) (number : Decimal.Literal → Bool) : Json → Bool
  | .null | .bool _ => true
  | .number l => number l
  | .string s => string s
  | .array items => allItems string number items
  | .object members => allMembers string number members

def allItems (string : Option String → Bool) (number : Decimal.Literal → Bool) :
    List Json → Bool
  | [] => true
  | j :: js => j.all string number && allItems string number js

def allMembers (string : Option String → Bool) (number : Decimal.Literal → Bool) :
    List (Option String × Json) → Bool
  | [] => true
  | (k, j) :: ms => string k && j.all string number && allMembers string number ms

end

end Json

end Drafting
