/-!
# Blanks

The blanks of text are the characters with the Unicode property `White_Space`.
Trimming removes them from both ends; words are the maximal runs without one.
-/

namespace DoubleEntry

namespace Text

/-- The property `White_Space`, 25 characters. -/
def isBlank (c : Char) : Bool :=
  let n := c.toNat
  (0x9 ≤ n && n ≤ 0xD) || n == 0x20 || n == 0x85 || n == 0xA0 || n == 0x1680 ||
    (0x2000 ≤ n && n ≤ 0x200A) || n == 0x2028 || n == 0x2029 || n == 0x202F ||
    n == 0x205F || n == 0x3000

def trimmed (cs : List Char) : List Char :=
  ((cs.dropWhile isBlank).reverse.dropWhile isBlank).reverse

def trim (text : String) : String :=
  String.ofList (trimmed text.toList)

def isAllBlank (text : String) : Bool :=
  text.toList.all isBlank

/-- The pieces between characters that satisfy `p`, empty ones included. -/
def pieces (p : Char → Bool) : List Char → List (List Char)
  | [] => [[]]
  | c :: cs =>
    if p c then [] :: pieces p cs
    else
      match pieces p cs with
      | [] => [[c]]
      | piece :: others => (c :: piece) :: others

/-- Maximal runs of characters that are not blank. -/
def words (text : String) : List String :=
  ((pieces isBlank text.toList).filter fun piece => !piece.isEmpty).map String.ofList

def upperAscii (text : String) : String :=
  String.ofList (text.toList.map Char.toUpper)

def lowerAscii (text : String) : String :=
  String.ofList (text.toList.map Char.toLower)

end Text

end DoubleEntry
