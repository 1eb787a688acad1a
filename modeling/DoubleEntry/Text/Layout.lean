/-!
# Fixed-width layout

Padding counts characters and never cuts a longer text short.
-/

namespace DoubleEntry

namespace Text

def alignRight (width : Nat) (text : String) : String :=
  String.ofList (List.replicate (width - text.length) ' ') ++ text

def alignLeft (width : Nat) (text : String) : String :=
  text ++ String.ofList (List.replicate (width - text.length) ' ')

def rule (width : Nat) (c : Char) : String :=
  String.ofList (List.replicate width c)

/-- `n` with at least `width` digits. -/
def zeroPadded (width n : Nat) : String :=
  let digits := Nat.toDigits 10 n
  String.ofList (List.replicate (width - digits.length) '0' ++ digits)

def ofLines (lines : List String) : String :=
  String.join (lines.map (· ++ "\n"))

end Text

end DoubleEntry
