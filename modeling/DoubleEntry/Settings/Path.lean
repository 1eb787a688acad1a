import DoubleEntry.Error
import DoubleEntry.Text.Blank
import DoubleEntry.Text.Whole

/-!
# Paths of service settings

A variable of the service is named `APP`, two underscores and a path, in any
case. A path is a name and the steps behind it: two underscores and a name lead
into a table, a number in brackets into a list. The first step decides what
stands under the name; without a step the variable is its text. A variable whose
name holds no path sets nothing.
-/

namespace DoubleEntry

/-- A name and the steps from its value to the value that is set. -/
structure SettingPath where
  name : String
  steps : List SettingShape
deriving DecidableEq, Repr

namespace SettingPath

/-- Letters lowered; of the others only the Kelvin sign lowers to a character of a path. -/
def lowered (key : String) : List Char :=
  (Text.lowerAscii key).toList.map fun c => if c = '\u212a' then 'k' else c

/-- Every two underscores replaced by a point, from the left. -/
def pointed : List Char → List Char
  | '_' :: '_' :: rest => '.' :: pointed rest
  | c :: rest => c :: pointed rest
  | [] => []

def isNameChar (c : Char) : Bool :=
  c.isAlphanum || c == '_' || c == '-' || c == ' '

def isGap (c : Char) : Bool :=
  c == ' ' || c == '\t'

def isIndex (cs : List Char) : Bool :=
  let bare := ((cs.dropWhile isGap).reverse.dropWhile isGap).reverse
  bare.head? != some '+' && (Text.whole64? (String.ofList bare)).isSome

def steps? : List Char → Option (List SettingShape)
  | [] => some []
  | '.' :: rest =>
    if (rest.takeWhile isNameChar).isEmpty then none
    else (steps? (rest.dropWhile isNameChar)).map (.table :: ·)
  | '[' :: rest =>
    if isIndex (rest.takeWhile (· != ']')) && rest.contains ']' then
      (steps? ((rest.dropWhile (· != ']')).drop 1)).map (.list :: ·)
    else none
  | _ => none
termination_by cs => cs.length
decreasing_by
  · have := (List.dropWhile_suffix (l := rest) isNameChar).length_le
    simp only [List.length_cons]
    omega
  · have := (List.dropWhile_suffix (l := rest) (· != ']')).length_le
    simp only [List.length_cons, List.length_drop]
    omega

/-- The path in the name of a variable, when it is one of the service. -/
def ofKey? (key : String) : Option SettingPath :=
  let cs := lowered key
  if cs.take 5 = "app__".toList then
    let path := pointed (cs.drop 5)
    let name := path.takeWhile isNameChar
    if name.isEmpty then none
    else (steps? (path.dropWhile isNameChar)).map fun steps => ⟨String.ofList name, steps⟩
  else none

end SettingPath

end DoubleEntry
