import DoubleEntry.Document.Basic
import DoubleEntry.Text.Blank

/-!
# Selecting documents

What a filter document means. Each of its fields is a condition on the value at
a dotted path, and all of them have to hold. A null asks for a missing or a null
value, a record lists operators, and anything else asks for an equal value. The
field `$or` holds filters of which one has to select the document.
-/

namespace DoubleEntry

namespace Document

def pathOf (name : String) : List String :=
  (Text.pieces (· == '.') name.toList).map String.ofList

/-- What stands at a path, if every field on the way is there. -/
def atPath? : List String → Document → Option Document
  | [], d => some d
  | name :: rest, record fields => (fields.lookup name).bind (atPath? rest)
  | _ :: _, _ => none

def satisfies (found : Option Document) (operator : String) (operand : Document) : Bool :=
  match found, operand with
  | some (date t), date bound =>
    (operator == "$gte" && bound ≤ t) || (operator == "$lte" && t ≤ bound)
  | some d, list wanted => operator == "$in" && wanted.any (same d)
  | _, _ => false

def meets (found : Option Document) : Document → Bool
  | null => found.all (same null)
  | record operators => operators.all fun (operator, operand) => satisfies found operator operand
  | wanted => found.any (same wanted)

mutual

def selects : Document → Document → Bool
  | record conditions, d => allHold conditions d
  | _, _ => false

def allHold : List (String × Document) → Document → Bool
  | [], _ => true
  | (name, list filters) :: rest, d =>
    (if name = "$or" then anySelects filters d
     else meets (d.atPath? (pathOf name)) (list filters)) && allHold rest d
  | (name, condition) :: rest, d =>
    meets (d.atPath? (pathOf name)) condition && allHold rest d

def anySelects : List Document → Document → Bool
  | [], _ => false
  | filter :: rest, d => selects filter d || anySelects rest d

end

end Document

end DoubleEntry
