import DoubleEntry.Decimal.Arithmetic

/-!
# Reading decimals

Plain text is an optional sign and digits with at most one point; underscores
may follow the first digit. The digits that fit are kept and the first one that
does not decides the rounding, half away from zero. Text that is not plain may
have an exponent. Nothing is trimmed, and a zero is read without its sign.
-/

namespace DoubleEntry

namespace Decimal

inductive ReadError where
  | empty
  | secondPoint
  | leadingUnderscore
  | unknownCharacter
  | noDigits
  /-- The whole part has too many digits. -/
  | tooManyDigits
  /-- Rounding the first fraction digit away carries out of range. -/
  | roundedOutOfRange
  /-- The exponent is not a number of at most 32 bits. -/
  | badExponent
  | exponentTooLarge (exponent : Nat)
  | tooLarge
deriving DecidableEq, Repr

def ReadError.message : ReadError → String
  | .empty => "Invalid decimal: empty"
  | .secondPoint => "Invalid decimal: two decimal points"
  | .leadingUnderscore => "Invalid decimal: must start lead with a number"
  | .unknownCharacter => "Invalid decimal: unknown character"
  | .noDigits => "Invalid decimal: no digits found"
  | .tooManyDigits => "Invalid decimal: overflow from too many digits"
  | .roundedOutOfRange => "Invalid decimal: overflow from mantissa after rounding"
  | .badExponent => "Failed to parse"
  | .exponentTooLarge exponent =>
    "Scale exceeds the maximum precision allowed: " ++ toString exponent ++ " > 28"
  | .tooLarge => "Number exceeds maximum value that can be represented."

def digit? (c : Char) : Option Nat :=
  if '0' ≤ c ∧ c ≤ '9' then some (c.toNat - '0'.toNat) else none

/-- The complaint about a character that may not stand where it does. -/
def refuse (c : Char) : ReadError :=
  if c = '.' then .secondPoint
  else if c = '_' then .leadingUnderscore
  else .unknownCharacter

/-- One unit more in the last place; a carry out of range costs one fraction digit. -/
def roundUp (a : Decimal) : Except ReadError Decimal :=
  match ofParts? false (a.coefficient + 1) a.scale with
  | some next => .ok next
  | none =>
    if a.scale = 0 then .error .roundedOutOfRange
    else
      .ok
        { negative := false
          coefficient := (a.coefficient + 1 + 4) / 10
          scale := a.scale - 1
          coefficient_lt := by
            have := a.coefficient_lt
            omega
          scale_le := by
            have := a.scale_le
            omega }

/--
The text that no longer fits. Its first character, a digit or an underscore that
counts as zero, decides the rounding; the others only have to be digits or
underscores.
-/
def roundOff (a : Decimal) : List Char → Except ReadError Decimal
  | [] => .ok a
  | c :: rest => do
    let first ←
      match digit? c with
      | some d => pure d
      | none => if c = '_' then pure 0 else throw (refuse c)
    let kept ← if first < 5 then pure a else a.roundUp
    match rest.find? fun d => (digit? d).isNone && d != '_' with
    | some d => throw (refuse d)
    | none => pure kept

/-- From this coefficient on, underscores before the deciding digit are passed over. -/
def longCoefficient : Nat := 0xffffffffffffffff / 10 - 255

/--
The digits of a number, `a` being what was read so far, `seen` whether a digit
was among it and `point` whether the point was.
-/
def readDigits (a : Decimal) (seen point : Bool) : List Char → Except ReadError Decimal
  | [] => if seen then .ok a else .error .noDigits
  | c :: rest =>
    match digit? c with
    | some d =>
      match ofParts? false (a.coefficient * 10 + d) (if point then a.scale + 1 else a.scale) with
      | none => if point then roundOff a (c :: rest) else .error .tooManyDigits
      | some next =>
        if !rest.isEmpty && point && next.scale == 28 then
          if longCoefficient ≤ a.coefficient then roundOff next (rest.dropWhile (· == '_'))
          else roundOff next rest
        else
          readDigits next true point rest
    | none =>
      if c = '.' ∧ point = false then readDigits a seen true rest
      else if c = '_' ∧ seen = true then readDigits a seen point rest
      else .error (refuse c)

def readPlain : List Char → Except ReadError Decimal
  | [] => .error .empty
  | '-' :: rest => (withSign true) <$> readDigits zero false false rest
  | '+' :: rest => readDigits zero false false rest
  | cs => readDigits zero false false cs

/-- An optional plus and ASCII digits, a number of at most 32 bits. -/
def readExponent (cs : List Char) : Except ReadError Nat :=
  let ds := match cs with
    | '+' :: rest => rest
    | _ => cs
  match ds.mapM digit? with
  | none => .error .badExponent
  | some values =>
    let n := values.foldl (fun n d => n * 10 + d) 0
    if values.isEmpty ∨ 0x100000000 ≤ n then .error .badExponent else .ok n

def powerOfTen (exponent : Nat) (h : exponent ≤ 28) : Decimal :=
  .ofNat (tenTo exponent) (Nat.lt_of_le_of_lt (tenTo_le_tenTo h) (by decide))

/-- Without the trailing zeros of the fraction; a zero becomes the plain zero. -/
def normalized (a : Decimal) : Decimal :=
  if h : 0 < a.scale ∧ a.coefficient % 10 = 0 then
    normalized
      { negative := a.negative
        coefficient := a.coefficient / 10
        scale := a.scale - 1
        coefficient_lt := by
          have := a.coefficient_lt
          omega
        scale_le := by
          have := a.scale_le
          omega }
  else
    a.withSign a.negative
termination_by a.scale
decreasing_by omega

/-- `a / 10 ^ exponent`; digits past the 28th are rounded half up, the sign staying. -/
def shiftDown (a : Decimal) (exponent : Nat) : Decimal :=
  let scale := a.scale + exponent
  if h : scale ≤ 28 then
    { a with scale := scale, scale_le := h }
  else
    { negative := a.negative
      coefficient := roundHalfUp a.coefficient (tenTo (scale - 28))
      scale := 28
      coefficient_lt :=
        roundHalfUp_lt a.coefficient_lt (tenTo_pos _)
      scale_le := Nat.le_refl 28 }

/-- `a * 10 ^ exponent`, first by shortening the fraction, else by two products. -/
def shiftUp (a : Decimal) (exponent : Nat) : Except ReadError Decimal :=
  if h : exponent ≤ a.scale then
    .ok
      { a with
        scale := a.scale - exponent
        scale_le := by
          have := a.scale_le
          omega }
  else if hs : 28 < exponent then
    .error (.exponentTooLarge exponent)
  else
    let first := powerOfTen (min exponent 19) (by omega)
    let second := powerOfTen (exponent - min exponent 19) (by omega)
    match (do (← a.mul first).mul second : Calc Decimal) with
    | .fault _ => .error .tooLarge
    | .done product _ => .ok product.normalized

def applyExponent (a : Decimal) : List Char → Except ReadError Decimal
  | '-' :: rest => do
    let exponent ← readExponent rest
    if 28 < exponent then throw (.exponentTooLarge exponent)
    pure (a.shiftDown exponent)
  | cs => do
    let exponent ← readExponent cs
    a.shiftUp exponent

def marksExponent (c : Char) : Bool :=
  c == 'e' || c == 'E'

/--
Plain text first. Text that is refused as plain and has an exponent is read as a
base and that exponent; without one the first complaint stands.
-/
def ofText (text : String) : Except ReadError Decimal :=
  let cs := text.toList
  match readPlain cs with
  | .ok a => .ok a
  | .error complaint =>
    if cs.any marksExponent then do
      let base ← readPlain (cs.takeWhile fun c => !marksExponent c)
      base.applyExponent ((cs.dropWhile fun c => !marksExponent c).drop 1)
    else
      .error complaint

end Decimal

end DoubleEntry
