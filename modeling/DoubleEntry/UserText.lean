import DoubleEntry.Currency
import DoubleEntry.Error
import DoubleEntry.Text.Blank

/-!
# Text typed by users

Blanks around a word do not count and letters are compared without regard to
ASCII case. An amount with its currency is exactly two words.
-/

namespace DoubleEntry

/-- A currency by its code; one satoshi may also be written in the singular. -/
def Currency.ofText (text : String) : Except LedgerError Currency :=
  let word := Text.upperAscii (Text.trim text)
  if word = "SAT" then .ok .sats
  else if word = "MSAT" then .ok .msats
  else
    match Currency.ofCode? word with
    | some currency => .ok currency
    | none => .error (.validation (.unknownCurrency word))

def AccountType.ofText (text : String) : Except LedgerError AccountType :=
  let word := Text.lowerAscii (Text.trim text)
  match AccountType.ofName? word with
  | some type => .ok type
  | none => .error (.validation (.unknownAccountType word))

def readAmount (text : String) : Except LedgerError Decimal :=
  match Decimal.ofText (Text.trim text) with
  | .ok amount => .ok amount
  | .error cause => .error (.validation (.badAmount text cause))

/-- An amount and its currency, such as `25.000 HIVE`. -/
def readAmountWithCurrency (text : String) : Except LedgerError (Decimal × Currency) :=
  match Text.words text with
  | [amount, currency] => do
    let amount ← readAmount amount
    let currency ← Currency.ofText currency
    return (amount, currency)
  | _ => .error (.validation (.badAmountPair text))

end DoubleEntry
