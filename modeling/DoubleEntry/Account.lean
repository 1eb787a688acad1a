/-!
# Accounts

An account is a type, a name and a sub-account. The type fixes the side on which
its balance grows. The contra flag only says how an account is shown: two
accounts that differ in it are one account to the books.
-/

namespace DoubleEntry

inductive Side where
  | debit
  | credit
deriving DecidableEq, Repr

namespace Side

def name : Side → String
  | .debit => "debit"
  | .credit => "credit"

def opposite : Side → Side
  | .debit => .credit
  | .credit => .debit

@[simp] theorem opposite_opposite (s : Side) : s.opposite.opposite = s := by
  cases s <;> rfl

end Side

inductive AccountType where
  | asset
  | liability
  | equity
  | revenue
  | expense
deriving DecidableEq, Repr

namespace AccountType

def all : List AccountType :=
  [.asset, .liability, .equity, .revenue, .expense]

def name : AccountType → String
  | .asset => "asset"
  | .liability => "liability"
  | .equity => "equity"
  | .revenue => "revenue"
  | .expense => "expense"

def ofName? (name : String) : Option AccountType :=
  all.find? fun t => t.name == name

theorem ofName?_name (t : AccountType) : ofName? t.name = some t := by
  cases t <;> decide

/-- The side on which a balance of this type grows. -/
def normalSide : AccountType → Side
  | .asset | .expense => .debit
  | .liability | .equity | .revenue => .credit

def rank : AccountType → Nat
  | .asset => 0
  | .liability => 1
  | .equity => 2
  | .revenue => 3
  | .expense => 4

end AccountType

structure Account where
  type : AccountType
  name : String
  sub : String
  contra : Bool
deriving DecidableEq, Repr

namespace Account

def plain (type : AccountType) (name sub : String) : Account :=
  ⟨type, name, sub, false⟩

def asContra (a : Account) : Account :=
  { a with contra := true }

/-- The account of the books, whatever way it is shown. -/
def withoutContra (a : Account) : Account :=
  { a with contra := false }

@[simp] theorem withoutContra_withoutContra (a : Account) :
    a.withoutContra.withoutContra = a.withoutContra :=
  rfl

def normalSide (a : Account) : Side :=
  a.type.normalSide

/-- By type, name, sub-account and contra flag; texts by their bytes. -/
def compare (a b : Account) : Ordering :=
  (Ord.compare a.type.rank b.type.rank).then <|
    (Ord.compare a.name b.name).then <|
      (Ord.compare a.sub b.sub).then (Ord.compare a.contra b.contra)

/-- Insert into a list that is in order, once. -/
def insertSorted (a : Account) : List Account → List Account
  | [] => [a]
  | b :: rest =>
    match a.compare b with
    | .lt => a :: b :: rest
    | .eq => b :: rest
    | .gt => b :: insertSorted a rest

def sortDistinct (accounts : List Account) : List Account :=
  accounts.foldl (fun sorted a => insertSorted a sorted) []

/-- `type: name`, the sub-account if there is one, and the contra mark. -/
def describe (a : Account) : String :=
  a.type.name ++ ": " ++ a.name ++ (if a.sub.isEmpty then "" else " - " ++ a.sub) ++
    (if a.contra then " (contra)" else "")

end Account

/-- Selects one account, or with `sub` left open all sub-accounts of a name. -/
structure AccountFilter where
  type : AccountType
  name : String
  sub : Option String
deriving DecidableEq, Repr

namespace AccountFilter

def ofAccount (a : Account) (sub : Option String) : AccountFilter :=
  ⟨a.type, a.name, sub⟩

def accepts (f : AccountFilter) (a : Account) : Bool :=
  a.type == f.type && a.name == f.name &&
    match f.sub with
    | none => true
    | some sub => a.sub == sub

end AccountFilter

end DoubleEntry
