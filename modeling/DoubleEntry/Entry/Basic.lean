import DoubleEntry.Account
import DoubleEntry.Category
import DoubleEntry.Conversion
import DoubleEntry.Digest
import DoubleEntry.Document.Basic
import DoubleEntry.Text.Blank

/-!
# Entries

An entry records one transaction as two postings, one on each side. A posting
names its account once a leg was attached to it; a draft has none. The sign of a
leg is positive on the normal side of its account.
-/

namespace DoubleEntry

/-- An amount on an account, valued by a conversion. -/
structure Leg where
  account : Account
  amount : Decimal
  currency : Currency
  conversion : Conversion
deriving BEq, Repr

namespace Leg

def sign (leg : Leg) (side : Side) : Decimal :=
  if leg.account.normalSide = side then .one else .minusOne

def amountSigned (leg : Leg) (side : Side) : Calc Decimal :=
  leg.amount.mul (leg.sign side)

def amountsSigned (leg : Leg) (side : Side) : Calc Amounts :=
  Amounts.scale (leg.sign side) leg.conversion.amounts

end Leg

/-- One side of an entry; without an account it is still open. -/
structure Posting where
  account : Option Account
  amount : Decimal
  currency : Currency
  conversion : Conversion
deriving BEq, Repr

namespace Posting

def unset (conversion : Conversion) : Posting :=
  ⟨none, .zero, .msats, conversion⟩

def ofLeg (leg : Leg) : Posting :=
  ⟨some leg.account, leg.amount, leg.currency, leg.conversion⟩

def leg? (p : Posting) : Option Leg :=
  p.account.map fun account => ⟨account, p.amount, p.currency, p.conversion⟩

@[simp] theorem leg?_ofLeg (leg : Leg) : (ofLeg leg).leg? = some leg :=
  rfl

/-- The sign of the leg on `side`, zero while the side is open. -/
def sign (p : Posting) (side : Side) : Decimal :=
  match p.leg? with
  | some leg => leg.sign side
  | none => .zero

def amountSigned (p : Posting) (side : Side) : Calc Decimal :=
  p.amount.mul (p.sign side)

def conversionSigned (p : Posting) (side : Side) : Calc Conversion :=
  p.conversion.signed (p.sign side)

end Posting

structure Entry where
  groupId : String
  shortId : String
  timestamp : Instant
  category : Category
  description : String
  userMemo : String
  custId : String
  debit : Posting
  credit : Posting
  metadata : Option Document
  /-- When a reversal cancelled this entry. -/
  reversed : Option Instant
  /-- The group id of the entry that this one cancels. -/
  reversalOf : Option String
deriving BEq, Repr

/-- The first ten hexadecimal digits of the digest of a group id. -/
def shortIdOf (groupId : String) : String :=
  Sha256.hexText ((Sha256.digest groupId.toUTF8.toList).take 5)

structure BookedLeg extends Leg where
  side : Side
deriving BEq, Repr

namespace BookedLeg

def sign (leg : BookedLeg) : Decimal :=
  leg.toLeg.sign leg.side

def amountSigned (leg : BookedLeg) : Calc Decimal :=
  leg.toLeg.amountSigned leg.side

def amountsSigned (leg : BookedLeg) : Calc Amounts :=
  leg.toLeg.amountsSigned leg.side

end BookedLeg

namespace Entry

def posting (e : Entry) : Side → Posting
  | .debit => e.debit
  | .credit => e.credit

def withPosting (e : Entry) (side : Side) (p : Posting) : Entry :=
  match side with
  | .debit => { e with debit := p }
  | .credit => { e with credit := p }

/-- An entry with both sides open, dated like `placeholder`. A blank group id is refused. -/
def draft (groupId : String) (category : Category) (timestamp : Instant)
    (placeholder : Conversion) : Except LedgerError Entry :=
  if Text.isAllBlank groupId then .error (.validation .emptyGroupId)
  else
    let nothing := Posting.unset (.zero placeholder.fetchDate placeholder.source)
    .ok
      { groupId := groupId
        shortId := shortIdOf groupId
        timestamp := timestamp
        category := category
        description := ""
        userMemo := ""
        custId := ""
        debit := nothing
        credit := nothing
        metadata := none
        reversed := none
        reversalOf := none }

/-- Attach a leg to a side, replacing what was there. A negative amount is refused. -/
def attach (e : Entry) (side : Side) (leg : Leg) : Except LedgerError Entry :=
  if leg.amount.isNegative then .error (.validation (.negativeAmount side leg.amount))
  else .ok (e.withPosting side (.ofLeg leg))

def ofLegs (groupId : String) (category : Category) (timestamp : Instant)
    (debit credit : Leg) : Except LedgerError Entry := do
  let opened ← draft groupId category timestamp debit.conversion
  let debited ← opened.attach .debit debit
  debited.attach .credit credit

def leg? (e : Entry) (side : Side) : Option BookedLeg :=
  (e.posting side).leg?.map fun leg => { leg with side := side }

/-- The legs whose account is set, debit first. -/
def legs (e : Entry) : List BookedLeg :=
  (e.leg? .debit).toList ++ (e.leg? .credit).toList

theorem side_of_leg? {e : Entry} {side : Side} {leg : BookedLeg} (h : e.leg? side = some leg) :
    leg.side = side := by
  obtain ⟨_, -, rfl⟩ := Option.map_eq_some_iff.1 h
  rfl

theorem mem_legs_iff (e : Entry) (leg : BookedLeg) :
    leg ∈ e.legs ↔ e.leg? leg.side = some leg := by
  rw [legs, List.mem_append, Option.mem_toList, Option.mem_toList]
  constructor
  · rintro (hdebit | hcredit)
    · rwa [side_of_leg? hdebit]
    · rwa [side_of_leg? hcredit]
  · intro h
    cases hside : leg.side with
    | debit => exact Or.inl (hside ▸ h)
    | credit => exact Or.inr (hside ▸ h)

/-- Whatever is listed after another leg is the credit leg, and the other is the debit leg. -/
theorem pairwise_side_legs (e : Entry) :
    e.legs.Pairwise fun earlier later => earlier.side = .debit ∧ later.side = .credit := by
  unfold legs
  cases hdebit : e.leg? .debit with
  | none => cases e.leg? .credit <;> simp
  | some debit =>
      cases hcredit : e.leg? .credit with
      | none => simp
      | some credit => simp [side_of_leg? hdebit, side_of_leg? hcredit]

def isReversed (e : Entry) : Bool :=
  e.reversed.isSome

end Entry

end DoubleEntry
