/-!
# Categories

Every entry has one category out of a closed set, stored as a short code.
-/

namespace DoubleEntry

inductive Category where
  | unknown
  | funding
  | deposit
  | withdrawal
  | hiveToLightning
  | hiveToLightningContra
  | lightningToHive
  | lightningToHiveContra
  | feeIncome
  | feeExpense
  | feeCharge
  | treasuryTransfer
  | exchangeConversion
  | limitOrder
  | orderFill
  | notification
  | reversal
  | adjustment
deriving DecidableEq, Repr

namespace Category

def all : List Category :=
  [.unknown, .funding, .deposit, .withdrawal, .hiveToLightning, .hiveToLightningContra,
   .lightningToHive, .lightningToHiveContra, .feeIncome, .feeExpense, .feeCharge,
   .treasuryTransfer, .exchangeConversion, .limitOrder, .orderFill, .notification,
   .reversal, .adjustment]

/-- The stored form, at most ten characters. -/
def code : Category → String
  | .unknown => "unkn"
  | .funding => "funding"
  | .deposit => "deposit"
  | .withdrawal => "withdraw"
  | .hiveToLightning => "h_conv_l"
  | .hiveToLightningContra => "h_contra_l"
  | .lightningToHive => "l_conv_h"
  | .lightningToHiveContra => "l_contra_h"
  | .feeIncome => "fee_inc"
  | .feeExpense => "fee_exp"
  | .feeCharge => "fee_chg"
  | .treasuryTransfer => "treas_tx"
  | .exchangeConversion => "exc_conv"
  | .limitOrder => "limit_or"
  | .orderFill => "fill_or"
  | .notification => "cj_notif"
  | .reversal => "reversal"
  | .adjustment => "adjust"

def ofCode? (code : String) : Option Category :=
  all.find? fun c => c.code == code

def label : Category → String
  | .unknown => "Unknown"
  | .funding => "Funding"
  | .deposit => "Deposit"
  | .withdrawal => "Withdrawal"
  | .hiveToLightning => "Hive to Lightning conversion"
  | .hiveToLightningContra => "Hive to Lightning contra"
  | .lightningToHive => "Lightning to Hive conversion"
  | .lightningToHiveContra => "Lightning to Hive contra"
  | .feeIncome => "Fee income"
  | .feeExpense => "Fee expense"
  | .feeCharge => "Fee charge"
  | .treasuryTransfer => "Treasury transfer"
  | .exchangeConversion => "Exchange conversion"
  | .limitOrder => "Limit order create"
  | .orderFill => "Order fill"
  | .notification => "Custom JSON notification"
  | .reversal => "Reversal"
  | .adjustment => "Adjustment"

def icon : Category → String
  | .unknown => "❓"
  | .funding => "🏦"
  | .deposit => "📥"
  | .withdrawal => "📤"
  | .hiveToLightning => "🔄"
  | .hiveToLightningContra => "↔️"
  | .lightningToHive => "🔄"
  | .lightningToHiveContra => "↔️"
  | .feeIncome => "💰"
  | .feeExpense => "💸"
  | .feeCharge => "🧾"
  | .treasuryTransfer => "🏛️"
  | .exchangeConversion => "💱"
  | .limitOrder => "📝"
  | .orderFill => "✅"
  | .notification => "🔔"
  | .reversal => "⏪"
  | .adjustment => "🛠️"

/-- Conversions between Hive and Lightning count toward customer limits. -/
def isConversion : Category → Bool
  | .hiveToLightning | .lightningToHive => true
  | _ => false

theorem mem_all (c : Category) : c ∈ all := by
  cases c <;> decide

theorem ofCode?_code (c : Category) : ofCode? c.code = some c := by
  cases c <;> decide

end Category

end DoubleEntry
