import DoubleEntry.Proofs.ExactValues
import DoubleEntry.Proofs.Report.Grouping

/-!
# Totals by account, netted

A leg carries two signs: whether its side is the normal one of its account when
it is added up, and whether its account is debit-normal when the totals are
netted. The two together leave the sign of its side. So the net of any additive
figure over all accounts is that figure on the debit sides less the same figure
on the credit sides, however the legs were grouped, shown or ordered.
-/

namespace DoubleEntry

/-! ## Signs -/

def Side.weight : Side → Rat
  | .debit => 1
  | .credit => -1

def AccountType.weight (type : AccountType) : Rat :=
  type.normalSide.weight

/-- The sign of a leg, seen from its account's weight, is that of its side. -/
theorem BookedLeg.weight_mul_sign (leg : BookedLeg) :
    leg.account.type.weight * leg.sign.value = leg.side.weight := by
  unfold BookedLeg.sign Leg.sign Account.normalSide AccountType.weight
  cases leg.account.type.normalSide <;> cases leg.side <;> simp [Side.weight]

/-! ## What entries book in each currency -/

def Leg.worthIn (leg : Leg) (c : Currency) : Rat :=
  (leg.conversion.amounts.get c).value

def Leg.amountIn (leg : Leg) (c : Currency) : Rat :=
  if c = leg.currency then leg.amount.value else 0

/-- The figure in a currency of the conversion on a side; nothing while the side is open. -/
def Entry.valueOn (e : Entry) (side : Side) (c : Currency) : Rat :=
  if (e.posting side).account.isSome then ((e.posting side).conversion.amounts.get c).value else 0

def Entry.excess (e : Entry) (c : Currency) : Rat :=
  e.valueOn .debit c - e.valueOn .credit c

/-- What a leg's figure comes to on a side; nothing while the side is open. -/
def Entry.figureOn (e : Entry) (side : Side) (figure : Leg → Rat) : Rat :=
  ((e.posting side).leg?.map figure).getD 0

theorem Entry.figureOn_conversion (e : Entry) (side : Side) (c : Currency) :
    e.figureOn side (fun leg => (leg.conversion.amounts.get c).value) = e.valueOn side c := by
  unfold figureOn valueOn Posting.leg?
  cases (e.posting side).account <;> simp

private theorem sum_leg? (figure : Leg → Rat) (e : Entry) (side : Side) :
    ((e.leg? side).toList.map fun leg => leg.side.weight * figure leg.toLeg).sum =
      side.weight * e.figureOn side figure := by
  unfold Entry.leg? Entry.figureOn
  cases (e.posting side).leg? <;> simp

/-- Weighted by their sides, the legs come to the debit sides less the credit sides. -/
theorem sum_legsOf (figure : Leg → Rat) (entries : List Entry) :
    ((LedgerTotals.legsOf entries fun _ => true).map fun leg =>
      leg.side.weight * figure leg.toLeg).sum =
      (entries.map fun e => e.figureOn .debit figure - e.figureOn .credit figure).sum := by
  unfold LedgerTotals.legsOf
  rw [List.filter_eq_self.2 fun _ _ => rfl]
  induction entries with
  | nil => rfl
  | cons e rest ih =>
      have hlegs : (e.legs.map fun leg => leg.side.weight * figure leg.toLeg).sum =
          e.figureOn .debit figure - e.figureOn .credit figure := by
        rw [Entry.legs, List.map_append, List.sum_append, sum_leg?, sum_leg?]
        simp only [Side.weight]
        ring
      rw [List.flatMap_cons, List.map_append, List.sum_append, ih, hlegs, List.map_cons,
        List.sum_cons]

/-! ## Additive figures -/

/-- A figure of totals that starts at nothing and to which each leg adds its share. -/
structure AccountTotals.Additive (figure : AccountTotals → Rat) (share : BookedLeg → Rat) :
    Prop where
  empty : ∀ account, figure (.empty account) = 0
  addLeg : ∀ t leg t', (AccountTotals.addLeg t leg).Exactly t' → figure t' = figure t + share leg

theorem AccountTotals.exactly_addLeg {t t' : AccountTotals} {leg : BookedLeg}
    (h : (t.addLeg leg).Exactly t') :
    ∃ amount amounts, leg.amountSigned.Exactly amount ∧
      (t.native.addTo leg.currency amount).Exactly t'.native ∧
      leg.amountsSigned.Exactly amounts ∧
      (Amounts.add t.converted amounts).Exactly t'.converted ∧
      t'.account = if leg.account.contra && !t.account.contra then leg.account else t.account := by
  simp only [← Calc.ends_true_iff] at h ⊢
  obtain ⟨amount, hamount, native, hnative, amounts, hamounts, converted, hconverted, rfl⟩ :=
    (t.ends_addLeg_iff leg t').1 h
  exact ⟨amount, amounts, hamount, hnative, hamounts, hconverted, rfl⟩

theorem AccountTotals.additive_converted (c : Currency) :
    AccountTotals.Additive (fun t => (t.converted.get c).value)
      (fun leg => (leg.conversion.amounts.get c).value * leg.sign.value) where
  empty account := by simp [AccountTotals.empty]
  addLeg t leg t' h := by
    obtain ⟨amount, amounts, -, -, hamounts, hconverted, -⟩ := AccountTotals.exactly_addLeg h
    rw [Amounts.value_of_add hconverted c, Amounts.value_of_scale hamounts c]
    rfl

/-! ## The net of all accounts -/

namespace LedgerTotals

def KeysFit (totals : LedgerTotals) : Prop :=
  ∀ p ∈ totals, p.2.account.type = p.1.type

/-- A figure over all accounts, those that grow by credits counted down. -/
def net (figure : AccountTotals → Rat) (totals : LedgerTotals) : Rat :=
  (totals.map fun p => p.2.account.type.weight * figure p.2).sum

def sumOfType (figure : AccountTotals → Rat) (totals : LedgerTotals) (type : AccountType) : Rat :=
  ((totals.ofType type).map figure).sum

/-- A figure over all accounts, those of each type with a weight. -/
def weighed (weight : AccountType → Rat) (figure : AccountTotals → Rat)
    (totals : LedgerTotals) : Rat :=
  (totals.map fun p => weight p.2.account.type * figure p.2).sum

theorem net_eq_weighed (figure : AccountTotals → Rat) (totals : LedgerTotals) :
    net figure totals = weighed AccountType.weight figure totals :=
  rfl

variable {figure : AccountTotals → Rat} {share : BookedLeg → Rat}

theorem Groups.figure_totalOf {legs : List BookedLeg} {totals : LedgerTotals}
    (hgroups : Groups true legs totals) (hadd : AccountTotals.Additive figure share)
    (key : Account) : figure (totals.totalOf key) = ((legsUnder key legs).map share).sum := by
  have htotal := (Calc.ends_true_iff _ _).1 (hgroups.total key)
  rw [Calc.measure_foldlM hadd.addLeg htotal, hadd.empty, zero_add]

/-- A weighted figure over all accounts is the weighted sum over the legs that were kept. -/
theorem weighed_ofEntries (weight : AccountType → Rat)
    (hadd : AccountTotals.Additive figure share) {entries : List Entry}
    {keep : BookedLeg → Bool} {totals : LedgerTotals}
    (h : (ofEntries entries keep).Exactly totals) :
    KeysFit totals ∧
      weighed weight figure totals =
        ((legsOf entries keep).map fun leg => weight leg.account.type * share leg).sum := by
  have hgroups := groups_ofEntries ((Calc.ends_true_iff _ _).2 h)
  have hfit : KeysFit totals := by
    intro p hp
    rw [← hgroups.withoutContra_account hp]
    rfl
  refine ⟨hfit, ?_⟩
  have hweighed : weighed weight figure totals =
      (totals.map fun p => weight p.1.type * figure p.2).sum := by
    rw [weighed]
    congr 1
    apply List.map_congr_left
    intro p hp
    rw [hfit p hp]
  rw [hweighed, hgroups.sum_eq (fun key => weight key.type) (hgroups.figure_totalOf hadd)]
  rfl

theorem keysFit_ofEntries {entries : List Entry} {keep : BookedLeg → Bool} {totals : LedgerTotals}
    (h : (ofEntries entries keep).Exactly totals) : KeysFit totals :=
  (weighed_ofEntries AccountType.weight (AccountTotals.additive_converted .usd) h).1

/-- A figure that legs add with their signs nets to its debit sides less its credit sides. -/
theorem net_of_signed (value : Leg → Rat)
    (hadd : AccountTotals.Additive figure fun leg => value leg.toLeg * leg.sign.value)
    {entries : List Entry} {totals : LedgerTotals}
    (h : (ofEntries entries fun _ => true).Exactly totals) :
    net figure totals =
      (entries.map fun e => e.figureOn .debit value - e.figureOn .credit value).sum := by
  rw [net_eq_weighed, (weighed_ofEntries AccountType.weight hadd h).2, ← sum_legsOf]
  congr 1
  apply List.map_congr_left
  intro leg _
  rw [← leg.weight_mul_sign]
  ring

/-- The net of the conversions is what the debit sides are worth more than the credit sides. -/
theorem net_converted {entries : List Entry} {totals : LedgerTotals}
    (h : (ofEntries entries fun _ => true).Exactly totals) (c : Currency) :
    net (fun t => (t.converted.get c).value) totals = (entries.map fun e => e.excess c).sum := by
  rw [net_of_signed (fun leg => (leg.conversion.amounts.get c).value)
    (AccountTotals.additive_converted c) h]
  simp only [Entry.figureOn_conversion, Entry.excess]

theorem net_eq_sumOfType (figure : AccountTotals → Rat) (totals : LedgerTotals) :
    net figure totals =
      sumOfType figure totals .asset - sumOfType figure totals .liability -
        sumOfType figure totals .equity - sumOfType figure totals .revenue +
        sumOfType figure totals .expense := by
  induction totals with
  | nil => simp [net, sumOfType, ofType]
  | cons p rest ih =>
      simp only [net, sumOfType, ofType, List.map_cons, List.sum_cons, List.filter_cons] at ih ⊢
      rw [ih]
      cases p.2.account.type <;>
        simp [AccountType.weight, AccountType.normalSide, Side.weight] <;> ring

end LedgerTotals

end DoubleEntry
