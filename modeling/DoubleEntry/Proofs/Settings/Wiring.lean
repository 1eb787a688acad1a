import DoubleEntry.Proofs.ExactValues
import DoubleEntry.Proofs.Outcomes
import DoubleEntry.Settings

/-!
# Wiring of the settings

Every variable has a condition of its own: what is demanded of its text, or when it may
be missing. Reading a tolerance checks its text only and the signs are checked later, all
together, so a figure's condition is met in two stages; in between, what is known of a
figure is where it comes from. Each stage that fails blames a variable whose condition is
broken, and so does the whole.
-/

namespace DoubleEntry

/-! ## Variables and their conditions -/

inductive Figure where
  | relative
  | absolute (c : Currency)
  | msatsGap
  | sheetRelative

namespace Figure

def key : Figure → String
  | relative => "LEDGER_REL_TOL"
  | absolute .hive => "LEDGER_ABS_TOL_HIVE"
  | absolute .hbd => "LEDGER_ABS_TOL_HBD"
  | absolute .usd => "LEDGER_ABS_TOL_USD"
  | absolute .btc => "LEDGER_ABS_TOL_BTC"
  | absolute .sats => "LEDGER_ABS_TOL_SATS"
  | absolute .msats => "LEDGER_ABS_TOL_MSATS"
  | msatsGap => "LEDGER_MSATS_TOL"
  | sheetRelative => "LEDGER_BALANCE_SHEET_REL_TOL"

def of (t : Tolerance) : Figure → Decimal
  | relative => t.relative
  | absolute c => t.absolute.get c
  | msatsGap => t.msatsGap
  | sheetRelative => t.sheetRelative

theorem key_absolute (c : Currency) : (absolute c).key = Environment.absoluteKey c := by
  cases c <;> decide

/-- `x` is what the figure's own variable says, or the standard figure if that is not set. -/
structure IsWired (env : Environment) (f : Figure) (x : Decimal) : Prop where
  standard : env.get? f.key = none → x = f.of .standard
  parsed : ∀ raw, env.get? f.key = some raw → Decimal.ofText (Text.trim raw) = .ok x

end Figure

namespace Environment

def ServiceLoads (env : Environment) : Prop :=
  ∀ name ∈ ["service_name", "log_level", "otlp_endpoint", "environment"],
    ∃ text, env.serviceText? name = .ok text

def IsProduction (env : Environment) : Prop :=
  env.serviceText? "environment" = .ok (some "prod")

end Environment

/-- The complaint is about that variable, with whose name it starts. -/
def BadSetting.Names (cause : BadSetting) (key : String) : Prop :=
  ∃ rest, cause.message = key ++ " " ++ rest

theorem BadSetting.Names.missingInProduction (key : String) :
    (BadSetting.missingInProduction key).Names key := by
  refine ⟨"is required in production but not set", ?_⟩
  rw [String.append_assoc]
  rfl

theorem BadSetting.Names.of_message {cause : BadSetting} {key tail : String} (head : String)
    (h : cause.message = key ++ (" " ++ head) ++ tail) : cause.Names key :=
  ⟨head ++ tail, by rw [h]; simp only [String.append_assoc]⟩

theorem BadSetting.Names.unreadable (key raw : String) :
    (BadSetting.unreadable key raw).Names key :=
  of_message "has an invalid value: " rfl

theorem BadSetting.Names.negative (key : String) (x : Decimal) :
    (BadSetting.negative key x).Names key :=
  of_message "must not be negative: " rfl

inductive Variable where
  | databaseUri
  | databaseName
  | figure (f : Figure)
  | quoteMaxAge
  | reportAge

namespace Variable

def key : Variable → String
  | databaseUri => "MONGODB_URI"
  | databaseName => "MONGODB_DATABASE"
  | figure f => f.key
  | quoteMaxAge => "QUOTE_MAX_AGE_SECS"
  | reportAge => "REPORT_AGE_DAYS"

/-- The condition of a variable; blanks around its text do not count. -/
def Sound (env : Environment) (v : Variable) : Prop :=
  match v with
  | databaseUri | databaseName => env.get? v.key ≠ none ∨ ¬ env.IsProduction
  | figure f =>
    ∀ raw, env.get? f.key = some raw → ∃ x, Decimal.ofText (Text.trim raw) = .ok x ∧ 0 ≤ x.value
  | quoteMaxAge | reportAge =>
    ∀ raw, env.get? v.key = some raw → ∃ n, Text.whole64? (Text.trim raw) = some n

def IsBlamed (env : Environment) (error : ServiceError) (v : Variable) : Prop :=
  ¬ v.Sound env ∧ ∃ cause, error = .config cause ∧ cause.Names v.key

end Variable

/-- Good results, or an error that blames a variable. -/
abbrev Environment.Reads (env : Environment) (good : α → Prop) (run : Except ServiceError α) :
    Prop :=
  Outcome (fun error => ∃ v : Variable, v.IsBlamed env error) good run

/-! ## Reading one variable -/

section Reading

variable {env : Environment}

theorem isProduction_iff {environment : Option String}
    (h : env.serviceText? "environment" = .ok environment) :
    Settings.isProduction (environment.getD "dev") = true ↔ env.IsProduction := by
  rw [Environment.IsProduction, h, Settings.isProduction, beq_iff_eq]
  cases environment <;> simp

/-- A text with a default is missing in production only. -/
theorem reads_text {v : Variable} (hv : v = .databaseUri ∨ v = .databaseName) {default : String}
    {production : Bool} (hproduction : production = true ↔ env.IsProduction) :
    env.Reads (fun _ => v.Sound env) (env.text v.key (some default) production) := by
  have hsound : v.Sound env ↔ env.get? v.key ≠ none ∨ ¬ env.IsProduction := by
    rcases hv with rfl | rfl <;> rfl
  unfold Environment.text
  split
  · next raw hset => exact .ok (hsound.2 (.inl (by simp [hset])))
  · next hunset =>
    split
    · next hproduced =>
      refine .error ⟨v, fun h => ?_, _, rfl, .missingInProduction _⟩
      rcases hsound.1 h with hset | hother
      · exact hset hunset
      · exact hother (hproduction.1 hproduced)
    · next hother =>
      exact .ok (hsound.2 (.inr fun h => hother (hproduction.2 h)))

/-- What is read is the default or what the variable's text says; unreadable text is blamed. -/
theorem reads_value (v : Variable) (read : String → Option α) (default : α)
    (hneeds : v.Sound env →
      ∀ raw, env.get? v.key = some raw → ∃ x, read (Text.trim raw) = some x) :
    env.Reads
      (fun x => (env.get? v.key = none → x = default) ∧
        ∀ raw, env.get? v.key = some raw → read (Text.trim raw) = some x)
      (env.value v.key read default) := by
  unfold Environment.value
  split
  · next hunset => exact .ok (by simp [hunset])
  · next raw hset =>
    split
    · next x hread => exact .ok (by simp [hset, hread])
    · next hunread =>
      refine .error ⟨v, fun h => ?_, _, rfl, .unreadable _ _⟩
      obtain ⟨x, hx⟩ := hneeds h raw hset
      cases hunread.symm.trans hx

theorem readDecimal?_eq_some_iff (raw : String) (x : Decimal) :
    Environment.readDecimal? raw = some x ↔ Decimal.ofText raw = .ok x := by
  unfold Environment.readDecimal?
  cases Decimal.ofText raw <;> simp [Except.toOption]

theorem reads_figure (f : Figure) :
    env.Reads (f.IsWired env) (env.value f.key Environment.readDecimal? (f.of .standard)) := by
  have hneeds : (Variable.figure f).Sound env → ∀ raw, env.get? f.key = some raw →
      ∃ x, Environment.readDecimal? (Text.trim raw) = some x := by
    intro hsound raw hset
    obtain ⟨x, hx, -⟩ := hsound raw hset
    exact ⟨x, (readDecimal?_eq_some_iff _ _).2 hx⟩
  refine (reads_value (.figure f) _ _ hneeds).mono fun x hx => ⟨hx.1, fun raw hset => ?_⟩
  exact (readDecimal?_eq_some_iff _ _).1 (hx.2 raw hset)

theorem reads_quoteMaxAge :
    env.Reads (fun _ => Variable.quoteMaxAge.Sound env)
      (env.value "QUOTE_MAX_AGE_SECS" Text.whole64? 600) :=
  (reads_value .quoteMaxAge Text.whole64? 600 id).mono fun n hn raw hset => ⟨n, hn.2 raw hset⟩

theorem reads_reportAge :
    env.Reads
      (fun age => Variable.reportAge.Sound env ∧ ∀ n, age = some n →
        ∃ raw, env.get? "REPORT_AGE_DAYS" = some raw ∧ Text.whole64? (Text.trim raw) = some n)
      (env.value? "REPORT_AGE_DAYS" Text.whole64?) := by
  have hneeds : Variable.reportAge.Sound env → ∀ raw, env.get? "REPORT_AGE_DAYS" = some raw →
      ∃ age, (fun raw => (Text.whole64? raw).map some) (Text.trim raw) = some age := by
    intro hsound raw hset
    obtain ⟨n, hn⟩ := hsound raw hset
    exact ⟨some n, Option.map_eq_some_iff.2 ⟨n, hn, rfl⟩⟩
  refine (reads_value .reportAge (fun raw => (Text.whole64? raw).map some) none hneeds).mono ?_
  rintro age ⟨hunset, hset⟩
  refine ⟨fun raw hraw => ?_, ?_⟩
  · obtain ⟨n, hn, -⟩ := Option.map_eq_some_iff.1 (hset raw hraw)
    exact ⟨n, hn⟩
  · rintro n rfl
    cases hraw : env.get? "REPORT_AGE_DAYS" with
    | none => cases hunset hraw
    | some raw =>
        obtain ⟨m, hm, heq⟩ := Option.map_eq_some_iff.1 (hset raw hraw)
        exact ⟨raw, rfl, heq ▸ hm⟩

/-! ## Tolerances -/

theorem reads_tolerance :
    env.Reads (fun t => ∀ f : Figure, f.IsWired env (f.of t)) env.tolerance := by
  refine (reads_figure .relative).bind fun relative hrelative => ?_
  have habsolute : env.Reads (fun table => ∀ c, (Figure.absolute c).IsWired env (table.get c))
      (PerCurrency.build fun c => env.value (Environment.absoluteKey c)
        Environment.readDecimal? (Tolerance.standard.absolute.get c)) := by
    refine .build fun c => ?_
    rw [← Figure.key_absolute]
    exact reads_figure (.absolute c)
  refine habsolute.bind fun absolute habsolute => ?_
  refine (reads_figure .msatsGap).bind fun msatsGap hmsatsGap => ?_
  refine (reads_figure .sheetRelative).bind fun sheetRelative hsheetRelative => .pure fun f => ?_
  cases f with
  | relative => exact hrelative
  | absolute c => exact habsolute c
  | msatsGap => exact hmsatsGap
  | sheetRelative => exact hsheetRelative

theorem Figure.mem_figures (t : Tolerance) (f : Figure) : (f.key, f.of t) ∈ t.figures := by
  cases f with
  | absolute c =>
      rw [Figure.key_absolute]
      refine List.mem_append_right _ (List.mem_map.2 ⟨(c, t.absolute.get c), ?_, rfl⟩)
      exact List.mem_map.2 ⟨c, c.mem_all, rfl⟩
  | _ => simp [Tolerance.figures, Figure.key, Figure.of]

theorem Figure.exists_of_mem_figures {t : Tolerance} {key : String} {x : Decimal}
    (h : (key, x) ∈ t.figures) : ∃ f : Figure, f.key = key ∧ f.of t = x := by
  rcases List.mem_append.1 h with h | h
  · simp only [List.mem_cons, List.not_mem_nil, or_false, Prod.mk.injEq] at h
    rcases h with ⟨rfl, rfl⟩ | ⟨rfl, rfl⟩ | ⟨rfl, rfl⟩
    · exact ⟨.relative, rfl, rfl⟩
    · exact ⟨.msatsGap, rfl, rfl⟩
    · exact ⟨.sheetRelative, rfl, rfl⟩
  · obtain ⟨⟨c, y⟩, hplace, hsame⟩ := List.mem_map.1 h
    obtain ⟨c, -, hpair⟩ := List.mem_map.1 hplace
    cases hpair
    cases hsame
    exact ⟨.absolute c, Figure.key_absolute c, rfl⟩

theorem Figure.standard_nonneg (f : Figure) : 0 ≤ (f.of .standard).value := by
  cases f with
  | absolute c => cases c <;> decide
  | _ => decide

/-- A figure below zero breaks its own variable's condition, since it is not a standard one. -/
theorem Figure.IsWired.not_sound {f : Figure} {x : Decimal} (h : f.IsWired env x)
    (hx : x.value < 0) : ¬ (Variable.figure f).Sound env := by
  intro hsound
  cases hget : env.get? f.key with
  | none =>
      rw [h.standard hget] at hx
      exact absurd f.standard_nonneg (not_le.2 hx)
  | some raw =>
      obtain ⟨y, hy, hnonneg⟩ := hsound raw hget
      obtain rfl : y = x := Except.ok.inj (hy.symm.trans (h.parsed raw hget))
      exact absurd hnonneg (not_le.2 hx)

theorem Figure.IsWired.sound {f : Figure} {x : Decimal} (h : f.IsWired env x)
    (hx : 0 ≤ x.value) : (Variable.figure f).Sound env :=
  fun raw hset => ⟨x, h.parsed raw hset, hx⟩

theorem reads_validate {t : Tolerance} (ht : ∀ f : Figure, f.IsWired env (f.of t)) :
    env.Reads (fun _ => ∀ f : Figure, 0 ≤ (f.of t).value) t.validate := by
  unfold Tolerance.validate
  split
  · next key x hfound =>
    have hnegative : x < Decimal.zero := by simpa using List.find?_some hfound
    obtain ⟨f, rfl, rfl⟩ := Figure.exists_of_mem_figures (List.mem_of_find?_eq_some hfound)
    rw [Decimal.lt_iff, Decimal.value_zero] at hnegative
    exact .error ⟨.figure f, (ht f).not_sound hnegative, _, rfl, .negative _ _⟩
  · next hnone =>
    refine .ok fun f => ?_
    have hnonneg := List.find?_eq_none.1 hnone _ (f.mem_figures t)
    simpa [Decimal.lt_iff] using hnonneg

/-! ## Loading -/

/-- Nothing that loading reads is unsound, and the figures are their own variables'. -/
theorem reads_load (hservice : env.ServiceLoads) :
    env.Reads
      (fun s => (∀ v : Variable, v.Sound env) ∧
        (∀ f : Figure, f.IsWired env (f.of s.tolerance) ∧ 0 ≤ (f.of s.tolerance).value) ∧
        ∀ n, s.reportAgeDays = some n → ∃ raw, env.get? "REPORT_AGE_DAYS" = some raw ∧
          Text.whole64? (Text.trim raw) = some n)
      (Settings.load env) := by
  obtain ⟨serviceName, hserviceName⟩ := hservice "service_name" (by simp)
  obtain ⟨logLevel, hlogLevel⟩ := hservice "log_level" (by simp)
  obtain ⟨otlpEndpoint, hotlpEndpoint⟩ := hservice "otlp_endpoint" (by simp)
  obtain ⟨environment, henvironment⟩ := hservice "environment" (by simp)
  have hproduction := isProduction_iff henvironment
  unfold Settings.load
  rw [hserviceName, hlogLevel, hotlpEndpoint, henvironment]
  -- The steps in their order; the signs are known only after the whole tolerance is.
  refine (reads_text (.inl rfl) hproduction).bind fun databaseUri hdatabaseUri => ?_
  refine (reads_text (.inr rfl) hproduction).bind fun databaseName hdatabaseName => ?_
  refine reads_tolerance.bind fun tolerance htolerance => ?_
  refine (reads_validate htolerance).bind fun _ hnonneg => ?_
  refine reads_reportAge.bind fun reportAgeDays hreportAge => ?_
  refine reads_quoteMaxAge.bind fun quoteMaxAgeSecs hquoteMaxAge => ?_
  refine .pure ⟨fun v => ?_, fun f => ⟨htolerance f, hnonneg f⟩, hreportAge.2⟩
  cases v with
  | databaseUri => exact hdatabaseUri
  | databaseName => exact hdatabaseName
  | figure f => exact (htolerance f).sound (hnonneg f)
  | quoteMaxAge => exact hquoteMaxAge
  | reportAge => exact hreportAge.1

end Reading

namespace Settings

theorem reportAge_eq_none {s : Settings} (h : ∀ n, s.reportAgeDays = some n → ¬ 0 < n) :
    s.reportAge = pure none := by
  unfold reportAge
  split
  · next n hn => rw [if_neg (h n hn)]
  · rfl

/--
Provided that the service's own settings load, the settings load just when every variable is
sound. Then each figure of the tolerance is what its own variable says, or the standard figure,
and is not negative, and reports reach back without limit unless a positive number of days is
set; and if they do not load, the error names a variable that is not sound.
-/
theorem load_wired {env : Environment} (hservice : env.ServiceLoads) :
    ((∃ s, load env = .ok s) ↔ ∀ v : Variable, v.Sound env) ∧
      (∀ s, load env = .ok s →
        (∀ f : Figure, f.IsWired env (f.of s.tolerance) ∧ 0 ≤ (f.of s.tolerance).value) ∧
          ((¬ ∃ raw n, env.get? "REPORT_AGE_DAYS" = some raw ∧
              Text.whole64? (Text.trim raw) = some n ∧ 0 < n) →
            s.reportAge = pure none)) ∧
      ∀ error, load env = .error error → ∃ v : Variable, v.IsBlamed env error := by
  have hreads := reads_load hservice
  refine ⟨⟨?_, fun hsound => ?_⟩, fun s hs => ?_, fun error herror => ?_⟩
  · rintro ⟨s, hs⟩
    rw [hs] at hreads
    exact hreads.good_of_ok.1
  · obtain ⟨s, hs, -⟩ | ⟨error, -, v, hv⟩ := hreads.eq_ok_or_eq_error
    · exact ⟨s, hs⟩
    · exact absurd (hsound v) hv.1
  · rw [hs] at hreads
    obtain ⟨-, hfigures, hdays⟩ := hreads.good_of_ok
    refine ⟨hfigures, fun hnone => reportAge_eq_none fun n hn hpositive => hnone ?_⟩
    obtain ⟨raw, hset, hraw⟩ := hdays n hn
    exact ⟨raw, n, hset, hraw, hpositive⟩
  · rw [herror] at hreads
    exact hreads.bad_of_error

def productionVariables : Environment :=
  [("APP__ENVIRONMENT", "prod"), ("MONGODB_URI", "mongodb://db"), ("MONGODB_DATABASE", "books"),
    ("LEDGER_ABS_TOL_SATS", " 3 "), ("REPORT_AGE_DAYS", "-7")]

theorem load_wired_in_production :
    productionVariables.ServiceLoads ∧ (∀ v : Variable, v.Sound productionVariables) ∧
      ∃ s, load productionVariables = .ok s ∧
        ((Figure.absolute .sats).of s.tolerance).value = 3 ∧
        (Figure.absolute .msats).of s.tolerance = .ten ∧ s.reportAge = pure none := by
  have hservice : productionVariables.ServiceLoads := by
    intro name hname
    simp only [List.mem_cons, List.not_mem_nil, or_false] at hname
    rcases hname with rfl | rfl | rfl | rfl
    · exact ⟨none, by decide +kernel⟩
    · exact ⟨none, by decide +kernel⟩
    · exact ⟨none, by decide +kernel⟩
    · exact ⟨some "prod", by decide +kernel⟩
  obtain ⟨hiff, hloaded, -⟩ := load_wired hservice
  have hok : (load productionVariables).isOk = true := by decide +kernel
  cases hload : load productionVariables with
  | error error => simp [hload, Except.isOk, Except.toBool] at hok
  | ok s =>
      obtain ⟨hfigures, hdays⟩ := hloaded s hload
      have hsats := (hfigures (.absolute .sats)).1.parsed " 3 " (by decide +kernel)
      have hthree : Decimal.ofText (Text.trim " 3 ") = .ok (.ofNat 3) := by decide +kernel
      refine ⟨hservice, hiff.1 ⟨s, hload⟩, s, rfl, ?_, ?_, hdays ?_⟩
      · rw [← Except.ok.inj (hthree.symm.trans hsats)]
        norm_num [Decimal.value, Decimal.signed, Decimal.ofNat]
      · exact (hfigures (.absolute .msats)).1.standard (by decide +kernel)
      · rintro ⟨raw, n, hset, hraw, hpositive⟩
        obtain rfl : "-7" = raw := Option.some.inj hset
        obtain rfl : -7 = n := Option.some.inj hraw
        omega

end Settings

end DoubleEntry
