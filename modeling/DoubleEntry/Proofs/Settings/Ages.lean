import DoubleEntry.Proofs.Settings.Wiring

/-!
# Ages of the settings

An age is loaded as a number and becomes a span when it is asked for. Loading takes every
number of a 64-bit word, while a span holds the milliseconds of one, so settings may load
and still have an age that no span can hold. Which ones do is told here from the texts of
their variables.
-/

namespace DoubleEntry

/-! ## Spans of so many units -/

namespace Span

def mostUnits (unit : SpanUnit) : Nat :=
  mostMillis / unit.milliseconds

theorem mostUnits_seconds : mostUnits .seconds = 9223372036854775 := by
  decide +kernel

theorem mostUnits_days : mostUnits .days = 106751991167 := by
  decide +kernel

theorem fits_iff (unit : SpanUnit) (count : Int) :
    count.natAbs * unit.milliseconds ≤ mostMillis ↔ count.natAbs ≤ mostUnits unit := by
  have hpos : 0 < unit.milliseconds := by cases unit <;> decide
  exact (Nat.le_div_iff_mul_le hpos).symm

theorem ofUnits_of_le {unit : SpanUnit} {count : Int} (h : count.natAbs ≤ mostUnits unit) :
    ofUnits unit count = pure (ofMillis (count * unit.milliseconds)) := by
  rw [ofUnits, if_pos ((fits_iff unit count).2 h)]

theorem ofUnits_of_lt {unit : SpanUnit} {count : Int} (h : mostUnits unit < count.natAbs) :
    ofUnits unit count = .fault (.spanOverflow unit) := by
  rw [ofUnits, if_neg]
  intro hfits
  have := (fits_iff unit count).1 hfits
  omega

theorem zero_lt_ofMillis {unit : SpanUnit} {count : Int} (h : 0 < count) :
    Span.zero < ofMillis (count * unit.milliseconds) := by
  show 0 < count * unit.milliseconds * 1000000
  cases unit <;> simp only [SpanUnit.milliseconds] <;> omega

end Span

/-- The run ends with a good result just when the condition holds, and else with that fault. -/
def Calc.EndsJustWhen (condition : Prop) (reason : Fault) (good : α → Prop) (run : Calc α) :
    Prop :=
  (condition → ∃ x, run.Exactly x ∧ good x) ∧ (¬ condition → run = .fault reason)

/-! ## What is loaded -/

/-- If the variable is set to a number, then to one that satisfies `p`. -/
def Environment.SetsOnly (env : Environment) (key : String) (p : Int → Prop) : Prop :=
  ∀ raw, env.get? key = some raw → ∀ n, Text.whole64? (Text.trim raw) = some n → p n

namespace Environment

variable {env : Environment} {key : String}

theorem read_of_value {read : String → Option α} {default x : α}
    (h : env.value key read default = .ok x) :
    (env.get? key = none → x = default) ∧
      ∀ raw, env.get? key = some raw → read (Text.trim raw) = some x := by
  unfold value at h
  cases hset : env.get? key with
  | none =>
      rw [hset] at h
      exact ⟨fun _ => (Except.ok.inj h).symm, by simp⟩
  | some raw =>
      rw [hset] at h
      cases hread : read (Text.trim raw) with
      | none => simp [hread] at h
      | some y =>
          simp only [hread, Except.ok.injEq] at h
          simp [hread, h]

theorem setsOnly_iff_of_value {default n : Int} (h : env.value key Text.whole64? default = .ok n)
    {p : Int → Prop} (hdefault : p default) : env.SetsOnly key p ↔ p n := by
  obtain ⟨hunset, hset⟩ := read_of_value h
  unfold SetsOnly
  cases hget : env.get? key with
  | none => simp [hunset hget, hdefault]
  | some raw => simp [hset raw hget]

theorem setsOnly_iff_of_value? {found : Option Int}
    (h : env.value? key Text.whole64? = .ok found) (p : Int → Prop) :
    env.SetsOnly key p ↔ ∀ n, found = some n → p n := by
  obtain ⟨hunset, hset⟩ := read_of_value h
  unfold SetsOnly
  cases hget : env.get? key with
  | none => simp [hunset hget]
  | some raw =>
      obtain ⟨n, hn, rfl⟩ := Option.map_eq_some_iff.1 (hset raw hget)
      simp [hn]

end Environment

namespace Settings

variable {env : Environment} {s : Settings}

/-- Loaded ages are what their variables were read as. -/
theorem read_of_load (h : load env = .ok s) :
    env.value "QUOTE_MAX_AGE_SECS" Text.whole64? 600 = .ok s.quoteMaxAgeSecs ∧
      env.value? "REPORT_AGE_DAYS" Text.whole64? = .ok s.reportAgeDays := by
  have hload : Outcome (fun _ => True) (fun s : Settings =>
      env.value "QUOTE_MAX_AGE_SECS" Text.whole64? 600 = .ok s.quoteMaxAgeSecs ∧
        env.value? "REPORT_AGE_DAYS" Text.whole64? = .ok s.reportAgeDays) (load env) := by
    unfold load
    refine (Outcome.self _).bind fun serviceName _ => (Outcome.self _).bind fun logLevel _ =>
      (Outcome.self _).bind fun otlpEndpoint _ => (Outcome.self _).bind fun environment _ => ?_
    refine (Outcome.self _).bind fun databaseUri _ => (Outcome.self _).bind fun databaseName _ => ?_
    refine (Outcome.self _).bind fun tolerance _ => (Outcome.self _).bind fun _ _ => ?_
    refine (Outcome.self _).bind fun reportAgeDays hdays => ?_
    exact (Outcome.self _).bind fun quoteMaxAgeSecs hsecs => .pure ⟨hsecs, hdays⟩
  rw [h] at hload
  exact hload.good_of_ok

/-! ## Asking for the ages -/

theorem quoteMaxAge_endsJustWhen (s : Settings) :
    s.quoteMaxAge.EndsJustWhen (s.quoteMaxAgeSecs.natAbs ≤ Span.mostUnits .seconds)
      (.spanOverflow .seconds) fun span => span.nanos = s.quoteMaxAgeSecs * 1000000000 := by
  constructor
  · intro hfits
    refine ⟨_, Span.ofUnits_of_le hfits, ?_⟩
    show s.quoteMaxAgeSecs * 1000 * 1000000 = s.quoteMaxAgeSecs * 1000000000
    omega
  · intro hfar
    exact Span.ofUnits_of_lt (by omega)

/-- Days that are not positive are no limit, so only many days have no span. -/
theorem reportAge_endsJustWhen (s : Settings) :
    s.reportAge.EndsJustWhen
      (∀ n, s.reportAgeDays = some n → n ≤ Span.mostUnits .days) (.spanOverflow .days)
      fun age => ∀ span, age = some span → Span.zero < span := by
  unfold reportAge
  cases hdays : s.reportAgeDays with
  | none => exact ⟨fun _ => ⟨none, rfl, by simp⟩, fun hfar => absurd (by simp) hfar⟩
  | some days =>
      simp only [Option.some.injEq, forall_eq']
      by_cases hpos : 0 < days
      · rw [if_pos hpos]
        constructor
        · intro hfits
          rw [Span.ofUnits_of_le (by omega)]
          refine ⟨_, rfl, fun span hspan => ?_⟩
          rw [← Option.some.inj hspan]
          exact Span.zero_lt_ofMillis hpos
        · intro hfar
          rw [Span.ofUnits_of_lt (by omega)]
          rfl
      · rw [if_neg hpos]
        exact ⟨fun _ => ⟨none, rfl, by simp⟩, fun hfar => absurd (by omega) hfar⟩

/--
Of settings that load, the age of quotes has its span just when no number of seconds beyond
9223372036854775 either way is set, and the age of reports is none or positive just when no number
of days above 106751991167 is set. An age without a span is a fault.
-/
theorem ages_of_load (h : load env = .ok s) :
    s.quoteMaxAge.EndsJustWhen
        (env.SetsOnly "QUOTE_MAX_AGE_SECS" fun n => n.natAbs ≤ 9223372036854775)
        (.spanOverflow .seconds) (fun span => span.nanos = s.quoteMaxAgeSecs * 1000000000) ∧
      s.reportAge.EndsJustWhen (env.SetsOnly "REPORT_AGE_DAYS" fun n => n ≤ 106751991167)
        (.spanOverflow .days) fun age => ∀ span, age = some span → Span.zero < span := by
  obtain ⟨hsecs, hdays⟩ := read_of_load h
  rw [Environment.setsOnly_iff_of_value hsecs (by decide), Environment.setsOnly_iff_of_value? hdays]
  constructor
  · have hends := s.quoteMaxAge_endsJustWhen
    rwa [Span.mostUnits_seconds] at hends
  · have hends := s.reportAge_endsJustWhen
    rwa [Span.mostUnits_days, Nat.cast_ofNat] at hends

def farVariables : Environment :=
  [("QUOTE_MAX_AGE_SECS", "9223372036854776"), ("REPORT_AGE_DAYS", "106751991168")]

theorem ages_of_load_out_of_reach :
    ∃ s, load farVariables = .ok s ∧ s.quoteMaxAge = .fault (.spanOverflow .seconds) ∧
      s.reportAge = .fault (.spanOverflow .days) := by
  have hok : (load farVariables).isOk = true := by decide +kernel
  cases hload : load farVariables with
  | error error => simp [hload, Except.isOk, Except.toBool] at hok
  | ok s =>
      obtain ⟨hquote, hreport⟩ := ages_of_load hload
      refine ⟨s, rfl, hquote.2 fun hset => ?_, hreport.2 fun hset => ?_⟩
      · have hseconds := hset "9223372036854776" (by decide +kernel) 9223372036854776
          (by decide +kernel)
        omega
      · have hdays := hset "106751991168" (by decide +kernel) 106751991168 (by decide +kernel)
        omega

end Settings

end DoubleEntry
