import DoubleEntry.Calc

/-!
# Runs of calculations

What is said of a whole calculation is read off its steps. `Ends` covers runs that
may round and runs that may not, so a fact about what a fold builds is shown once
for both. The second half is about a calculation and another that sees a view of
the same things: step by step the other faults and rounds alike and ends with the
view of the result, so the two are equal as calculations. Where no view makes one
result of the other, the runs are `Alike` up to a relation between their results.
-/

namespace DoubleEntry

namespace Calc

/-! ## Runs that end -/

/-- `run` ends with `result`, and takes no rounded step when that is demanded. -/
def Ends (exactly : Bool) (run : Calc α) (result : α) : Prop :=
  ∃ rounded, run = .done result rounded ∧ (exactly = true → rounded = false)

variable {exactly : Bool}

theorem ends_false_iff (run : Calc α) (x : α) : run.Ends false x ↔ run.Yields x := by
  cases run <;> simp [Ends, Yields, outcome]

theorem ends_true_iff (run : Calc α) (x : α) : run.Ends true x ↔ run.Exactly x := by
  simp [Ends, Exactly]

theorem Ends.yields {run : Calc α} {x : α} (h : run.Ends exactly x) : run.Yields x := by
  obtain ⟨rounded, rfl, -⟩ := h
  rfl

theorem Yields.unique {run : Calc α} {x y : α} (hx : run.Yields x) (hy : run.Yields y) : x = y :=
  Except.ok.inj (hx.symm.trans hy)

theorem ends_pure_iff (x y : α) : (pure x : Calc α).Ends exactly y ↔ x = y := by
  cases exactly
  · rw [ends_false_iff, yields_pure_iff]
  · rw [ends_true_iff, exactly_pure_iff]

theorem ends_bind_iff (first : Calc α) (next : α → Calc β) (y : β) :
    (first >>= next).Ends exactly y ↔ ∃ x, first.Ends exactly x ∧ (next x).Ends exactly y := by
  cases exactly
  · simp only [ends_false_iff, yields_bind_iff]
  · simp only [ends_true_iff, exactly_bind_iff]

/-- What is only rewritten after a run ends when the run does. -/
theorem exists_ends_bind_pure {run : Calc α} (f : α → β) (h : ∃ x, run.Ends exactly x) :
    ∃ y, (run >>= fun x => pure (f x)).Ends exactly y := by
  obtain ⟨x, hx⟩ := h
  exact ⟨f x, (ends_bind_iff _ _ _).2 ⟨x, hx, (ends_pure_iff _ _).2 rfl⟩⟩

/-- A fold ends with what its last step makes of the fold before. -/
theorem ends_foldlM_concat_iff (step : β → α → Calc β) (b : β) (xs : List α) (x : α) (out : β) :
    ((xs ++ [x]).foldlM step b).Ends exactly out ↔
      ∃ mid, (xs.foldlM step b).Ends exactly mid ∧ (step mid x).Ends exactly out := by
  simp only [List.foldlM_append, List.foldlM_cons, List.foldlM_nil, bind_pure, ends_bind_iff]

theorem bind_ne_fault {first : Calc α} {next : α → Calc β} {reason : Fault}
    (hfirst : first ≠ .fault reason) (hnext : ∀ x, next x ≠ .fault reason) :
    (first >>= next) ≠ .fault reason := by
  cases first with
  | fault other => simpa using hfirst
  | done x rounded =>
      have hx := hnext x
      rw [done_bind]
      cases hrun : next x with
      | fault other => simpa [hrun] using hx
      | done y rounded' => simp

/-- What every step keeps of the part that is done holds of the whole fold. -/
theorem Ends.foldlM_inv {step : β → α → Calc β} {inv : List α → β → Prop}
    (hstep : ∀ done b x b', inv done b → (step b x).Ends exactly b' → inv (done ++ [x]) b')
    {done xs : List α} {b out : β} (hb : inv done b) (h : (xs.foldlM step b).Ends exactly out) :
    inv (done ++ xs) out := by
  induction xs generalizing done b with
  | nil =>
      rw [List.foldlM_nil, ends_pure_iff] at h
      rwa [List.append_nil, ← h]
  | cons x rest ih =>
      rw [List.foldlM_cons, ends_bind_iff] at h
      obtain ⟨next, hfirst, hrest⟩ := h
      have hall := ih (hstep done b x next hb hfirst) hrest
      rwa [List.append_assoc] at hall

/-- What a fold does to a view of its state, when each step does it to the view. -/
theorem Ends.foldlM_view (view : β → γ) {step : β → α → Calc β} {step' : γ → α → Calc γ}
    (hstep : ∀ b x b', (step b x).Ends exactly b' → (step' (view b) x).Ends exactly (view b'))
    {xs : List α} {b out : β} (h : (xs.foldlM step b).Ends exactly out) :
    (xs.foldlM step' (view b)).Ends exactly (view out) := by
  induction xs generalizing b with
  | nil =>
      rw [List.foldlM_nil, ends_pure_iff] at h ⊢
      rw [h]
  | cons x rest ih =>
      rw [List.foldlM_cons, ends_bind_iff] at h ⊢
      obtain ⟨next, hfirst, hrest⟩ := h
      exact ⟨view next, hstep b x next hfirst, ih hrest⟩

/-! ## Runs seen through a view -/

theorem map_congr_of_yields {run : Calc α} {view view' : α → β}
    (h : ∀ x, run.Yields x → view x = view' x) : view <$> run = view' <$> run := by
  cases run with
  | fault reason => rfl
  | done x rounded =>
      have hx : view x = view' x := h x rfl
      change (Calc.done x rounded >>= fun a => pure (view a)) =
        Calc.done x rounded >>= fun a => pure (view' a)
      simp only [done_bind, hx]

/-- What reads no more of a result than a view of it goes on alike from results of one view. -/
theorem bind_congr_of_view {view : α → α} {run run' : Calc α} {next : α → Calc β}
    (hview : view <$> run = view <$> run') (hnext : ∀ x, next (view x) = next x) :
    (run >>= next) = (run' >>= next) := by
  have hthrough : ∀ run : Calc α, (view <$> run) >>= next = run >>= next := by
    intro run
    rw [bind_map_left]
    exact bind_congr hnext
  rw [← hthrough run, hview, hthrough]

theorem foldlM_map_view (view : β → γ) (viewed : α → δ) {step : β → α → Calc β}
    {step' : γ → δ → Calc γ} (hstep : ∀ b x, step' (view b) (viewed x) = view <$> step b x)
    (xs : List α) (b : β) :
    (xs.map viewed).foldlM step' (view b) = view <$> xs.foldlM step b := by
  induction xs generalizing b with
  | nil => rw [List.map_nil, List.foldlM_nil, List.foldlM_nil, map_pure]
  | cons x rest ih =>
      rw [List.map_cons, List.foldlM_cons, List.foldlM_cons, hstep, bind_map_left, map_bind]
      exact bind_congr ih

/-! ## Runs side by side -/

/-- Both runs fault for one reason, or they end with related results and are rounded alike. -/
inductive Alike (r : α → β → Prop) : Calc α → Calc β → Prop where
  | fault (reason : Fault) : Alike r (.fault reason) (.fault reason)
  | done {x : α} {y : β} (rounded : Bool) (related : r x y) :
    Alike r (.done x rounded) (.done y rounded)

theorem alike_refl (run : Calc α) : Alike Eq run run := by
  cases run with
  | fault reason => exact .fault reason
  | done x rounded => exact .done rounded rfl

theorem Alike.eq {run run' : Calc α} (h : Alike Eq run run') : run = run' := by
  cases h with
  | fault reason => rfl
  | done rounded related => rw [related]

theorem alike_pure {r : α → β → Prop} {x : α} {y : β} (h : r x y) : Alike r (pure x) (pure y) :=
  .done false h

theorem Alike.bind {r : α → β → Prop} {r' : γ → δ → Prop} {run : Calc α} {run' : Calc β}
    {next : α → Calc γ} {next' : β → Calc δ} (h : Alike r run run')
    (hnext : ∀ x y, r x y → Alike r' (next x) (next' y)) :
    Alike r' (run >>= next) (run' >>= next') := by
  cases h with
  | fault reason => exact .fault reason
  | @done x y rounded related =>
      have hlater := hnext x y related
      rw [done_bind, done_bind]
      generalize next x = later at hlater ⊢
      generalize next' y = later' at hlater ⊢
      cases hlater with
      | fault reason => exact .fault reason
      | done rounded' related' => exact .done (rounded || rounded') related'

theorem Alike.eq_fault_iff {r : α → β → Prop} {run : Calc α} {run' : Calc β}
    (h : Alike r run run') (reason : Fault) : run' = .fault reason ↔ run = .fault reason := by
  cases h <;> simp

theorem Alike.exists_yields {r : α → β → Prop} {run : Calc α} {run' : Calc β}
    (h : Alike r run run') {x : α} (hx : run.Yields x) : ∃ y, run'.Yields y ∧ r x y := by
  cases h with
  | fault reason => cases hx
  | done rounded related =>
      cases hx
      exact ⟨_, rfl, related⟩

end Calc

end DoubleEntry
