/-!
# Runs

A system is what one move makes of a state, if the move is possible there. What one step keeps, a
whole run keeps; and what each counted move makes larger bounds how many of them a run has.
-/

namespace Switchboard

variable {σ μ : Type} {step : σ → μ → Option σ}

/-- The state after some moves, if each is possible in its turn. -/
def runFrom (step : σ → μ → Option σ) : σ → List μ → Option σ
  | s, [] => some s
  | s, m :: moves => (step s m).bind fun s' => runFrom step s' moves

theorem runFrom_cons {s s' : σ} {m : μ} {moves : List μ}
    (h : runFrom step s (m :: moves) = some s') :
    ∃ between, step s m = some between ∧ runFrom step between moves = some s' :=
  Option.bind_eq_some_iff.1 h

/-- What holds at the start and is kept by each step holds after a run. -/
theorem runFrom_keeps {P : σ → Prop} (hstep : ∀ s m s', P s → step s m = some s' → P s')
    {moves : List μ} {s s' : σ} (hs : P s) (h : runFrom step s moves = some s') : P s' := by
  induction moves generalizing s with
  | nil => cases h; exact hs
  | cons m moves ih =>
    obtain ⟨between, hm, hrest⟩ := runFrom_cons h
    exact ih (hstep s m between hs hm) hrest

/-- If each counted move makes a measure larger, and no move makes it smaller, there are no more of
them in a run than the measure has grown. -/
theorem runFrom_counts {P : σ → Prop} (hkeeps : ∀ s m s', P s → step s m = some s' → P s')
    (counted : μ → Bool) (measure : σ → Nat)
    (hstep : ∀ s m s', P s → step s m = some s' →
      measure s + (if counted m then 1 else 0) ≤ measure s')
    {moves : List μ} {s s' : σ} (hs : P s) (h : runFrom step s moves = some s') :
    measure s + moves.countP counted ≤ measure s' := by
  induction moves generalizing s with
  | nil => cases h; simp
  | cons m moves ih =>
    obtain ⟨between, hm, hrest⟩ := runFrom_cons h
    have h1 := hstep s m between hs hm
    have h2 := ih (hkeeps s m between hs hm) hrest
    rw [List.countP_cons]
    omega

end Switchboard
