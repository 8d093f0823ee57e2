/-! Loops that go on until their body stops them: the states they get to, the measures that
bound them, and the conditions on the first state that decide whether they make progress. -/

namespace Stakenet

/-- What an iteration leads to. -/
inductive Flow (σ : Type u) (ρ : Type v)
  | next (state : σ)
  | stop (result : ρ)

namespace Flow

variable {σ : Type u} {ρ : Type v} {body : Nat → σ → Flow σ ρ} {start : σ}

/-- The states at the start of the iterations. The body may depend on the number of the
iteration. -/
inductive Reaches (body : Nat → σ → Flow σ ρ) (start : σ) : Nat → σ → Prop
  | start : Reaches body start 0 start
  | next {iteration : Nat} {state following : σ} :
      Reaches body start iteration state → body iteration state = .next following →
      Reaches body start (iteration + 1) following

/-- The result of a loop that stops within some iterations, from a given one on. -/
def run (body : Nat → σ → Flow σ ρ) : (fuel iteration : Nat) → σ → Option ρ
  | 0, _, _ => none
  | fuel + 1, iteration, state =>
      match body iteration state with
      | .stop result => some result
      | .next following => run body fuel (iteration + 1) following

theorem Reaches.invariant (Invariant : σ → Prop) (holds : Invariant start)
    (kept : ∀ iteration state following, Invariant state →
      body iteration state = .next following → Invariant following)
    {iteration : Nat} {state : σ} (reaches : Reaches body start iteration state) :
    Invariant state := by
  induction reaches with
  | start => exact holds
  | next _ continued induction => exact kept _ _ _ induction continued

/-- A loop that is done after one iteration. -/
theorem Reaches.start_or {Done : σ → Prop}
    (finishes : ∀ iteration following, body iteration start = .next following → Done following)
    (stops : ∀ iteration state following, Done state → body iteration state ≠ .next following)
    {iteration : Nat} {state : σ} (reaches : Reaches body start iteration state) :
    state = start ∨ Done state := by
  apply reaches.invariant fun state => state = start ∨ Done state
  · exact .inl rfl
  · intro iteration state following origin continued
    rcases origin with rfl | done
    · exact .inr (finishes iteration following continued)
    · exact absurd continued (stops iteration state following done)

/-- The result of a loop is that of the iteration that stops it. -/
theorem run_eq_some {fuel : Nat} {result : ρ} (finished : run body fuel 0 start = some result) :
    ∃ iteration state, Reaches body start iteration state ∧
      body iteration state = .stop result := by
  have later : ∀ fuel iteration state, Reaches body start iteration state →
      run body fuel iteration state = some result →
      ∃ last final, Reaches body start last final ∧ body last final = .stop result := by
    intro fuel
    induction fuel with
    | zero =>
        intro _ _ _ finished
        cases finished
    | succ fuel induction =>
        intro iteration state reaches finished
        rw [run] at finished
        cases continued : body iteration state with
        | stop stopped =>
            rw [continued, Option.some.injEq] at finished
            exact ⟨iteration, state, reaches, continued.trans (congrArg Flow.stop finished)⟩
        | next following =>
            rw [continued] at finished
            exact induction (iteration + 1) following (reaches.next continued) finished
  exact later fuel 0 start .start finished

/-- A loop that always goes on has no result. -/
theorem run_eq_none
    (goesOn : ∀ iteration state, Reaches body start iteration state →
      ∃ following, body iteration state = .next following) (fuel : Nat) :
    run body fuel 0 start = none := by
  have later : ∀ fuel iteration state, Reaches body start iteration state →
      run body fuel iteration state = none := by
    intro fuel
    induction fuel with
    | zero =>
        intro _ _ _
        rfl
    | succ fuel induction =>
        intro iteration state reaches
        rcases goesOn iteration state reaches with ⟨following, continued⟩
        rw [run, continued]
        exact induction (iteration + 1) following (reaches.next continued)
  exact later fuel 0 start .start

/-- A loop that decreases a measure stops. -/
theorem run_of_decreases {measure : σ → Nat}
    (decreases : ∀ iteration state following, Reaches body start iteration state →
      body iteration state = .next following → measure following < measure state)
    {fuel : Nat} (enough : measure start < fuel) :
    ∃ result, run body fuel 0 start = some result := by
  have later : ∀ fuel iteration state, Reaches body start iteration state →
      measure state < fuel → ∃ result, run body fuel iteration state = some result := by
    intro fuel
    induction fuel with
    | zero =>
        intro iteration state _ bounded
        exact absurd bounded (Nat.not_lt_zero _)
    | succ fuel induction =>
        intro iteration state reaches bounded
        rw [run]
        cases continued : body iteration state with
        | stop result => exact ⟨result, rfl⟩
        | next following =>
            have smaller := decreases iteration state following reaches continued
            exact induction (iteration + 1) following (reaches.next continued) (by omega)
  exact later fuel 0 start .start enough

/-- A loop has something to do while its measure is not zero, and every iteration should find
it. It always does exactly if a condition that no iteration changes holds at the start. -/
theorem finds_iff (Good : σ → Prop) {Finds : σ → Prop} {measure : σ → Nat}
    (settled : ∀ state, measure state = 0 → Good state)
    (finds : ∀ state, Good state → measure state ≠ 0 → Finds state)
    (kept : ∀ iteration state following, body iteration state = .next following →
      (Good following ↔ Good state))
    (decreases : ∀ iteration state following, measure state ≠ 0 → Finds state →
      body iteration state = .next following → measure following < measure state)
    (passes : ∀ iteration state, Reaches body start iteration state → measure state ≠ 0 →
      Finds state → ∃ following, body iteration state = .next following) :
    (∀ iteration state, Reaches body start iteration state → measure state ≠ 0 → Finds state) ↔
      Good start := by
  constructor
  · intro always
    have early : ∀ bound iteration state, Reaches body start iteration state →
        measure state ≤ bound → Good state := by
      intro bound
      induction bound with
      | zero =>
          intro iteration state _ bounded
          exact settled state (Nat.le_zero.mp bounded)
      | succ bound induction =>
          intro iteration state reaches bounded
          by_cases done : measure state = 0
          · exact settled state done
          · have found := always iteration state reaches done
            rcases passes iteration state reaches done found with ⟨following, continued⟩
            have smaller := decreases iteration state following done found continued
            exact (kept iteration state following continued).mp
              (induction (iteration + 1) following (reaches.next continued) (by omega))
    exact early (measure start) 0 start .start (Nat.le_refl _)
  · intro good iteration state reaches remains
    have still : Good state := reaches.invariant Good good
      fun iteration state following holds continued =>
        (kept iteration state following continued).mpr holds
    exact finds state still remains

end Flow

end Stakenet
