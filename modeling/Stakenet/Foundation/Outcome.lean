import Mathlib.Data.List.Basic

/-! Fallible computations in `Except`: what a successful step sequence says
about its parts, and bounded loops whose body may fail. Nothing here depends on
a particular error type or state. -/

namespace Stakenet

/-! ## Success of a sequence -/

namespace Outcome

/-- A sequence succeeds exactly when its first part does and the rest succeeds
on the value it returned. -/
@[simp] theorem bind_eq_ok {first : Except ε α} {rest : α → Except ε β} {result : β} :
    (first >>= rest) = .ok result ↔
      ∃ value, first = .ok value ∧ rest value = .ok result := by
  cases first <;> simp [bind, Except.bind]

@[simp] theorem pure_eq_ok {value result : α} :
    (pure value : Except ε α) = .ok result ↔ value = result := by
  simp [pure, Except.pure]

@[simp] theorem map_eq_ok {transform : α → β} {outcome : Except ε α} {result : β} :
    (transform <$> outcome) = .ok result ↔
      ∃ value, outcome = .ok value ∧ transform value = result := by
  cases outcome <;> simp [Functor.map, Except.map]

@[simp] theorem mapError_eq_ok {describe : ε → ε'} {outcome : Except ε α} {result : α} :
    outcome.mapError describe = .ok result ↔ outcome = .ok result := by
  cases outcome <;> simp [Except.mapError]

@[simp] theorem ok_bind (value : α) (rest : α → Except ε β) :
    (Except.ok value >>= rest) = rest value := rfl

@[simp] theorem error_bind (failure : ε) (rest : α → Except ε β) :
    ((Except.error failure : Except ε α) >>= rest) = Except.error failure := rfl

/-- The results of a successful pass over a list are those of its items. -/
theorem exists_of_mem_mapM {transform : α → Except ε β} {items : List α} {results : List β}
    (succeeded : items.mapM transform = .ok results) {result : β} (member : result ∈ results) :
    ∃ item ∈ items, transform item = .ok result := by
  induction items generalizing results with
  | nil =>
      rw [List.mapM_nil, pure_eq_ok] at succeeded
      subst results
      cases member
  | cons item items induction =>
      rw [List.mapM_cons, bind_eq_ok] at succeeded
      rcases succeeded with ⟨first, transformed, succeeded⟩
      rw [bind_eq_ok] at succeeded
      rcases succeeded with ⟨others, rest, collected⟩
      cases collected
      rcases List.mem_cons.mp member with rfl | later
      · exact ⟨item, List.mem_cons_self, transformed⟩
      · rcases induction rest later with ⟨source, inItems, transformed⟩
        exact ⟨source, List.mem_cons_of_mem _ inItems, transformed⟩

theorem exists_eq_ok {outcome : Except ε α} (succeeded : outcome.isOk = true) :
    ∃ value, outcome = .ok value := by
  cases outcome with
  | error _ => cases succeeded
  | ok value => exact ⟨value, rfl⟩

/-- The state a transaction leaves behind: the new one on success, and the old
one when the transaction fails. -/
def commit (previous : σ) : Except ε σ → σ
  | .ok next => next
  | .error _ => previous

@[simp] theorem commit_ok (previous next : σ) :
    commit previous (.ok next : Except ε σ) = next := rfl

@[simp] theorem commit_error (previous : σ) (failure : ε) :
    commit previous (.error failure) = previous := rfl

/-- A transaction leaves the old state or the state of its success. -/
theorem commit_cases (previous : σ) (outcome : Except ε σ) :
    commit previous outcome = previous ∨ outcome = .ok (commit previous outcome) := by
  cases outcome with
  | error _ => exact .inl rfl
  | ok next => exact .inr rfl

end Outcome

/-! ## Bounded loops -/

/-- The loop `for index in start..stop`, stopping at the first failure of its
body. An upper bound below the lower one gives an empty loop. -/
def forRange (start stop : Nat) (body : Nat → σ → Except ε σ) (initial : σ) :
    Except ε σ :=
  (List.range' start (stop - start)).foldlM (fun state index => body index state) initial

namespace forRange

variable {body : Nat → σ → Except ε σ}

theorem of_le {start stop : Nat} (empty : stop ≤ start) (initial : σ) :
    forRange start stop body initial = .ok initial := by
  simp [forRange, Nat.sub_eq_zero_of_le empty, pure, Except.pure]

theorem succ {start stop : Nat} (nonempty : start < stop) (initial : σ) :
    forRange start stop body initial =
      body start initial >>= forRange (start + 1) stop body := by
  have length : stop - start = (stop - (start + 1)) + 1 := by omega
  simp only [forRange]
  rw [length, List.range'_succ, List.foldlM_cons]
  rfl

/-- An invariant indexed by the loop counter that every successful iteration
carries one step further holds, at the upper bound, of the final state. -/
theorem invariant (Invariant : Nat → σ → Prop) {stop : Nat} :
    ∀ {start : Nat} {initial final : σ}, start ≤ stop →
      Invariant start initial →
      (∀ index current next, start ≤ index → index < stop →
        Invariant index current → body index current = .ok next →
        Invariant (index + 1) next) →
      forRange start stop body initial = .ok final →
      Invariant stop final := by
  intro start initial final bounded holds step finished
  -- The induction is on the number of iterations left.
  induction remaining : stop - start generalizing start initial with
  | zero =>
      have reached : start = stop := by omega
      rw [of_le (by omega)] at finished
      cases finished
      exact reached ▸ holds
  | succ left induction =>
      rw [succ (by omega), Outcome.bind_eq_ok] at finished
      rcases finished with ⟨next, first, rest⟩
      apply induction (by omega)
        (step start initial next (Nat.le_refl _) (by omega) holds first) _ rest (by omega)
      intro index current following lower upper
      exact step index current following (by omega) upper

/-- A loop whose body always succeeds on invariant states succeeds. -/
theorem succeeds (Invariant : Nat → σ → Prop) {stop : Nat} :
    ∀ {start : Nat} {initial : σ}, start ≤ stop →
      Invariant start initial →
      (∀ index current, start ≤ index → index < stop → Invariant index current →
        ∃ next, body index current = .ok next ∧ Invariant (index + 1) next) →
      ∃ final, forRange start stop body initial = .ok final ∧ Invariant stop final := by
  intro start initial bounded holds step
  induction remaining : stop - start generalizing start initial with
  | zero =>
      have reached : start = stop := by omega
      exact ⟨initial, of_le (by omega) initial, reached ▸ holds⟩
  | succ left induction =>
      rcases step start initial (Nat.le_refl _) (by omega) holds with ⟨next, first, carried⟩
      rcases induction (by omega) carried (fun index current lower upper =>
        step index current (by omega) upper) (by omega) with ⟨final, rest, finished⟩
      exact ⟨final, by rw [succ (by omega), first]; exact rest, finished⟩

end forRange

/-- The loop `for index in (start..stop).rev()`. -/
def forRangeRev (start stop : Nat) (body : Nat → σ → Except ε σ) (initial : σ) :
    Except ε σ :=
  (List.range' start (stop - start)).reverse.foldlM
    (fun state index => body index state) initial

namespace forRangeRev

variable {body : Nat → σ → Except ε σ}

theorem of_le {start stop : Nat} (empty : stop ≤ start) (initial : σ) :
    forRangeRev start stop body initial = .ok initial := by
  simp [forRangeRev, Nat.sub_eq_zero_of_le empty, pure, Except.pure]

theorem succ {start stop : Nat} (nonempty : start ≤ stop) (initial : σ) :
    forRangeRev start (stop + 1) body initial =
      body stop initial >>= forRangeRev start stop body := by
  have length : stop + 1 - start = (stop - start) + 1 := by omega
  have last : start + 1 * (stop - start) = stop := by omega
  simp only [forRangeRev]
  rw [length, List.range'_concat, last, List.reverse_append, List.reverse_singleton,
    List.singleton_append, List.foldlM_cons]
  rfl

/-- An invariant that every successful iteration carries one step down holds, at
the lower bound, of the final state. -/
theorem invariant (Invariant : Nat → σ → Prop) {start stop : Nat} {initial final : σ}
    (bounded : start ≤ stop) (holds : Invariant stop initial)
    (step : ∀ index current next, start ≤ index → index < stop →
      Invariant (index + 1) current → body index current = .ok next →
      Invariant index next)
    (finished : forRangeRev start stop body initial = .ok final) :
    Invariant start final := by
  induction stop generalizing initial with
  | zero =>
      rw [of_le (by omega)] at finished
      cases finished
      exact (show start = 0 by omega) ▸ holds
  | succ stop induction =>
      by_cases reached : start = stop + 1
      · rw [of_le (by omega)] at finished
        cases finished
        exact reached ▸ holds
      · rw [succ (by omega), Outcome.bind_eq_ok] at finished
        rcases finished with ⟨next, first, rest⟩
        apply induction (by omega)
          (step stop initial next (by omega) (by omega) holds first) _ rest
        intro index current following lower upper
        exact step index current following lower (by omega)

/-- A loop whose body always succeeds on invariant states succeeds. -/
theorem succeeds (Invariant : Nat → σ → Prop) {start stop : Nat} {initial : σ}
    (bounded : start ≤ stop) (holds : Invariant stop initial)
    (step : ∀ index current, start ≤ index → index < stop → Invariant (index + 1) current →
      ∃ next, body index current = .ok next ∧ Invariant index next) :
    ∃ final, forRangeRev start stop body initial = .ok final ∧ Invariant start final := by
  induction stop generalizing initial with
  | zero =>
      have reached : start = 0 := by omega
      exact ⟨initial, of_le (by omega) initial, reached ▸ holds⟩
  | succ stop induction =>
      by_cases reached : start = stop + 1
      · exact ⟨initial, of_le (by omega) initial, reached ▸ holds⟩
      · rcases step stop initial (by omega) (by omega) holds with ⟨next, first, carried⟩
        rcases induction (by omega) carried (fun index current lower upper =>
          step index current lower (by omega)) with ⟨final, rest, finished⟩
        exact ⟨final, by rw [succ (by omega), first]; exact rest, finished⟩

/-- A loop on the images of the states runs as the one on the states does. -/
theorem map_eq {image : Nat → τ → Except ε τ} (transform : σ → τ) {start stop : Nat}
    (follows : ∀ index state, start ≤ index → index < stop →
      image index (transform state) = (body index state).map transform) (initial : σ) :
    forRangeRev start stop image (transform initial) =
      (forRangeRev start stop body initial).map transform := by
  induction stop generalizing initial with
  | zero =>
      rw [of_le (Nat.zero_le start), of_le (Nat.zero_le start)]
      rfl
  | succ stop induction =>
      by_cases nonempty : start ≤ stop
      · rw [succ nonempty, succ nonempty, follows stop initial nonempty (Nat.lt_succ_self stop)]
        cases body stop initial with
        | error failure => rfl
        | ok next =>
            exact induction (fun index state lower upper =>
              follows index state lower (by omega)) next
      · rw [of_le (by omega), of_le (by omega)]
        rfl

end forRangeRev

/-! ## Bounded search -/

/-- `iter().position(test)` over the positions `start .. start + length`, where
the test may fail. -/
def findPosition (test : Nat → Except ε Bool) (start : Nat) :
    Nat → Except ε (Option Nat)
  | 0 => .ok none
  | length + 1 => do
      if ← test start then
        return some start
      else
        findPosition test (start + 1) length

namespace findPosition

variable {test : Nat → Except ε Bool}

/-- A found position passes the test, and every position before it fails it. -/
theorem eq_some {start length position : Nat}
    (found : findPosition test start length = .ok (some position)) :
    start ≤ position ∧ position < start + length ∧ test position = .ok true ∧
      ∀ earlier, start ≤ earlier → earlier < position → test earlier = .ok false := by
  induction length generalizing start with
  | zero => simp [findPosition] at found
  | succ length induction =>
      simp only [findPosition, Outcome.bind_eq_ok] at found
      rcases found with ⟨outcome, tested, found⟩
      cases outcome with
      | true =>
          simp only [if_true, Outcome.pure_eq_ok, Option.some.injEq] at found
          subst position
          exact ⟨Nat.le_refl _, by omega, tested, fun earlier _ _ => by omega⟩
      | false =>
          simp only [Bool.false_eq_true, if_false] at found
          rcases induction found with ⟨lower, upper, passes, before⟩
          refine ⟨by omega, by omega, passes, fun earlier atLeast below => ?_⟩
          by_cases first : earlier = start
          · exact first ▸ tested
          · exact before earlier (by omega) below

/-- When nothing is found every position fails the test. -/
theorem eq_none {start length : Nat}
    (missing : findPosition test start length = .ok none) :
    ∀ position, start ≤ position → position < start + length →
      test position = .ok false := by
  induction length generalizing start with
  | zero => intro position lower upper; omega
  | succ length induction =>
      simp only [findPosition, Outcome.bind_eq_ok] at missing
      rcases missing with ⟨outcome, tested, missing⟩
      cases outcome with
      | true => simp at missing
      | false =>
          simp only [Bool.false_eq_true, if_false] at missing
          intro position lower upper
          by_cases first : position = start
          · exact first ▸ tested
          · exact induction missing position (by omega) (by omega)

/-- The first position that passes the test is found. -/
theorem eq_some_of_first {start length position : Nat} (lower : start ≤ position)
    (upper : position < start + length) (passes : test position = .ok true)
    (before : ∀ earlier, start ≤ earlier → earlier < position → test earlier = .ok false) :
    findPosition test start length = .ok (some position) := by
  induction length generalizing start with
  | zero => omega
  | succ length induction =>
      rw [findPosition]
      by_cases first : position = start
      · subst position
        rw [passes]
        rfl
      · rw [before start (Nat.le_refl _) (by omega)]
        exact induction (by omega) (by omega) fun earlier atLeast below =>
          before earlier (by omega) below

theorem congr {other : Nat → Except ε Bool} {start length : Nat}
    (same : ∀ position, start ≤ position → position < start + length →
      test position = other position) :
    findPosition test start length = findPosition other start length := by
  induction length generalizing start with
  | zero => rfl
  | succ length induction =>
      rw [findPosition, findPosition, same start (Nat.le_refl _) (by omega),
        induction fun position lower upper => same position (by omega) (by omega)]

/-- A search whose test never fails does not fail. -/
theorem succeeds {start length : Nat}
    (total : ∀ position, start ≤ position → position < start + length →
      ∃ outcome, test position = .ok outcome) :
    ∃ outcome, findPosition test start length = .ok outcome := by
  induction length generalizing start with
  | zero => exact ⟨none, rfl⟩
  | succ length induction =>
      rcases total start (Nat.le_refl _) (by omega) with ⟨outcome, tested⟩
      cases outcome with
      | true => exact ⟨some start, by simp [findPosition, tested, pure, Except.pure]⟩
      | false =>
          have remaining : ∀ position, start + 1 ≤ position →
              position < start + 1 + length → ∃ outcome, test position = .ok outcome :=
            fun position lower upper => total position (by omega) (by omega)
          rcases induction remaining with ⟨result, rest⟩
          exact ⟨result, by simpa [findPosition, tested] using rest⟩

end findPosition

end Stakenet
