import Mathlib.Data.List.Destutter

/-! Runs of a deterministic machine: the state reached after a list of inputs,
conditions met at every step, the states visited on the way and the stages they
pass through. -/

namespace Stakenet.Execution

variable {σ : Type u} {ι : Type v} (step : σ → ι → σ)

/-- The state reached from `initial` after the listed inputs. -/
def run (initial : σ) (inputs : List ι) : σ :=
  inputs.foldl step initial

/-- Every input meets `condition` in the state it is applied to. -/
def EveryStep (condition : σ → ι → Prop) : σ → List ι → Prop
  | _, [] => True
  | current, input :: rest =>
      condition current input ∧ EveryStep condition (step current input) rest

/-- The states visited, the first and the last included. -/
def visited (initial : σ) : List ι → List σ
  | [] => [initial]
  | input :: rest => initial :: visited (step initial input) rest

variable {step}

@[simp] theorem run_nil (initial : σ) : run step initial ([] : List ι) = initial := rfl

@[simp] theorem run_cons (initial : σ) (input : ι) (rest : List ι) :
    run step initial (input :: rest) = run step (step initial input) rest := rfl

theorem run_append (initial : σ) (first second : List ι) :
    run step initial (first ++ second) = run step (run step initial first) second := by
  simp [run]

theorem EveryStep.mono {weaker stronger : σ → ι → Prop}
    (implies : ∀ current input, stronger current input → weaker current input)
    {initial : σ} {inputs : List ι} (conditions : EveryStep step stronger initial inputs) :
    EveryStep step weaker initial inputs := by
  induction inputs generalizing initial with
  | nil => trivial
  | cons input rest induction =>
      exact ⟨implies _ _ conditions.1, induction conditions.2⟩

/-- A condition on the inputs alone. -/
theorem everyStep_of_forall {condition : ι → Prop} {inputs : List ι}
    (conditions : ∀ input ∈ inputs, condition input) (initial : σ) :
    EveryStep step (fun _ input => condition input) initial inputs := by
  induction inputs generalizing initial with
  | nil => trivial
  | cons input rest induction =>
      rw [List.forall_mem_cons] at conditions
      exact ⟨conditions.1, induction conditions.2 _⟩

theorem EveryStep.and {first second : σ → ι → Prop} {initial : σ} {inputs : List ι}
    (firsts : EveryStep step first initial inputs)
    (seconds : EveryStep step second initial inputs) :
    EveryStep step (fun current input => first current input ∧ second current input) initial
      inputs := by
  induction inputs generalizing initial with
  | nil => trivial
  | cons input rest induction =>
      exact ⟨⟨firsts.1, seconds.1⟩, induction firsts.2 seconds.2⟩

/-- A property that holds at the start and that every step meeting `condition`
preserves holds wherever a run of such steps leads. -/
theorem run_invariant {condition : σ → ι → Prop} (Invariant : σ → Prop)
    (preserved : ∀ current input, Invariant current → condition current input →
      Invariant (step current input))
    {initial : σ} {inputs : List ι} (holds : Invariant initial)
    (conditions : EveryStep step condition initial inputs) :
    Invariant (run step initial inputs) := by
  induction inputs generalizing initial with
  | nil => exact holds
  | cons input rest induction =>
      exact induction (preserved initial input holds conditions.1) conditions.2

/-- The same for a property that every step preserves unconditionally. -/
theorem run_preserves (Invariant : σ → Prop)
    (preserved : ∀ current input, Invariant current → Invariant (step current input))
    {initial : σ} (holds : Invariant initial) (inputs : List ι) :
    Invariant (run step initial inputs) := by
  induction inputs generalizing initial with
  | nil => exact holds
  | cons input rest induction => exact induction (preserved initial input holds)

/-- Every state on the way has the property as well. -/
theorem visited_invariant {condition : σ → ι → Prop} (Invariant : σ → Prop)
    (preserved : ∀ current input, Invariant current → condition current input →
      Invariant (step current input))
    {initial : σ} {inputs : List ι} (holds : Invariant initial)
    (conditions : EveryStep step condition initial inputs) :
    ∀ current ∈ visited step initial inputs, Invariant current := by
  induction inputs generalizing initial with
  | nil => simpa [visited] using holds
  | cons input rest induction =>
      intro current member
      rcases List.mem_cons.mp member with rfl | member
      · exact holds
      · exact induction (preserved initial input holds conditions.1) conditions.2 current member

theorem run_mem_visited (initial : σ) (inputs : List ι) :
    run step initial inputs ∈ visited step initial inputs := by
  induction inputs generalizing initial with
  | nil => exact List.mem_singleton_self _
  | cons input rest induction => exact List.mem_cons_of_mem _ (induction _)

/-- What an invariant and the condition of a step give holds at every step. -/
theorem everyStep_of_invariant {condition conclusion : σ → ι → Prop} (Invariant : σ → Prop)
    (preserved : ∀ current input, Invariant current → condition current input →
      Invariant (step current input))
    (concluded : ∀ current input, Invariant current → condition current input →
      conclusion current input)
    {initial : σ} {inputs : List ι} (holds : Invariant initial)
    (conditions : EveryStep step condition initial inputs) :
    EveryStep step conclusion initial inputs := by
  induction inputs generalizing initial with
  | nil => trivial
  | cons input rest induction =>
      exact ⟨concluded initial input holds conditions.1,
        induction (preserved initial input holds conditions.1) conditions.2⟩

theorem EveryStep.append {condition : σ → ι → Prop} {initial : σ} {first second : List ι} :
    EveryStep step condition initial (first ++ second) ↔
      EveryStep step condition initial first ∧
        EveryStep step condition (run step initial first) second := by
  induction first generalizing initial with
  | nil => simp [EveryStep]
  | cons input rest induction => simp [EveryStep, induction, and_assoc]

/-! ## Stages -/

section Stages

variable {κ : Type w} {τ : Type x} [DecidableEq τ] {condition : σ → ι → Prop}
variable {InStage : κ → σ → Prop} {follows : κ → κ → Prop} {label : σ → τ} {labelOf : κ → τ}

/-- If every step stays in its stage or moves to a following one, the labels of a
run, each repetition counted once, are those of a chain of stages. -/
theorem visited_destutter
    (labelled : ∀ stage current, InStage stage current → label current = labelOf stage)
    (distinct : ∀ stage later, follows stage later → labelOf stage ≠ labelOf later)
    (stepped : ∀ stage current input, InStage stage current → condition current input →
      ∃ later, (later = stage ∨ follows stage later) ∧ InStage later (step current input))
    {stage : κ} {initial : σ} {inputs : List ι} (inStage : InStage stage initial)
    (conditions : EveryStep step condition initial inputs) :
    ∃ stages, (stage :: stages).IsChain follows ∧
      ((visited step initial inputs).map label).destutter (· ≠ ·) =
        (stage :: stages).map labelOf := by
  induction inputs generalizing stage initial with
  | nil => exact ⟨[], by simp [visited, labelled _ _ inStage]⟩
  | cons input rest induction =>
      rcases stepped stage initial input inStage conditions.1 with ⟨later, moved, inLater⟩
      rcases induction inLater conditions.2 with ⟨stages, chained, labels⟩
      have first := labelled _ _ inStage
      have second := labelled _ _ inLater
      have head : ∃ tail, visited step (step initial input) rest = step initial input :: tail := by
        cases rest <;> exact ⟨_, rfl⟩
      rcases head with ⟨tail, head⟩
      rw [head, List.map_cons, second, List.destutter_cons'] at labels
      simp only [visited, head, List.map_cons, first, second, List.destutter_cons']
      rcases moved with rfl | followed
      · exact ⟨stages, chained, by simpa using labels⟩
      · refine ⟨later :: stages, List.isChain_cons_cons.mpr ⟨followed, chained⟩, ?_⟩
        rw [List.destutter'_cons_pos _ (distinct _ _ followed), labels]

/-- A chain of stages begins a path, once paths are closed under adding a
preceding stage. -/
theorem chain_begins_path {paths : κ → List (List κ)}
    (started : ∀ stage, paths stage ≠ [])
    (extended : ∀ stage later, follows stage later → ∀ path ∈ paths later,
      later :: path ∈ paths stage)
    {stage : κ} {stages : List κ} (chained : (stage :: stages).IsChain follows) :
    ∃ path ∈ paths stage, stages <+: path := by
  induction stages generalizing stage with
  | nil =>
      rcases List.exists_mem_of_ne_nil _ (started stage) with ⟨path, member⟩
      exact ⟨path, member, by simp⟩
  | cons later stages induction =>
      rcases List.isChain_cons_cons.mp chained with ⟨followed, chained⟩
      rcases induction chained with ⟨path, member, begins⟩
      exact ⟨later :: path, extended _ _ followed _ member,
        List.cons_prefix_cons.mpr ⟨rfl, begins⟩⟩

end Stages

end Stakenet.Execution
