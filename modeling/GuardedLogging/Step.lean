/-!
# Steps of a reader

A reader takes a part off the front of its input and leaves the rest. A step keeps the proof that the rest is shorter than a bound, usually the length of the input; so a reader that repeats steps ends, and the proof of that is the bound itself.
-/

namespace GuardedLogging

/-- What was read, and the rest of the input, which is shorter than `bound`. -/
structure Step (σ : Type) (α : Type) (bound : Nat) where
  value : α
  rest : List σ
  shorter : rest.length < bound

namespace Step

variable {σ α β : Type}

def map {bound : Nat} (f : α → β) (step : Step σ α bound) : Step σ β bound :=
  ⟨f step.value, step.rest, step.shorter⟩

/-- A step is also a step under any greater bound. -/
def weaken {bound greater : Nat} (h : bound ≤ greater) (step : Step σ α bound) : Step σ α greater :=
  ⟨step.value, step.rest, Nat.lt_of_lt_of_le step.shorter h⟩

/-- A step where none had to be taken. -/
def optional {bound : Nat} (step : Step σ α bound) : Step σ α (bound + 1) :=
  step.weaken (Nat.le_succ bound)

/-- A step that follows another, seen from the start of the other. -/
def after {bound start : Nat} (h : bound < start) (step : Step σ α bound) : Step σ α start :=
  step.weaken (Nat.le_of_lt h)

/-- As `after`, where the other step may have read nothing. -/
def afterOptional {bound start : Nat} (h : bound < start + 1) (step : Step σ α bound) : Step σ α start :=
  step.weaken (Nat.le_of_lt_succ h)

/-- One member read, which stood for the value. -/
def next {c : σ} (value : α) (rest : List σ) : Step σ α (c :: rest).length :=
  ⟨value, rest, Nat.lt_succ_self _⟩

/-- Nothing read: the whole input is left. -/
def stay (value : α) (input : List σ) : Step σ α (input.length + 1) :=
  ⟨value, input, Nat.lt_succ_self _⟩

/-- The longest part at the front whose members all satisfy `p`. -/
def takeWhile (p : σ → Bool) : (input : List σ) → Step σ (List σ) (input.length + 1)
  | [] => stay [] []
  | c :: rest =>
    if p c then
      let step := takeWhile p rest
      ⟨c :: step.value, step.rest, Nat.lt_succ_of_lt step.shorter⟩
    else
      stay [] (c :: rest)

end Step

end GuardedLogging
