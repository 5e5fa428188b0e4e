/-!
# Attempts in a row

Steps are taken one after the other, and any of them may be refused. What is refused leaves the state
as it is, and the next step starts from there (`attempts`). Where a refusal may leave something behind,
each step has an answer and a state after it (`inTurn`).
-/

namespace ShardMesh

variable {σ τ α β ε : Type}

/-- Takes steps one after the other: what each of them answers, and the state in the end. -/
def attempts (step : σ → α → Except ε σ) (s : σ) : List α → List (Except ε Unit) × σ
  | [] => ([], s)
  | a :: more =>
    match step s a with
    | .ok next =>
      let (answers, last) := attempts step next more
      (.ok () :: answers, last)
    | .error e =>
      let (answers, last) := attempts step s more
      (.error e :: answers, last)

theorem attempts_cons_of_ok {step : σ → α → Except ε σ} {s next : σ} {a : α}
    (h : step s a = .ok next) (more : List α) :
    attempts step s (a :: more) =
      (.ok () :: (attempts step next more).1, (attempts step next more).2) := by
  rw [attempts, h]

theorem attempts_cons_of_error {step : σ → α → Except ε σ} {s : σ} {a : α} {e : ε}
    (h : step s a = .error e) (more : List α) :
    attempts step s (a :: more) =
      (.error e :: (attempts step s more).1, (attempts step s more).2) := by
  rw [attempts, h]

theorem attempts_append (step : σ → α → Except ε σ) (s : σ) (first more : List α) :
    attempts step s (first ++ more) =
      ((attempts step s first).1 ++ (attempts step (attempts step s first).2 more).1,
        (attempts step (attempts step s first).2 more).2) := by
  induction first generalizing s with
  | nil => rfl
  | cons a first ih =>
    cases h : step s a with
    | ok next => rw [List.cons_append, attempts_cons_of_ok h, attempts_cons_of_ok h, ih]; rfl
    | error e => rw [List.cons_append, attempts_cons_of_error h, attempts_cons_of_error h, ih]; rfl

/-- What every accepted step preserves holds in the end. -/
theorem attempts_invariant {step : σ → α → Except ε σ} {Inv : σ → Prop}
    (preserved : ∀ s a next, Inv s → step s a = .ok next → Inv next) {s : σ} (hs : Inv s)
    (steps : List α) : Inv (attempts step s steps).2 := by
  induction steps generalizing s with
  | nil => exact hs
  | cons a steps ih =>
    cases h : step s a with
    | ok next => rw [attempts_cons_of_ok h]; exact ih (preserved s a next hs h)
    | error e => rw [attempts_cons_of_error h]; exact ih hs

/-- Who stops at the first refusal gets the refusal, or the state if there is none. -/
theorem foldlM_eq_attempts (step : σ → α → Except ε σ) (s : σ) (steps : List α) :
    steps.foldlM step s =
      ((attempts step s steps).1.forM id).map fun _ => (attempts step s steps).2 := by
  induction steps generalizing s with
  | nil => rfl
  | cons a steps ih =>
    rw [List.foldlM_cons]
    cases h : step s a with
    | ok next => rw [attempts_cons_of_ok h]; exact ih next
    | error e => rw [attempts_cons_of_error h]; rfl

/-! ## Answers in turn -/

/-- Asks for one thing after the other, whatever the answers are: the answers, and the state in the
    end. -/
def inTurn (ask : σ → α → β × σ) (s : σ) : List α → List β × σ
  | [] => ([], s)
  | a :: more =>
    let (answer, next) := ask s a
    let (answers, last) := inTurn ask next more
    (answer :: answers, last)

theorem inTurn_cons (ask : σ → α → β × σ) (s : σ) (a : α) (more : List α) :
    inTurn ask s (a :: more) =
      ((ask s a).1 :: (inTurn ask (ask s a).2 more).1, (inTurn ask (ask s a).2 more).2) := rfl

/-- What every step preserves holds in the end. -/
theorem inTurn_invariant {ask : σ → α → β × σ} (Inv : σ → Prop)
    (preserved : ∀ s a, Inv s → Inv (ask s a).2) {s : σ} (hs : Inv s) (asked : List α) :
    Inv (inTurn ask s asked).2 := by
  induction asked generalizing s with
  | nil => exact hs
  | cons a asked ih => exact ih (preserved s a hs)

/-- If every step is a step of what is seen of the state, with the same answer, then so is a row of
    them. -/
theorem inTurn_view {ask : σ → α → β × σ} {askView : τ → α → β × τ} (view : σ → τ) (Inv : σ → Prop)
    (same : ∀ s a, Inv s → askView (view s) a = ((ask s a).1, view (ask s a).2))
    (preserved : ∀ s a, Inv s → Inv (ask s a).2) {s : σ} (hs : Inv s) (asked : List α) :
    inTurn askView (view s) asked = ((inTurn ask s asked).1, view (inTurn ask s asked).2) := by
  induction asked generalizing s with
  | nil => rfl
  | cons a asked ih => rw [inTurn_cons, same s a hs, ih (preserved s a hs)]; rfl

end ShardMesh
