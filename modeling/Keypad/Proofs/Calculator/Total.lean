import Keypad.Proofs.Calculator.Value
import Keypad.Proofs.Expression.Balance

/-!
# Calculations always end in a proper result

Whatever is given to be calculated, and under every configuration, there is a result and a trace of
it (`Config.exists_trace_isProper`). The way out of the result type is a `ScaleFault`, and it is
closed because every number on the way is finite: literals are accepted only if they are, an
operation goes on only if its result is, and rounding a finite double to at most 15 places neither
fails nor leaves the finite doubles (`Double.roundsSafely`).

The invariant is on the stack machine: from finite operands and finite numbers it records finite
operations and comes to a finite value or a fault (`Evaluation.isProper_run`). -/

namespace Keypad

/-! ## Finite evaluations -/

/-- The operands and the result of an operation are finite. -/
structure Step.IsFinite (step : Step) : Prop where
  /-- The left operand is finite. -/
  left : step.left.isFinite
  /-- The right operand is finite. -/
  right : step.right.isFinite
  /-- The result is finite. -/
  result : step.result.isFinite

/-- An item is finite if it is no number or a finite one. -/
def Item.IsFinite : Item → Prop
  | .number x => x.isFinite
  | _ => True

/-- Finite operations, and a finite value or a fault. -/
structure Evaluation.IsProper (e : Evaluation) : Prop where
  /-- The operations are finite. -/
  steps : ∀ step ∈ e.steps, step.IsFinite
  /-- A value is finite. -/
  value : ∀ x, e.outcome = .ok x → x.isFinite
  /-- Rounding does not fail. -/
  scale : ∀ fault, e.outcome ≠ .error (.scale fault)

/-- An evaluation that stops at a fault is proper. -/
theorem Evaluation.isProper_fault (fault : Fault) : IsProper ⟨[], .error (.fault fault)⟩ where
  steps := by simp
  value := fun _ h => by cases h
  scale := fun _ h => by cases h

/-- From finite operands and numbers, the stack machine comes to a proper end. -/
theorem Evaluation.isProper_run {p : ℕ} (hp : p ≤ 15) {operands : List Double} {items : List Item}
    (hoperands : ∀ x ∈ operands, x.isFinite) (hitems : ∀ item ∈ items, item.IsFinite) :
    IsProper (run p operands items) := by
  have hcourse := course_run hp operands items
  generalize run p operands items = e at hcourse ⊢
  induction hcourse with
  | value x =>
    refine ⟨by simp, fun y hy => ?_, fun _ h => by cases h⟩
    cases hy
    exact hoperands x (List.mem_singleton_self x)
  | leftover => exact isProper_fault _
  | number x _ ih =>
    obtain ⟨hx, hrest⟩ := List.forall_mem_cons.1 hitems
    exact ih (List.forall_mem_cons.2 ⟨hx, hoperands⟩) hrest
  | operation o left right hresult _ ih =>
    obtain ⟨hright, hothers⟩ := List.forall_mem_cons.1 hoperands
    obtain ⟨hleft, hbelow⟩ := List.forall_mem_cons.1 hothers
    -- The result is finite, so that the rest runs on finite operands again.
    have hx := Double.isFinite_rounded hresult p
    have hrest := (List.forall_mem_cons.1 hitems).2
    have hproper := ih (List.forall_mem_cons.2 ⟨hx, hbelow⟩) hrest
    exact ⟨List.forall_mem_cons.2 ⟨⟨hleft, hright, hx⟩, hproper.steps⟩, hproper.value,
      hproper.scale⟩
  | stop => exact isProper_fault _

/-- The numbers among the items of tokens are finite. -/
theorem Postfix.isFinite_of_mem_order {waiting : List Operator} {tokens : List String} :
    ∀ item ∈ (order waiting tokens).1, item.IsFinite := by
  intro item hitem
  obtain ⟨o, rfl⟩ | ⟨token, x, htoken, rfl⟩ := cases_of_mem_order hitem
  · exact trivial
  · obtain ⟨-, -, -, hx⟩ := Literal.exists_of_parse? (TokenKind.parse?_of_ofToken htoken)
    exact hx

/-- The evaluation of tokens in postfix order comes to a proper end. -/
theorem Evaluation.isProper_ofItems {config : Config} {tokens : List String}
    {ordered : List Item × List String}
    (h : Postfix.ofTokens config.strictTokens tokens = .ok ordered) :
    IsProper (ofItems config.precision.val ordered.1) := by
  rw [← Postfix.order_of_ofTokens h]
  exact isProper_run config.precision_le (by simp) Postfix.isFinite_of_mem_order

/-! ## Proper results -/

/-- An expression of nothing but blank characters. -/
def Input.IsBlank : Input → Prop
  | .text s => ∀ c ∈ s.toList, Text.isBlank c
  | .other _ => False

/-- An expression has no tokens exactly when it is blank. -/
theorem Token.ofText_eq_nil_iff {s : String} : ofText s = [] ↔ (Input.text s).IsBlank := by
  have hfilter : ofText s = [] ↔ s.toList.filter (!Text.isBlank ·) = [] := by
    constructor
    · intro h
      rw [← flatMap_ofText, h, List.flatMap_nil]
    · intro h
      rw [ofText, h]
      rfl
  rw [hfilter, List.filter_eq_nil_iff, Input.IsBlank]
  simp

/-- What a trace says, whatever was calculated. -/
structure Trace.IsProper (config : Config) (input : Input) (trace : Trace) : Prop where
  /-- There is a value exactly after success. -/
  value : trace.result.value?.isSome ↔ trace.result.outcome = .ok
  /-- The value is finite. -/
  finite : ∀ x ∈ trace.result.value?, x.isFinite
  /-- There is a message exactly after an error. -/
  message : trace.result.message?.isSome ↔ ∃ kind, trace.result.outcome = .error kind
  /-- The message is the configured text for the error. -/
  text : ∀ kind, trace.result.outcome = .error kind →
    trace.result.message? = some (config.messages.text kind)
  /-- The outcome is empty exactly for a blank expression. -/
  empty : trace.result.outcome = .empty ↔ input.IsBlank
  /-- The operations are finite. -/
  steps : ∀ step ∈ trace.steps, step.IsFinite

/-- What has to be shown about the verdict of a calculation and its operations. -/
theorem Calculation.isProper_trace {config : Config} {input : Input} {c : Calculation}
    (hvalue : ∀ x, c.result.verdict = .ok x → x.isFinite)
    (herror : ∀ kind message, c.result.verdict = .error kind message →
      message = some (config.messages.text kind))
    (hempty : c.result.verdict = .empty ↔ input.IsBlank)
    (hsteps : ∀ step ∈ c.steps, step.IsFinite) (duration : Option Double) :
    (c.trace duration).IsProper config input := by
  obtain ⟨⟨expression, verdict⟩, tokens, dropped, items, steps⟩ := c
  unfold trace
  cases verdict with
  | ok x =>
    have hnotblank : ¬ input.IsBlank := fun h => by cases hempty.2 h
    exact
      { value := Result.isSome_value?_iff _
        finite := fun y hy => by
          cases hy
          exact hvalue x rfl
        message := by simp [Result.message?, Result.outcome]
        text := fun kind h => by cases h
        empty := by simp [Result.outcome, hnotblank]
        steps := hsteps }
  | empty =>
    have hblank : input.IsBlank := hempty.1 rfl
    exact
      { value := Result.isSome_value?_iff _
        finite := fun y hy => by cases hy
        message := by simp [Result.message?, Result.outcome]
        text := fun kind h => by cases h
        empty := by simp [Result.outcome, hblank]
        steps := hsteps }
  | error kind message =>
    obtain rfl := herror kind message rfl
    have hnotblank : ¬ input.IsBlank := fun h => by cases hempty.2 h
    exact
      { value := Result.isSome_value?_iff _
        finite := fun y hy => by cases hy
        message := by simp [Result.message?, Result.outcome]
        text := fun kind' h => by
          cases h
          rfl
        empty := by simp [Result.outcome, hnotblank]
        steps := hsteps }

/-- A failed calculation has no value, carries the configured text, and is not empty. -/
theorem Calculation.isProper_trace_of_failed {config : Config} {input : Input} {s : String}
    {fault : Fault} {c : Calculation} (hresult : c.result = config.failed s fault)
    (hblank : ¬ input.IsBlank) (hsteps : ∀ step ∈ c.steps, step.IsFinite)
    (duration : Option Double) : (c.trace duration).IsProper config input := by
  refine isProper_trace ?_ ?_ ?_ hsteps duration
  · intro x hx
    rw [hresult] at hx
    cases hx
  · intro kind message h
    rw [hresult] at h
    cases h
    rfl
  · rw [hresult]
    exact ⟨fun h => (by cases h), fun h => absurd h hblank⟩

/-- Every calculation comes to an end, and its trace is proper. -/
theorem Config.exists_run_eq (config : Config) (input : Input) :
    ∃ c, config.run input = .ok c ∧ ∀ duration, (c.trace duration).IsProper config input := by
  cases input with
  | other typeName =>
    exact ⟨_, rfl, Calculation.isProper_trace_of_failed rfl (fun h => h) (by simp)⟩
  | text s =>
    rw [run]
    split
    · next hnil =>
      have hblank := Token.ofText_eq_nil_iff.1 hnil
      exact ⟨_, rfl, Calculation.isProper_trace (fun _ h => by cases h) (fun _ _ h => by cases h)
        ⟨fun _ => hblank, fun _ => rfl⟩ (by simp)⟩
    · next token rest htokens =>
      have hblank : ¬ (Input.text s).IsBlank := by
        rw [← Token.ofText_eq_nil_iff, htokens]
        exact List.cons_ne_nil _ _
      dsimp only
      split
      · exact ⟨_, rfl, Calculation.isProper_trace_of_failed rfl hblank (by simp)⟩
      · next items dropped horder =>
        have hproper := Evaluation.isProper_ofItems horder
        dsimp only at hproper
        split
        · next steps x heval =>
          rw [heval] at hproper
          refine ⟨_, rfl, Calculation.isProper_trace ?_ (fun _ _ h => by cases h) ?_ hproper.steps⟩
          · intro y hy
            cases hy
            exact hproper.value x rfl
          · exact ⟨fun h => (by cases h), fun h => absurd h hblank⟩
        · next steps fault heval =>
          rw [heval] at hproper
          exact ⟨_, rfl, Calculation.isProper_trace_of_failed rfl hblank hproper.steps⟩
        · next steps fault heval =>
          -- The one way out of the result type.
          rw [heval] at hproper
          exact absurd rfl (hproper.scale fault)

/-- Whatever is given to be calculated, calculating, validating and tracing it come to an end, the
parts of the result fit together, what they say is proper, and no rounding of a finite double under
the configuration can fail. -/
theorem Config.exists_trace_isProper (config : Config) (input : Input) (duration : Option Double) :
    ∃ trace verdict, config.trace input duration = .ok trace ∧
      config.calculate input = .ok trace.result ∧ config.validate input = .ok verdict ∧
      Result.ofParts trace.result.expression trace.result.outcome trace.result.value?
        trace.result.message? = .ok trace.result ∧
      trace.IsProper config input ∧
      ∀ x : Double, x.isFinite → x.RoundsSafely config.precision.val := by
  obtain ⟨c, hrun, hproper⟩ := config.exists_run_eq input
  have hcalculate : config.calculate input = .ok c.result := by rw [calculate, hrun]
  refine ⟨c.trace duration, _, by rw [trace, hrun], hcalculate, by rw [validate, hcalculate],
    Result.ofParts_eq_ok _, hproper duration, fun x hx => ?_⟩
  exact Double.roundsSafely config.precision_le hx

end Keypad
