import Keypad.Proofs.Calculator.Total

/-!
# The ways in which a calculation ends

An expression has no tokens, or one of them is refused, or its evaluation ends with a value or a
fault; `Config.Ends` names these cases, each with what has been found by then, and every calculation
ends in one of them (`exists_calculate_ends`). What is found depends on the tokens alone, not on how
the expression is written (`calculate_congr`). -/

namespace Keypad

/-- An evaluation never stops because of a token without a meaning. -/
theorem Evaluation.kind_ne_malformedToken {p : ℕ} (hp : p ≤ 15) {operands : List Double}
    {items : List Item} {fault : Fault}
    (h : (run p operands items).outcome = .error (.fault fault)) :
    fault.kind ≠ .malformedToken := by
  have hcourse := course_run hp operands items
  generalize run p operands items = e at hcourse h
  induction hcourse with
  | value x => cases h
  | leftover =>
    cases h
    simp [Fault.kind]
  | number x _ ih => exact ih h
  | operation o left right _ _ ih => exact ih h
  | stop _ hkind =>
    cases h
    exact hkind

/-- Only a division by zero is reported as one. -/
theorem Fault.kind_eq_divisionByZero_iff {fault : Fault} :
    fault.kind = .divisionByZero ↔ fault = .divisionByZero := by
  cases fault <;> simp [kind]

/-- The evaluation of an expression, tokens without a meaning being left out. -/
def Config.evaluation (config : Config) (s : String) : Evaluation :=
  .ofItems config.precision.val (Postfix.order [] (Token.ofText s)).1

/-- The ways in which the calculation of an expression ends. -/
inductive Config.Ends (config : Config) (s : String) : Result → Prop
  /-- There are no tokens. -/
  | empty : Token.ofText s = [] → Ends config s ⟨s, .empty⟩
  /-- A token is refused. -/
  | refused (token : String) : config.strictTokens →
      (Token.ofText s).find? Postfix.isUnrecognised = some token →
      Ends config s (config.failed s (.malformedToken token))
  /-- No token is refused and the evaluation has a value. -/
  | value (x : Double) :
      (config.strictTokens → (Token.ofText s).find? Postfix.isUnrecognised = none) →
      (config.evaluation s).outcome = .ok x → Ends config s ⟨s, .ok x⟩
  /-- No token is refused and the evaluation stops at a fault. -/
  | fault (f : Fault) : Token.ofText s ≠ [] →
      (config.strictTokens → (Token.ofText s).find? Postfix.isUnrecognised = none) →
      (config.evaluation s).outcome = .error (.fault f) → Ends config s (config.failed s f)

/-- A result names the expression that was calculated. -/
theorem Config.Ends.expression_eq {config : Config} {s : String} {result : Result}
    (h : config.Ends s result) : result.expression = s := by
  cases h <;> rfl

/-- Tokens are refused only if this is asked for, and then because of the first one without a
meaning. -/
theorem Postfix.ofTokens_cases (strict : Bool) (tokens : List String) :
    (∃ token, strict = true ∧ tokens.find? isUnrecognised = some token ∧
      ofTokens strict tokens = .error (.malformedToken token)) ∨
    (strict = true → tokens.find? isUnrecognised = none) ∧
      ofTokens strict tokens = .ok (order [] tokens) := by
  rw [ofTokens]
  cases strict with
  | false => exact .inr ⟨fun h => (by cases h), rfl⟩
  | true =>
    rw [if_pos rfl]
    cases htoken : tokens.find? isUnrecognised with
    | some token => exact .inl ⟨token, rfl, rfl, rfl⟩
    | none => exact .inr ⟨fun _ => rfl, rfl⟩

namespace Config

variable {config : Config} {s : String}

/-- The value of an evaluation is finite. -/
theorem isFinite_of_evaluation {x : Double} (h : (config.evaluation s).outcome = .ok x) :
    x.isFinite :=
  (Evaluation.isProper_run config.precision_le (by simp) Postfix.isFinite_of_mem_order).value x h

/-- Tokens without a meaning are to be refused, and there is one among the tokens. -/
def Refuses (config : Config) (s : String) : Prop :=
  config.strictTokens ∧ ∃ token ∈ Token.ofText s, TokenKind.ofToken token = .unrecognised

/-- A token is refused exactly when the first one without a meaning is found. -/
theorem refuses_iff :
    config.Refuses s ↔ config.strictTokens ∧
      ∃ token, (Token.ofText s).find? Postfix.isUnrecognised = some token := by
  have hfind : (∃ token, (Token.ofText s).find? Postfix.isUnrecognised = some token) ↔
      ∃ token ∈ Token.ofText s, TokenKind.ofToken token = .unrecognised := by
    rw [← Option.isSome_iff_exists, List.find?_isSome]
    simp [Postfix.isUnrecognised]
  rw [hfind]
  rfl

/-- Every calculation of an expression ends in one of the ways and keeps all tokens. If one of them
is refused, this is all that it keeps; otherwise it keeps the postfix order, the tokens left out and
the operations of the evaluation. -/
theorem exists_run_ends (config : Config) (s : String) :
    ∃ c, config.run (.text s) = .ok c ∧ config.Ends s c.result ∧ c.tokens = Token.ofText s ∧
      (config.Refuses s → c.dropped = [] ∧ c.items = [] ∧ c.steps = []) ∧
      (¬ config.Refuses s → (c.items, c.dropped) = Postfix.order [] (Token.ofText s) ∧
        c.steps = (config.evaluation s).steps) := by
  -- That there is a calculation at all is known, so a failure to scale need not be considered.
  obtain ⟨c, hrun, -⟩ := config.exists_run_eq (.text s)
  refine ⟨c, hrun, ?_⟩
  rw [run] at hrun
  split at hrun
  · next hnil =>
    cases hrun
    refine ⟨.empty hnil, hnil.symm, fun _ => ⟨rfl, rfl, rfl⟩, fun _ => ?_⟩
    rw [evaluation, hnil]
    exact ⟨rfl, rfl⟩
  · next first rest htokens =>
    dsimp only at hrun
    rw [← htokens] at hrun
    have hne : Token.ofText s ≠ [] := by simp [htokens]
    obtain ⟨token, hstrict, htoken, horder⟩ | ⟨hnone, horder⟩ :=
      Postfix.ofTokens_cases config.strictTokens (Token.ofText s)
    · rw [horder] at hrun
      cases hrun
      have hrefuses : config.Refuses s := refuses_iff.2 ⟨hstrict, token, htoken⟩
      exact ⟨.refused token hstrict htoken, rfl, fun _ => ⟨rfl, rfl, rfl⟩,
        fun h => absurd hrefuses h⟩
    · have hrefuses : ¬ config.Refuses s := by
        intro h
        obtain ⟨hstrict, token, htoken⟩ := refuses_iff.1 h
        cases (hnone hstrict).symm.trans htoken
      rw [horder] at hrun
      dsimp only at hrun
      split at hrun
      · next steps x heval =>
        cases hrun
        have hevaluation : config.evaluation s = ⟨steps, .ok x⟩ := heval
        refine ⟨.value x hnone (by rw [hevaluation]), rfl, fun h => absurd h hrefuses, fun _ => ?_⟩
        rw [hevaluation]
        exact ⟨rfl, rfl⟩
      · next steps f heval =>
        cases hrun
        have hevaluation : config.evaluation s = ⟨steps, .error (.fault f)⟩ := heval
        refine ⟨.fault f hne hnone (by rw [hevaluation]), rfl, fun h => absurd h hrefuses,
          fun _ => ?_⟩
        rw [hevaluation]
        exact ⟨rfl, rfl⟩
      · cases hrun

/-- Every calculation of an expression ends in one of the ways. -/
theorem exists_calculate_ends (config : Config) (s : String) :
    ∃ result, config.calculate (.text s) = .ok result ∧ config.Ends s result := by
  obtain ⟨c, hrun, hends, -⟩ := config.exists_run_ends s
  exact ⟨c.result, by rw [calculate, hrun], hends⟩

/-- Expressions with the same tokens are calculated alike. -/
theorem calculate_congr {t : String} (h : Token.ofText t = Token.ofText s) :
    config.calculate (.text t) =
      (config.calculate (.text s)).map fun result => { result with expression := t } := by
  rw [calculate, calculate, run, run, h]
  cases Token.ofText s with
  | nil => rfl
  | cons token rest =>
    dsimp only
    rcases Postfix.ofTokens config.strictTokens (token :: rest) with fault | ⟨items, dropped⟩
    · rfl
    · -- The three ends of an evaluation: a fault, a failed rounding, a value.
      dsimp only
      rcases Evaluation.ofItems config.precision.val items with ⟨steps, (fault | scale) | x⟩
      · rfl
      · rfl
      · rfl

end Config

end Keypad
