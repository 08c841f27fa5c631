import Keypad.Proofs.Calculator.Accepted

/-!
# Refusing tokens and leaving them out

What it changes that tokens without a meaning are refused. Where every token has a meaning it
changes nothing. Elsewhere the calculation that refuses them ends at the first such token, before
anything is evaluated, and the one that leaves them out ends with an error as well
(`strict_eq_lenient_or_malformed`): an expression that has a value has only tokens with a meaning,
so leaving tokens out never makes an expression of what is none. -/

namespace Keypad

/-- The configuration under which tokens without a meaning are refused. -/
def Config.strict (config : Config) : Config := { config with strictTokens := true }

/-- The configuration under which tokens without a meaning are left out. -/
def Config.lenient (config : Config) : Config := { config with strictTokens := false }

/-- The first token without a meaning, if there is one, and what stands in front of it. -/
theorem Postfix.find?_isUnrecognised_eq_some {tokens : List String} {token : String}
    (h : tokens.find? isUnrecognised = some token) :
    TokenKind.ofToken token = .unrecognised ∧ ∃ before after, tokens = before ++ token :: after ∧
      ∀ t ∈ before, TokenKind.ofToken t ≠ .unrecognised := by
  obtain ⟨htoken, before, after, htokens, hbefore⟩ := List.find?_eq_some_iff_append.1 h
  refine ⟨by simpa [isUnrecognised] using htoken, before, after, htokens, fun t ht => ?_⟩
  simpa [isUnrecognised] using hbefore t ht

namespace Config

/-- An expression with a value has only tokens with a meaning. -/
theorem find?_isUnrecognised_of_isOk {config : Config} {s : String} {result : Result}
    (h : config.calculate (.text s) = .ok result) (hok : result.isOk) :
    (Token.ofText s).find? Postfix.isUnrecognised = none := by
  obtain ⟨c, htokens, hfinite⟩ := exists_chain_of_isOk h hok
  rw [htokens]
  exact Chain.find?_isUnrecognised_tokens hfinite

/-- When every token has a meaning, it makes no difference whether the others are refused. -/
theorem calculate_strict_eq (config : Config) {s : String}
    (h : (Token.ofText s).find? Postfix.isUnrecognised = none) :
    config.strict.calculate (.text s) = config.lenient.calculate (.text s) := by
  have horder : ∀ strict, Postfix.ofTokens strict (Token.ofText s) =
      .ok (Postfix.order [] (Token.ofText s)) := by
    intro strict
    rw [Postfix.ofTokens, h, ite_self]
  rw [calculate, calculate, run, run]
  cases htokens : Token.ofText s with
  | nil => rfl
  | cons first rest =>
    rw [htokens] at horder
    dsimp only
    rw [horder, horder]
    rfl

/-- An expression with a token without a meaning is refused because of the first of them. -/
theorem calculate_strict_of_find? (config : Config) {s : String} {token : String}
    (h : (Token.ofText s).find? Postfix.isUnrecognised = some token) :
    config.strict.calculate (.text s) = .ok (config.failed s (.malformedToken token)) := by
  obtain ⟨result, hresult, hends⟩ := config.strict.exists_calculate_ends s
  rw [hresult]
  cases hends with
  | empty hnil =>
    rw [hnil] at h
    cases h
  | refused first hstrict hfirst =>
    cases h.symm.trans hfirst
    rfl
  | value x hnone => cases h.symm.trans (hnone rfl)
  | fault f hne hnone => cases h.symm.trans (hnone rfl)

/-- When some token has no meaning, leaving it out ends with an error all the same. -/
theorem exists_calculate_lenient_of_find? (config : Config) {s : String} {token : String}
    (h : (Token.ofText s).find? Postfix.isUnrecognised = some token) :
    ∃ fault, fault.kind ≠ .malformedToken ∧
      config.lenient.calculate (.text s) = .ok (config.failed s fault) := by
  obtain ⟨result, hresult, hends⟩ := config.lenient.exists_calculate_ends s
  cases hends with
  | empty hnil =>
    rw [hnil] at h
    cases h
  | refused first hstrict => cases hstrict
  | value x hnone heval => cases h.symm.trans (find?_isUnrecognised_of_isOk hresult rfl)
  | fault f hne hnone heval =>
    exact ⟨f, Evaluation.kind_ne_malformedToken config.precision_le heval, hresult⟩

/-- Two configurations that differ only in what they do with tokens without a meaning give the same
result for an expression in which every token has one. For every other expression the strict one
reports the first such token and the lenient one an invalid expression or a division by zero. -/
theorem strict_eq_lenient_or_malformed (config : Config) (s : String) :
    (∃ result, (∀ token ∈ Token.ofText s, TokenKind.ofToken token ≠ .unrecognised) ∧
      config.strict.calculate (.text s) = .ok result ∧
      config.lenient.calculate (.text s) = .ok result) ∨
    ∃ before token after kind, Token.ofText s = before ++ token :: after ∧
      (∀ t ∈ before, TokenKind.ofToken t ≠ .unrecognised) ∧
      TokenKind.ofToken token = .unrecognised ∧
      Postfix.ofTokens true (Token.ofText s) = .error (.malformedToken token) ∧
      config.strict.calculate (.text s) =
        .ok ⟨s, .error .malformedToken (some config.messages.malformedToken)⟩ ∧
      config.lenient.calculate (.text s) =
        .ok ⟨s, .error kind (some (config.messages.text kind))⟩ ∧
      (kind = .invalidExpression ∨ kind = .divisionByZero) := by
  cases hfind : (Token.ofText s).find? Postfix.isUnrecognised with
  | none =>
    left
    obtain ⟨result, hresult, -⟩ := config.lenient.exists_calculate_ends s
    refine ⟨result, fun token htoken => ?_, ?_, hresult⟩
    · simpa [Postfix.isUnrecognised] using List.find?_eq_none.1 hfind token htoken
    · rw [config.calculate_strict_eq hfind, hresult]
  | some token =>
    right
    obtain ⟨htoken, before, after, htokens, hbefore⟩ :=
      Postfix.find?_isUnrecognised_eq_some hfind
    obtain ⟨fault, hkind, hlenient⟩ := config.exists_calculate_lenient_of_find? hfind
    refine ⟨before, token, after, fault.kind, htokens, hbefore, htoken, ?_,
      config.calculate_strict_of_find? hfind, hlenient, ?_⟩
    · rw [Postfix.ofTokens, if_pos rfl, hfind]
    · cases fault <;> simp_all [Fault.kind]

end Config

end Keypad
