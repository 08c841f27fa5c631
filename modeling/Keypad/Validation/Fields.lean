import Keypad.Validation.Scalar

/-!
# Validating structures

The three structures that are made from plain data: the texts of the errors, a configuration and a
result. The first two know all their fields and refuse others; a result leaves what it does not know
aside. The fields of a result must also fit together, which is looked at only when each of them is
valid.
-/

namespace Keypad

/-- The texts of the errors from plain data. -/
def Messages.ofDatum : Datum → Checked Messages
  | .mapping members =>
    let defaults : Messages := {}
    let divisionByZero :=
      Datum.field members "division_by_zero" (.ok defaults.divisionByZero) Datum.toText
    let invalidExpression :=
      Datum.field members "invalid_expression" (.ok defaults.invalidExpression) Datum.toText
    let malformedToken :=
      Datum.field members "malformed_token" (.ok defaults.malformedToken) Datum.toText
    let unknown :=
      Datum.unknownKeys ["division_by_zero", "invalid_expression", "malformed_token"] members
    match divisionByZero, invalidExpression, malformedToken, unknown with
    | .ok d, .ok i, .ok m, [] => .ok ⟨d, i, m⟩
    | d, i, m, unknown => .failed (d.problems ++ i.problems ++ m.problems ++ unknown)
  | _ => .error [⟨[], .notMapping "ErrorMessages"⟩]

/-- A configuration from plain data. -/
def Config.ofDatum : Datum → Checked Config
  | .mapping members =>
    let defaults : Config := {}
    let precision :=
      Datum.field members "precision" (.ok defaults.precision) (Datum.toFin Config.maxPrecision)
    let strictTokens :=
      Datum.field members "strict_tokens" (.ok defaults.strictTokens) Datum.toBool
    let messages : Checked Messages :=
      match Datum.get? members "messages" with
      | none => .ok defaults.messages
      | some datum => (Messages.ofDatum datum).within "messages"
    let unknown := Datum.unknownKeys ["precision", "strict_tokens", "messages"] members
    match precision, strictTokens, messages, unknown with
    | .ok p, .ok s, .ok m, [] => .ok ⟨p, s, m⟩
    | p, s, m, unknown => .failed (p.problems ++ s.problems ++ m.problems ++ unknown)
  | _ => .error [⟨[], .notMapping "CalculatorConfig"⟩]

/-- A result from plain data. -/
def Result.ofDatum : Datum → Checked Result
  | .mapping members =>
    let expression := Datum.field members "expression" (.ok "") Datum.toText
    let outcome := Datum.field members "outcome" (.error [⟨[], .missing⟩]) Datum.toOutcome
    let value := Datum.field members "value" (.ok none) Datum.toDouble?
    let message := Datum.field members "message" (.ok none) Datum.toText?
    match expression, outcome, value, message with
    -- Whether the fields fit together is asked only of fields that are valid one by one.
    | .ok e, .ok o, .ok v, .ok m =>
      match Result.ofParts e o v m with
      | .ok result => .ok result
      | .error fault => .error [⟨[], .parts fault⟩]
    | e, o, v, m => .failed (e.problems ++ o.problems ++ v.problems ++ m.problems)
  | _ => .error [⟨[], .notMapping "CalculationResult"⟩]

end Keypad
