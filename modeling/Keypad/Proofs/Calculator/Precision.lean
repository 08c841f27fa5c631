import Keypad.Proofs.Calculator.Faithful
import Keypad.Proofs.Double.Precision

/-!
# Decimal places of values

The decimal places of a configuration are kept after each operation, so every value that an
operation has led to has them, whatever its size: it is the result of the last operation, and this
was rounded. An expression of a single token has no operation. Its value is the number as it was
entered, with all of its places (`exists_isNearest_of_value`), as for `0.12345678901` under nine
places (`calculate_elevenPlaces`). -/

namespace Keypad.Config

open Double

variable {config : Config} {s : String} {x : Double}

/-- An expression of a single token has the value of the number that the token is read as. -/
theorem parse?_of_ofText_eq_singleton {token : String} (htoken : Token.ofText s = [token])
    (h : (config.evaluation s).outcome = .ok x) : Numeral.parse? token = some x := by
  rw [evaluation, htoken, Postfix.order] at h
  cases hkind : TokenKind.ofToken token with
  | number y =>
    rw [hkind] at h
    obtain rfl : y = x := Except.ok.inj h
    exact TokenKind.parse?_of_ofToken hkind
  | operator o =>
    rw [hkind] at h
    cases h
  | unrecognised =>
    rw [hkind] at h
    cases h

/-- A value that an operation has led to has the decimal places of the configuration. -/
theorem hasPlaces_of_steps {step : Step} (h : step ∈ (config.evaluation s).steps) :
    HasPlaces config.precision.val step.result := by
  have hcourse := Evaluation.course_run config.precision_le []
    (Postfix.order [] (Token.ofText s)).1
  obtain ⟨y, hy, hresult⟩ := Evaluation.exists_rounded_of_mem_steps hcourse h
  rw [hresult]
  exact hasPlaces_rounded config.precision_le hy

/-- The value of an expression with an operator is the double nearest to a number with the decimal
places of the configuration. The value of any other expression, which is a single token, is the
number that the token is read as. -/
theorem exists_isNearest_of_value (config : Config) (s : String) (x : Double)
    (h : config.calculate (.text s) = .ok ⟨s, .ok x⟩) :
    1 < (Token.ofText s).length ∧ (∃ n : ℤ, IsNearest x (n / 10 ^ config.precision.val)) ∨
      ∃ token, Token.ofText s = [token] ∧ Numeral.parse? token = some x := by
  obtain ⟨-, -, hlength, hlast⟩ := steps_of_value h rfl
  cases hsteps : (config.evaluation s).steps.getLast? with
  | some step =>
    left
    have hmem := List.mem_of_getLast? hsteps
    have hpos := List.length_pos_of_mem hmem
    refine ⟨by omega, ?_⟩
    rw [← hlast step hsteps]
    exact hasPlaces_of_steps hmem
  | none =>
    right
    rw [List.getLast?_eq_none_iff.1 hsteps, List.length_nil, mul_zero, zero_add] at hlength
    obtain ⟨token, htoken⟩ := List.length_eq_one_iff.1 hlength
    obtain ⟨result, hresult, hends⟩ := config.exists_calculate_ends s
    cases h.symm.trans hresult
    exact ⟨token, htoken, parse?_of_ofText_eq_singleton htoken (hends.outcome_eq_ok rfl)⟩

/-- A third is rounded to nine places. -/
theorem exists_isNearest_third :
    ({} : Config).calculate (.text "1÷3") =
        .ok ⟨"1÷3", .ok (Decimal.toDouble false ⟨333333333, -9⟩)⟩ ∧
      ∃ n : ℤ, IsNearest (Decimal.toDouble false ⟨333333333, -9⟩)
        (n / 10 ^ ({} : Config).precision.val) := by
  have h : ({} : Config).calculate (.text "1÷3") =
      .ok ⟨"1÷3", .ok (Decimal.toDouble false ⟨333333333, -9⟩)⟩ := by decide +kernel
  have hlength : (Token.ofText "1÷3").length = 3 := by decide
  obtain ⟨-, hnearest⟩ | ⟨token, htoken, -⟩ := exists_isNearest_of_value {} _ _ h
  · exact ⟨h, hnearest⟩
  · rw [htoken] at hlength
    cases hlength

/-- A number with eleven places that is entered alone keeps them under nine places. -/
theorem calculate_elevenPlaces :
    ({} : Config).calculate (.text "0.12345678901") =
        .ok ⟨"0.12345678901", .ok (Decimal.toDouble false ⟨12345678901, -11⟩)⟩ ∧
      ¬ ∃ n : ℤ, IsNearest (Decimal.toDouble false ⟨12345678901, -11⟩)
        (n / 10 ^ ({} : Config).precision.val) := by
  refine ⟨by decide +kernel, ?_⟩
  -- The number lies between two others with the same nine places.
  exact not_hasPlaces_of_between (m := 123456789) (p := 9)
    (y := Decimal.toDouble false ⟨123456789005, -12⟩)
    (z := Decimal.toDouble false ⟨12345678905, -11⟩)
    (by decide +kernel) (by decide +kernel) (by decide +kernel) (by decide +kernel)
    (by decide +kernel) (by decide +kernel)

end Keypad.Config
