import Keypad.Proofs.Expression.Operand
import Keypad.Proofs.Session.Line

/-!
# Typing an expression

An expression that is entered key by key stands on the expression line as it was typed, and
finishing it gives what calculating it gives (`exists_pressAll_typed`). What could go wrong is that
a key does more or less than to put its character at the end. A digit takes the place of a single
zero, an operator that of another one, a second point does nothing, and after a division error a key
starts over. In an expression that follows the grammar the first three do not happen, because all of
it has the shape of a line (`IsTyped.isLine`) and so each character fits where it stands
(`IsLine.of_concat`). The last does not happen because the result line only ever shows values: no
preview shows an error.

`Session.Typed` says what the display is when some of the characters have been typed; each key
preserves it (`exists_press_ofChar`), and so does the whole sequence
(`exists_pressAll_ofChar`). -/

namespace Keypad

open Session

/-- The key that enters a character. -/
def Action.ofChar (c : Char) : Action :=
  if c.isDigit then .digit (String.singleton c)
  else if c = '.' then .decimal
  else .operator (String.singleton c)

/-- An expression as it is typed: mantissas with an operator between any two neighbours, perhaps
behind a sign. -/
inductive IsTyped : List Char → Prop
  /-- A single mantissa with or without a sign. -/
  | operand {m} (negative : Bool) : Numeral.IsMantissa m → IsTyped (Double.signChars negative ++ m)
  /-- An operator and a mantissa behind an expression. -/
  | operator {cs m} (o : Operator) : IsTyped cs → Numeral.IsMantissa m →
      IsTyped (cs ++ o.symbol :: m)

namespace IsTyped

/-- What ends with a mantissa does not end in an operator. -/
theorem endsInOperator_append {m : List Char} (cs : List Char) (hm : Numeral.IsMantissa m) :
    endsInOperator (cs ++ m) = false := by
  rw [endsInOperator, List.getLast?_append_of_ne_nil cs hm.ne_nil, Option.any_eq_false]
  intro c hc
  exact hm.isSymbol_eq_false c (List.mem_of_getLast? hc)

/-- An expression as it is typed ends with an operand. -/
theorem endsInOperator_eq {cs : List Char} (h : IsTyped cs) : endsInOperator cs = false := by
  cases h with
  | operand negative hm => exact endsInOperator_append _ hm
  | @operator cs m o _ hm =>
    rw [List.append_cons]
    exact endsInOperator_append _ hm

/-- An expression as it is typed is a line unless it begins with a zero and a digit. -/
theorem isLine {cs : List Char} (h : IsTyped cs)
    (hleading : ∀ d : Char, d.isDigit → ¬ ['0', d] <+: cs) : IsLine cs := by
  induction h with
  | operand negative hm =>
    obtain ⟨hsign, hbegins⟩ := isLine_signChars negative
    exact hsign.append_mantissa hbegins hm hleading
  | @operator cs m o hcs hm ih =>
    have hfront : IsLine cs := by
      refine ih fun d hd hzero => ?_
      exact hleading d hd (hzero.trans (List.prefix_append _ _))
    have hbehind : IsLine (cs ++ [o.symbol]) := hfront.concat_symbol o hcs.endsInOperator_eq
    have hbegins : lastOperand (cs ++ [o.symbol]) = [] :=
      IsLine.lastOperand_concat (Operator.isSymbol_iff.2 ⟨o, rfl⟩)
    rw [List.append_cons] at hleading ⊢
    exact hbehind.append_mantissa hbegins hm hleading

end IsTyped

namespace Session

variable {config : Config} {s : Session}

/-- A preview of an expression that has a value and no operator at its end shows the value. -/
theorem preview_of_isOk {result : Result} (hne : s.expression.toList ≠ [])
    (hend : endsInOperator s.expression.toList = false)
    (hresult : config.calculate (.text s.expression) = .ok result) (hok : result.isOk) :
    preview config s =
      .ok ({ s with result := result.display, isPreview := true }, some result) := by
  have hall : withoutOperator s.expression.toList = s.expression.toList := by
    rw [withoutOperator, hend]
    rfl
  unfold preview
  rw [hall]
  split
  · next hnil => exact absurd hnil hne
  · next c cs hcs =>
    rw [← hcs, String.ofList_toList, hresult]
    dsimp only
    rw [if_pos hok]

/-- The display when characters have been typed. -/
structure Typed (config : Config) (cs : List Char) (s : Session) : Prop where
  /-- The expression line has all of them. -/
  expression_eq : s.expression.toList = cs
  /-- The result line shows a value. -/
  result_eq : ∃ x : Double, x.isFinite ∧ s.result = x.display
  /-- Behind a digit it shows the value of the expression, if that has one, as a preview. -/
  shows : ∀ c ∈ cs.getLast?, c.isDigit → ∀ result,
    config.calculate (.text s.expression) = .ok result → result.isOk →
      s.result = result.display ∧ s.isPreview

/-- The display before anything is typed. -/
theorem Typed.nil (config : Config) : Typed config [] {} where
  expression_eq := rfl
  result_eq := ⟨Double.zero false, rfl, rfl⟩
  shows := nofun

/-- A preview shows the value of an expression without an operator at its end, or else the value
that was shown before. -/
theorem exists_preview_typed {cs : List Char} (config : Config)
    (hexpression : s.expression.toList = cs) (hne : cs ≠ []) (hend : endsInOperator cs = false)
    (hresult : ∃ x : Double, x.isFinite ∧ s.result = x.display) :
    ∃ t result, preview config s = .ok (t, result) ∧ Typed config cs t := by
  subst hexpression
  obtain ⟨t, result, hpreview, ht⟩ := exists_preview_eq config s
  have hsame : t.expression = s.expression := by
    obtain rfl | ⟨x, -, rfl⟩ := ht
    · rfl
    · rfl
  refine ⟨t, result, hpreview, by rw [hsame], ?_, ?_⟩
  · obtain rfl | ⟨x, hx, rfl⟩ := ht
    · exact hresult
    · exact ⟨x, hx, rfl⟩
  · intro d _ _ value hvalue hok
    rw [hsame] at hvalue
    have hshown := preview_of_isOk hne hend hvalue hok
    rw [hpreview] at hshown
    cases hshown
    exact ⟨rfl, rfl⟩

/-! ## One key -/

section Key

variable {cs : List Char} {c : Char}

/-- Behind another character than a digit the result line need only show some value. -/
theorem Typed.concat {t : Session} (hexpression : t.expression.toList = cs ++ [c])
    (hresult : ∃ x : Double, x.isFinite ∧ t.result = x.display) (hc : c.isDigit = false) :
    Typed config (cs ++ [c]) t where
  expression_eq := hexpression
  result_eq := hresult
  shows := by
    intro d hd hdigit
    rw [List.getLast?_concat, Option.mem_some_iff] at hd
    rw [← hd, hc] at hdigit
    cases hdigit

/-- A point that fits is put at the end, and the result line stays. -/
theorem Typed.exists_press_point (h : Typed config cs s) (hpoint : '.' ∉ lastOperand cs) :
    ∃ r, press config s .decimal = .ok r ∧ Typed config (cs ++ ['.']) r.session := by
  have hline : withPoint s.expression = s.expression ++ "." := by
    rw [withPoint, h.expression_eq, if_neg (by simpa using hpoint)]
  have hexpression : (withPoint s.expression).toList = cs ++ ['.'] := by
    rw [hline, String.toList_append, h.expression_eq]
    rfl
  exact ⟨{ session := { s with expression := withPoint s.expression } }, rfl,
    .concat hexpression h.result_eq (by decide)⟩

variable (hmessage : ∀ x : Double, x.isFinite → x.display ≠ config.messages.divisionByZero)

include hmessage

/-- A value on the result line is not taken for a division error. -/
theorem Typed.showsDivisionError_eq (h : Typed config cs s) :
    s.showsDivisionError config = false := by
  obtain ⟨x, hx, hresult⟩ := h.result_eq
  rw [showsDivisionError, hresult]
  exact decide_eq_false (hmessage x hx)

/-- A digit that fits is put at the end, and a value is shown. -/
theorem Typed.exists_press_digit (h : Typed config cs s) (hc : c.isDigit) (hzero : cs ≠ ['0']) :
    ∃ r, press config s (.digit (String.singleton c)) = .ok r ∧
      Typed config (cs ++ [c]) r.session := by
  have hnotzero : s.expression ≠ "0" := by
    intro heq
    rw [← h.expression_eq, heq] at hzero
    exact hzero rfl
  have hcontinues : (decide (s.expression = "0") || s.showsDivisionError config) = false := by
    rw [decide_eq_false hnotzero, h.showsDivisionError_eq hmessage]
    rfl
  have hexpression : (s.expression ++ String.singleton c).toList = cs ++ [c] := by
    rw [String.toList_append, String.toList_singleton, h.expression_eq]
  have hend : endsInOperator (cs ++ [c]) = false := by
    rw [endsInOperator, List.getLast?_concat]
    exact Operator.isSymbol_of_isDigit hc
  obtain ⟨t, result, hpreview, ht⟩ := exists_preview_typed config
    (s := { s with expression := s.expression ++ String.singleton c }) hexpression
    (List.concat_ne_nil c cs) hend h.result_eq
  refine ⟨{ session := t }, ?_, ht⟩
  rw [press, digit, hcontinues, withDigit, if_neg Bool.false_ne_true, previewed, hpreview]
  rfl

/-- An operator that fits is put at the end, and the result line stays. -/
theorem Typed.exists_press_operator (h : Typed config cs s) (o : Operator)
    (hend : endsInOperator cs = false) :
    ∃ r, press config s (.operator o.text) = .ok r ∧
      Typed config (cs ++ [o.symbol]) r.session := by
  have ho : Operator.ofText? o.text = some o := by cases o <;> rfl
  have hexpression : (withOperator s.expression o).toList = cs ++ [o.symbol] := by
    rw [withOperator, h.expression_eq, withoutOperator, hend, String.toList_ofList]
    rfl
  refine ⟨{ session := { s with expression := withOperator s.expression o } }, ?_,
    .concat hexpression h.result_eq (by cases o <;> decide)⟩
  rw [press, ho]
  dsimp only
  rw [operator, h.showsDivisionError_eq hmessage, if_neg Bool.false_ne_true]

/-- Each key of a line puts its character at the end. -/
theorem exists_press_ofChar (h : Typed config cs s) (hline : IsLine (cs ++ [c])) :
    ∃ r, press config s (.ofChar c) = .ok r ∧ Typed config (cs ++ [c]) r.session := by
  obtain ⟨hsymbol, hpoint, hdigit⟩ := hline.of_concat
  obtain hc | rfl | hc := hline.chars c (List.mem_append_right _ (List.mem_singleton_self c))
  · rw [Action.ofChar, if_pos hc]
    exact h.exists_press_digit hmessage hc (hdigit hc)
  · exact h.exists_press_point (hpoint rfl)
  · obtain ⟨o, rfl⟩ := Operator.isSymbol_iff.1 hc
    have hkey : Action.ofChar o.symbol = .operator o.text := by cases o <;> rfl
    rw [hkey]
    exact h.exists_press_operator hmessage o (hsymbol hc)

end Key

/-! ## All keys -/

/-- The keys of a line put all its characters at the end, one after the other. -/
theorem exists_pressAll_ofChar
    (hmessage : ∀ x : Double, x.isFinite → x.display ≠ config.messages.divisionByZero)
    {cs ds : List Char} (h : Typed config cs s) (hline : IsLine (cs ++ ds)) :
    ∃ responses t, pressAll config s (ds.map .ofChar) = .ok responses ∧
      (displays s responses).getLast? = some t ∧ Typed config (cs ++ ds) t := by
  induction ds generalizing cs s with
  | nil =>
    rw [List.append_nil]
    exact ⟨[], s, rfl, rfl, h⟩
  | cons d ds ih =>
    rw [List.append_cons] at hline ⊢
    have hfront : IsLine (cs ++ [d]) := hline.of_front (List.prefix_append _ _)
    obtain ⟨r, hr, htyped⟩ := exists_press_ofChar hmessage h hfront
    obtain ⟨responses, t, hresponses, hlast, ht⟩ := ih htyped hline
    refine ⟨r :: responses, t, pressAll_cons hr hresponses, ?_, ht⟩
    rw [displays, List.map_cons, List.getLast?_cons_cons]
    exact hlast

/-- Typing an expression that does not begin with a zero and a digit, on an empty display and under
a configuration by which no value looks like a division error, leaves the expression as it was
typed. Finishing it gives the result of calculating it. If the last key was a digit and the result
is a value, the value was shown as a preview before. -/
theorem exists_pressAll_typed (config : Config) (w : String)
    (hmessage : ∀ x : Double, x.isFinite → x.display ≠ config.messages.divisionByZero)
    (hw : IsTyped w.toList) (hleading : ∀ d : Char, d.isDigit → ¬ ['0', d] <+: w.toList) :
    ∃ responses t r result, pressAll config {} (w.toList.map .ofChar) = .ok responses ∧
      (displays {} responses).getLast? = some t ∧ t.expression = w ∧
      press config t .finalize = .ok r ∧ config.calculate (.text w) = .ok result ∧
      r.returned = some result ∧
      ∀ c ∈ w.toList.getLast?, c.isDigit → result.isOk →
        t.result = result.display ∧ t.isPreview := by
  obtain ⟨responses, t, hresponses, hlast, ht⟩ :=
    exists_pressAll_ofChar hmessage (Typed.nil config) (hw.isLine hleading)
  have hexpression : t.expression = w := String.toList_injective ht.expression_eq
  obtain ⟨t', verdict, hcalculate, hfinalize, -⟩ := exists_finalize_eq config t
  refine ⟨responses, t, { session := t', returned := some ⟨t.expression, verdict⟩ },
    ⟨t.expression, verdict⟩, hresponses, hlast, hexpression, ?_, ?_, rfl, ?_⟩
  · unfold press
    rw [hfinalize]
    rfl
  · rw [← hexpression]
    exact hcalculate
  · intro c hc hdigit hok
    exact ht.shows c hc hdigit _ hcalculate hok

/-- A product with a negative factor is typed as it stands, and its value is shown before it is
finished. -/
theorem exists_pressAll_typed_product :
    (∀ x : Double, x.isFinite → x.display ≠ ({} : Config).messages.divisionByZero) ∧
      IsTyped "-1.5×20".toList ∧ (∀ d : Char, d.isDigit → ¬ ['0', d] <+: "-1.5×20".toList) ∧
      ∃ responses, pressAll {} {} ("-1.5×20".toList.map .ofChar) = .ok responses ∧
        (displays {} responses).getLast? = some ⟨"-1.5×20", "-30", true⟩ := by
  have hmessage : ∀ x : Double, x.isFinite → x.display ≠ ({} : Config).messages.divisionByZero :=
    fun x hx => Double.display_ne_of_mem hx (c := 'r') (by decide) (by decide)
  have hchars : "-1.5×20".toList = Double.signChars true ++ ['1', '.', '5'] ++
      Operator.multiply.symbol :: ['2', '0'] := by decide
  have hone : Numeral.IsDigits ['1'] := ⟨List.cons_ne_nil _ _, List.forall_mem_singleton.2 rfl⟩
  have hfive : ∀ c ∈ ['5'], c.isDigit := List.forall_mem_singleton.2 rfl
  have hfactor : Numeral.IsMantissa ['1', '.', '5'] := .pointed hone hfive
  have htwenty : Numeral.IsMantissa ['2', '0'] :=
    .whole ⟨List.cons_ne_nil _ _, List.forall_mem_cons.2 ⟨rfl, List.forall_mem_singleton.2 rfl⟩⟩
  have hw : IsTyped "-1.5×20".toList := by
    rw [hchars]
    exact .operator .multiply (.operand true hfactor) htwenty
  have hleading : ∀ d : Char, d.isDigit → ¬ ['0', d] <+: "-1.5×20".toList := by
    intro d _ hzero
    rw [hchars] at hzero
    exact absurd (List.cons_prefix_cons.1 hzero).1 (by decide)
  have hvalue : ({} : Config).calculate (.text "-1.5×20") =
      .ok ⟨"-1.5×20", .ok (Double.ofInt (-30))⟩ := by decide +kernel
  obtain ⟨responses, ⟨expression, shown, isPreview⟩, r, result, hresponses, hlast, hexpression, -,
    hresult, -, hshown⟩ := exists_pressAll_typed {} "-1.5×20" hmessage hw hleading
  refine ⟨hmessage, hw, hleading, responses, hresponses, ?_⟩
  cases hvalue.symm.trans hresult
  obtain ⟨hdisplay, hpreview⟩ := hshown '0' (by decide) rfl rfl
  have hthirty : (⟨"-1.5×20", .ok (Double.ofInt (-30))⟩ : Result).display = "-30" := by
    decide +kernel
  rw [hlast]
  dsimp only at hexpression hdisplay hpreview
  rw [hexpression, hdisplay, hpreview, hthirty]

end Session

end Keypad
