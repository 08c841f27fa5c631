import Keypad.Proofs.Double.Written
import Keypad.Proofs.Session.Effect
import Keypad.Proofs.Session.Finalize

/-!
# When a key starts over

After a division error the next digit or operator starts over, and after any other error the
expression is left for correction. Which of the two it is, a key sees from the text on the result
line alone. So a run is followed here together with what has written this line last (`LastWritten`),
and the text is known from that (`LastWritten.result_eq`). A key starts over exactly where what was
written last has the text of a division error (`exists_press_digit_eq`, `exists_press_operator_eq`).

When no other source has that text (`Messages.IsDistinct`), it says what it should: that the last
one to write was the finishing of a calculation with a division by zero
(`LastWritten.exists_finalize`). The configuration does not guarantee it. With one text for all
errors, an expression that is only incomplete is thrown away (`pressAll_incomplete_digit`). -/

namespace Keypad

open Session

/-- The text of a division error stands for nothing else on a result line. -/
structure Messages.IsDistinct (m : Messages) : Prop where
  /-- The line of a blank calculation is different. -/
  blank : m.divisionByZero ≠ ""
  /-- All values are shown differently, among them the zero of a reset. -/
  value : ∀ x : Double, x.isFinite → x.display ≠ m.divisionByZero
  /-- The other errors have other texts. -/
  error : ∀ kind, m.text kind = m.divisionByZero → kind = .divisionByZero

/-- Under distinct texts, what has the text of a division error is one. -/
theorem Messages.IsDistinct.text_eq_iff {config : Config} (h : config.messages.IsDistinct)
    {source : Source} (hproper : source.IsProper) :
    source.text config = config.messages.divisionByZero ↔ source = .error .divisionByZero := by
  constructor
  · intro htext
    cases source with
    | reset => exact absurd htext (h.value (Double.zero false) rfl)
    | value x => exact absurd htext (h.value x hproper)
    | blank => exact absurd htext.symm h.blank
    | error kind => rw [h.error kind htext]
  · rintro rfl
    rfl

/-- The texts of a configuration that chooses none are distinct. -/
theorem Messages.isDistinct_default : ({} : Messages).IsDistinct where
  blank := by decide
  value := fun x hx => Double.display_ne_of_mem hx (c := 'r') (by decide) (by decide)
  error := by
    rintro (_ | _ | _) htext
    · exact absurd htext (by decide)
    · rfl
    · exact absurd htext (by decide)

namespace Session

variable {config : Config} {s : Session}

/-! ## What was written last -/

/-- The actions lead from an empty display to this one, and its result line was last written by this
source. -/
inductive LastWritten (config : Config) : List Action → Session → Source → Prop
  /-- A new session shows the zero of a reset. -/
  | start : LastWritten config [] {} .reset
  /-- An action may write the line anew. -/
  | press {past s source action e t written} : LastWritten config past s source →
      action.effect? config s = some e → e.apply config s = .ok (t, written) →
      LastWritten config (past ++ [action]) t (written.getD source)

/-- The result line has the text of what was written last, and values on it are finite. -/
theorem LastWritten.result_eq {past : List Action} {source : Source}
    (h : LastWritten config past s source) :
    source.IsProper ∧ s.result = source.text config := by
  induction h with
  | start => exact ⟨trivial, rfl⟩
  | @press past s source action e t written _ _ happly ih =>
    obtain ⟨t', written', happly', hproper, hresult⟩ := Effect.exists_apply_eq config s e
    cases happly.symm.trans happly'
    cases written with
    | none => exact ⟨ih.1, hresult.trans ih.2⟩
    | some w => exact ⟨hproper w rfl, hresult⟩

/-- An action that writes nothing on the result line leaves the line and its mark as they are. -/
theorem eq_of_apply_none {t : Session} {e : Effect} (h : e.apply config s = .ok (t, none)) :
    t.result = s.result ∧ t.isPreview = s.isPreview := by
  cases e with
  | edit expression =>
    cases h
    exact ⟨rfl, rfl⟩
  | reset expression => cases h
  | preview expression =>
    obtain ⟨t', written, happly, ⟨rfl, -⟩ | ⟨x, -, -, rfl⟩⟩ :=
      Effect.exists_apply_preview config s expression
    · cases h.symm.trans happly
      exact ⟨rfl, rfl⟩
    · cases h.symm.trans happly
  | finish =>
    obtain ⟨t', verdict, -, hfinalize, -⟩ := exists_finalize_eq config s
    rw [Effect.apply, hfinalize] at h
    cases h

/-- An action that writes an error has finished a calculation with it. -/
theorem finalize_of_apply_error {t : Session} {action : Action} {e : Effect} {kind : ErrorKind}
    (he : action.effect? config s = some e)
    (h : e.apply config s = .ok (t, some (.error kind))) :
    action = .finalize ∧ ∃ result, finalize config s = .ok (t, result) ∧
      result.outcome = .error kind ∧ t.isPreview = false := by
  cases e with
  | edit expression => cases h
  | reset expression => cases h
  | preview expression =>
    obtain ⟨t', written, happly, ⟨-, rfl⟩ | ⟨x, -, -, rfl⟩⟩ :=
      Effect.exists_apply_preview config s expression
    · cases h.symm.trans happly
    · cases h.symm.trans happly
  | finish =>
    obtain ⟨t', verdict, -, hfinalize, hcases⟩ := exists_finalize_eq config s
    rw [Effect.apply, hfinalize] at h
    obtain ⟨x, -, rfl, rfl⟩ | ⟨rfl, rfl⟩ | ⟨kind', rfl, rfl⟩ := hcases
    · cases h
    · cases h
    · cases h
      exact ⟨Action.eq_finalize_of_effect? he, _, hfinalize, rfl, rfl⟩

/-- If the last one to write was an error, then a calculation was finished with it, and the result
line and its mark are the same since. -/
theorem LastWritten.exists_finalize {past : List Action} {kind : ErrorKind}
    (h : LastWritten config past s (.error kind)) :
    ∃ before after t source t' result, past = before ++ .finalize :: after ∧
      LastWritten config before t source ∧ finalize config t = .ok (t', result) ∧
      result.outcome = .error kind ∧ s.result = t'.result ∧ s.isPreview = false := by
  generalize hsource : Source.error kind = source at h
  induction h with
  | start => cases hsource
  | @press past s source action e t written hpast he happly ih =>
    cases written with
    | none =>
      obtain ⟨before, after, u, source', u', result, rfl, hbefore, hfinalize, houtcome, hresult,
        hpreview⟩ := ih hsource
      obtain ⟨hsame, hmark⟩ := eq_of_apply_none happly
      exact ⟨before, after ++ [action], u, source', u', result, by simp, hbefore, hfinalize,
        houtcome, hsame.trans hresult, hmark.trans hpreview⟩
    | some w =>
      obtain rfl : Source.error kind = w := hsource
      obtain ⟨rfl, result, hfinalize, houtcome, hpreview⟩ := finalize_of_apply_error he happly
      exact ⟨past, [], s, source, t, result, rfl, hpast, hfinalize, houtcome, rfl, hpreview⟩

/-- Every sequence of keys leads to a display whose result line was last written by something. -/
theorem exists_pressAll_lastWritten (config : Config) {actions : List Action}
    (h : ∀ action ∈ actions, action.IsKey) :
    ∃ responses t source, pressAll config {} actions = .ok responses ∧
      (displays {} responses).getLast? = some t ∧ LastWritten config actions t source := by
  have hstep : ∀ (past : List Action) (s : Session) (action : Action),
      (∃ source, LastWritten config past s source) → action.IsKey →
        ∃ r, press config s action = .ok r ∧
          ∃ source, LastWritten config (past ++ [action]) r.session source := by
    rintro past s action ⟨source, hsource⟩ hkey
    obtain ⟨r, e, written, hr, he, happly⟩ := exists_press_effect config s hkey
    exact ⟨r, hr, _, .press hsource he happly⟩
  obtain ⟨responses, t, hresponses, hlast, source, hsource⟩ :=
    exists_pressAll_last hstep ⟨_, .start⟩ h
  exact ⟨responses, t, source, hresponses, hlast, hsource⟩

/-! ## The next key -/

/-- A digit takes the place of a single zero or of an expression beside the text of a division
error, and is put behind every other expression. -/
theorem exists_press_digit_eq (config : Config) (s : Session) (text : String) :
    ∃ r, press config s (.digit text) = .ok r ∧ r.session.expression =
      if s.expression = "0" ∨ s.result = config.messages.divisionByZero then text
      else s.expression ++ text := by
  obtain ⟨r, hr, hexpression⟩ := exists_map_previewed_eq config { s with
    expression := withDigit (s.expression = "0" || s.showsDivisionError config) s.expression text }
  refine ⟨r, hr, ?_⟩
  rw [hexpression, withDigit, showsDivisionError]
  simp

/-- An operator clears an expression beside the text of a division error, and is put at the end of
every other one. -/
theorem exists_press_operator_eq (config : Config) (s : Session) (o : Operator) :
    ∃ r, press config s (.operator o.text) = .ok r ∧ r.session.expression =
      if s.result = config.messages.divisionByZero then o.text
      else withOperator s.expression o := by
  have ho : Operator.ofText? o.text = some o := by cases o <;> rfl
  have hempty : withOperator "" o = o.text := by cases o <;> rfl
  refine ⟨{ session := operator config s o }, by rw [press, ho], ?_⟩
  rw [operator, showsDivisionError, ← hempty]
  dsimp only
  simp only [decide_eq_true_eq]
  split_ifs <;> rfl

/-- After a calculation was finished with an error whose text is not that of a division error, the
next key extends the expression. -/
theorem exists_press_of_finalize_error {t : Session} {result : Result} {kind : ErrorKind}
    (h : finalize config s = .ok (t, result)) (hkind : result.outcome = .error kind)
    (htext : config.messages.text kind ≠ config.messages.divisionByZero) :
    (∀ text, ∃ r, press config t (.digit text) = .ok r ∧
      r.session.expression = s.expression ++ text) ∧
    ∀ o : Operator, ∃ r, press config t (.operator o.text) = .ok r ∧
      r.session.expression = withOperator s.expression o := by
  obtain ⟨t', verdict, hcalculate, hfinalize, hcases⟩ := exists_finalize_eq config s
  cases h.symm.trans hfinalize
  obtain ⟨x, -, rfl, -⟩ | ⟨rfl, -⟩ | ⟨kind', rfl, rfl⟩ := hcases
  · cases hkind
  · cases hkind
  · cases hkind
    have hzero : s.expression ≠ "0" := by
      intro hzero
      -- A single zero has a value.
      have hvalue := config.calculate_plain (x := Double.zero false) rfl
      have hplain : (Double.zero false).plain = "0" := rfl
      rw [hplain, ← hzero, hcalculate] at hvalue
      cases hvalue
    refine ⟨fun text => ?_, fun o => ?_⟩
    · obtain ⟨r, hr, hexpression⟩ := exists_press_digit_eq config
        ⟨s.expression, config.messages.text kind, false⟩ text
      exact ⟨r, hr, by rw [hexpression, if_neg (not_or.2 ⟨hzero, htext⟩)]⟩
    · obtain ⟨r, hr, hexpression⟩ := exists_press_operator_eq config
        ⟨s.expression, config.messages.text kind, false⟩ o
      exact ⟨r, hr, by rw [hexpression, if_neg htext]⟩

/-- What the next key does to a display whose result line was last written by `source`, the actions
being those that led to it. -/
structure NextKey (config : Config) (past : List Action) (t : Session) (source : Source) :
    Prop where
  /-- The result line shows what was written last. -/
  result_eq : t.result = source.text config
  /-- A digit takes the place of the expression if this is a single zero or if the text is that of a
  division error, and is put behind it otherwise. -/
  digit : ∀ text, ∃ r, press config t (.digit text) = .ok r ∧ r.session.expression =
    if t.expression = "0" ∨ source.text config = config.messages.divisionByZero then text
    else t.expression ++ text
  /-- An operator clears the expression if the text is that of a division error, and is put at its
  end otherwise. -/
  operator : ∀ o : Operator, ∃ r, press config t (.operator o.text) = .ok r ∧
    r.session.expression = if source.text config = config.messages.divisionByZero then o.text
      else withOperator t.expression o
  /-- If nothing else has the text of a division error, then one was written last: a calculation was
  finished with it, and the result line is the same since. -/
  divisionError : config.messages.IsDistinct → source.text config = config.messages.divisionByZero →
    source = .error .divisionByZero ∧
    ∃ before after s written s' result, past = before ++ .finalize :: after ∧
      LastWritten config before s written ∧ finalize config s = .ok (s', result) ∧
      result.outcome = .error .divisionByZero ∧ t.result = s'.result ∧ t.isPreview = false
  /-- When the calculation is finished now, and with an error of another text, the next key extends
  the expression. -/
  otherError : ∀ t' result kind, finalize config t = .ok (t', result) →
    result.outcome = .error kind → config.messages.text kind ≠ config.messages.divisionByZero →
      (∀ text, ∃ r, press config t' (.digit text) = .ok r ∧
        r.session.expression = t.expression ++ text) ∧
      ∀ o : Operator, ∃ r, press config t' (.operator o.text) = .ok r ∧
        r.session.expression = withOperator t.expression o

/-- What was written last on the result line decides what the next key does. -/
theorem LastWritten.nextKey {past : List Action} {source : Source}
    (h : LastWritten config past s source) : NextKey config past s source where
  result_eq := h.result_eq.2
  digit := by
    rw [← h.result_eq.2]
    exact exists_press_digit_eq config s
  operator := by
    rw [← h.result_eq.2]
    exact exists_press_operator_eq config s
  divisionError := by
    intro hdistinct htext
    have hdivision := (hdistinct.text_eq_iff h.result_eq.1).1 htext
    exact ⟨hdivision, (hdivision ▸ h).exists_finalize⟩
  otherError := fun _ _ _ => exists_press_of_finalize_error

/-- Every sequence of keys on an empty display leads to a display whose result line was last written
by something. The next key starts over only if this has the text of a division error, and under
distinct texts only if it is one. -/
theorem exists_pressAll_nextKey (config : Config) (actions : List Action)
    (h : ∀ action ∈ actions, action.IsKey) :
    ∃ responses t source, pressAll config {} actions = .ok responses ∧
      (displays {} responses).getLast? = some t ∧ LastWritten config actions t source ∧
      NextKey config actions t source := by
  obtain ⟨responses, t, source, hresponses, hlast, hsource⟩ :=
    exists_pressAll_lastWritten config h
  exact ⟨responses, t, source, hresponses, hlast, hsource, hsource.nextKey⟩

/-- After eight divided by zero was finished, a digit begins a new expression. Since the texts are
distinct, what the result line shows can only be a division error. -/
theorem exists_pressAll_nextKey_eightByZero :
    (∀ action ∈ [.digit "8", .operator "÷", .digit "0", .finalize], Action.IsKey action) ∧
      ∃ responses, pressAll {} {} [.digit "8", .operator "÷", .digit "0", .finalize] =
          .ok responses ∧
        (displays {} responses).getLast? = some ⟨"8÷0", "Error: Div by 0", false⟩ ∧
        LastWritten {} [.digit "8", .operator "÷", .digit "0", .finalize]
          ⟨"8÷0", "Error: Div by 0", false⟩ (.error .divisionByZero) ∧
        ∃ r, press {} ⟨"8÷0", "Error: Div by 0", false⟩ (.digit "5") = .ok r ∧
          r.session.expression = "5" := by
  have hkeys : ∀ action ∈ [.digit "8", .operator "÷", .digit "0", .finalize],
      Action.IsKey action := by
    have height : Action.IsKey (.digit "8") := ⟨'8', rfl, rfl⟩
    have hzero : Action.IsKey (.digit "0") := ⟨'0', rfl, rfl⟩
    simp only [List.forall_mem_cons]
    exact ⟨height, trivial, hzero, trivial, nofun⟩
  have hrun : pressAll {} {} [.digit "8", .operator "÷", .digit "0", .finalize] =
      .ok [⟨⟨"8", "8", true⟩, none, none⟩, ⟨⟨"8÷", "8", true⟩, none, none⟩,
        ⟨⟨"8÷0", "8", true⟩, none, none⟩,
        ⟨⟨"8÷0", "Error: Div by 0", false⟩,
          some ⟨"8÷0", .error .divisionByZero (some "Error: Div by 0")⟩, none⟩] := by
    decide +kernel
  obtain ⟨responses, t, source, hresponses, hlast, hsource, hnext⟩ :=
    exists_pressAll_nextKey {} _ hkeys
  cases hrun.symm.trans hresponses
  obtain rfl : ⟨"8÷0", "Error: Div by 0", false⟩ = t := Option.some.inj hlast
  obtain ⟨rfl, -⟩ := hnext.divisionError Messages.isDistinct_default hnext.result_eq.symm
  obtain ⟨r, hr, hexpression⟩ := hnext.digit "5"
  refine ⟨hkeys, _, hrun, rfl, hsource, r, hr, ?_⟩
  rw [hexpression, if_pos (.inr hnext.result_eq.symm)]

/-- With one text for all errors, a digit behind an expression that is only incomplete throws it
away. -/
theorem pressAll_incomplete_digit :
    pressAll { messages := { divisionByZero := "Error" } } {}
        [.digit "2", .operator "+", .finalize, .digit "3"] =
      .ok [⟨⟨"2", "2", true⟩, none, none⟩, ⟨⟨"2+", "2", true⟩, none, none⟩,
        ⟨⟨"2+", "Error", false⟩,
          some ⟨"2+", .error .invalidExpression (some "Error")⟩, none⟩,
        ⟨⟨"3", "3", true⟩, none, none⟩] := by
  decide +kernel

end Session

end Keypad
