import Keypad.Proofs.Session.Line

/-!
# What keys do to the two lines

Whatever a key does to the expression line, it does one of four things to the display as a whole: it
edits the expression line alone, it resets both lines, it previews an expression, or it finishes the
calculation. `Action.effect?` says which it is, and `Effect.apply` carries it out and notes what has
been written on the result line, a `Source`. `exists_press_effect` is the case distinction that all
statements about single keys start from: the response to a key is its effect. That the note is right
is `Effect.exists_apply_eq`: the result line has the text of what was written, or else it is as
before. -/

namespace Keypad

open Session

/-! ## What is written on the result line -/

/-- What a result line was written by. -/
inductive Source where
  /-- Both lines were reset, or nothing was done yet. -/
  | reset
  /-- A value was shown, as a preview or at the end of a calculation. -/
  | value (x : Double)
  /-- A blank expression was finished. -/
  | blank
  /-- A calculation was finished with an error. -/
  | error (kind : ErrorKind)

namespace Source

/-- The text that is written. -/
def text (config : Config) : Source → String
  | .reset => "0"
  | .value x => x.display
  | .blank => ""
  | .error kind => config.messages.text kind

/-- What is written when a calculation is finished. -/
def ofVerdict : Verdict → Source
  | .ok x => .value x
  | .empty => .blank
  | .error kind _ => .error kind

/-- A value that is shown is finite. -/
def IsProper : Source → Prop
  | .value x => x.isFinite
  | _ => True

end Source

/-! ## Effects -/

/-- What a key does to the display. -/
inductive Effect where
  /-- Only the expression line changes. -/
  | edit (expression : String)
  /-- Both lines are reset, and then an expression is entered. -/
  | reset (expression : String)
  /-- The expression line changes, and its value is shown if it has one. -/
  | preview (expression : String)
  /-- The calculation is finished. -/
  | finish

/-- The effect of a key. Setting lines directly is no key. -/
def Action.effect? (config : Config) (s : Session) : Action → Option Effect
  | .digit text =>
    let fresh := s.expression = "0" || s.showsDivisionError config
    some (.preview (withDigit fresh s.expression text))
  | .operator symbol =>
    match Operator.ofText? symbol with
    | some o =>
      if s.showsDivisionError config then some (.reset (withOperator "" o))
      else some (.edit (withOperator s.expression o))
    | none => some (.edit s.expression)
  | .decimal => some (.edit (withPoint s.expression))
  | .clearEntry =>
    if Token.ofText s.expression = [] then some (.edit s.expression)
    else some (.preview (withoutToken s.expression))
  | .allClear => some (.reset "")
  | .backspace =>
    if s.expression = "" then some (.edit s.expression)
    else if withoutLast s.expression = "" then some (.reset "")
    else some (.preview (withoutLast s.expression))
  | .preview => some (.preview s.expression)
  | .finalize => some .finish
  | .assign .. => none

/-- Only one key finishes a calculation. -/
theorem Action.eq_finalize_of_effect? {config : Config} {s : Session} {action : Action}
    (h : action.effect? config s = some .finish) : action = .finalize := by
  unfold Action.effect? at h
  cases action with
  | finalize => rfl
  | digit text => cases h
  | operator symbol =>
    dsimp only at h
    cases hsymbol : Operator.ofText? symbol with
    | none => simp [hsymbol] at h
    | some o =>
      simp only [hsymbol] at h
      split_ifs at h <;> cases h
  | decimal => cases h
  | clearEntry =>
    dsimp only at h
    split_ifs at h <;> cases h
  | allClear => cases h
  | backspace =>
    dsimp only at h
    split_ifs at h <;> cases h
  | preview => cases h
  | assign => cases h

namespace Effect

/-- The display after an effect, and what was written on its result line, if anything was. -/
def apply (config : Config) (s : Session) : Effect → Except ScaleFault (Session × Option Source)
  | .edit expression => .ok ({ s with expression }, none)
  | .reset expression => .ok ({ expression }, some .reset)
  | .preview expression =>
    (Session.preview config { s with expression }).map fun (t, result) =>
      (t, (result.bind Result.value?).map .value)
  | .finish =>
    (Session.finalize config s).map fun (t, result) => (t, some (.ofVerdict result.verdict))

/-- A preview of an expression shows it on the expression line and writes its value, if it has one.
-/
theorem exists_apply_preview (config : Config) (s : Session) (expression : String) :
    ∃ t written, (preview expression).apply config s = .ok (t, written) ∧
      (t = { s with expression } ∧ written = none ∨
        ∃ x : Double, x.isFinite ∧ t = ⟨expression, x.display, true⟩ ∧
          written = some (.value x)) := by
  obtain ⟨t, result, hpreview, ⟨rfl, hnone⟩ | ⟨x, hx, rfl, hvalue⟩⟩ :=
    exists_preview_cases config { s with expression }
  · exact ⟨_, _, by rw [apply, hpreview]; rfl, .inl ⟨rfl, by rw [hnone]; rfl⟩⟩
  · exact ⟨_, _, by rw [apply, hpreview]; rfl, .inr ⟨x, hx, rfl, by rw [hvalue]; rfl⟩⟩

/-- Every effect leads to a display. Its result line has the text of what was written there, or else
it is as it was before. -/
theorem exists_apply_eq (config : Config) (s : Session) (e : Effect) :
    ∃ t written, e.apply config s = .ok (t, written) ∧ (∀ w ∈ written, w.IsProper) ∧
      t.result = (written.map (Source.text config)).getD s.result := by
  cases e with
  | edit expression => exact ⟨_, _, rfl, nofun, rfl⟩
  | reset expression => exact ⟨_, _, rfl, by rintro w ⟨⟩; trivial, rfl⟩
  | preview expression =>
    obtain ⟨t, written, happly, ⟨rfl, rfl⟩ | ⟨x, hx, rfl, rfl⟩⟩ :=
      exists_apply_preview config s expression
    · exact ⟨_, _, happly, nofun, rfl⟩
    · exact ⟨_, _, happly, by rintro w ⟨⟩; exact hx, rfl⟩
  | finish =>
    obtain ⟨t, verdict, -, hfinalize, hcases⟩ := exists_finalize_eq config s
    refine ⟨t, some (.ofVerdict verdict), by rw [apply, hfinalize]; rfl, ?_⟩
    obtain ⟨x, hx, rfl, rfl⟩ | ⟨rfl, rfl⟩ | ⟨kind, rfl, rfl⟩ := hcases
    · exact ⟨by rintro w ⟨⟩; exact hx, rfl⟩
    · exact ⟨by rintro w ⟨⟩; trivial, rfl⟩
    · exact ⟨by rintro w ⟨⟩; trivial, rfl⟩

end Effect

/-! ## Keys -/

variable {action : Action}

/-- A key that previews an expression leads to the display of the preview. -/
theorem Session.exists_map_previewed_effect (config : Config) (s : Session) (expression : String) :
    ∃ (r : Response) (written : Option Source),
      (previewed config { s with expression }).map ({ session := · }) = .ok r ∧
        (Effect.preview expression).apply config s = .ok (r.session, written) := by
  obtain ⟨t, result, hpreview, -⟩ := exists_preview_cases config { s with expression }
  exact ⟨{ session := t }, _, by rw [previewed, hpreview]; rfl, by rw [Effect.apply, hpreview]; rfl⟩

/-- Each key has a response and an effect, and the effect leads to the display of the response. -/
theorem Session.exists_press_effect (config : Config) (s : Session) (hkey : action.IsKey) :
    ∃ r e written, press config s action = .ok r ∧ action.effect? config s = some e ∧
      e.apply config s = .ok (r.session, written) := by
  -- Three of the keys end with a preview of the expression that they leave.
  have hpreviewed : ∀ expression, ∃ (r : Response) (e : Effect) (written : Option Source),
      (previewed config { s with expression }).map ({ session := · }) = .ok r ∧
        some (Effect.preview expression) = some e ∧
          e.apply config s = .ok (r.session, written) := by
    intro expression
    obtain ⟨r, written, hr, happly⟩ := exists_map_previewed_effect config s expression
    exact ⟨r, _, written, hr, rfl, happly⟩
  cases action with
  | digit text => exact hpreviewed _
  | operator symbol =>
    rw [press, Action.effect?]
    cases Operator.ofText? symbol with
    | none => exact ⟨_, _, _, rfl, rfl, rfl⟩
    | some o =>
      dsimp only
      rw [operator]
      split_ifs
      · exact ⟨_, _, _, rfl, rfl, rfl⟩
      · exact ⟨_, _, _, rfl, rfl, rfl⟩
  | decimal => exact ⟨_, _, _, rfl, rfl, rfl⟩
  | clearEntry =>
    rw [press, clearEntry, Action.effect?]
    split_ifs
    · exact ⟨_, _, _, rfl, rfl, rfl⟩
    · exact hpreviewed _
  | allClear => exact ⟨_, _, _, rfl, rfl, rfl⟩
  | backspace =>
    rw [press, backspace, Action.effect?]
    split_ifs
    · exact ⟨_, _, _, rfl, rfl, rfl⟩
    · exact ⟨_, _, _, rfl, rfl, rfl⟩
    · exact hpreviewed _
  | preview =>
    obtain ⟨t, result, hpreview, -⟩ := exists_preview_cases config s
    exact ⟨{ session := t, returned := result }, _, _, by rw [press, hpreview]; rfl, rfl,
      by rw [Effect.apply, hpreview]; rfl⟩
  | finalize =>
    obtain ⟨t, verdict, -, hfinalize, -⟩ := exists_finalize_eq config s
    exact ⟨{ session := t, returned := some ⟨s.expression, verdict⟩ }, _, _,
      by rw [press, hfinalize]; rfl, rfl, by rw [Effect.apply, hfinalize]; rfl⟩
  | assign expression result isPreview => exact absurd hkey id

end Keypad
