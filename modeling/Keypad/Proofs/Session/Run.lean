import Keypad.Proofs.Calculator.Outcome
import Keypad.Session

/-!
# What the actions of a session do

What the two actions that calculate do to the display. A preview leaves the expression line as it is
and can only put a finite value on the result line (`exists_preview_eq`). Finishing a calculation
puts a finite value in the place of the expression, empties a blank one, and leaves one with an
error as it is (`exists_finalize_eq`). Neither can fail, whatever the display shows, because no
calculation can.

`exists_pressAll_eq` is the induction for sequences of actions: what each action preserves holds of
all displays on the way. -/

namespace Keypad.Session

variable {config : Config}

/-- A preview without a value changes nothing, and one with a value shows it on the result line. -/
theorem exists_preview_cases (config : Config) (s : Session) :
    ∃ t result, preview config s = .ok (t, result) ∧
      (t = s ∧ result.bind Result.value? = none ∨
        ∃ x : Double, x.isFinite ∧ t = { s with result := x.display, isPreview := true } ∧
          result.bind Result.value? = some x) := by
  unfold preview
  split
  · exact ⟨s, none, rfl, .inl ⟨rfl, rfl⟩⟩
  · next c cs hpending =>
    obtain ⟨result, hresult, hends⟩ := config.exists_calculate_ends (String.ofList (c :: cs))
    rw [hresult]
    -- Only a value changes the display.
    cases hends with
    | value x hnone heval =>
      exact ⟨_, _, rfl, .inr ⟨x, Config.isFinite_of_evaluation heval, rfl, rfl⟩⟩
    | empty hnil => exact ⟨_, _, rfl, .inl ⟨rfl, rfl⟩⟩
    | refused token hstrict htoken => exact ⟨_, _, rfl, .inl ⟨rfl, rfl⟩⟩
    | fault f hne hnone heval => exact ⟨_, _, rfl, .inl ⟨rfl, rfl⟩⟩

/-- A preview changes nothing or shows a finite value on the result line. -/
theorem exists_preview_eq (config : Config) (s : Session) :
    ∃ t result, preview config s = .ok (t, result) ∧ (t = s ∨
      ∃ x : Double, x.isFinite ∧ t = { s with result := x.display, isPreview := true }) := by
  obtain ⟨t, result, hpreview, ⟨ht, -⟩ | ⟨x, hx, ht, -⟩⟩ := exists_preview_cases config s
  · exact ⟨t, result, hpreview, .inl ht⟩
  · exact ⟨t, result, hpreview, .inr ⟨x, hx, ht⟩⟩

/-- The display after a preview has the same expression line. -/
theorem exists_previewed_eq (config : Config) (s : Session) :
    ∃ t, previewed config s = .ok t ∧ t.expression = s.expression := by
  obtain ⟨t, result, hpreview, ht⟩ := exists_preview_eq config s
  refine ⟨t, by rw [previewed, hpreview]; rfl, ?_⟩
  obtain rfl | ⟨x, -, rfl⟩ := ht
  · rfl
  · rfl

/-- An action that ends with a preview has a response, and its expression line is the one that was
previewed. -/
theorem exists_map_previewed_eq (config : Config) (s : Session) :
    ∃ r : Response, (previewed config s).map ({ session := · }) = .ok r ∧
      r.session.expression = s.expression := by
  obtain ⟨t, ht, hexpression⟩ := exists_previewed_eq config s
  exact ⟨{ session := t }, by rw [ht]; rfl, hexpression⟩

/-- Finishing a calculation shows its value on both lines, or nothing, or the text of an error below
the expression. -/
theorem exists_finalize_eq (config : Config) (s : Session) :
    ∃ t verdict, config.calculate (.text s.expression) = .ok ⟨s.expression, verdict⟩ ∧
      finalize config s = .ok (t, ⟨s.expression, verdict⟩) ∧
      ((∃ x : Double, x.isFinite ∧ verdict = .ok x ∧ t = ⟨x.plain, x.display, false⟩) ∨
        (verdict = .empty ∧ t = ⟨"", "", false⟩) ∨
        ∃ kind, verdict = .error kind (some (config.messages.text kind)) ∧
          t = ⟨s.expression, config.messages.text kind, false⟩) := by
  obtain ⟨result, hresult, hends⟩ := config.exists_calculate_ends s.expression
  rw [finalize, hresult]
  cases hends with
  | value x hnone heval =>
    exact ⟨_, _, rfl, rfl, .inl ⟨x, Config.isFinite_of_evaluation heval, rfl, rfl⟩⟩
  | empty hnil => exact ⟨_, _, rfl, rfl, .inr (.inl ⟨rfl, rfl⟩)⟩
  | refused token hstrict htoken => exact ⟨_, _, rfl, rfl, .inr (.inr ⟨_, rfl, rfl⟩)⟩
  | fault f hne hnone heval => exact ⟨_, _, rfl, rfl, .inr (.inr ⟨_, rfl, rfl⟩)⟩

/-- The displays of a session from the first one on, one after each response. -/
def displays (s : Session) (responses : List Response) : List Session :=
  s :: responses.map Response.session

/-- The responses to several actions are the response to the first one and those to the others. -/
theorem pressAll_cons_iff {s : Session} {action : Action} {actions : List Action}
    {responses : List Response} :
    pressAll config s (action :: actions) = .ok responses ↔
      ∃ r rest, press config s action = .ok r ∧ pressAll config r.session actions = .ok rest ∧
        responses = r :: rest := by
  rw [pressAll]
  cases press config s action with
  | error fault => simp
  | ok r =>
    dsimp only
    cases hrest : pressAll config r.session actions with
    | error fault => simp [hrest]
    | ok rest => simp [hrest, eq_comm]

/-- The response to an action and those to the actions behind it are the responses to all. -/
theorem pressAll_cons {s : Session} {action : Action} {actions : List Action} {r : Response}
    {responses : List Response} (hr : press config s action = .ok r)
    (hresponses : pressAll config r.session actions = .ok responses) :
    pressAll config s (action :: actions) = .ok (r :: responses) :=
  pressAll_cons_iff.2 ⟨r, responses, hr, hresponses, rfl⟩

/-- Each display but the first one is what an action has made of the display before it. -/
theorem exists_press_of_displays {s t : Session} {actions : List Action}
    {responses : List Response} (h : pressAll config s actions = .ok responses) {i : ℕ}
    (ht : (displays s responses)[i + 1]? = some t) :
    ∃ t' action r, (displays s responses)[i]? = some t' ∧ actions[i]? = some action ∧
      press config t' action = .ok r ∧ r.session = t := by
  induction actions generalizing s responses i with
  | nil =>
    cases h
    cases ht
  | cons first actions ih =>
    obtain ⟨r, rest, hr, hrest, rfl⟩ := pressAll_cons_iff.1 h
    cases i with
    | zero => exact ⟨s, first, r, rfl, rfl, hr, Option.some.inj ht⟩
    | succ i => exact ih hrest ht

/-- What holds of a display and is preserved by each of the actions holds of all displays. -/
theorem exists_pressAll_eq {P : Session → Prop} {Q : Action → Prop}
    (hstep : ∀ s action, P s → Q action → ∃ r, press config s action = .ok r ∧ P r.session)
    {s : Session} {actions : List Action} (hs : P s) (hactions : ∀ action ∈ actions, Q action) :
    ∃ responses, pressAll config s actions = .ok responses ∧
      responses.length = actions.length ∧ ∀ t ∈ displays s responses, P t := by
  induction actions generalizing s with
  | nil => exact ⟨[], rfl, rfl, by simpa [displays] using hs⟩
  | cons action actions ih =>
    obtain ⟨haction, hrest⟩ := List.forall_mem_cons.1 hactions
    obtain ⟨r, hr, hP⟩ := hstep s action hs haction
    obtain ⟨responses, hresponses, hlength, hall⟩ := ih hP hrest
    exact ⟨r :: responses, pressAll_cons hr hresponses,
      by rw [List.length_cons, hlength, List.length_cons], List.forall_mem_cons.2 ⟨hs, hall⟩⟩

/-- What holds of the display and of the actions that led to it, and is preserved by each further
action, holds of the last display and of all actions. -/
theorem exists_pressAll_last {P : List Action → Session → Prop} {Q : Action → Prop}
    (hstep : ∀ past s action, P past s → Q action →
      ∃ r, press config s action = .ok r ∧ P (past ++ [action]) r.session)
    {past actions : List Action} {s : Session} (hs : P past s)
    (hactions : ∀ action ∈ actions, Q action) :
    ∃ responses t, pressAll config s actions = .ok responses ∧
      (displays s responses).getLast? = some t ∧ P (past ++ actions) t := by
  induction actions generalizing past s with
  | nil => exact ⟨[], s, rfl, rfl, by rwa [List.append_nil]⟩
  | cons action actions ih =>
    obtain ⟨haction, hrest⟩ := List.forall_mem_cons.1 hactions
    obtain ⟨r, hr, hP⟩ := hstep past s action hs haction
    obtain ⟨responses, t, hresponses, hlast, ht⟩ := ih hP hrest
    refine ⟨r :: responses, t, pressAll_cons hr hresponses, ?_, by rwa [List.append_cons]⟩
    rw [displays, List.map_cons, List.getLast?_cons_cons]
    exact hlast

end Keypad.Session
