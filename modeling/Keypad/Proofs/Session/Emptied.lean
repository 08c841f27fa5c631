import Keypad.Proofs.Session.ClearEntry
import Keypad.Proofs.Session.Effect

/-!
# What stands beside an empty expression line

An empty expression line should have nothing beside it but the zero of a reset, or nothing at all
where a blank calculation was finished (`AtRest`). Keys keep to that with one exception. A key that
empties the line by resetting it resets the result as well, and finishing a calculation leaves the
line empty only when it was blank. But removing the last token goes on with a preview, and a preview
of an empty line does nothing: when the token was the only one, the result line stays as it was
(`press_clearEntry_of_singleton`). It is then what stood beside the removed token, be it a value or
the text of an error.

`press_empties` says this of one key. Over a whole run, `exists_pressAll_atRest` finds for each
display with an empty line that is not at rest the press that removed the only token, and the
display has not changed since. -/

namespace Keypad.Session

/-- The result line beside an empty expression line: the zero of a reset or nothing, and no preview.
-/
def AtRest (s : Session) : Prop := (s.result = "0" ∨ s.result = "") ∧ s.isPreview = false

variable {config : Config} {s : Session} {action : Action} {text : String}

/-! ## The expression line -/

/-- A digit key does not leave the expression line empty. -/
theorem withDigit_ne_empty (fresh : Bool) (text : String) (c : Char) :
    withDigit fresh text (String.singleton c) ≠ "" := by
  intro h
  have hlast : c ∈ (withDigit fresh text (String.singleton c)).toList := by
    unfold withDigit
    split_ifs
    · simp
    · simp
  rw [h] at hlast
  cases hlast

/-- An operator key does not leave the expression line empty. -/
theorem withOperator_ne_empty (text : String) (o : Operator) : withOperator text o ≠ "" := by
  intro h
  have hlast : o.symbol ∈ (withOperator text o).toList := by
    rw [withOperator, String.toList_ofList]
    exact List.mem_append_right _ (List.mem_singleton_self _)
  rw [h] at hlast
  cases hlast

/-- The point key removes nothing. -/
theorem eq_empty_of_withPoint (h : withPoint text = "") : text = "" := by
  unfold withPoint at h
  split_ifs at h with hpoint
  · exact h
  · have hlast : '.' ∈ (text ++ ".").toList := by simp
    rw [h] at hlast
    cases hlast

/-- Removing the last token leaves nothing exactly where it was the only one. -/
theorem withoutToken_eq_empty_iff (hne : Token.ofText text ≠ []) :
    withoutToken text = "" ↔ (Token.ofText text).length = 1 := by
  have hcleared : cleared^[1] text = withoutToken text := by
    rw [Function.iterate_one, cleared, if_neg hne]
  have hpos := List.length_pos_iff.2 hne
  rw [← hcleared, iterate_cleared_eq_empty_iff hne]
  omega

/-- A key that edits the expression line or previews it leaves it empty only if it was empty, or by
removing the only token. -/
theorem effect?_empty (hkey : action.IsKey)
    (he : action.effect? config s = some (.edit "") ∨
      action.effect? config s = some (.preview "")) :
    s.expression = "" ∨ action = .clearEntry ∧ (Token.ofText s.expression).length = 1 := by
  unfold Action.effect? at he
  -- What a digit or an operator writes is never empty, and a reset is another effect.
  cases action with
  | digit text =>
    obtain ⟨c, -, rfl⟩ := hkey
    simp [withDigit_ne_empty] at he
  | operator symbol =>
    left
    cases hsymbol : Operator.ofText? symbol with
    | none => simpa [hsymbol] using he
    | some o =>
      simp only [hsymbol] at he
      split_ifs at he
      · simp at he
      · simp [withOperator_ne_empty] at he
  | decimal => exact .inl (eq_empty_of_withPoint (by simpa using he))
  | clearEntry =>
    dsimp only at he
    split_ifs at he with hnil
    · exact .inl (by simpa using he)
    · exact .inr ⟨rfl, (withoutToken_eq_empty_iff hnil).1 (by simpa using he)⟩
  | allClear => simp at he
  | backspace =>
    dsimp only at he
    split_ifs at he with hempty hlast
    · exact .inl hempty
    · simp at he
    · exact absurd (by simpa using he) hlast
  | preview => exact .inl (by simpa using he)
  | finalize => simp at he
  | assign expression result isPreview => exact absurd hkey id

/-! ## One key -/

/-- A preview of an empty expression line does nothing else. -/
theorem eq_of_apply_preview_empty {t : Session} {written : Option Source}
    (h : (Effect.preview "").apply config s = .ok (t, written)) :
    t = { s with expression := "" } := by
  cases h
  rfl

/-- Finishing a calculation leaves the expression line empty only if it was blank, and at rest. -/
theorem atRest_of_apply_finish {t : Session} {written : Option Source}
    (h : Effect.finish.apply config s = .ok (t, written)) (hempty : t.expression = "") :
    AtRest t := by
  obtain ⟨t', verdict, hcalculate, hfinalize, hcases⟩ := exists_finalize_eq config s
  rw [Effect.apply, hfinalize] at h
  cases h
  obtain ⟨x, hx, -, rfl⟩ | ⟨-, rfl⟩ | ⟨kind, rfl, rfl⟩ := hcases
  · -- The text of a value is not empty.
    obtain ⟨negative, m, hplain, hm⟩ := Double.exists_plain_eq hx
    have hnil : x.plain = "" := hempty
    rw [hnil] at hplain
    exact absurd (List.append_eq_nil_iff.1 hplain.symm).2 hm.isMantissa.ne_nil
  · exact ⟨.inr rfl, rfl⟩
  · -- An error needs an expression that is not blank.
    dsimp only at hempty
    rw [hempty] at hcalculate
    cases hcalculate

/-- A key that leaves the expression line empty leaves the display at rest, or does not change it,
or has removed the only token and nothing else. -/
theorem press_empties {r : Response} (hkey : action.IsKey) (hr : press config s action = .ok r)
    (hempty : r.session.expression = "") :
    AtRest r.session ∨ r.session = s ∨
      action = .clearEntry ∧ (Token.ofText s.expression).length = 1 ∧
        r.session = { s with expression := "" } := by
  obtain ⟨r', e, written, hr', he, happly⟩ := exists_press_effect config s hkey
  cases hr.symm.trans hr'
  -- An edit and a preview that writes nothing lead to the same display.
  have hchanged : r.session = { s with expression := "" } →
      (s.expression = "" ∨ action = .clearEntry ∧ (Token.ofText s.expression).length = 1) →
        r.session = s ∨ action = .clearEntry ∧ (Token.ofText s.expression).length = 1 ∧
          r.session = { s with expression := "" } := by
    rintro heq (hs | ⟨haction, hone⟩)
    · exact .inl (by rw [heq, ← hs])
    · exact .inr ⟨haction, hone, heq⟩
  cases e with
  | edit expression =>
    obtain ⟨heq, -⟩ := Prod.mk.inj (Except.ok.inj happly)
    rw [← heq] at hempty
    obtain rfl : expression = "" := hempty
    exact .inr (hchanged heq.symm (effect?_empty hkey (.inl he)))
  | reset expression =>
    obtain ⟨heq, -⟩ := Prod.mk.inj (Except.ok.inj happly)
    rw [← heq]
    exact .inl ⟨.inl rfl, rfl⟩
  | preview expression =>
    obtain ⟨t, written', happly', ht⟩ := Effect.exists_apply_preview config s expression
    cases happly.symm.trans happly'
    have hexpression : r.session.expression = expression := by
      obtain ⟨heq, -⟩ | ⟨x, -, heq, -⟩ := ht
      · rw [heq]
      · rw [heq]
    obtain rfl : expression = "" := hexpression.symm.trans hempty
    exact .inr (hchanged (eq_of_apply_preview_empty happly) (effect?_empty hkey (.inr he)))
  | finish => exact .inl (atRest_of_apply_finish happly hempty)

/-- Removing the only token empties the expression line and leaves everything else as it is. -/
theorem press_clearEntry_of_singleton (config : Config) (s : Session)
    (hone : (Token.ofText s.expression).length = 1) :
    press config s .clearEntry = .ok { session := { s with expression := "" } } := by
  have hne : Token.ofText s.expression ≠ [] := by
    intro hnil
    rw [hnil] at hone
    cases hone
  rw [press, clearEntry, if_neg hne, (withoutToken_eq_empty_iff hne).2 hone]
  rfl

/-! ## Several keys -/

/-- At time `i` of a run the display is what was left when the only token was removed from the
expression line: the key was pressed at an earlier time, and the display has not changed since. -/
def IsLeftOver (shown : List Session) (actions : List Action) (i : ℕ) (t : Session) : Prop :=
  ∃ j s, j < i ∧ shown[j]? = some s ∧ actions[j]? = some .clearEntry ∧
    (Token.ofText s.expression).length = 1 ∧ t = { s with expression := "" } ∧
    ∀ k, j < k → k ≤ i → shown[k]? = some t

/-- Whenever the expression line is empty, the display is at rest or left over. -/
theorem atRest_or_isLeftOver {actions : List Action} {responses : List Response}
    (hkeys : ∀ action ∈ actions, action.IsKey)
    (hresponses : pressAll config {} actions = .ok responses) {i : ℕ} {t : Session}
    (ht : (displays {} responses)[i]? = some t) (hempty : t.expression = "") :
    AtRest t ∨ IsLeftOver (displays {} responses) actions i t := by
  induction i generalizing t with
  | zero =>
    cases ht
    exact .inl ⟨.inl rfl, rfl⟩
  | succ i ih =>
    obtain ⟨s, action, r, hs, haction, hr, rfl⟩ := exists_press_of_displays hresponses ht
    have hkey := hkeys action (List.mem_of_getElem? haction)
    obtain hrest | hsame | ⟨rfl, hone, heq⟩ := press_empties hkey hr hempty
    · exact .inl hrest
    · -- The display did not change, so that what was known of it holds on.
      rw [hsame] at hempty ht ⊢
      obtain hrest | ⟨j, s', hj, hs', hclear, hone, heq, hsince⟩ := ih hs hempty
      · exact .inl hrest
      · refine .inr ⟨j, s', by omega, hs', hclear, hone, heq, fun k hjk hki => ?_⟩
        obtain rfl | hlt := Nat.eq_or_lt_of_le hki
        · exact ht
        · exact hsince k hjk (by omega)
    · refine .inr ⟨i, s, by omega, hs, haction, hone, heq, fun k hik hki => ?_⟩
      obtain rfl : k = i + 1 := by omega
      exact ht

/-- Every sequence of keys on an empty display has its responses. Whenever the expression line is
empty, the result line shows the zero of a reset or nothing, and no preview, unless the only token
was removed from the line and the display has not changed since. Removing the only token always
leaves the result line as it is. -/
theorem exists_pressAll_atRest (config : Config) (actions : List Action)
    (h : ∀ action ∈ actions, action.IsKey) :
    (∃ responses, pressAll config {} actions = .ok responses ∧
      responses.length = actions.length ∧
      ∀ (i : ℕ) (t : Session), (displays {} responses)[i]? = some t → t.expression = "" →
        AtRest t ∨ IsLeftOver (displays {} responses) actions i t) ∧
    ∀ s : Session, (Token.ofText s.expression).length = 1 →
      press config s .clearEntry = .ok { session := { s with expression := "" } } := by
  refine ⟨?_, press_clearEntry_of_singleton config⟩
  have hstep : ∀ (s : Session) (action : Action), True → action.IsKey →
      ∃ r, press config s action = .ok r ∧ True := by
    intro s action _ hkey
    obtain ⟨r, -, -, hr, -⟩ := exists_press_effect config s hkey
    exact ⟨r, hr, trivial⟩
  obtain ⟨responses, hresponses, hlength, -⟩ := exists_pressAll_eq (s := {}) hstep trivial h
  exact ⟨responses, hresponses, hlength, fun i t ht hempty =>
    atRest_or_isLeftOver h hresponses ht hempty⟩

/-- A number is entered and finished, an operator is added, and both are removed again. What is left
is the value of the number beside an empty line. -/
theorem exists_pressAll_atRest_seven :
    (∀ action ∈ [.digit "7", .finalize, .operator "+", .clearEntry, .clearEntry, .backspace],
        Action.IsKey action) ∧
      ∃ responses, pressAll {} {} [.digit "7", .finalize, .operator "+", .clearEntry, .clearEntry,
          .backspace] = .ok responses ∧
        (displays {} responses)[6]? = some ⟨"", "7", true⟩ ∧
        IsLeftOver (displays {} responses) [.digit "7", .finalize, .operator "+", .clearEntry,
          .clearEntry, .backspace] 6 ⟨"", "7", true⟩ := by
  have hkeys : ∀ action ∈ [.digit "7", .finalize, .operator "+", .clearEntry, .clearEntry,
      .backspace], Action.IsKey action := by
    have hseven : Action.IsKey (.digit "7") := ⟨'7', rfl, rfl⟩
    simp only [List.forall_mem_cons]
    exact ⟨hseven, trivial, trivial, trivial, trivial, trivial, nofun⟩
  have hrun : pressAll {} {} [.digit "7", .finalize, .operator "+", .clearEntry, .clearEntry,
      .backspace] = .ok [⟨⟨"7", "7", true⟩, none, none⟩,
        ⟨⟨"7", "7", false⟩, some ⟨"7", .ok (Double.ofInt 7)⟩, none⟩,
        ⟨⟨"7+", "7", false⟩, none, none⟩, ⟨⟨"7", "7", true⟩, none, none⟩,
        ⟨⟨"", "7", true⟩, none, none⟩, ⟨⟨"", "7", true⟩, none, none⟩] := by decide +kernel
  obtain ⟨⟨responses, hresponses, -, hall⟩, -⟩ := exists_pressAll_atRest {} _ hkeys
  cases hrun.symm.trans hresponses
  refine ⟨hkeys, _, hrun, rfl, ?_⟩
  obtain ⟨-, hpreview⟩ | hleft := hall 6 ⟨"", "7", true⟩ rfl rfl
  · cases hpreview
  · exact hleft

/-- A digit that is entered and removed with the key for the last token stays on the result line. -/
theorem pressAll_digit_clearEntry :
    pressAll {} {} [.digit "5", .clearEntry] =
        .ok [⟨⟨"5", "5", true⟩, none, none⟩, ⟨⟨"", "5", true⟩, none, none⟩] ∧
      ¬ AtRest ⟨"", "5", true⟩ := by
  refine ⟨by decide +kernel, ?_⟩
  rintro ⟨-, hpreview⟩
  cases hpreview

end Keypad.Session
