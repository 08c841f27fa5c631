import Keypad.Proofs.Json.RoundTrip

/-!
# What the members of a trace say

The members of a trace leave nothing of it out. Each part stands under a key of its own, and a part
that may be absent has a member exactly when it is there (`Result.member?_toJson`,
`Trace.member?_toJson`). So operations, results and traces with the same members are the same
(`Step.toJson_injective`, `Result.toJson_injective`, `Trace.toJson_injective`), and a document is
that of one trace only (`Trace.eq_of_render_eq`).
-/

namespace Keypad

/-- An outcome is found by its identifier. -/
theorem Outcome.ofName?_name (o : Outcome) : ofName? o.name = some o := by
  cases o with
  | ok => rfl
  | empty => rfl
  | error kind => cases kind <;> rfl

/-- Different outcomes have different identifiers. -/
theorem Outcome.name_injective : Function.Injective name := by
  intro o o' h
  have hfound := ofName?_name o
  rw [h, ofName?_name] at hfound
  exact (Option.some.inj hfound).symm

/-- Different texts make different arrays. -/
theorem Json.texts_injective : Function.Injective texts := fun _ _ h =>
  List.map_injective_iff.2 (fun _ _ => Json.text.inj) (Json.array.inj h)

/-- Different operations have different members. -/
theorem Step.toJson_injective : Function.Injective toJson := by
  rintro ⟨left, symbol, right, result⟩ ⟨left', symbol', right', result'⟩ h
  simpa [toJson] using h

/-! ## Results -/

/-- The member with each key of a result. -/
theorem Result.member?_toJson (r : Result) :
    r.toJson.member? "expression" = some (.text r.expression) ∧
      r.toJson.member? "outcome" = some (.text r.outcome.name) ∧
      r.toJson.member? "value" = r.value?.map .double ∧
      r.toJson.member? "message" = r.message?.map .text := by
  unfold toJson
  cases r.value? <;> cases r.message? <;> simp [Json.member?, Json.get?]

/-- Different results have different members. -/
theorem Result.toJson_injective : Function.Injective toJson := by
  intro r r' h
  obtain ⟨hexpression, houtcome, hvalue, hmessage⟩ := r.member?_toJson
  obtain ⟨hexpression', houtcome', hvalue', hmessage'⟩ := r'.member?_toJson
  rw [h] at hexpression houtcome hvalue hmessage
  have hsame : r.expression = r'.expression :=
    Json.text.inj (Option.some.inj (hexpression.symm.trans hexpression'))
  have hends : r.outcome = r'.outcome :=
    Outcome.name_injective (Json.text.inj (Option.some.inj (houtcome.symm.trans houtcome')))
  have hholds : r.value? = r'.value? :=
    Option.map_injective (fun _ _ => Json.double.inj) (hvalue.symm.trans hvalue')
  have hsays : r.message? = r'.message? :=
    Option.map_injective (fun _ _ => Json.text.inj) (hmessage.symm.trans hmessage')
  -- A result can be put together again from these four parts.
  have hparts := ofParts_eq_ok r
  rw [hsame, hends, hholds, hsays, ofParts_eq_ok] at hparts
  exact (Except.ok.inj hparts).symm

/-! ## Traces -/

namespace Trace

/-- The member with each key of a trace, the format apart. -/
theorem member?_toJson (t : Trace) :
    t.toJson.member? "expression" = some (.text t.expression) ∧
      t.toJson.member? "tokens" = some (.texts t.tokens) ∧
      t.toJson.member? "rpn" = some (.texts t.postfixItems) ∧
      t.toJson.member? "steps" = some (.array (t.steps.map Step.toJson)) ∧
      t.toJson.member? "result" = some t.result.toJson ∧
      t.toJson.member? "dropped_tokens" =
        (if t.dropped = [] then none else some (.texts t.dropped)) ∧
      t.toJson.member? "duration_ms" = t.duration.map .double := by
  unfold toJson
  split_ifs <;> cases t.duration <;> simp [Json.member?, Json.get?]

/-- Different traces have different members. -/
theorem toJson_injective : Function.Injective toJson := by
  intro t t' h
  obtain ⟨hexpression, htokens, hitems, hsteps, hresult, hdropped, hduration⟩ := t.member?_toJson
  obtain ⟨hexpression', htokens', hitems', hsteps', hresult', hdropped', hduration'⟩ :=
    t'.member?_toJson
  rw [h] at hexpression htokens hitems hsteps hresult hdropped hduration
  have hleft : t.dropped = t'.dropped := by
    rw [hdropped'] at hdropped
    split_ifs at hdropped with hnone' hnone hnone
    · rw [hnone, hnone']
    · exact (Json.texts_injective (Option.some.inj hdropped)).symm
  obtain ⟨expression, result, tokens, dropped, postfixItems, steps, duration⟩ := t
  obtain ⟨expression', result', tokens', dropped', postfixItems', steps', duration'⟩ := t'
  rw [Trace.mk.injEq]
  refine ⟨?_, ?_, ?_, hleft, ?_, ?_, ?_⟩
  · exact Json.text.inj (Option.some.inj (hexpression.symm.trans hexpression'))
  · exact Result.toJson_injective (Option.some.inj (hresult.symm.trans hresult'))
  · exact Json.texts_injective (Option.some.inj (htokens.symm.trans htokens'))
  · exact Json.texts_injective (Option.some.inj (hitems.symm.trans hitems'))
  · exact List.map_injective_iff.2 Step.toJson_injective
      (Json.array.inj (Option.some.inj (hsteps.symm.trans hsteps')))
  · exact Option.map_injective (fun _ _ => Json.double.inj) (hduration.symm.trans hduration')

/-- Two traces with the same document, whatever the indentations, are the same. -/
theorem eq_of_render_eq {t t' : Trace} {indent indent' : Option Int}
    (h : t.render indent = t'.render indent') : t = t' :=
  toJson_injective
    (Json.eq_of_render_eq t.hasDistinctKeys_toJson t'.hasDistinctKeys_toJson h)

end Trace

end Keypad
