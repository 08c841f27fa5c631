import Keypad.Validation.Fields
import Mathlib.Data.Int.Notation
import Mathlib.Data.Nat.Notation
import Mathlib.Tactic.SplitIfs

/-!
# Valid sections

What a configuration has to do with the plain data that it is made from. Every field has the value
that its entry is read as, or its default where there is no entry (`Datum.IsField`); entries that
name no field are refused. The precision is a whole number from zero to the greatest one allowed:
another number is a problem and is never moved into the range (`Datum.toFin_eq_ok_iff`).
`Config.IsGivenBy` puts this together, and plain data is valid exactly when it gives a configuration
in this sense (`Config.ofDatum_eq_ok_iff`).
-/

namespace Keypad

namespace Datum

/-! ## One field -/

/-- The value that a field has: the one that its entry is read as, or the default if there is no
entry. -/
def IsField {α : Type} (members : List (Datum × Datum)) (key : String) (default : α)
    (Reads : Datum → α → Prop) (value : α) : Prop :=
  match get? members key with
  | none => value = default
  | some datum => Reads datum value

variable {α : Type} {members : List (Datum × Datum)} {key : String} {default value : α}

/-- A field with a default is valid exactly when it has a value. -/
theorem field_eq_ok_iff {read : Datum → Except Issue α} :
    field members key (.ok default) read = .ok value ↔
      IsField members key default (fun datum x => read datum = .ok x) value := by
  unfold field IsField
  cases get? members key with
  | none => simp [Checked.within, eq_comm]
  | some datum =>
    dsimp only
    cases read datum with
    | ok x => simp
    | error issue => simp

/-- No key is unknown exactly when every key is the name of a field. -/
theorem unknownKeys_eq_nil_iff {names : List String} :
    unknownKeys names members = [] ↔ ∀ member ∈ members, ∃ name ∈ names, member.1 = .text name := by
  rw [unknownKeys, List.filterMap_eq_nil_iff]
  refine forall₂_congr fun member _ => ?_
  obtain ⟨datum, -⟩ := member
  cases datum with
  | text s => simp
  | _ => simp

/-- A whole number that may not be too large is read as such, and as no other number. -/
theorem toFin_eq_ok_iff {bound : ℕ} {datum : Datum} {p : Fin (bound + 1)} :
    toFin bound datum = .ok p ↔
      ∃ n : ℤ, toInt datum = .ok n ∧ 0 ≤ n ∧ n ≤ bound ∧ (p.val : ℤ) = n := by
  unfold toFin
  split
  · next issue hread => simp [hread]
  · next n hread =>
    refine iff_of_false nofun ?_
    rintro ⟨m, hm, hpos, -⟩
    cases hread.symm.trans hm
    omega
  · next n hread =>
    split_ifs with hn
    · constructor
      · intro hp
        cases hp
        exact ⟨n, hread, by omega, by omega, rfl⟩
      · rintro ⟨m, hm, -, -, hp⟩
        cases hread.symm.trans hm
        exact congrArg Except.ok (Fin.ext (Int.ofNat.inj hp).symm)
    · refine iff_of_false nofun ?_
      rintro ⟨m, hm, -, hle, -⟩
      cases hread.symm.trans hm
      exact hn (Nat.lt_succ_of_le (Int.ofNat_le.1 hle))

end Datum

/-- Seen from the value around it, a value is the same. -/
theorem Checked.within_eq_ok_iff {α : Type} {key : String} {checked : Checked α} {value : α} :
    checked.within key = .ok value ↔ checked = .ok value := by
  cases checked with
  | ok x => rfl
  | error problems => simp [within]

/-! ## All fields -/

/-- The texts of the errors have the values of the fields, and there are no other fields. -/
structure Messages.IsGivenBy (m : Messages) (members : List (Datum × Datum)) : Prop where
  /-- Every entry belongs to a field. -/
  known : ∀ member ∈ members,
    ∃ name ∈ ["division_by_zero", "invalid_expression", "malformed_token"], member.1 = .text name
  /-- The text for a division by zero. -/
  divisionByZero : Datum.IsField members "division_by_zero" "Error: Div by 0"
    (fun datum s => datum.toText = .ok s) m.divisionByZero
  /-- The text for an expression without a value. -/
  invalidExpression : Datum.IsField members "invalid_expression" "Error"
    (fun datum s => datum.toText = .ok s) m.invalidExpression
  /-- The text for a token without a meaning. -/
  malformedToken : Datum.IsField members "malformed_token" "Error"
    (fun datum s => datum.toText = .ok s) m.malformedToken

/-- The fields are valid one by one. -/
theorem Messages.isGivenBy_iff {m : Messages} {members : List (Datum × Datum)} :
    m.IsGivenBy members ↔
      Datum.unknownKeys ["division_by_zero", "invalid_expression", "malformed_token"] members = [] ∧
        Datum.field members "division_by_zero" (.ok "Error: Div by 0") Datum.toText =
          .ok m.divisionByZero ∧
        Datum.field members "invalid_expression" (.ok "Error") Datum.toText =
          .ok m.invalidExpression ∧
        Datum.field members "malformed_token" (.ok "Error") Datum.toText =
          .ok m.malformedToken := by
  simp only [Datum.unknownKeys_eq_nil_iff, Datum.field_eq_ok_iff]
  exact ⟨fun h => ⟨h.known, h.divisionByZero, h.invalidExpression, h.malformedToken⟩,
    fun ⟨hknown, hd, hi, ht⟩ => ⟨hknown, hd, hi, ht⟩⟩

/-- Plain data is valid as the texts of the errors exactly when it is a mapping that gives them. -/
theorem Messages.ofDatum_eq_ok_iff {datum : Datum} {m : Messages} :
    ofDatum datum = .ok m ↔ ∃ members, datum = .mapping members ∧ m.IsGivenBy members := by
  unfold ofDatum
  split
  · next members =>
    simp only [Datum.mapping.injEq, exists_eq_left', isGivenBy_iff]
    split
    · next d i t hd hi ht hunknown =>
      obtain ⟨d', i', t'⟩ := m
      simp [hd, hi, ht, hunknown]
    · next hinvalid =>
      refine iff_of_false nofun ?_
      rintro ⟨hunknown, hd, hi, ht⟩
      exact hinvalid _ _ _ hd hi ht hunknown
  · next hmapping =>
    refine iff_of_false nofun ?_
    rintro ⟨members, rfl, -⟩
    exact hmapping members rfl

/-- A configuration has the values of the fields, and there are no other fields. -/
structure Config.IsGivenBy (config : Config) (fields : List (Datum × Datum)) : Prop where
  /-- Every entry belongs to a field. -/
  known : ∀ member ∈ fields,
    ∃ name ∈ ["precision", "strict_tokens", "messages"], member.1 = .text name
  /-- The precision is a whole number in the range. -/
  precision : Datum.IsField fields "precision" 9
    (fun datum p => ∃ n : ℤ, datum.toInt = .ok n ∧ 0 ≤ n ∧ n ≤ 15 ∧ (p.val : ℤ) = n)
    config.precision
  /-- Whether tokens without a meaning are refused is a truth value. -/
  strictTokens : Datum.IsField fields "strict_tokens" false
    (fun datum b => datum.toBool = .ok b) config.strictTokens
  /-- The texts of the errors are a mapping of their own. -/
  messages : Datum.IsField fields "messages" {}
    (fun datum m => ∃ members, datum = .mapping members ∧ m.IsGivenBy members) config.messages

/-- The fields are valid one by one. -/
theorem Config.isGivenBy_iff {config : Config} {fields : List (Datum × Datum)} :
    config.IsGivenBy fields ↔
      Datum.unknownKeys ["precision", "strict_tokens", "messages"] fields = [] ∧
        Datum.field fields "precision" (.ok 9) (Datum.toFin maxPrecision) = .ok config.precision ∧
        Datum.field fields "strict_tokens" (.ok false) Datum.toBool = .ok config.strictTokens ∧
        Datum.IsField fields "messages" {}
          (fun datum m => ∃ members, datum = .mapping members ∧ m.IsGivenBy members)
          config.messages := by
  simp only [Datum.unknownKeys_eq_nil_iff, Datum.field_eq_ok_iff, Datum.toFin_eq_ok_iff]
  exact ⟨fun h => ⟨h.known, h.precision, h.strictTokens, h.messages⟩,
    fun ⟨hknown, hp, hs, hm⟩ => ⟨hknown, hp, hs, hm⟩⟩

/-- A section is valid exactly when it gives a configuration. -/
theorem Config.ofDatum_eq_ok_iff {fields : List (Datum × Datum)} {config : Config} :
    ofDatum (.mapping fields) = .ok config ↔ config.IsGivenBy fields := by
  -- The texts of the errors are a structure of their own, whose problems only get the key in front.
  have hmessages : ∀ m : Messages,
      (match Datum.get? fields "messages" with
        | none => .ok {}
        | some datum => (Messages.ofDatum datum).within "messages" : Checked Messages) = .ok m ↔
      Datum.IsField fields "messages" {}
        (fun datum m => ∃ members, datum = .mapping members ∧ m.IsGivenBy members) m := by
    intro m
    unfold Datum.IsField
    split
    · rw [Except.ok.injEq, eq_comm]
    · rw [Checked.within_eq_ok_iff, Messages.ofDatum_eq_ok_iff]
  rw [isGivenBy_iff]
  unfold ofDatum
  dsimp only
  split
  · next p b m hp hb hm hunknown =>
    -- What the fields are read as is one configuration, so that no other one is given.
    constructor
    · rintro ⟨⟩
      exact ⟨hunknown, hp, hb, (hmessages m).1 hm⟩
    · rintro ⟨-, hp', hb', hm'⟩
      cases hp.symm.trans hp'
      cases hb.symm.trans hb'
      cases hm.symm.trans ((hmessages _).2 hm')
      rfl
  · next hinvalid =>
    refine iff_of_false nofun ?_
    rintro ⟨hunknown, hp, hb, hm⟩
    exact hinvalid _ _ _ hp hb ((hmessages _).2 hm) hunknown

end Keypad
