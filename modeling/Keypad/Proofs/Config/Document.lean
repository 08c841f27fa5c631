import Keypad.Config.Document
import Keypad.Proofs.Config.Section
import Mathlib.Tactic.Linarith

/-!
# From a document to a configuration

Which documents give a configuration. A document stands for members, its own or none
(`Datum.HasMembers`), and so does the entry of the section among them (`IsSection`); the section is
then validated. `Loads` has a rule for each of the ways in which this ends, and a document that can
be read ends in exactly one of them (`ofYaml_eq_iff_loads`).

A document or a section of another kind is refused, but not every one: besides null, also false, a
zero and whatever has no content stand for no members. So a section that is `0` leaves everything at
its default (`ofYaml_zeroSection`), where one that is `3` is refused.
-/

namespace Keypad

/-- The members that a value stands for where a mapping is expected. -/
inductive Datum.HasMembers : Datum → List (Datum × Datum) → Prop
  /-- A mapping has its own members. -/
  | mapping (members) : HasMembers (.mapping members) members
  /-- What counts as nothing has none. -/
  | blank {datum} : datum.isBlank → HasMembers datum []

/-- The value is no mapping, and something. -/
def Datum.IsOther (datum : Datum) : Prop :=
  datum.isBlank = false ∧ ∀ members, datum ≠ .mapping members

namespace Config

/-- The members of the section in a document. -/
inductive IsSection (root : Datum) : List (Datum × Datum) → Prop
  /-- A document without the section has an empty one. -/
  | absent {members} : root.HasMembers members → Datum.get? members "calculator" = none →
      IsSection root []
  /-- The entry of the section has its members. -/
  | present {members entry fields} : root.HasMembers members →
      Datum.get? members "calculator" = some entry → entry.HasMembers fields → IsSection root fields

/-- What comes of a document with a value. -/
inductive Loads (root : Datum) : Except DocumentFault Config → Prop
  /-- The document is refused. -/
  | notMapping : root.IsOther → Loads root (.error .notMapping)
  /-- The section is refused. -/
  | sectionNotMapping {members entry} : root = .mapping members →
      Datum.get? members "calculator" = some entry → entry.IsOther →
      Loads root (.error .sectionNotMapping)
  /-- The section has problems. -/
  | invalid {fields problems} : IsSection root fields →
      Config.ofDatum (.mapping fields) = .error problems → Loads root (.error (.invalid problems))
  /-- The section gives a configuration. -/
  | valid {fields config} : IsSection root fields → config.IsGivenBy fields →
      Loads root (.ok config)

/-! ## Members -/

/-- A value has members, or it is of another kind. -/
theorem membersOf?_cases (datum : Datum) :
    (∃ members, membersOf? datum = some members ∧ datum.HasMembers members) ∨
      membersOf? datum = none ∧ datum.IsOther := by
  unfold membersOf?
  split_ifs with hblank
  · exact .inl ⟨[], rfl, .blank hblank⟩
  · split
    · next members => exact .inl ⟨members, rfl, .mapping members⟩
    · next hmapping => exact .inr ⟨rfl, by simpa using hblank, hmapping⟩

/-- A value stands for the members that are found for it. -/
theorem membersOf?_eq_some_iff {datum : Datum} {members : List (Datum × Datum)} :
    membersOf? datum = some members ↔ datum.HasMembers members := by
  constructor
  · intro h
    obtain ⟨found, hfound, hmembers⟩ | ⟨hnone, -⟩ := membersOf?_cases datum
    · cases h.symm.trans hfound
      exact hmembers
    · cases h.symm.trans hnone
  · rintro (members | hblank)
    · unfold membersOf?
      split_ifs with hblank
      · -- A mapping that counts as nothing has no members.
        rw [Datum.isBlank, List.isEmpty_iff] at hblank
        rw [hblank]
      · rfl
    · exact if_pos hblank

/-- A value has no members to stand for exactly when it is of another kind. -/
theorem membersOf?_eq_none_iff {datum : Datum} : membersOf? datum = none ↔ datum.IsOther := by
  constructor
  · intro h
    obtain ⟨members, hmembers, -⟩ | ⟨-, hother⟩ := membersOf?_cases datum
    · cases h.symm.trans hmembers
    · exact hother
  · rintro ⟨hblank, hmapping⟩
    obtain ⟨members, -, hmembers⟩ | ⟨hnone, -⟩ := membersOf?_cases datum
    · cases hmembers with
      | mapping => exact absurd rfl (hmapping members)
      | blank hblank' => cases hblank.symm.trans hblank'
    · exact hnone

/-! ## Sections -/

/-- The section of a document is validated. -/
theorem ofRoot_of_isSection {root : Datum} {fields : List (Datum × Datum)}
    (h : IsSection root fields) :
    ofRoot root = (Config.ofDatum (.mapping fields)).mapError .invalid := by
  obtain ⟨members, hroot, hentry⟩ : ∃ members, root.HasMembers members ∧
      membersOf? ((Datum.get? members "calculator").getD .null) = some fields := by
    cases h with
    | absent hroot hnone =>
      refine ⟨_, hroot, ?_⟩
      rw [hnone]
      rfl
    | present hroot hsome hfields =>
      refine ⟨_, hroot, ?_⟩
      rw [hsome]
      exact membersOf?_eq_some_iff.2 hfields
  rw [ofRoot, membersOf?_eq_some_iff.2 hroot]
  dsimp only
  rw [hentry]
  dsimp only
  cases Config.ofDatum (.mapping fields) with
  | ok config => rfl
  | error problems => rfl

/-- A document has a section, or it or its section is refused. -/
theorem exists_isSection_or_loads (root : Datum) :
    (∃ fields, IsSection root fields) ∨
      ∃ fault, ofRoot root = .error fault ∧ Loads root (.error fault) := by
  obtain ⟨members, hmembers, hroot⟩ | ⟨hnone, hother⟩ := membersOf?_cases root
  · cases hentry : Datum.get? members "calculator" with
    | none => exact .inl ⟨[], .absent hroot hentry⟩
    | some entry =>
      obtain ⟨fields, -, hfields⟩ | ⟨hrefused, hother⟩ := membersOf?_cases entry
      · exact .inl ⟨fields, .present hroot hentry hfields⟩
      · cases hroot with
        | mapping =>
          refine .inr ⟨_, ?_, .sectionNotMapping rfl hentry hother⟩
          rw [ofRoot, hmembers]
          dsimp only
          rw [hentry, Option.getD_some, hrefused]
        | blank =>
          -- A document that counts as nothing has no entry that could be refused.
          cases hentry
  · refine .inr ⟨_, ?_, .notMapping hother⟩
    rw [ofRoot, hnone]

/-- What comes of a document is what one of the rules says. -/
theorem loads_ofRoot (root : Datum) : Loads root (ofRoot root) := by
  obtain ⟨fields, hfields⟩ | ⟨fault, hfault, hloads⟩ := exists_isSection_or_loads root
  · rw [ofRoot_of_isSection hfields]
    cases hvalid : Config.ofDatum (.mapping fields) with
    | ok config => exact .valid hfields (ofDatum_eq_ok_iff.1 hvalid)
    | error problems => exact .invalid hfields hvalid
  · rw [hfault]
    exact hloads

/-- What a rule says comes of the document. -/
theorem Loads.ofRoot_eq {root : Datum} {outcome : Except DocumentFault Config}
    (h : Loads root outcome) : ofRoot root = outcome := by
  cases h with
  | notMapping hother => rw [ofRoot, membersOf?_eq_none_iff.2 hother]
  | sectionNotMapping hroot hentry hother =>
    rw [hroot, ofRoot, membersOf?_eq_some_iff.2 (.mapping _)]
    dsimp only
    rw [hentry, Option.getD_some, membersOf?_eq_none_iff.2 hother]
  | invalid hfields hproblems =>
    rw [ofRoot_of_isSection hfields, hproblems]
    rfl
  | valid hfields hgiven =>
    rw [ofRoot_of_isSection hfields, ofDatum_eq_ok_iff.2 hgiven]
    rfl

/-- A text with a document that can be read gives what the rules say of the value of the document,
and nothing else. A value that is neither a mapping nor counts as nothing is refused, and so is a
section of this kind. Otherwise the members of the section are validated, none for a section that is
absent or counts as nothing. Every configuration comes from a valid section and keeps at most
fifteen places. -/
theorem ofYaml_eq_iff_loads (text : String) (root : Datum) (h : Yaml.load text = .ok root) :
    (∀ outcome, ofYaml text = outcome ↔ Loads root outcome) ∧
      (∀ fields, IsSection root fields →
        ofYaml text = (Config.ofDatum (.mapping fields)).mapError .invalid) ∧
      ∀ config, ofYaml text = .ok config →
        (∃ fields, IsSection root fields ∧ config.IsGivenBy fields) ∧
          config.precision.val ≤ 15 := by
  have hroot : ofYaml text = ofRoot root := by rw [ofYaml, h]
  rw [hroot]
  refine ⟨fun outcome => ⟨?_, Loads.ofRoot_eq⟩, fun fields => ofRoot_of_isSection, ?_⟩
  · rintro rfl
    exact loads_ofRoot root
  · intro config hconfig
    have hloads := loads_ofRoot root
    rw [hconfig] at hloads
    cases hloads with
    | valid hfields hgiven =>
      exact ⟨⟨_, hfields, hgiven⟩, Nat.le_of_lt_succ config.precision.isLt⟩

/-- A section with a precision is read and validated. -/
theorem ofYaml_fourPlaces :
    ∃ root, Yaml.load "calculator: {precision: 4}" = .ok root ∧
      Loads root (.ok { precision := 4 }) := by
  have hreadable : (Yaml.load "calculator: {precision: 4}").toOption.isSome := by decide +kernel
  cases hload : Yaml.load "calculator: {precision: 4}" with
  | ok root => exact ⟨root, rfl, ((ofYaml_eq_iff_loads _ root hload).1 _).1 (by decide +kernel)⟩
  | error fault =>
    rw [hload] at hreadable
    cases hreadable

/-- A section that is zero, and so neither null nor a mapping, counts as an empty one. -/
theorem ofYaml_zeroSection :
    ∃ members entry, Yaml.load "calculator: 0" = .ok (.mapping members) ∧
      Datum.get? members "calculator" = some entry ∧ entry ≠ .null ∧
      (∀ fields, entry ≠ .mapping fields) ∧ ofYaml "calculator: 0" = .ok {} := by
  -- Whether documents are equal is not decided, but the number that stands for the section is.
  have hzero : (((Yaml.load "calculator: 0").toOption.bind membersOf?).bind
      (Datum.get? · "calculator")).any fun entry => entry.toInt = .ok 0 := by
    decide +kernel
  obtain ⟨entry, hentry, hread⟩ := (Option.any_eq_true _ _).1 hzero
  obtain ⟨members, hmembers, hget⟩ := Option.bind_eq_some_iff.1 hentry
  obtain ⟨root, hroot, hmembers⟩ := Option.bind_eq_some_iff.1 hmembers
  cases membersOf?_eq_some_iff.1 hmembers with
  | mapping =>
    refine ⟨members, entry, ?_, hget, ?_, ?_, by decide +kernel⟩
    · cases hload : Yaml.load "calculator: 0" with
      | ok datum =>
        rw [hload] at hroot
        exact congrArg _ (Option.some.inj hroot)
      | error fault =>
        rw [hload] at hroot
        cases hroot
    · rintro rfl
      cases hread
    · rintro fields rfl
      cases hread
  | blank => cases hget

end Config

end Keypad
