import Keypad.Proofs.Json.Scalar
import Keypad.Trace

/-!
# JSON texts read back

What is written for a value is read back as the value, in every layout, provided that the members of
each object in it have different keys (`read?_render`). So the layout makes no difference to what a
text says, and a text is written for one such value only (`eq_of_render_eq`). The members of a trace
have different keys whichever of them are there, so its documents say what it says
(`Trace.documents_read_back`).

The proof follows the value. Between two parts only blanks are written, apart from a comma or a
colon (`exists_separator_eq`), and the reader skips them (`skipBlanks_append`), since no value
begins with one (`exists_write_eq_cons`). From the items of an array, each of which is read back,
the array is read back (`readItems_write`), and likewise an object from its members
(`readMembers_write`), where different keys keep all members. Each part takes at least one character
for every level of reading that it goes through, so the length of what is written bounds the depth.
-/

namespace Keypad.Json

/-- In every object the members have different keys. -/
inductive HasDistinctKeys : Json → Prop
  /-- Nothing. -/
  | null : HasDistinctKeys .null
  /-- A truth value. -/
  | bool (b) : HasDistinctKeys (.bool b)
  /-- A whole number. -/
  | int (n) : HasDistinctKeys (.int n)
  /-- A double. -/
  | double (x) : HasDistinctKeys (.double x)
  /-- A text. -/
  | text (s) : HasDistinctKeys (.text s)
  /-- An array of such values. -/
  | array {items} : (∀ item ∈ items, HasDistinctKeys item) → HasDistinctKeys (.array items)
  /-- An object of such values with different keys. -/
  | object {members} : (members.map Prod.fst).Nodup →
      (∀ member ∈ members, HasDistinctKeys member.2) → HasDistinctKeys (.object members)

/-! ## Blanks -/

/-- The characters that may stand between the parts. -/
def blanks : List Char := [' ', '\t', '\n', '\r']

/-- Blanks in front of another character are skipped. -/
theorem skipBlanks_append {bs : List Char} (hbs : ∀ c ∈ bs, c ∈ blanks) {c : Char}
    (hc : c ∉ blanks) (cs : List Char) : skipBlanks (bs ++ c :: cs) = c :: cs := by
  have hblank : ∀ d : Char,
      (d = ' ' || d = '\t' || d = '\n' || d = '\r') = true ↔ d ∈ blanks := by
    intro d
    simp [blanks, or_assoc]
  have hhead : ∀ d ∈ (c :: cs).head?, ¬ (d = ' ' || d = '\t' || d = '\n' || d = '\r') = true := by
    rintro d ⟨⟩
    exact mt (hblank c).1 hc
  exact (Text.span_append (fun d hd => (hblank d).2 (hbs d hd)) hhead).2

/-- A character that is no blank is not skipped. -/
theorem skipBlanks_cons {c : Char} (hc : c ∉ blanks) (cs : List Char) :
    skipBlanks (c :: cs) = c :: cs :=
  skipBlanks_append (List.forall_mem_nil _) hc cs

/-- A line break consists of blanks. -/
theorem mem_lineBreak (layout : Layout) (level : ℕ) : ∀ c ∈ layout.lineBreak level, c ∈ blanks := by
  cases layout with
  | oneLine => nofun
  | indented width =>
    refine List.forall_mem_cons.2 ⟨by decide, fun c hc => ?_⟩
    rw [List.eq_of_mem_replicate hc]
    decide

/-- A comma and blanks stand between two parts. -/
theorem exists_separator_eq (layout : Layout) (level : ℕ) :
    ∃ bs, layout.separator level = ',' :: bs ∧ ∀ c ∈ bs, c ∈ blanks := by
  cases layout with
  | oneLine => exact ⟨[' '], rfl, List.forall_mem_singleton.2 (by decide)⟩
  | indented width => exact ⟨_, rfl, mem_lineBreak (.indented width) level⟩

/-- Blanks and a closing bracket or brace end a numeral. -/
theorem endsNumeral_append {bs rest : List Char} (hbs : ∀ c ∈ bs, c ∈ blanks)
    (hrest : EndsNumeral rest) : EndsNumeral (bs ++ rest) := by
  cases bs with
  | nil => exact hrest
  | cons b bs =>
    intro c hc
    obtain rfl := Option.some.inj hc
    have hall : blanks.all (!isNumeralChar ·) := by decide
    simpa using List.all_eq_true.1 hall b (hbs b List.mem_cons_self)

/-- A character that no numeral has ends a numeral. -/
theorem endsNumeral_cons {c : Char} (hc : isNumeralChar c = false) (cs : List Char) :
    EndsNumeral (c :: cs) := by
  intro d hd
  obtain rfl := Option.some.inj hd
  simp [hc]

/-! ## The first character -/

/-- The text begins with a digit, a `-`, or the first letter of a word for a double. -/
def BeginsNumber (cs : List Char) : Prop :=
  ∃ c rest, cs = c :: rest ∧ (c.isDigit ∨ c ∈ ['-', 'I', 'N'])

/-- A sign, if any, and digits begin a number. -/
theorem beginsNumber_signChars_append (negative : Bool) {m : List Char}
    (hm : ∃ c cs, m = c :: cs ∧ c.isDigit) : BeginsNumber (Double.signChars negative ++ m) := by
  obtain ⟨c, cs, rfl, hc⟩ := hm
  cases negative with
  | true => exact ⟨'-', c :: cs, rfl, .inr (by decide)⟩
  | false => exact ⟨c, cs, rfl, .inl hc⟩

/-- A double begins as a number. -/
theorem beginsNumber_writeDouble (x : Double) : BeginsNumber (writeDouble x) := by
  cases x with
  | finite negative units fits =>
    have htext : writeDouble (.finite negative units fits) = Double.signChars negative ++
        Double.magnitudeChars (Double.finite negative units fits).decimal := String.toList_ofList
    rw [htext]
    exact beginsNumber_signChars_append negative (Double.exists_magnitudeChars_eq_cons _)
  | infinite negative => cases negative <;> exact ⟨_, _, rfl, .inr (by decide)⟩
  | nan => exact ⟨_, _, rfl, .inr (by decide)⟩

/-- A whole number begins as a number. -/
theorem beginsNumber_writeInt (n : ℤ) : BeginsNumber (writeInt n) := by
  have hdigits := (Numeral.isDigits_toDigits n.natAbs).exists_append_eq_cons []
  rw [List.append_nil] at hdigits
  exact beginsNumber_signChars_append _ hdigits

/-- A number does not begin with one of some characters that do not begin numbers. -/
theorem BeginsNumber.exists_eq_cons {cs : List Char} (h : BeginsNumber cs) (others : List Char)
    (hothers : others.all fun c => !c.isDigit && c != '-' && c != 'I' && c != 'N') :
    ∃ c rest, cs = c :: rest ∧ c ∉ others := by
  obtain ⟨c, rest, rfl, hc⟩ := h
  refine ⟨c, rest, rfl, fun hmem => ?_⟩
  have hnot := List.all_eq_true.1 hothers c hmem
  simp only [Bool.and_eq_true, Bool.not_eq_true', bne_iff_ne, ne_eq] at hnot
  obtain hdigit | hmark := hc
  · simp [hdigit] at hnot
  · simp only [List.mem_cons, List.not_mem_nil, or_false] at hmark
    tauto

/-- What is written for a value begins with a character that is no blank and no closing bracket. -/
theorem exists_write_eq_cons (layout : Layout) (level : ℕ) (json : Json) :
    ∃ c cs, write layout level json = c :: cs ∧ c ∉ ']' :: blanks := by
  cases json with
  | null => exact ⟨_, _, rfl, by decide⟩
  | bool b => cases b <;> exact ⟨_, _, rfl, by decide⟩
  | int n => exact (beginsNumber_writeInt n).exists_eq_cons _ (by decide)
  | double x => exact (beginsNumber_writeDouble x).exists_eq_cons _ (by decide)
  | text s => exact ⟨_, _, rfl, by decide⟩
  | array items => cases items <;> exact ⟨_, _, rfl, by decide⟩
  | object members => cases members <;> exact ⟨_, _, rfl, by decide⟩

/-! ## Values -/

/-- What begins as a number is read as one. -/
theorem readValue_eq_readNumber (depth : ℕ) {cs : List Char} (h : BeginsNumber cs)
    (rest : List Char) : readValue (depth + 1) (cs ++ rest) = readNumber (cs ++ rest) := by
  obtain ⟨c, cs, rfl, hc⟩ :=
    h.exists_eq_cons ['"', '[', '{', 'n', 't', 'f'] (by decide)
  rw [List.cons_append]
  unfold readValue
  split
  all_goals first
    | rfl
    | next heq =>
      obtain rfl := (List.cons.inj heq).1
      exact absurd (by decide) hc

/-- The value is read back wherever it is written, and what follows it is left. -/
def ReadsBack (layout : Layout) (json : Json) : Prop :=
  ∀ (level depth : ℕ) (rest : List Char), EndsNumeral rest →
    (write layout level json).length < depth →
    readValue depth (write layout level json ++ rest) = some (json, rest)

/-- Blanks in front of a value are skipped. -/
theorem skipBlanks_write (layout : Layout) (level : ℕ) (json : Json) {bs : List Char}
    (hbs : ∀ c ∈ bs, c ∈ blanks) (rest : List Char) :
    skipBlanks (bs ++ (write layout level json ++ rest)) = write layout level json ++ rest := by
  obtain ⟨c, cs, hwrite, hc⟩ := exists_write_eq_cons layout level json
  rw [hwrite]
  exact skipBlanks_append hbs (fun hmem => hc (List.mem_cons_of_mem _ hmem)) _

/-- The items of an array, from one of them on, are read back up to the closing bracket. -/
theorem readItems_write {layout : Layout} {item : Json} {items : List Json}
    (h : ∀ i ∈ item :: items, ReadsBack layout i) {level depth : ℕ} {bs close : List Char}
    (hbs : ∀ c ∈ bs, c ∈ blanks) (hclose : ∀ c ∈ close, c ∈ blanks) (rest : List Char)
    (hdepth : (write layout level item).length + (writeItems layout level items).length + 1 <
      depth) :
    readItems depth (bs ++ (write layout level item ++
        (writeItems layout level items ++ (close ++ ']' :: rest)))) =
      some (item :: items, rest) := by
  -- Each item takes one level of the depth, for which there is at least one character of it.
  induction items generalizing item depth bs with
  | nil =>
    obtain ⟨depth, rfl⟩ : ∃ d, depth = d + 1 := ⟨depth - 1, by omega⟩
    have hend : EndsNumeral (close ++ ']' :: rest) :=
      endsNumeral_append hclose (endsNumeral_cons (by decide) rest)
    have hitem := h item List.mem_cons_self level depth _ hend (by omega)
    have hskip := skipBlanks_append hclose (c := ']') (by decide) rest
    rw [readItems, skipBlanks_write layout level item hbs, writeItems, List.nil_append, hitem]
    dsimp only
    rw [hskip]
    rfl
  | cons next items ih =>
    obtain ⟨depth, rfl⟩ : ∃ d, depth = d + 1 := ⟨depth - 1, by omega⟩
    obtain ⟨between, hseparator, hblanks⟩ := exists_separator_eq layout level
    rw [writeItems, hseparator] at hdepth ⊢
    simp only [List.length_append, List.length_cons] at hdepth
    have hitem := fun cs => h item List.mem_cons_self level depth (',' :: cs)
      (endsNumeral_cons (by decide) cs) (by omega)
    have hshort : (write layout level next).length + (writeItems layout level items).length + 1 <
        depth := by omega
    have hrest := ih (fun i hi => h i (List.mem_cons_of_mem _ hi)) hblanks hshort
    simp only [List.cons_append, List.append_assoc]
    rw [readItems, skipBlanks_write layout level item hbs, hitem]
    dsimp only
    rw [skipBlanks_cons (by decide)]
    show (readItems depth _).map _ = _
    rw [hrest]
    rfl

/-- A member with a new key comes last. -/
theorem put_of_not_mem {members : List (String × Json)} {key : String} (value : Json)
    (h : key ∉ members.map Prod.fst) : put members key value = members ++ [(key, value)] := by
  induction members with
  | nil => rfl
  | cons member members ih =>
    rw [List.map_cons, List.mem_cons, not_or] at h
    obtain ⟨k, v⟩ := member
    rw [put, if_neg (Ne.symm h.1), ih h.2, List.cons_append]

/-- A member with a new key is read, and the reading goes on behind its value. -/
theorem readMembers_member {layout : Layout} {level depth : ℕ} {key : String} {value : Json}
    {before : List (String × Json)} (hkey : key ∉ before.map Prod.fst) {bs rest : List Char}
    (hbs : ∀ c ∈ bs, c ∈ blanks)
    (hvalue : readValue depth (write layout level value ++ rest) = some (value, rest)) :
    readMembers (depth + 1) before
        (bs ++ (writeText key ++ (':' :: ' ' :: (write layout level value ++ rest)))) =
      match skipBlanks rest with
      | '}' :: rest => some (before ++ [(key, value)], rest)
      | ',' :: rest => readMembers depth (before ++ [(key, value)]) rest
      | _ => none := by
  obtain ⟨cs, hwrite, hread⟩ :=
    readText_writeText key (':' :: ' ' :: (write layout level value ++ rest))
  have hblank : ∀ c ∈ [' '], c ∈ blanks := List.forall_mem_singleton.2 (by decide)
  have hskip := skipBlanks_write layout level value hblank rest
  have hput : put before (String.ofList key.toList) value = before ++ [(key, value)] := by
    rw [String.ofList_toList, put_of_not_mem value hkey]
  rw [readMembers, hwrite, skipBlanks_append hbs (by decide)]
  simp only [hread, skipBlanks_cons (show ':' ∉ blanks by decide)]
  rw [← List.singleton_append, hskip, hvalue]
  exact hput ▸ rfl

/-- Of different keys none comes before itself. -/
theorem not_mem_of_nodup {key : String} {value : Json} {before members : List (String × Json)}
    (h : ((before ++ (key, value) :: members).map Prod.fst).Nodup) :
    key ∉ before.map Prod.fst := by
  rw [List.map_append, List.nodup_append] at h
  exact fun hmem => h.2.2 key hmem key List.mem_cons_self rfl

/-- The members of an object, from one of them on, are read back up to the closing brace. -/
theorem readMembers_write {layout : Layout} {key : String} {value : Json}
    {members : List (String × Json)} (h : ∀ m ∈ (key, value) :: members, ReadsBack layout m.2)
    (before : List (String × Json))
    (hkeys : ((before ++ (key, value) :: members).map Prod.fst).Nodup) {level depth : ℕ}
    {bs close : List Char} (hbs : ∀ c ∈ bs, c ∈ blanks) (hclose : ∀ c ∈ close, c ∈ blanks)
    (rest : List Char)
    (hdepth : (write layout level value).length + (writeMembers layout level members).length + 1 <
      depth) :
    readMembers depth before (bs ++ (writeText key ++ (':' :: ' ' :: (write layout level value ++
        (writeMembers layout level members ++ (close ++ '}' :: rest)))))) =
      some (before ++ (key, value) :: members, rest) := by
  -- The members that have been read stand in `before`, where the next key must not be found.
  induction members generalizing key value before depth bs with
  | nil =>
    obtain ⟨depth, rfl⟩ : ∃ d, depth = d + 1 := ⟨depth - 1, by omega⟩
    have hend : EndsNumeral (close ++ '}' :: rest) :=
      endsNumeral_append hclose (endsNumeral_cons (by decide) rest)
    have hkey := not_mem_of_nodup hkeys
    have hvalue := h _ List.mem_cons_self level depth _ hend (by dsimp only; omega)
    have hskip := skipBlanks_append hclose (c := '}') (by decide) rest
    rw [writeMembers, List.nil_append, readMembers_member hkey hbs hvalue, hskip]
    rfl
  | cons next members ih =>
    obtain ⟨depth, rfl⟩ : ∃ d, depth = d + 1 := ⟨depth - 1, by omega⟩
    obtain ⟨between, hseparator, hblanks⟩ := exists_separator_eq layout level
    rw [writeMembers, hseparator] at hdepth ⊢
    simp only [List.length_append, List.length_cons] at hdepth
    have hkey := not_mem_of_nodup hkeys
    have hvalue := fun cs => h _ List.mem_cons_self level depth (',' :: cs)
      (endsNumeral_cons (by decide) cs) (by dsimp only; omega)
    have hshort : (write layout level next.2).length + (writeMembers layout level members).length +
        1 < depth := by omega
    have hrest := ih (fun m hm => h m (List.mem_cons_of_mem _ hm)) (before ++ [(key, value)])
      (by rwa [List.append_assoc]) hblanks hshort
    simp only [List.cons_append, List.nil_append, List.append_assoc] at hrest ⊢
    rw [readMembers_member hkey hbs (hvalue _), skipBlanks_cons (by decide)]
    exact hrest

/-- A value is read, so the depth may be taken to be positive. -/
theorem readsBack_of_succ {layout : Layout} {json : Json}
    (h : ∀ (level depth : ℕ) (rest : List Char), EndsNumeral rest →
      (write layout level json).length ≤ depth →
      readValue (depth + 1) (write layout level json ++ rest) = some (json, rest)) :
    ReadsBack layout json := by
  intro level depth rest hrest hdepth
  obtain ⟨depth, rfl⟩ : ∃ d, depth = d + 1 := ⟨depth - 1, by omega⟩
  exact h level depth rest hrest (Nat.le_of_lt_succ hdepth)

/-- An array is read back when its items are. -/
theorem readsBack_array {layout : Layout} {items : List Json}
    (h : ∀ item ∈ items, ReadsBack layout item) : ReadsBack layout (.array items) := by
  refine readsBack_of_succ fun level depth rest _ hdepth => ?_
  cases items with
  | nil => rfl
  | cons item items =>
    rw [write] at hdepth ⊢
    simp only [List.length_append, List.length_cons] at hdepth
    have hshort : (write layout (level + 1) item).length +
        (writeItems layout (level + 1) items).length + 1 < depth := by omega
    have hread := readItems_write h (List.forall_mem_nil _) (mem_lineBreak layout level) rest hshort
    obtain ⟨c, cs, hwrite, hc⟩ := exists_write_eq_cons layout (level + 1) item
    have hskip := skipBlanks_write layout (level + 1) item (mem_lineBreak layout (level + 1))
    simp only [List.cons_append, List.append_assoc, List.nil_append] at hread hskip ⊢
    rw [readValue, hskip]
    rw [hwrite, List.cons_append] at hread ⊢
    split
    next hclose =>
      exact absurd (List.mem_cons.2 (.inl (List.cons.inj hclose).1)) hc
    next => rw [hread]; rfl

/-- An object with different keys is read back when its values are. -/
theorem readsBack_object {layout : Layout} {members : List (String × Json)}
    (hkeys : (members.map Prod.fst).Nodup) (h : ∀ member ∈ members, ReadsBack layout member.2) :
    ReadsBack layout (.object members) := by
  refine readsBack_of_succ fun level depth rest _ hdepth => ?_
  cases members with
  | nil => rfl
  | cons member members =>
    obtain ⟨key, value⟩ := member
    rw [write] at hdepth ⊢
    simp only [List.length_append, List.length_cons] at hdepth
    have hshort : (write layout (level + 1) value).length +
        (writeMembers layout (level + 1) members).length + 1 < depth := by omega
    have hread := readMembers_write h [] hkeys (List.forall_mem_nil _) (mem_lineBreak layout level)
      rest hshort
    simp only [List.cons_append, List.append_assoc, List.nil_append] at hread ⊢
    obtain ⟨cs, hwrite, -⟩ := readText_writeText key _
    rw [hwrite] at hread ⊢
    rw [readValue, skipBlanks_append (mem_lineBreak layout (level + 1)) (by decide)]
    show (readMembers depth [] _).map _ = _
    rw [hread]
    rfl

/-- Values whose objects have different keys are read back. -/
theorem readsBack_of_hasDistinctKeys (layout : Layout) {json : Json} (h : HasDistinctKeys json) :
    ReadsBack layout json := by
  induction h with
  | null => exact readsBack_of_succ fun _ _ _ _ _ => rfl
  | bool b => exact readsBack_of_succ fun _ _ _ _ _ => by cases b <;> rfl
  | text s =>
    refine readsBack_of_succ fun level depth rest _ _ => ?_
    obtain ⟨cs, hwrite, hread⟩ := readText_writeText s rest
    simp only [write, hwrite, readValue, hread, Option.map_some, String.ofList_toList]
  | int n =>
    refine readsBack_of_succ fun level depth rest hrest _ => ?_
    rw [write, readValue_eq_readNumber depth (beginsNumber_writeInt n) rest,
      readNumber_writeInt n hrest]
  | double x =>
    refine readsBack_of_succ fun level depth rest hrest _ => ?_
    rw [write, readValue_eq_readNumber depth (beginsNumber_writeDouble x) rest,
      readNumber_writeDouble x hrest]
  | array _ ih => exact readsBack_array ih
  | object hkeys _ ih => exact readsBack_object hkeys ih

/-- What is written for a value with different keys in each object denotes the value, in every
layout. -/
theorem read?_render (layout : Layout) {json : Json} (h : HasDistinctKeys json) :
    read? (json.render layout) = some json := by
  have hskip := skipBlanks_write layout 0 json (List.forall_mem_nil _) []
  have hread := readsBack_of_hasDistinctKeys layout h 0 ((write layout 0 json).length + 1) []
    nofun (Nat.lt_succ_self _)
  rw [List.nil_append, List.append_nil] at hskip
  rw [List.append_nil] at hread
  unfold read? render
  dsimp only
  rw [String.toList_ofList, hskip, hread]
  rfl

/-- Two values with the same text, in whatever layouts, are the same. -/
theorem eq_of_render_eq {layout layout' : Layout} {json json' : Json} (h : HasDistinctKeys json)
    (h' : HasDistinctKeys json') (heq : json.render layout = json'.render layout') :
    json = json' := by
  have hread := read?_render layout h
  rw [heq, read?_render layout' h'] at hread
  exact (Option.some.inj hread).symm

/-! ## Traces -/

/-- An array of texts has no objects. -/
theorem hasDistinctKeys_texts (ss : List String) : HasDistinctKeys (texts ss) := by
  refine .array fun item hitem => ?_
  obtain ⟨s, -, rfl⟩ := List.mem_map.1 hitem
  exact .text s

end Keypad.Json

namespace Keypad

open Json (HasDistinctKeys)

/-- The members of an operation have different keys. -/
theorem Step.hasDistinctKeys_toJson (s : Step) : HasDistinctKeys s.toJson := by
  refine .object (by simp) ?_
  simp only [List.forall_mem_cons]
  exact ⟨.double _, .text _, .double _, .double _, nofun⟩

/-- The members of a result have different keys. -/
theorem Result.hasDistinctKeys_toJson (r : Result) : HasDistinctKeys r.toJson := by
  refine .object ?_ ?_
  · cases r.value? <;> cases r.message? <;> simp
  · simp only [List.forall_mem_append, List.forall_mem_cons, Option.mem_toList,
      Option.map_eq_some_iff]
    refine ⟨⟨⟨.text _, .text _, nofun⟩, ?_⟩, ?_⟩
    · rintro _ ⟨value, -, rfl⟩
      exact .double value
    · rintro _ ⟨message, -, rfl⟩
      exact .text message

namespace Trace

/-- The members of a trace have different keys, and so have those of the objects in it. -/
theorem hasDistinctKeys_toJson (t : Trace) : HasDistinctKeys t.toJson := by
  refine .object ?_ ?_
  · split_ifs <;> cases t.duration <;> simp
  · simp only [List.forall_mem_append, List.forall_mem_cons, Option.mem_toList,
      Option.map_eq_some_iff]
    refine ⟨⟨⟨.text _, .text _, Json.hasDistinctKeys_texts _, Json.hasDistinctKeys_texts _,
      .array ?_, t.result.hasDistinctKeys_toJson, nofun⟩, ?_⟩, ?_⟩
    · rintro _ hstep
      obtain ⟨s, -, rfl⟩ := List.mem_map.1 hstep
      exact s.hasDistinctKeys_toJson
    · split_ifs
      · nofun
      · exact List.forall_mem_singleton.2 (Json.hasDistinctKeys_texts _)
    · rintro _ ⟨duration, -, rfl⟩
      exact .double duration

/-- Every document denotes the members of its trace, whatever the indentation, so two documents are
the same only when their traces have the same members. -/
theorem documents_read_back (t : Trace) :
    (∀ indent, Json.read? (t.render indent) = some t.toJson) ∧
      ∀ (t' : Trace) (indent indent'), t.render indent = t'.render indent' → t.toJson = t'.toJson :=
  ⟨fun _ => Json.read?_render _ t.hasDistinctKeys_toJson, fun t' _ _ =>
    Json.eq_of_render_eq t.hasDistinctKeys_toJson t'.hasDistinctKeys_toJson⟩

end Trace

end Keypad
