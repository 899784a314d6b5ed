import SchemaDocs.Proofs.Json.Exact
import SchemaDocs.Proofs.Schema.Presentation
import Mathlib.Data.List.Nodup

/-!
# Reading what is presented

The readers of the format take every presentation of a value for that value: free values, lists, and objects
whose declared members are those that a reader has slots for.
-/

namespace SchemaDocs.Format

open Json (Value Reader Slot IsArray IsObject IsJson IsUnknown AreMembers Fills TakesMembers memberTexts quote readString
  readInt32 readBool readOption readList readValue readItems readMembers readRecord insertMember)

variable {α : Type} {shape : Shape} {value : Value} {text : List Char} {fuel depth : Nat}

/-! ### Texts -/

private theorem Presents.begins (h : Presents shape value text) : Json.BeginsValue text := by
  cases h with
  | null => exact IsJson.null.begins
  | true => exact IsJson.true.begins
  | false => exact IsJson.false.begins
  | integer n =>
    obtain ⟨c, rest, htext, hc⟩ := (Json.isNumeral_toString n).begins
    rw [htext]
    exact Json.beginsValue_of_numeral _ hc
  | string text =>
    rw [Json.toList_quote]
    exact ⟨'\x22', _, rfl, by decide, by decide⟩
  | array _ _ h => exact h.begins
  | object _ _ h => exact h.begins
  | list _ _ h => exact h.begins
  | record _ _ _ _ _ _ _ h => exact h.begins

private theorem forall₂_of_zip {R : α → List Char → Prop} {items : List α} {texts : List (List Char)}
    (hlength : texts.length = items.length) (h : ∀ pair ∈ items.zip texts, R pair.1 pair.2) :
    List.Forall₂ (fun text item => R item text) texts items :=
  List.Forall₂.flip (List.forall₂_iff_zip.mpr ⟨hlength.symm, fun hpair => h _ hpair⟩)

private theorem begins_of_presents {items : List Value} {texts : List (List Char)}
    (hlength : texts.length = items.length)
    (h : ∀ pair ∈ items.zip texts, Presents shape pair.1 pair.2) : ∀ text ∈ texts, Json.BeginsValue text := by
  intro text htext
  obtain ⟨item, -, hitem⟩ := (exists_of_mem_forall₂ (forall₂_of_zip hlength h)).2 text htext
  exact hitem.begins

/-! ### Free values -/

private theorem readValue_eq_scalar {c : Char} {rest before : List Char} (hbefore : Json.AreBlanks before)
    (hblank : ¬ Json.isBlank c) (hsquare : c ≠ '[') (hcurly : c ≠ '\x7b') :
    readValue fuel depth (before ++ c :: rest) = readValue.scalar (c :: rest) := by
  cases depth with
  | zero =>
    rw [readValue, Json.skipBlanks_append hbefore, Json.skipBlanks_cons hblank]
    simp [hsquare, hcurly]
  | succ depth =>
    rw [readValue, Json.skipBlanks_append hbefore, Json.skipBlanks_cons hblank]
    simp [hsquare, hcurly]

private theorem scalar_of_numeral {c : Char} (h : c = '-' || Json.isDigit c) (rest : List Char) :
    readValue.scalar (c :: rest) = Json.readNumber.map Value.number (c :: rest) := by
  obtain ⟨hnull, htrue, hfalse, hquote, -⟩ := Json.ne_mark_of_numeral h
  simp only [readValue.scalar, h, if_true]

private theorem takes_scalar {c : Char} {rest : List Char} (hblank : ¬ Json.isBlank c)
    (hsquare : c ≠ '[') (hcurly : c ≠ '\x7b')
    (h : ∀ more, Json.EndsValue more → readValue.scalar (c :: (rest ++ more)) = .ok (value, more)) :
    (readValue fuel depth).Takes (c :: rest) value := by
  intro before more hbefore hmore
  rw [List.cons_append, readValue_eq_scalar hbefore hblank hsquare hcurly, h more hmore]

/-- The reader of a member of a free object puts it among those before. -/
def readMember (fuel depth : Nat) (members : List (String × Value)) (key : String) : Reader (List (String × Value)) :=
  fun text => do (readValue fuel depth).map (insertMember key · members) (← Json.skipColon text)

private theorem takesMembers_readMember {members done : List (String × Value)} {texts : List (List Char)}
    (hlength : texts.length = members.length) (horder : ((done ++ members).map Prod.fst).Pairwise (· < ·))
    (htakes : ∀ pair ∈ members.zip texts, (readValue fuel depth).Takes pair.2 pair.1.2) :
    TakesMembers (readMember fuel depth) done ((members.map Prod.fst).zip texts) (done ++ members) := by
  induction members generalizing done texts with
  | nil =>
    rw [List.append_nil]
    exact .nil
  | cons member members ih =>
    obtain ⟨text, texts, rfl⟩ := List.exists_cons_of_length_eq_add_one hlength
    rw [List.zip_cons_cons, List.forall_mem_cons] at htakes
    obtain ⟨htext, htexts⟩ := htakes
    have hlast : insertMember member.1 member.2 done = done ++ [member] := by
      refine Json.insertMember_last (fun other hother => ?_) member.2
      rw [List.map_append, List.pairwise_append] at horder
      exact horder.2.2 other.1 (List.mem_map_of_mem hother) member.1 List.mem_cons_self
    have hfirst : Json.TakesMember (readMember fuel depth) done (member.1, text) (done ++ [member]) := by
      intro before between rest hbefore hbetween hrest
      have hread := htext.map (insertMember member.1 · done) between rest hbetween hrest
      simp only [readMember, Json.skipColon_append hbefore, bind, Except.bind, hread, hlast]
    have hothers : TakesMembers (readMember fuel depth) (done ++ [member]) ((members.map Prod.fst).zip texts)
        ((done ++ [member]) ++ members) := ih (Nat.succ.inj hlength) (by simpa using horder) htexts
    rw [List.append_assoc, List.singleton_append] at hothers
    exact .cons hfirst hothers

private theorem takes_readValue_integer {n : Int} (h : Json.IsExactInteger n) :
    (readValue fuel depth).Takes (toString n).toList (.ofInt n) := by
  obtain ⟨c, rest, htext, hc⟩ := (Json.isNumeral_toString n).begins
  obtain ⟨-, -, -, -, hsquare, hcurly⟩ := Json.ne_mark_of_numeral hc
  rw [htext]
  refine takes_scalar (Json.not_isBlank_of_numeral hc) hsquare hcurly fun more hmore => ?_
  have hread := Json.readNumber_toString h hmore
  rw [htext, List.cons_append] at hread
  rw [scalar_of_numeral hc, Reader.map, hread]
  rfl

private theorem takes_readValue_string (text : String) :
    (readValue fuel depth).Takes (quote text).toList (.string text) := by
  rw [Json.toList_quote]
  refine takes_scalar (by decide) (by decide) (by decide) fun more _ => ?_
  simp [readValue.scalar, Json.readChars_quoted, Except.map]

private theorem takes_readValue_array {texts : List (List Char)} {items : List Value} (h : IsArray texts text)
    (hbegins : ∀ text ∈ texts, Json.BeginsValue text) (hitems : List.Forall₂ (readValue fuel depth).Takes texts items)
    (hfuel : text.length < fuel) : (readValue fuel (depth + 1)).Takes text (.array items) := by
  have hread := Json.takes_readList h hbegins hitems (Nat.succ_pos depth) hfuel
  obtain ⟨row, -, rfl⟩ := h
  intro before rest hbefore hrest
  have hread := hread before rest hbefore hrest
  rw [readList, Json.skipBlanks_append hbefore, List.cons_append, Json.skipBlanks_cons (by decide)] at hread
  rw [readValue, Json.skipBlanks_append hbefore, List.cons_append, Json.skipBlanks_cons (by decide)]
  simp only [Nat.succ_ne_zero, if_false] at hread
  simp only [Reader.map, hread]

private theorem takes_readValue_object {entries : List (String × List Char)} {members : List (String × Value)}
    (h : IsObject (memberTexts entries) text) (hmembers : TakesMembers (readMember fuel depth) [] entries members)
    (hfuel : text.length < fuel) : (readValue fuel (depth + 1)).Takes text (.object members) := by
  obtain ⟨row, rfl, hread⟩ := Json.readMembers_object h hmembers hfuel
  intro before rest hbefore _
  rw [readValue, Json.skipBlanks_append hbefore, List.cons_append, Json.skipBlanks_cons (by decide)]
  show (readMembers (readMember fuel depth) fuel true []).map Value.object _ = _
  rw [Reader.map, List.append_assoc, List.singleton_append, hread]

/-- A free value is read as it is written. -/
theorem takes_readValue (h : Presents .plain value text) (hexact : value.IsExact) (hdepth : value.depth ≤ depth)
    (hfuel : text.length < fuel) : (readValue fuel depth).Takes text value := by
  generalize hshape : Shape.plain = shape at h
  induction h generalizing depth fuel with
  | null => exact takes_scalar (by decide) (by decide) (by decide) fun _ _ => rfl
  | true => exact takes_scalar (by decide) (by decide) (by decide) fun _ _ => rfl
  | false => exact takes_scalar (by decide) (by decide) (by decide) fun _ _ => rfl
  | integer n => exact takes_readValue_integer hexact.isExactInteger
  | string text => exact takes_readValue_string text
  | @array items texts text hlength hitems h ih =>
    cases hexact with | array hexact =>
    obtain ⟨hpositive, hparts⟩ := Value.depth_le_of_array hdepth
    obtain ⟨depth, rfl⟩ := Nat.exists_eq_add_one_of_ne_zero (Nat.ne_of_gt hpositive)
    have hshort := h.length_item
    have htakes : List.Forall₂ (readValue fuel depth).Takes texts items :=
      forall₂_of_zip hlength fun pair hpair =>
        ih pair hpair (hexact pair.1 (List.of_mem_zip hpair).1) (hparts pair.1 (List.of_mem_zip hpair).1)
          (Nat.lt_trans (hshort pair.2 (List.of_mem_zip hpair).2) hfuel) rfl
    exact takes_readValue_array h (begins_of_presents hlength hitems) htakes hfuel
  | @object members texts text hlength hmembers h ih =>
    cases hexact with | object horder hexact =>
    obtain ⟨hpositive, hparts⟩ := Value.depth_le_of_object hdepth
    obtain ⟨depth, rfl⟩ := Nat.exists_eq_add_one_of_ne_zero (Nat.ne_of_gt hpositive)
    have hshort := h.length_value
    have htakes : ∀ pair ∈ members.zip texts, (readValue fuel depth).Takes pair.2 pair.1.2 := by
      intro pair hpair
      have hmember := (List.of_mem_zip hpair).1
      have hentry : ((quote pair.1.1).toList, pair.2) ∈ memberTexts ((members.map Prod.fst).zip texts) := by
        refine List.mem_map.mpr ⟨(pair.1.1, pair.2), ?_, rfl⟩
        rw [List.zip_map_left]
        exact List.mem_map.mpr ⟨pair, hpair, rfl⟩
      exact ih pair hpair (hexact pair.1 hmember) (hparts pair.1 hmember) (Nat.lt_trans (hshort _ hentry) hfuel) rfl
    exact takes_readValue_object h (takesMembers_readMember hlength horder htakes) hfuel
  | list _ _ _ => cases hshape
  | record _ _ _ _ _ _ _ _ => cases hshape

/-! ### Parts of single kinds -/

theorem takes_string {name : String} (h : Presents .plain (.string name) text) : readString.Takes text name := by
  cases h with | string => exact Json.takes_readString name

theorem takes_int32 {n : Int32} (h : Presents .plain (.ofInt n.toInt) text) : readInt32.Takes text n := by
  cases h with | integer => exact Json.takes_readInt32 n

theorem takes_flag {flag : Bool} (h : Presents .plain (.bool flag) text) : readBool.Takes text flag := by
  cases h with
  | true => exact Json.takes_readBool_true
  | false => exact Json.takes_readBool_false

theorem takes_text? {name : Option String} (h : Presents .plain (.ofText? name) text) :
    (readOption readString).Takes text name := by
  cases name with
  | none => cases h with | null => exact Json.takes_readOption_null readString
  | some name => cases h with | string => exact Json.takes_readOption_some name

theorem takes_modifier {modifier : Modifier} (h : Presents .plain (.string modifier.tag) text) :
    (Json.readAlternative depth Modifier.ofTag?).Takes text modifier := by
  cases h with | string => exact Json.takes_readAlternative (by cases modifier <;> rfl)

theorem takes_list {read : Reader α} {items : List α} {write : α → Value}
    (h : Presents (.list shape) (.array (items.map write)) text)
    (hitems : ∀ item ∈ items, ∀ text, Presents shape (write item) text → (write item).depth ≤ depth - 1 →
      text.length < fuel → read.Takes text item)
    (hdepth : (Value.array (items.map write)).depth ≤ depth) (hfuel : text.length < fuel) :
    (readList fuel depth read).Takes text items := by
  obtain ⟨hpositive, hparts⟩ := Value.depth_le_of_array hdepth
  cases h with | @list _ _ texts _ hlength hpresents h =>
  have hshort := h.length_item
  have htakes : List.Forall₂ read.Takes texts items := by
    refine forall₂_of_zip (by rw [hlength, List.length_map]) fun pair hpair => ?_
    obtain ⟨hitem, htext⟩ := List.of_mem_zip hpair
    refine hitems pair.1 hitem pair.2 (hpresents (write pair.1, pair.2) ?_)
      (hparts (write pair.1) (List.mem_map_of_mem hitem)) (Nat.lt_trans (hshort pair.2 htext) hfuel)
    rw [List.zip_map_left]
    exact List.mem_map_of_mem hpair
  exact Json.takes_readList h (begins_of_presents hlength hpresents) htakes hpositive hfuel

/-! ### Records -/

/-- The slot of a member with its value: `given keys` is the record with the members of some keys. -/
structure Matches (fuel : Nat) (given : List String → α) (slot : Slot α) (part : Member × Value) : Prop where
  key : slot.key = part.1.key
  required : slot.required = part.1.default?.isNone
  takes : ∀ keys text, Presents part.1.shape part.2 text → text.length < fuel →
    (slot.read (given keys)).Takes text (given (slot.key :: keys))

theorem matches_of {β : Type} {given : List String → α} {part : Member × Value} {key : String} {required : Bool}
    {read : Reader β} {set : α → β → α} {field : β} (hkey : key = part.1.key) (hrequired : required = part.1.default?.isNone)
    (hread : ∀ text, Presents part.1.shape part.2 text → text.length < fuel → read.Takes text field)
    (hset : ∀ keys, set (given keys) field = given (key :: keys)) : Matches fuel given (.of key required read set) part where
  key := hkey
  required := hrequired
  takes keys text htext hfuel := hset keys ▸ (hread text htext hfuel).map (set (given keys))

section

variable {record : Record} {slots : List (Slot α)} {given : List String → α} {members : List (String × Value)}
  {dropped : String → Bool} {texts : String → List Char} {unknown entries : List (String × List Char)}

private theorem keys_parts (hkeys : members.map Prod.fst = record.members.map Member.key) :
    (record.parts members).map (fun part => part.1.key) = record.members.map Member.key := by
  have hlength := congrArg List.length hkeys
  simp only [List.length_map] at hlength
  show (record.parts members).map (Member.key ∘ Prod.fst) = _
  rw [← List.map_map, Record.parts, List.map_fst_zip (by rw [List.length_map]; omega)]

private theorem isUnknown_iff (hkeys : members.map Prod.fst = record.members.map Member.key)
    (hslots : List.Forall₂ (Matches fuel given) slots (record.parts members)) {key : String} :
    IsUnknown slots key ↔ key ∉ record.members.map Member.key := by
  have hsame : slots.map Slot.key = record.members.map Member.key := by
    rw [← keys_parts hkeys]
    exact map_eq_map_of_forall₂ (fun _ _ h => h.key) hslots
  rw [← hsame, List.mem_map]
  exact ⟨fun h ⟨slot, hslot, heq⟩ => h slot hslot heq, fun h slot hslot heq => h ⟨slot, hslot, heq⟩⟩

/-- What stands in the text under the key of a declared member. -/
def IsPart (fuel : Nat) (record : Record) (members : List (String × Value)) (key : String) (text : List Char) : Prop :=
  ∃ part ∈ record.parts members, part.1.key = key ∧ Presents part.1.shape part.2 text ∧ text.length < fuel

private theorem fills_of_matches (hkeys : members.map Prod.fst = record.members.map Member.key)
    (hslots : List.Forall₂ (Matches fuel given) slots (record.parts members)) :
    Fills slots given (IsPart fuel record members) := by
  rintro slot hslot keys text ⟨other, hother, hkey, htext, hfuel⟩
  obtain ⟨part, hpart, hmatches⟩ := (exists_of_mem_forall₂ hslots).2 slot hslot
  have hnodup : ((record.parts members).map fun part => part.1.key).Nodup := by
    rw [keys_parts hkeys]
    exact record.nodup_members
  obtain rfl : other = part := List.inj_on_of_nodup_map hnodup hother hpart (hkey.trans hmatches.key)
  exact hmatches.takes keys text htext hfuel

private theorem areMembers_of_presents (hkeys : members.map Prod.fst = record.members.map Member.key)
    (hslots : List.Forall₂ (Matches fuel given) slots (record.parts members))
    (hkept : ∀ part ∈ record.parts members, ¬ dropped part.1.key → Presents part.1.shape part.2 (texts part.1.key))
    (hunknown : ∀ entry ∈ unknown, entry.1 ∉ record.members.map Member.key ∧ IsJson entry.2)
    (hentries : entries.Perm
      (((record.members.map Member.key).filter (!dropped ·)).map (fun key => (key, texts key)) ++ unknown))
    (hfuel : ∀ entry ∈ entries, entry.2.length < fuel) : AreMembers slots (IsPart fuel record members) entries where
  entry entry hentry := by
    have hmem := hentries.mem_iff.mp hentry
    rw [List.mem_append, List.mem_map] at hmem
    rcases hmem with ⟨key, hkey, rfl⟩ | hmem
    · obtain ⟨hdeclared, hdropped⟩ := List.mem_filter.mp hkey
      refine .inr ⟨fun h => (isUnknown_iff hkeys hslots).mp h hdeclared, ?_⟩
      rw [← keys_parts hkeys] at hdeclared
      obtain ⟨part, hpart, rfl⟩ := List.mem_map.mp hdeclared
      exact ⟨part, hpart, rfl, hkept part hpart (by simpa using hdropped), hfuel _ hentry⟩
    · exact .inl ⟨(isUnknown_iff hkeys hslots).mpr (hunknown entry hmem).1, (hunknown entry hmem).2⟩
  once := by
    rw [hentries.pairwise_iff fun h heq => heq ▸ h heq.symm, List.pairwise_append, List.pairwise_map]
    refine ⟨?_, ?_, ?_⟩
    · exact (record.nodup_members.filter _).imp fun hne heq => absurd heq hne
    · exact List.pairwise_of_forall_mem_list fun left hleft _ _ _ => (isUnknown_iff hkeys hslots).mpr (hunknown left hleft).1
    · intro left _ right hright heq
      rw [heq]
      exact (isUnknown_iff hkeys hslots).mpr (hunknown right hright).1

private theorem mem_keys_entries (hentries : entries.Perm
      (((record.members.map Member.key).filter (!dropped ·)).map (fun key => (key, texts key)) ++ unknown)) {key : String}
    (hkey : key ∈ record.members.map Member.key) (hdropped : ¬ dropped key) : key ∈ entries.map Prod.fst := by
  refine List.mem_map.mpr ⟨(key, texts key), hentries.mem_iff.mpr (List.mem_append_left _ ?_), rfl⟩
  exact List.mem_map_of_mem (List.mem_filter.mpr ⟨hkey, by simpa using hdropped⟩)

/-- A presentation of an object is taken for the record of its values. -/
theorem takes_record (given : List String → α) {result : α} (h : Presents (.record record) (.object members) text)
    (hslots : List.Forall₂ (Matches fuel given) slots (record.parts members))
    (hvalue : ∀ keys : List String,
      (record.parts members).Forall (fun part => part.1.key ∈ keys ∨ part.1.default? = some part.2) → given keys = result)
    (hdepth : 0 < depth) (hfuel : text.length < fuel) : (readRecord fuel depth (given []) slots).Takes text result := by
  cases h with | @record _ _ dropped texts unknown entries _ hkeys hdropped hkept hunknown hentries h =>
  have hshort : ∀ entry ∈ entries, entry.2.length < fuel := fun entry hentry =>
    Nat.lt_trans (h.length_value _ (List.mem_map_of_mem hentry)) hfuel
  have hmembers := areMembers_of_presents hkeys hslots hkept hunknown hentries hshort
  have hdeclared {part : Member × Value} (hpart : part ∈ record.parts members) :
      part.1.key ∈ record.members.map Member.key :=
    keys_parts hkeys ▸ List.mem_map_of_mem (f := fun part : Member × Value => part.1.key) hpart
  refine Json.takes_readRecord (fills_of_matches hkeys hslots) hmembers h ?_
    (fun keys hgiven => hvalue keys (List.forall_iff_forall_mem.mpr ?_)) hdepth hfuel
  · intro slot hslot hrequired
    obtain ⟨part, hpart, hmatches⟩ := (exists_of_mem_forall₂ hslots).2 slot hslot
    rw [hmatches.key]
    refine mem_keys_entries hentries (hdeclared hpart) fun hdrop => ?_
    rw [hmatches.required, hdropped part hpart hdrop] at hrequired
    cases hrequired
  · intro part hpart
    by_cases hdrop : dropped part.1.key
    · exact .inr (hdropped part hpart hdrop)
    · obtain ⟨slot, hslot, hmatches⟩ := (exists_of_mem_forall₂ hslots).1 part hpart
      have hmem := hgiven slot hslot
      rw [hmatches.key] at hmem
      exact .inl (hmem (mem_keys_entries hentries (hdeclared hpart) hdrop))

end

end SchemaDocs.Format
