import SchemaDocs.Json.Printer
import SchemaDocs.Proofs.Json.Skipping

/-!
# What readers take

A reader takes a text for a value if it reads the value off the front of that text, whatever blanks stand
before it and whatever ends it. A record is taken member by member: in any order, with members of other names
between them, and without those that have been left out.
-/

namespace SchemaDocs.Json

variable {α β σ : Type} {text rest before between : List Char} {fuel depth : Nat}

/-- A reader reads a value off the front of a text. -/
def Reader.Takes (read : Reader α) (text : List Char) (value : α) : Prop :=
  ∀ before rest, AreBlanks before → EndsValue rest → read (before ++ (text ++ rest)) = .ok (value, rest)

theorem Reader.Takes.map {read : Reader α} {value : α} (h : read.Takes text value) (f : α → β) :
    (read.map f).Takes text (f value) := by
  intro before rest hbefore hrest
  rw [Reader.map, h before rest hbefore hrest]

/-! ### Single values -/

private theorem hex_digits : ∀ n < 32, natOfHex? ['0', '0', hexDigit (n / 16), hexDigit (n % 16)] = some n := by
  decide

private theorem readChars_escapeChar (c : Char) (rest done : List Char) :
    readChars (escapeChar c ++ rest) done = readChars rest (c :: done) := by
  rw [escapeChar]
  split_ifs with hquote hslash hline hreturn htab hback hfeed hcontrol
  · subst hquote
    rfl
  · subst hslash
    rfl
  · subst hline
    rfl
  · subst hreturn
    rfl
  · subst htab
    rfl
  · subst hback
    rfl
  · subst hfeed
    rfl
  · have hsmall : ¬ (0xDC00 ≤ c.toNat ∧ c.toNat ≤ 0xDFFF) ∧ ¬ (0xD800 ≤ c.toNat ∧ c.toNat ≤ 0xDBFF) := by omega
    simp only [List.cons_append, List.nil_append, readChars, hex_digits c.toNat hcontrol, if_neg hsmall.1, if_neg hsmall.2,
      Char.ofNat_toNat]
  · simp [readChars, hslash, hcontrol]

theorem readChars_quoted (text rest done : List Char) :
    readChars (text.flatMap escapeChar ++ '\x22' :: rest) done = .ok (done.reverse ++ text, rest) := by
  induction text generalizing done with
  | nil => simp [readChars]
  | cons c text ih => simp [readChars_escapeChar, ih]

theorem toList_quote (text : String) :
    (quote text).toList = '\x22' :: (text.toList.flatMap escapeChar ++ ['\x22']) := by
  rw [quote, String.toList_ofList, List.cons_append]

theorem takes_readString (text : String) : readString.Takes (quote text).toList text := by
  intro before rest hbefore _
  rw [readString, skipBlanks_append hbefore, toList_quote, List.cons_append, skipBlanks_cons (by decide)]
  simp only [List.append_assoc, List.singleton_append, readChars_quoted, Except.map, List.reverse_nil, List.nil_append,
    String.ofList_toList]

theorem takes_readBool_true : readBool.Takes ['t', 'r', 'u', 'e'] true := by
  intro before rest hbefore _
  rw [readBool, skipBlanks_append hbefore]
  rfl

theorem takes_readBool_false : readBool.Takes ['f', 'a', 'l', 's', 'e'] false := by
  intro before rest hbefore _
  rw [readBool, skipBlanks_append hbefore]
  rfl

theorem takes_readInt32 (n : Int32) : readInt32.Takes (toString n.toInt).toList n := by
  intro before rest hbefore hrest
  have hlow : -2147483648 ≤ n.toInt := Int32.le_toInt n
  have hhigh : n.toInt < 2147483648 := Int32.toInt_lt n
  have hread := readNumber_toString (isExactInteger_int32 n) hrest
  obtain ⟨c, more, htext, hc⟩ := (isNumeral_toString n.toInt).begins
  rw [htext, List.cons_append] at hread ⊢
  rw [readInt32, skipBlanks_append hbefore, skipBlanks_cons (not_isBlank_of_numeral hc)]
  simp only [hc, hread, if_true, if_pos (And.intro hlow hhigh), Int32.ofInt_toInt]

theorem takes_readOption_null (read : Reader α) : (readOption read).Takes ['n', 'u', 'l', 'l'] none := by
  intro before rest hbefore _
  rw [readOption, skipBlanks_append hbefore]
  rfl

theorem takes_readOption_some (text : String) : (readOption readString).Takes (quote text).toList (some text) := by
  intro before rest hbefore hrest
  have hread := takes_readString text [] rest areBlanks_nil hrest
  rw [toList_quote, List.nil_append, List.cons_append] at hread
  rw [readOption, skipBlanks_append hbefore, toList_quote, List.cons_append, skipBlanks_cons (by decide)]
  show readString.map some _ = _
  rw [Reader.map, hread]

/-- The name of an alternative is taken for it. -/
theorem takes_readAlternative {find? : String → Option α} {tag : String} {value : α} (hfind : find? tag = some value) :
    (readAlternative depth find?).Takes (quote tag).toList value := by
  intro before rest hbefore hrest
  have hread := takes_readString tag [] rest areBlanks_nil hrest
  rw [toList_quote, List.nil_append, List.cons_append] at hread
  rw [readAlternative, skipBlanks_append hbefore, toList_quote, List.cons_append, skipBlanks_cons (by decide)]
  simp only [hread, bind, Except.bind, hfind]
  rfl

/-! ### Lists -/

private theorem nextItem_first {c : Char} (hbefore : AreBlanks before) (hblank : ¬ isBlank c)
    (hclosing : c ≠ ']') (rest : List Char) :
    nextItem true (before ++ c :: rest) = .ok (.inl (c :: rest)) := by
  simp [nextItem, skipBlanks_append hbefore, skipBlanks_cons hblank]

private theorem nextItem_next {c : Char} (hbefore : AreBlanks before) (hbetween : AreBlanks between)
    (hblank : ¬ isBlank c) (hclosing : c ≠ ']') (rest : List Char) :
    nextItem false (before ++ ',' :: (between ++ c :: rest)) = .ok (.inl (c :: rest)) := by
  have hcomma : ¬ isBlank ',' := by decide
  simp [nextItem, skipBlanks_append hbefore, skipBlanks_append hbetween, skipBlanks_cons hblank, skipBlanks_cons hcomma,
    hclosing]

private theorem nextItem_closing (first : Bool) (hbefore : AreBlanks before) (rest : List Char) :
    nextItem first (before ++ ']' :: rest) = .ok (.inr rest) := by
  rw [nextItem, skipBlanks_append hbefore, skipBlanks_cons (by decide)]
  rfl

private theorem IsRest.length_le {items : List (List Char)} (h : IsRest items text) : items.length ≤ text.length := by
  induction h with
  | nil => exact Nat.zero_le _
  | cons _ _ _ ih =>
    simp only [List.length_append, List.length_cons]
    omega

theorem IsRow.length_le {items : List (List Char)} (h : IsRow items text) : items.length ≤ text.length + 1 := by
  cases h with
  | nil => exact Nat.zero_le _
  | cons _ hrest =>
    have hlength := hrest.length_le
    simp only [List.length_append, List.length_cons]
    omega

/-- The items of a row are not longer than the row. -/
theorem IsRest.length_item {items : List (List Char)} (h : IsRest items text) :
    ∀ item ∈ items, item.length ≤ text.length := by
  induction h with
  | nil => exact List.forall_mem_nil _
  | cons _ _ _ ih =>
    simp only [List.length_append, List.length_cons, List.forall_mem_cons]
    refine ⟨by omega, fun item hitem => ?_⟩
    have hle := ih item hitem
    omega

private theorem IsRow.length_item {items : List (List Char)} (h : IsRow items text) :
    ∀ item ∈ items, item.length ≤ text.length := by
  cases h with
  | nil => exact List.forall_mem_nil _
  | cons _ hrest =>
    simp only [List.length_append, List.forall_mem_cons]
    refine ⟨by omega, fun item hitem => ?_⟩
    have hle := hrest.length_item item hitem
    omega

theorem IsArray.length_item {items : List (List Char)} (h : IsArray items text) :
    ∀ item ∈ items, item.length < text.length := by
  obtain ⟨row, hrow, rfl⟩ := h
  intro item hitem
  have hle := hrow.length_item item hitem
  simp only [List.length_cons, List.length_append, List.length_nil]
  omega

theorem IsObject.length_value {members : List (List Char × List Char)} (h : IsObject members text) :
    ∀ member ∈ members, member.2.length < text.length := by
  obtain ⟨items, row, hmembers, hrow, rfl⟩ := h
  intro member hmember
  obtain ⟨item, hitem, hmember⟩ := (exists_of_mem_forall₂ hmembers).2 member hmember
  have hle := hrow.length_item item hitem
  obtain ⟨-, -⟩ := hmember
  simp only [List.length_append, List.length_cons, List.length_nil] at hle ⊢
  omega

section

variable {item : Reader α} {items : List (List Char)} {values : List α}

private theorem readItems_rest (h : IsRest items text) (hbegins : ∀ item ∈ items, BeginsValue item)
    (hitems : List.Forall₂ item.Takes items values) (hfuel : items.length < fuel) (rest : List Char) :
    readItems item fuel false (text ++ ']' :: rest) = .ok (values, rest) := by
  induction h generalizing fuel values with
  | nil hblanks =>
    cases hitems
    cases fuel with
    | zero => cases hfuel
    | succ fuel => rw [readItems, nextItem_closing _ hblanks]
  | @cons before between text more items hbefore hbetween hrest ih =>
    obtain ⟨value, values, hvalue, hvalues, rfl⟩ := List.forall₂_cons_left_iff.mp hitems
    obtain ⟨hfirst, hothers⟩ := List.forall_mem_cons.mp hbegins
    obtain ⟨c, tail, rfl, hblank, hclosing⟩ := hfirst
    cases fuel with
    | zero => cases hfuel
    | succ fuel =>
      have hread := hvalue [] (more ++ ']' :: rest) areBlanks_nil (hrest.endsValue .square rest)
      have hmore := ih hothers hvalues (Nat.lt_of_succ_lt_succ hfuel)
      simp only [List.nil_append, List.append_assoc, List.cons_append] at hread ⊢
      rw [readItems, nextItem_next hbefore hbetween hblank hclosing]
      simp only [hread, hmore]

private theorem readItems_row (h : IsRow items text) (hbegins : ∀ item ∈ items, BeginsValue item)
    (hitems : List.Forall₂ item.Takes items values) (hfuel : items.length < fuel) (rest : List Char) :
    readItems item fuel true (text ++ ']' :: rest) = .ok (values, rest) := by
  cases fuel with
  | zero => cases hfuel
  | succ fuel =>
    cases h with
    | nil hblanks =>
      cases hitems
      rw [readItems, nextItem_closing _ hblanks]
    | @cons before text more items hbefore hrest =>
      obtain ⟨value, values, hvalue, hvalues, rfl⟩ := List.forall₂_cons_left_iff.mp hitems
      obtain ⟨hfirst, hothers⟩ := List.forall_mem_cons.mp hbegins
      obtain ⟨c, tail, rfl, hblank, hclosing⟩ := hfirst
      have hread := hvalue [] (more ++ ']' :: rest) areBlanks_nil (hrest.endsValue .square rest)
      have hmore := readItems_rest hrest hothers hvalues (Nat.lt_of_succ_lt_succ hfuel) rest
      simp only [List.nil_append, List.append_assoc, List.cons_append] at hread ⊢
      rw [readItems, nextItem_first hbefore hblank hclosing]
      simp only [hread, hmore]

/-- An array is taken for the list of what its items are taken for. -/
theorem takes_readList (h : IsArray items text) (hbegins : ∀ item ∈ items, BeginsValue item)
    (hitems : List.Forall₂ item.Takes items values) (hdepth : 0 < depth) (hfuel : text.length < fuel) :
    (readList fuel depth item).Takes text values := by
  obtain ⟨row, hrow, rfl⟩ := h
  have hlength := hrow.length_le
  simp only [List.length_cons, List.length_append, List.length_nil] at hfuel
  intro before rest hbefore _
  rw [readList, skipBlanks_append hbefore, List.cons_append, skipBlanks_cons (by decide)]
  simp only [List.append_assoc, List.singleton_append, if_neg (Nat.ne_of_gt hdepth)]
  exact readItems_row hrow hbegins hitems (by omega) rest

end

/-! ### Members -/

def memberTexts (entries : List (String × List Char)) : List (List Char × List Char) :=
  entries.map fun entry => ((quote entry.1).toList, entry.2)

/-- A reader of members takes the value of one that stands behind its colon. -/
def TakesMember (member : σ → String → Reader σ) (state : σ) (entry : String × List Char) (next : σ) : Prop :=
  ∀ before between rest, AreBlanks before → AreBlanks between → EndsValue rest →
    member state entry.1 (before ++ ':' :: (between ++ (entry.2 ++ rest))) = .ok (next, rest)

/-- A reader of members takes them one behind the other. -/
inductive TakesMembers (member : σ → String → Reader σ) : σ → List (String × List Char) → σ → Prop where
  | nil {state : σ} : TakesMembers member state [] state
  | cons {state next final : σ} {entry : String × List Char} {entries : List (String × List Char)}
      (hentry : TakesMember member state entry next) (hentries : TakesMembers member next entries final) :
      TakesMembers member state (entry :: entries) final

private theorem nextKey_first (hbefore : AreBlanks before) (key : String) (rest : List Char) :
    nextKey true (before ++ ((quote key).toList ++ rest)) = .ok (.inl (key, rest)) := by
  rw [nextKey, skipBlanks_append hbefore, toList_quote, List.cons_append, skipBlanks_cons (by decide)]
  simp [readChars_quoted, Except.map]

private theorem nextKey_next (hbefore : AreBlanks before) (hbetween : AreBlanks between) (key : String)
    (rest : List Char) :
    nextKey false (before ++ ',' :: (between ++ ((quote key).toList ++ rest))) = .ok (.inl (key, rest)) := by
  have hcomma : ¬ isBlank ',' := by decide
  have hquote : ¬ isBlank '\x22' := by decide
  simp [nextKey, skipBlanks_append hbefore, skipBlanks_append hbetween, skipBlanks_cons hcomma, skipBlanks_cons hquote,
    toList_quote, readChars_quoted, Except.map]

private theorem nextKey_closing (first : Bool) (hbefore : AreBlanks before) (rest : List Char) :
    nextKey first (before ++ '\x7d' :: rest) = .ok (.inr rest) := by
  rw [nextKey, skipBlanks_append hbefore, skipBlanks_cons (by decide)]
  rfl

section

variable {member : σ → String → Reader σ} {state final : σ} {items : List (List Char)} {entries : List (String × List Char)}

private theorem readMembers_rest (h : IsRest items text)
    (hitems : List.Forall₂ (fun entry item => IsMember entry.1 entry.2 item) (memberTexts entries) items)
    (hmembers : TakesMembers member state entries final) (hfuel : entries.length < fuel) (rest : List Char) :
    readMembers member fuel false state (text ++ '\x7d' :: rest) = .ok (final, rest) := by
  induction h generalizing fuel state entries with
  | nil hblanks =>
    cases hmembers with
    | cons _ _ => cases hitems
    | nil =>
      cases fuel with
      | zero => cases hfuel
      | succ fuel => rw [readMembers, nextKey_closing _ hblanks]
  | @cons before between text more items hbefore hbetween hrest ih =>
    cases hmembers with
    | nil => cases hitems
    | @cons state next final entry entries hentry hentries =>
      obtain ⟨hitem, hothers⟩ := List.forall₂_cons.mp hitems
      cases fuel with
      | zero => cases hfuel
      | succ fuel =>
        obtain ⟨hfront, hback⟩ := hitem
        rename_i front back
        have hread := hentry front back (more ++ '\x7d' :: rest) hfront hback (hrest.endsValue .curly rest)
        have hmore := ih hothers hentries (Nat.lt_of_succ_lt_succ hfuel)
        simp only [List.append_assoc, List.cons_append]
        rw [readMembers, nextKey_next hbefore hbetween]
        simp only [hread, hmore]

private theorem readMembers_row (h : IsRow items text)
    (hitems : List.Forall₂ (fun entry item => IsMember entry.1 entry.2 item) (memberTexts entries) items)
    (hmembers : TakesMembers member state entries final) (hfuel : entries.length < fuel) (rest : List Char) :
    readMembers member fuel true state (text ++ '\x7d' :: rest) = .ok (final, rest) := by
  cases fuel with
  | zero => cases hfuel
  | succ fuel =>
    cases h with
    | nil hblanks =>
      cases hmembers with
      | cons _ _ => cases hitems
      | nil => rw [readMembers, nextKey_closing _ hblanks]
    | @cons before text more items hbefore hrest =>
      cases hmembers with
      | nil => cases hitems
      | @cons state next final entry entries hentry hentries =>
        obtain ⟨hitem, hothers⟩ := List.forall₂_cons.mp hitems
        obtain ⟨hfront, hback⟩ := hitem
        rename_i front back
        have hread := hentry front back (more ++ '\x7d' :: rest) hfront hback (hrest.endsValue .curly rest)
        have hmore := readMembers_rest hrest hothers hentries (Nat.lt_of_succ_lt_succ hfuel) rest
        simp only [List.append_assoc, List.cons_append]
        rw [readMembers, nextKey_first hbefore]
        simp only [hread, hmore]

/-- The members between the brackets of an object are taken one behind the other. -/
theorem readMembers_object (h : IsObject (memberTexts entries) text)
    (hmembers : TakesMembers member state entries final)
    (hfuel : text.length < fuel) :
    ∃ row, text = '\x7b' :: (row ++ ['\x7d']) ∧
      ∀ rest, readMembers member fuel true state (row ++ '\x7d' :: rest) = .ok (final, rest) := by
  obtain ⟨items, row, hitems, hrow, rfl⟩ := h
  have hlength := hrow.length_le
  have hentries := hitems.length_eq
  simp only [memberTexts, List.length_map] at hentries
  simp only [List.length_cons, List.length_append, List.length_nil] at hfuel
  exact ⟨row, rfl, readMembers_row hrow hitems hmembers (by omega)⟩

end

/-! ### Records -/

theorem skipColon_append (hbefore : AreBlanks before) (rest : List Char) :
    skipColon (before ++ ':' :: rest) = .ok rest := by
  rw [skipColon, skipBlanks_append hbefore, skipBlanks_cons (by decide)]
  rfl

section

variable {slots : List (Slot α)} {given : List String → α} {IsText : String → List Char → Prop} {keys : List String}
  {entry : String × List Char} {entries : List (String × List Char)}

/-- The slots of a record take the texts of its members one by one: `given keys` is the record with the
members of some keys, and with its defaults otherwise. -/
def Fills (slots : List (Slot α)) (given : List String → α) (IsText : String → List Char → Prop) : Prop :=
  ∀ slot ∈ slots, ∀ keys text, IsText slot.key text → (slot.read (given keys)).Takes text (given (slot.key :: keys))

/-- A key that is declared by none of the slots. -/
def IsUnknown (slots : List (Slot α)) (key : String) : Prop := ∀ slot ∈ slots, slot.key ≠ key

private theorem takesMember_unknown {state : α × List String} (hkey : IsUnknown slots entry.1)
    (htext : IsJson entry.2) :
    TakesMember (readField slots) state entry state := by
  intro before between rest hbefore hbetween hrest
  have hfind : slots.find? (·.key = entry.1) = none := by
    rw [List.find?_eq_none]
    intro slot hslot
    simpa using hkey slot hslot
  rw [readField, hfind]
  simp only [skipColon_append hbefore, htext.skipValue_append hbetween hrest, bind, Except.bind]
  rfl

private theorem takesMember_known (hslots : Fills slots given IsText) (hkey : ¬ IsUnknown slots entry.1)
    (htext : IsText entry.1 entry.2) (hnew : entry.1 ∉ keys) :
    TakesMember (readField slots) (given keys, keys) entry (given (entry.1 :: keys), entry.1 :: keys) := by
  intro before between rest hbefore hbetween hrest
  cases hfind : slots.find? (·.key = entry.1) with
  | none =>
    rw [List.find?_eq_none] at hfind
    exact absurd (fun slot hslot => by simpa using hfind slot hslot) hkey
  | some slot =>
    have hslot : slot.key = entry.1 := by simpa using List.find?_some hfind
    have htake := hslots slot (List.mem_of_find?_eq_some hfind) keys entry.2 (hslot ▸ htext) between rest hbetween hrest
    rw [readField, hfind]
    simp only [if_neg hnew, skipColon_append hbefore, bind, Except.bind, htake, hslot]
    rfl

/-- What the members of the text of a record have to be: each is one of the record's, and no two of these have
the same key, or it has another name and is well-formed. -/
structure AreMembers (slots : List (Slot α)) (IsText : String → List Char → Prop) (entries : List (String × List Char)) :
    Prop where
  entry : ∀ entry ∈ entries, (IsUnknown slots entry.1 ∧ IsJson entry.2) ∨ (¬ IsUnknown slots entry.1 ∧ IsText entry.1 entry.2)
  once : entries.Pairwise fun left right => left.1 = right.1 → IsUnknown slots left.1

private theorem exists_takesMembers (keys : List String) (hslots : Fills slots given IsText)
    (hentries : AreMembers slots IsText entries)
    (hnew : ∀ entry ∈ entries, entry.1 ∈ keys → IsUnknown slots entry.1) :
    ∃ final : List String, TakesMembers (readField slots) (given keys, keys) entries (given final, final) ∧
      ∀ key, ¬ IsUnknown slots key → (key ∈ final ↔ key ∈ keys ∨ key ∈ entries.map Prod.fst) := by
  induction entries generalizing keys with
  | nil => exact ⟨keys, .nil, by simp⟩
  | cons entry entries ih =>
    obtain ⟨hentry, hothers⟩ := List.forall_mem_cons.mp hentries.entry
    obtain ⟨honce, hpairs⟩ := List.pairwise_cons.mp hentries.once
    obtain ⟨hfirst, hlater⟩ := List.forall_mem_cons.mp hnew
    rcases hentry with ⟨hunknown, htext⟩ | ⟨hknown, htext⟩
    · obtain ⟨final, htakes, hfinal⟩ := ih keys ⟨hothers, hpairs⟩ hlater
      refine ⟨final, .cons (takesMember_unknown hunknown htext) htakes, fun key hkey => ?_⟩
      have hne : key ≠ entry.1 := fun heq => hkey (heq ▸ hunknown)
      rw [hfinal key hkey, List.map_cons, List.mem_cons]
      simp [hne]
    · have hkey : entry.1 ∉ keys := fun hmem => hknown (hfirst hmem)
      obtain ⟨final, htakes, hfinal⟩ := ih (entry.1 :: keys) ⟨hothers, hpairs⟩ fun other hother hmem => by
        rcases List.mem_cons.mp hmem with heq | hmem
        · exact heq ▸ honce other hother heq.symm
        · exact hlater other hother hmem
      refine ⟨final, .cons (takesMember_known hslots hknown htext hkey) htakes, fun key hkey => ?_⟩
      rw [hfinal key hkey, List.map_cons, List.mem_cons, List.mem_cons]
      tauto

/-- An object is taken for a record if its members are those of the record, in any order, but for some that
have been left out. -/
theorem takes_readRecord {value : α} (hslots : Fills slots given IsText) (hentries : AreMembers slots IsText entries)
    (h : IsObject (memberTexts entries) text) (hrequired : ∀ slot ∈ slots, slot.required → slot.key ∈ entries.map Prod.fst)
    (hvalue : ∀ keys : List String, (∀ slot ∈ slots, slot.key ∈ entries.map Prod.fst → slot.key ∈ keys) → given keys = value)
    (hdepth : 0 < depth) (hfuel : text.length < fuel) :
    (readRecord fuel depth (given []) slots).Takes text value := by
  obtain ⟨final, htakes, hfinal⟩ := exists_takesMembers [] hslots hentries fun _ _ => nofun
  have hknown (slot : Slot α) (hslot : slot ∈ slots) : slot.key ∈ final ↔ slot.key ∈ entries.map Prod.fst := by
    rw [hfinal slot.key fun h => h slot hslot rfl]
    simp
  obtain ⟨row, rfl, hread⟩ := readMembers_object h htakes hfuel
  intro before rest hbefore _
  have hall : slots.all (fun slot => !slot.required || slot.key ∈ final) := by
    rw [List.all_eq_true]
    intro slot hslot
    cases hneeded : slot.required with
    | false => rfl
    | true => simpa using (hknown slot hslot).mpr (hrequired slot hslot hneeded)
  rw [readRecord, skipBlanks_append hbefore, List.cons_append, skipBlanks_cons (by decide)]
  simp only [List.append_assoc, List.singleton_append, if_neg (Nat.ne_of_gt hdepth), hread, hall, if_true]
  rw [hvalue final fun slot hslot => (hknown slot hslot).mpr]

end

end SchemaDocs.Json
