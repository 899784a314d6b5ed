import SchemaDocs.Proofs.Json.Numerals
import SchemaDocs.Proofs.Sequence

/-!
# Skipping values

Whatever is well-formed is skipped as a whole, to any depth. The steps that this takes are counted: a
value of some length costs at most two steps for each of its characters, which is what the skipping
reader has.
-/

namespace SchemaDocs.Json

variable {text rest body before : List Char} {enclosing : List Bracket}

theorem skipName_append (name rest : List Char) : skipName name (name ++ rest) = .ok rest := by
  induction name with
  | nil => rfl
  | cons n name ih => rw [List.cons_append, skipName, if_pos rfl, ih]

private theorem unescape?_ne_u {c : Char} (h : (unescape? c).isSome) : c ≠ 'u' := by
  rintro rfl
  exact absurd h (by decide)

theorem skipChars_append (h : IsStringBody body) (rest : List Char) :
    skipChars (body ++ '\x22' :: rest) = .ok rest := by
  induction h with
  | nil => rw [List.nil_append, skipChars]
  | @plain c more hquote hslash hcontrol _ ih =>
    simp [skipChars, hslash, Nat.not_lt.mpr hcontrol, ih]
  | @escape c more hescape _ ih =>
    simp [skipChars, unescape?_ne_u hescape, hescape, ih]
  | code hcode _ ih => simp [skipChars, hcode, ih]

theorem skipKey_append {key : List Char} {between : List Char} (hbefore : AreBlanks before) (hkey : IsString key)
    (hbetween : AreBlanks between) (rest : List Char) : skipKey (before ++ (key ++ (between ++ ':' :: rest))) = .ok rest := by
  obtain ⟨body, hbody, rfl⟩ := hkey
  rw [skipKey, skipBlanks_append hbefore, List.cons_append, skipBlanks_cons (by decide)]
  simp only [List.append_assoc, List.singleton_append]
  rw [skipChars_append hbody]
  simp only [skipBlanks_append hbetween, skipBlanks_cons (show ¬ isBlank ':' by decide)]

/-! ### Steps -/

/-- A value is skipped in a number of steps, in front of anything that ends it. -/
def SkippedIn (steps : Nat) (text : List Char) : Prop :=
  ∀ (fuel : Nat) (enclosing : List Bracket) (before rest : List Char), AreBlanks before → EndsValue rest →
    skipFrom (fuel + steps) .value enclosing (before ++ (text ++ rest)) = skipFrom fuel .behind enclosing rest

private theorem skipFrom_blanks (fuel : Nat) (enclosing : List Bracket) (hbefore : AreBlanks before)
    (text : List Char) :
    skipFrom (fuel + 1) .value enclosing (before ++ text) = skipFrom (fuel + 1) .value enclosing text := by
  rw [skipFrom, skipFrom, skipBlanks_append hbefore]

private theorem skippedIn_name {c : Char} {name : List Char}
    (h : ∀ fuel enclosing rest, skipFrom (fuel + 1) .value enclosing (c :: rest) =
      skipName name rest >>= skipFrom fuel .behind enclosing) : SkippedIn 1 (c :: name) := by
  intro fuel enclosing before rest hbefore _
  rw [skipFrom_blanks fuel enclosing hbefore, List.cons_append, h, skipName_append]
  rfl

private theorem skippedIn_numeral {literal : Literal} (h : IsNumeral literal text) : SkippedIn 1 text := by
  intro fuel enclosing before rest hbefore hrest
  have hread := readLiteral_append .malformed h hrest
  obtain ⟨c, more, rfl, hc⟩ := h.begins
  rw [List.cons_append] at hread ⊢
  rw [skipFrom_blanks fuel enclosing hbefore, skipFrom, skipBlanks_cons (not_isBlank_of_numeral hc)]
  simp [ne_mark_of_numeral hc, hc, hread, bind, Except.bind]

private theorem skippedIn_string (h : IsString text) : SkippedIn 1 text := by
  obtain ⟨body, hbody, rfl⟩ := h
  intro fuel enclosing before rest hbefore _
  rw [skipFrom_blanks fuel enclosing hbefore, List.cons_append, skipFrom, skipBlanks_cons (by decide)]
  simp only [List.append_assoc, List.singleton_append, skipChars_append hbody]
  rfl

/-! ### Rows -/

def Bracket.closing : Bracket → Char
  | .square => ']'
  | .curly => '\x7d'

/-- What is skipped in front of the value of an item: the key of a member. -/
def Bracket.skipFront : Bracket → List Char → Except Fault (List Char)
  | .square, text => .ok text
  | .curly, text => skipKey text

/-- An item between brackets is skipped in a number of steps, together with its key. -/
structure ItemSkippedIn (bracket : Bracket) (steps : Nat) (item : List Char) : Prop where
  begins : ∃ c rest, item = c :: rest ∧ ¬ isBlank c ∧ c ≠ bracket.closing
  skipped : ∀ (fuel : Nat) (enclosing : List Bracket) (before rest : List Char), AreBlanks before → EndsValue rest →
    (bracket.skipFront (before ++ (item ++ rest)) >>= skipFrom (fuel + steps) .value (bracket :: enclosing)) =
      skipFrom fuel .behind (bracket :: enclosing) rest

section

variable (bracket : Bracket) (fuel : Nat) (enclosing : List Bracket) (rest : List Char)

private theorem skipFrom_comma (hbefore : AreBlanks before) :
    skipFrom (fuel + 1) .behind (bracket :: enclosing) (before ++ ',' :: rest) =
      bracket.skipFront rest >>= skipFrom fuel .value (bracket :: enclosing) := by
  rw [skipFrom, skipBlanks_append hbefore, skipBlanks_cons (by decide)]
  cases bracket <;> rfl

private theorem skipFrom_closing (hbefore : AreBlanks before) :
    skipFrom (fuel + 1) .behind (bracket :: enclosing) (before ++ bracket.closing :: rest) =
      skipFrom fuel .behind enclosing rest := by
  rw [skipFrom, skipBlanks_append hbefore, skipBlanks_cons (by cases bracket <;> decide)]
  cases bracket <;> rfl

theorem skipFrom_empty (hbefore : AreBlanks before) :
    skipFrom (fuel + 1) .opened (bracket :: enclosing) (before ++ bracket.closing :: rest) =
      skipFrom fuel .behind enclosing rest := by
  rw [skipFrom, skipBlanks_append hbefore, skipBlanks_cons (by cases bracket <;> decide)]
  cases bracket <;> rfl

private theorem skipFrom_opened {c : Char} (hbefore : AreBlanks before) (hblank : ¬ isBlank c)
    (hclosing : c ≠ bracket.closing) :
    skipFrom (fuel + 1) .opened (bracket :: enclosing) (before ++ c :: rest) =
      bracket.skipFront (c :: rest) >>= skipFrom fuel .value (bracket :: enclosing) := by
  have hclosed : ¬ bracket.closedBy c := by cases bracket <;> simpa [Bracket.closedBy, Bracket.closing] using hclosing
  rw [skipFrom, skipBlanks_append hbefore, skipBlanks_cons hblank]
  simp only [if_neg hclosed]
  cases bracket <;> rfl

end

theorem IsRest.endsValue {items : List (List Char)} (h : IsRest items text) (bracket : Bracket) (rest : List Char) :
    EndsValue (text ++ bracket.closing :: rest) := by
  cases h with
  | nil hblanks => exact endsValue_append hblanks (endsValue_cons (by cases bracket <;> decide))
  | cons hbefore _ _ =>
    rw [List.append_assoc]
    exact endsValue_append hbefore (endsValue_cons (by decide))

private theorem exists_steps_of_isRest {bracket : Bracket} {items : List (List Char)} (h : IsRest items text)
    (hitems : ∀ item ∈ items, ∃ steps ≤ 2 * item.length, ItemSkippedIn bracket steps item) :
    ∃ steps ≤ 2 * text.length + 1, ∀ (fuel : Nat) (enclosing : List Bracket) (rest : List Char),
      skipFrom (fuel + steps) .behind (bracket :: enclosing) (text ++ bracket.closing :: rest) =
        skipFrom fuel .behind enclosing rest := by
  induction h with
  | nil hblanks => exact ⟨1, by omega, fun fuel enclosing rest => skipFrom_closing bracket fuel enclosing rest hblanks⟩
  | @cons before between item text items hbefore hbetween hrest ih =>
    obtain ⟨hitem, hitems⟩ := List.forall_mem_cons.mp hitems
    obtain ⟨first, hfirst, hitem⟩ := hitem
    obtain ⟨more, hmore, hskip⟩ := ih hitems
    refine ⟨more + first + 1, ?_, fun fuel enclosing rest => ?_⟩
    · simp only [List.length_append, List.length_cons]
      omega
    · simp only [List.append_assoc, List.cons_append, ← Nat.add_assoc]
      rw [skipFrom_comma bracket _ _ _ hbefore, hitem.skipped _ _ _ _ hbetween (hrest.endsValue bracket rest), hskip]

private theorem exists_steps_of_isRow {bracket : Bracket} {items : List (List Char)} (h : IsRow items text)
    (hitems : ∀ item ∈ items, ∃ steps ≤ 2 * item.length, ItemSkippedIn bracket steps item) :
    ∃ steps ≤ 2 * text.length + 2, ∀ (fuel : Nat) (enclosing : List Bracket) (rest : List Char),
      skipFrom (fuel + steps) .opened (bracket :: enclosing) (text ++ bracket.closing :: rest) =
        skipFrom fuel .behind enclosing rest := by
  cases h with
  | nil hblanks => exact ⟨1, by omega, fun fuel enclosing rest => skipFrom_empty bracket fuel enclosing rest hblanks⟩
  | @cons before item text items hbefore hrest =>
    obtain ⟨hitem, hitems⟩ := List.forall_mem_cons.mp hitems
    obtain ⟨first, hfirst, hitem⟩ := hitem
    obtain ⟨more, hmore, hskip⟩ := exists_steps_of_isRest hrest hitems
    refine ⟨more + first + 1, ?_, fun fuel enclosing rest => ?_⟩
    · simp only [List.length_append]
      omega
    · obtain ⟨c, tail, htext, hblank, hclosing⟩ := hitem.begins
      have hfront := hitem.skipped (fuel + more) enclosing [] (text ++ bracket.closing :: rest) areBlanks_nil
        (hrest.endsValue bracket rest)
      rw [List.nil_append, htext, List.cons_append] at hfront
      simp only [List.append_assoc, ← Nat.add_assoc, htext, List.cons_append]
      rw [skipFrom_opened bracket _ _ _ hbefore hblank hclosing, hfront, hskip]

/-! ### Values -/

private theorem IsMember.itemSkippedIn {key value : List Char} {steps : Nat} (hkey : IsString key)
    (hvalue : SkippedIn steps value) (h : IsMember key value text) : ItemSkippedIn .curly steps text := by
  obtain ⟨hbefore, hbetween⟩ := h
  rename_i front between
  constructor
  · obtain ⟨body, -, rfl⟩ := hkey
    exact ⟨'\x22', _, rfl, by decide, by decide⟩
  · intro fuel _ before rest hblanks hrest
    have hskip := skipKey_append hblanks hkey hbefore (between ++ (value ++ rest))
    simp only [Bracket.skipFront, List.append_assoc, List.cons_append, hskip]
    exact hvalue fuel _ between rest hbetween hrest

private theorem SkippedIn.item {steps : Nat} (hbegins : BeginsValue text) (h : SkippedIn steps text) :
    ItemSkippedIn .square steps text :=
  ⟨hbegins, fun fuel _ before rest hbefore hrest => h fuel _ before rest hbefore hrest⟩

theorem IsJson.begins (h : IsJson text) : BeginsValue text := by
  cases h with
  | null => exact ⟨'n', _, rfl, by decide, by decide⟩
  | true => exact ⟨'t', _, rfl, by decide, by decide⟩
  | false => exact ⟨'f', _, rfl, by decide, by decide⟩
  | number h =>
    obtain ⟨c, rest, rfl, hc⟩ := h.begins
    exact beginsValue_of_numeral rest hc
  | string h =>
    obtain ⟨body, -, rfl⟩ := h
    exact ⟨'\x22', _, rfl, by decide, by decide⟩
  | array _ h => exact h.begins
  | object _ _ h => exact h.begins

private theorem exists_skippedIn_of_isRow (bracket : Bracket) {opening : Char} {items : List (List Char)}
    {row : List Char} (hopening : ∀ fuel enclosing rest, skipFrom (fuel + 1) .value enclosing (opening :: rest) =
      skipFrom fuel .opened (bracket :: enclosing) rest)
    (hrow : IsRow items row) (hitems : ∀ item ∈ items, ∃ steps ≤ 2 * item.length, ItemSkippedIn bracket steps item) :
    ∃ steps ≤ 2 * (opening :: (row ++ [bracket.closing])).length, SkippedIn steps (opening :: (row ++ [bracket.closing])) := by
  obtain ⟨steps, hsteps, hskip⟩ := exists_steps_of_isRow hrow hitems
  refine ⟨steps + 1, ?_, fun fuel enclosing before rest hbefore _ => ?_⟩
  · simp only [List.length_cons, List.length_append, List.length_nil]
    omega
  · rw [← Nat.add_assoc, skipFrom_blanks _ enclosing hbefore, List.cons_append, hopening, List.append_assoc,
      List.singleton_append, hskip]

private theorem IsJson.exists_steps (h : IsJson text) : ∃ steps ≤ 2 * text.length, SkippedIn steps text := by
  induction h with
  | null => exact ⟨1, by decide, skippedIn_name fun _ _ _ => rfl⟩
  | true => exact ⟨1, by decide, skippedIn_name fun _ _ _ => rfl⟩
  | false => exact ⟨1, by decide, skippedIn_name fun _ _ _ => rfl⟩
  | number h =>
    refine ⟨1, ?_, skippedIn_numeral h⟩
    obtain ⟨c, rest, rfl, -⟩ := h.begins
    rw [List.length_cons]
    omega
  | string h =>
    refine ⟨1, ?_, skippedIn_string h⟩
    obtain ⟨body, -, rfl⟩ := h
    rw [List.length_cons]
    omega
  | @array items text hvalues h ih =>
    obtain ⟨row, hrow, rfl⟩ := h
    refine exists_skippedIn_of_isRow .square (fun _ _ _ => rfl) hrow fun item hitem => ?_
    obtain ⟨steps, hsteps, hskip⟩ := ih item hitem
    exact ⟨steps, hsteps, hskip.item (hvalues item hitem).begins⟩
  | @object members text hkeys hvalues h ih =>
    obtain ⟨items, row, hmembers, hrow, rfl⟩ := h
    refine exists_skippedIn_of_isRow .curly (fun _ _ _ => rfl) hrow fun item hitem => ?_
    obtain ⟨member, hmember, hitem⟩ := (exists_of_mem_forall₂ hmembers).1 item hitem
    obtain ⟨steps, hsteps, hskip⟩ := ih member hmember
    refine ⟨steps, ?_, hitem.itemSkippedIn (hkeys member hmember) hskip⟩
    obtain ⟨-, -⟩ := hitem
    simp only [List.length_append, List.length_cons]
    omega

/-- A well-formed value is skipped, whatever ends it. -/
theorem IsJson.skipValue_append (h : IsJson text) (hbefore : AreBlanks before) (hrest : EndsValue rest) :
    skipValue (before ++ (text ++ rest)) = .ok rest := by
  obtain ⟨steps, hsteps, hskip⟩ := h.exists_steps
  have hfuel : ∃ fuel, 2 * (before ++ (text ++ rest)).length + 2 = fuel + 1 + steps := by
    refine ⟨2 * (before ++ (text ++ rest)).length + 1 - steps, ?_⟩
    simp only [List.length_append]
    omega
  obtain ⟨fuel, hfuel⟩ := hfuel
  rw [skipValue, hfuel, hskip _ _ _ _ hbefore hrest, skipFrom]

end SchemaDocs.Json
