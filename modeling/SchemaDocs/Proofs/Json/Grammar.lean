import Mathlib.Data.List.Forall2
import SchemaDocs.Json.Reader

/-!
# The grammar of JSON texts

What a well-formed text is, said without a reader: blanks between tokens, strings with their escapes,
numerals, and values in brackets that are parted by commas. What follows a value has to end it, since
a number could go on otherwise.
-/

namespace SchemaDocs.Json

def AreBlanks (text : List Char) : Prop := ∀ c ∈ text, isBlank c

/-- What may stand behind a value: nothing, a blank, or a mark that parts or closes. -/
def EndsValue (rest : List Char) : Prop := ∀ c ∈ rest.head?, isBlank c ∨ c = ',' ∨ c = ']' ∨ c = '\x7d'

def BeginsValue (text : List Char) : Prop := ∃ c rest, text = c :: rest ∧ ¬ isBlank c ∧ c ≠ ']'

/-! ### Rows -/

/-- What stands behind an item up to the closing bracket: blanks, and every further item behind a comma. -/
inductive IsRest : (items : List (List Char)) → List Char → Prop where
  | nil {blanks : List Char} (hblanks : AreBlanks blanks) : IsRest [] blanks
  | cons {before between item text : List Char} {items : List (List Char)} (hbefore : AreBlanks before)
      (hbetween : AreBlanks between) (hrest : IsRest items text) :
      IsRest (item :: items) (before ++ ',' :: (between ++ (item ++ text)))

/-- What stands between two brackets. -/
inductive IsRow : (items : List (List Char)) → List Char → Prop where
  | nil {blanks : List Char} (hblanks : AreBlanks blanks) : IsRow [] blanks
  | cons {before item text : List Char} {items : List (List Char)} (hbefore : AreBlanks before)
      (hrest : IsRest items text) : IsRow (item :: items) (before ++ (item ++ text))

/-- A key and a value with a colon between them. -/
inductive IsMember (key value : List Char) : List Char → Prop where
  | mk {before between : List Char} (hbefore : AreBlanks before) (hbetween : AreBlanks between) :
      IsMember key value (key ++ (before ++ ':' :: (between ++ value)))

def IsArray (items : List (List Char)) (text : List Char) : Prop := ∃ row, IsRow items row ∧ text = '[' :: (row ++ [']'])

def IsObject (members : List (List Char × List Char)) (text : List Char) : Prop :=
  ∃ items row, List.Forall₂ (fun member item => IsMember member.1 member.2 item) members items ∧ IsRow items row ∧
    text = '\x7b' :: (row ++ ['\x7d'])

/-! ### Strings -/

/-- What may stand between quotes. -/
inductive IsStringBody : List Char → Prop where
  | nil : IsStringBody []
  | plain {c : Char} {rest : List Char} (hquote : c ≠ '\x22') (hslash : c ≠ '\\') (hcontrol : 32 ≤ c.toNat)
      (hrest : IsStringBody rest) : IsStringBody (c :: rest)
  | escape {c : Char} {rest : List Char} (hescape : (unescape? c).isSome) (hrest : IsStringBody rest) :
      IsStringBody ('\\' :: c :: rest)
  | code {a b c d : Char} {rest : List Char} (hcode : (natOfHex? [a, b, c, d]).isSome) (hrest : IsStringBody rest) :
      IsStringBody ('\\' :: 'u' :: a :: b :: c :: d :: rest)

def IsString (text : List Char) : Prop := ∃ body, IsStringBody body ∧ text = '\x22' :: (body ++ ['\x22'])

/-! ### Numerals -/

def AreDigits (digits : List Char) : Prop := digits ≠ [] ∧ ∀ c ∈ digits, isDigit c

/-- The digits before the point: a zero stands alone. -/
inductive IsWhole : List Char → Prop where
  | zero : IsWhole ['0']
  | positive {d : Char} {digits : List Char} (hfirst : isDigit d) (hzero : d ≠ '0') (hdigits : ∀ c ∈ digits, isDigit c) :
      IsWhole (d :: digits)

inductive IsSign : (negative : Bool) → List Char → Prop where
  | positive : IsSign false []
  | negative : IsSign true ['-']

inductive IsFraction : (fraction : Option (List Char)) → List Char → Prop where
  | none : IsFraction none []
  | some {digits : List Char} (hdigits : AreDigits digits) : IsFraction (some digits) ('.' :: digits)

inductive IsExponentSign : (negative : Bool) → List Char → Prop where
  | none : IsExponentSign false []
  | positive : IsExponentSign false ['+']
  | negative : IsExponentSign true ['-']

inductive IsExponent : (exponent : Option (Bool × List Char)) → List Char → Prop where
  | none : IsExponent none []
  | some {mark : Char} {negative : Bool} {sign digits : List Char} (hmark : mark = 'e' ∨ mark = 'E')
      (hsign : IsExponentSign negative sign) (hdigits : AreDigits digits) :
      IsExponent (some (negative, digits)) (mark :: (sign ++ digits))

/-- The text of a numeral, whose parts stand one behind the other. -/
inductive IsNumeral : Literal → List Char → Prop where
  | mk {negative : Bool} {sign whole fraction exponent : List Char} {fraction? : Option (List Char)}
      {exponent? : Option (Bool × List Char)} (hsign : IsSign negative sign) (hwhole : IsWhole whole)
      (hfraction : IsFraction fraction? fraction) (hexponent : IsExponent exponent? exponent) :
      IsNumeral ⟨negative, whole, fraction?, exponent?⟩ (sign ++ (whole ++ (fraction ++ exponent)))

/-! ### Values -/

/-- A well-formed value. -/
inductive IsJson : List Char → Prop where
  | null : IsJson ['n', 'u', 'l', 'l']
  | true : IsJson ['t', 'r', 'u', 'e']
  | false : IsJson ['f', 'a', 'l', 's', 'e']
  | number {literal : Literal} {text : List Char} (h : IsNumeral literal text) : IsJson text
  | string {text : List Char} (h : IsString text) : IsJson text
  | array {items : List (List Char)} {text : List Char} (hitems : ∀ item ∈ items, IsJson item) (h : IsArray items text) :
      IsJson text
  | object {members : List (List Char × List Char)} {text : List Char} (hkeys : ∀ member ∈ members, IsString member.1)
      (hvalues : ∀ member ∈ members, IsJson member.2) (h : IsObject members text) : IsJson text

/-! ### Small facts -/

section

variable {text blanks rest digits : List Char} {c : Char}

theorem areBlanks_nil : AreBlanks [] := List.forall_mem_nil _

theorem areBlanks_singleton (h : isBlank c) : AreBlanks [c] := List.forall_mem_singleton.mpr h

theorem areBlanks_append (hblanks : AreBlanks blanks) (hrest : AreBlanks rest) : AreBlanks (blanks ++ rest) :=
  List.forall_mem_append.mpr ⟨hblanks, hrest⟩

@[simp] theorem skipBlanks_append (h : AreBlanks blanks) (rest : List Char) :
    skipBlanks (blanks ++ rest) = skipBlanks rest := by
  induction blanks with
  | nil => rfl
  | cons c blanks ih =>
    obtain ⟨hc, hblanks⟩ := List.forall_mem_cons.mp h
    rw [List.cons_append, skipBlanks, List.dropWhile_cons_of_pos hc]
    exact ih hblanks

theorem skipBlanks_cons (h : ¬ isBlank c) (rest : List Char) : skipBlanks (c :: rest) = c :: rest :=
  List.dropWhile_cons_of_neg h

theorem endsValue_nil : EndsValue [] := nofun

theorem endsValue_cons (h : isBlank c ∨ c = ',' ∨ c = ']' ∨ c = '\x7d') : EndsValue (c :: rest) := by
  intro other hother
  obtain rfl := Option.some.inj hother
  exact h

theorem endsValue_append (hblanks : AreBlanks blanks) (hrest : EndsValue rest) : EndsValue (blanks ++ rest) := by
  cases blanks with
  | nil => exact hrest
  | cons c blanks => exact endsValue_cons (.inl (hblanks c List.mem_cons_self))

theorem EndsValue.not_isDigit (h : EndsValue rest) : ∀ c ∈ rest.head?, ¬ isDigit c := by
  intro c hc hdigit
  rcases h c hc with hblank | rfl | rfl | rfl
  · simp only [isBlank, Bool.or_eq_true, decide_eq_true_eq] at hblank
    rcases hblank with ((rfl | rfl) | rfl) | rfl <;> exact absurd hdigit (by decide)
  all_goals exact absurd hdigit (by decide)

theorem IsWhole.areDigits (h : IsWhole digits) : AreDigits digits := by
  cases h with
  | zero => exact ⟨List.cons_ne_nil _ _, List.forall_mem_singleton.mpr (by decide)⟩
  | positive hfirst _ hdigits => exact ⟨List.cons_ne_nil _ _, List.forall_mem_cons.mpr ⟨hfirst, hdigits⟩⟩

private theorem not_isBlank_of_isDigit (h : isDigit c) : ¬ isBlank c := by
  intro hblank
  simp only [isBlank, Bool.or_eq_true, decide_eq_true_eq] at hblank
  rcases hblank with ((rfl | rfl) | rfl) | rfl <;> exact absurd h (by decide)

private theorem IsWhole.begins (h : IsWhole digits) (rest : List Char) :
    ∃ d more, digits ++ rest = d :: more ∧ isDigit d := by
  obtain ⟨hne, hdigits⟩ := h.areDigits
  obtain ⟨d, more, rfl⟩ := List.exists_cons_of_ne_nil hne
  exact ⟨d, more ++ rest, rfl, hdigits d List.mem_cons_self⟩

/-- A numeral begins with a digit or with the sign. -/
theorem IsNumeral.begins {literal : Literal} (h : IsNumeral literal text) :
    ∃ c rest, text = c :: rest ∧ (c = '-' || isDigit c) := by
  cases h with
  | mk hsign hwhole _ _ =>
    cases hsign with
    | positive =>
      obtain ⟨d, more, htext, hdigit⟩ := hwhole.begins _
      exact ⟨d, more, htext, by simp [hdigit]⟩
    | negative => exact ⟨'-', _, rfl, rfl⟩

/-- No value of another kind begins as a numeral does. -/
theorem ne_mark_of_numeral (h : c = '-' || isDigit c) :
    c ≠ 'n' ∧ c ≠ 't' ∧ c ≠ 'f' ∧ c ≠ '\x22' ∧ c ≠ '[' ∧ c ≠ '\x7b' := by
  refine ⟨?_, ?_, ?_, ?_, ?_, ?_⟩ <;> rintro rfl <;> exact absurd h (by decide)

theorem not_isBlank_of_numeral (h : c = '-' || isDigit c) : ¬ isBlank c := by
  rw [Bool.or_eq_true, decide_eq_true_eq] at h
  rcases h with rfl | h
  · decide
  · exact not_isBlank_of_isDigit h

theorem beginsValue_of_numeral (rest : List Char) (h : c = '-' || isDigit c) : BeginsValue (c :: rest) := by
  refine ⟨c, rest, rfl, not_isBlank_of_numeral h, ?_⟩
  rintro rfl
  exact absurd h (by decide)

theorem IsArray.begins {items : List (List Char)} (h : IsArray items text) : BeginsValue text := by
  obtain ⟨row, -, rfl⟩ := h
  exact ⟨'[', row ++ [']'], rfl, by decide, by decide⟩

theorem IsObject.begins {members : List (List Char × List Char)} (h : IsObject members text) : BeginsValue text := by
  obtain ⟨items, row, -, -, rfl⟩ := h
  exact ⟨'\x7b', row ++ ['\x7d'], rfl, by decide, by decide⟩

end

end SchemaDocs.Json
