import SchemaDocs.Proofs.Json.Grammar

/-!
# Reading numerals

A numeral is read as its parts, whatever ends it. An integer that fits 64 bits is read as itself from
the digits that it is written with.
-/

namespace SchemaDocs.Json

variable {text rest digits : List Char} {literal : Literal}

/-! ### Parts of numerals -/

private theorem takeWhile_digits (hdigits : ∀ c ∈ digits, isDigit c) (hrest : ∀ c ∈ rest.head?, ¬ isDigit c) :
    (digits ++ rest).takeWhile isDigit = digits ∧ (digits ++ rest).dropWhile isDigit = rest := by
  rw [List.takeWhile_append_of_pos hdigits, List.dropWhile_append_of_pos hdigits]
  cases rest with
  | nil => simp
  | cons c rest =>
    have hc : ¬ isDigit c := hrest c rfl
    rw [List.takeWhile_cons_of_neg hc, List.dropWhile_cons_of_neg hc, List.append_nil]
    exact ⟨rfl, rfl⟩

theorem readDigits_append (atEnd : Fault) (h : AreDigits digits) (hrest : ∀ c ∈ rest.head?, ¬ isDigit c) :
    readDigits atEnd (digits ++ rest) = .ok (digits, rest) := by
  obtain ⟨hne, hdigits⟩ := h
  obtain ⟨htake, hdrop⟩ := takeWhile_digits hdigits hrest
  obtain ⟨d, more, rfl⟩ := List.exists_cons_of_ne_nil hne
  have hd : isDigit d := hdigits d List.mem_cons_self
  simp only [List.cons_append] at htake hdrop ⊢
  simp only [readDigits, hd, htake, hdrop, if_true]

theorem readWhole_append (atEnd : Fault) (h : IsWhole digits) (hrest : ∀ c ∈ rest.head?, ¬ isDigit c) :
    readWhole atEnd (digits ++ rest) = .ok (digits, rest) := by
  cases h with
  | zero =>
    cases rest with
    | nil => rfl
    | cons c rest =>
      have hc : ¬ isDigit c := hrest c rfl
      simp [readWhole, hc]
  | @positive d digits hfirst hzero hdigits =>
    rw [← readDigits_append atEnd (IsWhole.positive hfirst hzero hdigits).areDigits hrest, List.cons_append, readWhole]
    intro more hmore
    exact absurd (List.cons.inj hmore).1 hzero

private theorem IsExponent.not_isDigit {exponent : Option (Bool × List Char)} (h : IsExponent exponent text)
    (hrest : EndsValue rest) :
    ∀ c ∈ (text ++ rest).head?, ¬ isDigit c := by
  cases h with
  | none => exact hrest.not_isDigit
  | some hmark _ _ =>
    intro c hc
    obtain rfl := Option.some.inj hc
    rcases hmark with rfl | rfl <;> decide

private theorem IsFraction.not_isDigit {fraction : Option (List Char)} {more : List Char} (h : IsFraction fraction text)
    (hmore : ∀ c ∈ more.head?, ¬ isDigit c) : ∀ c ∈ (text ++ more).head?, ¬ isDigit c := by
  cases h with
  | none => exact hmore
  | some _ =>
    intro c hc
    obtain rfl := Option.some.inj hc
    decide

private theorem EndsValue.eq_nil_or_cons (h : EndsValue rest) :
    rest = [] ∨ ∃ c more, rest = c :: more ∧ c ≠ '.' ∧ c ≠ 'e' ∧ c ≠ 'E' := by
  cases rest with
  | nil => exact .inl rfl
  | cons c more =>
    refine .inr ⟨c, more, rfl, ?_, ?_, ?_⟩ <;> rintro rfl <;> exact absurd (h _ rfl) (by decide)

/-! ### Numerals -/

private theorem AreDigits.ne_sign (h : AreDigits digits) : ∃ d more, digits = d :: more ∧ d ≠ '+' ∧ d ≠ '-' := by
  obtain ⟨hne, hdigits⟩ := h
  obtain ⟨d, more, rfl⟩ := List.exists_cons_of_ne_nil hne
  have hd : isDigit d := hdigits d List.mem_cons_self
  refine ⟨d, more, rfl, ?_, ?_⟩ <;> rintro rfl <;> exact absurd hd (by decide)

theorem readLiteral_append (atEnd : Fault) (h : IsNumeral literal text) (hrest : EndsValue rest) :
    readLiteral atEnd (text ++ rest) = .ok (literal, rest) := by
  obtain ⟨hsign, hwhole, hfraction, hexponent⟩ := h
  rename_i negative sign whole fraction exponent fraction? exponent?
  have hbehindFraction := hexponent.not_isDigit hrest
  have hbehindPoint (digits : List Char) (h : AreDigits digits) :
      readDigits atEnd (digits ++ (exponent ++ rest)) = .ok (digits, exponent ++ rest) :=
    readDigits_append atEnd h hbehindFraction
  have hread := readWhole_append atEnd hwhole (hfraction.not_isDigit hbehindFraction)
  obtain ⟨d, more, rfl, -, hminus⟩ := hwhole.areDigits.ne_sign
  cases hsign
  all_goals
    simp only [List.append_assoc, List.cons_append, List.nil_append] at hread ⊢
    simp only [readLiteral, bind, Except.bind, List.cons.injEq, hminus, false_and, imp_self, implies_true, hread, pure,
      Except.pure]
    cases hexponent with
    | none =>
      rcases hrest.eq_nil_or_cons with rfl | ⟨c, more, rfl, hpoint, hlower, hupper⟩ <;> cases hfraction <;>
        simp_all [Except.map]
    | some hmark hsign hdigits =>
      have hbehindMark := readDigits_append atEnd hdigits hrest.not_isDigit
      obtain ⟨e, more, rfl, hplus, hminus⟩ := hdigits.ne_sign
      rcases hmark with rfl | rfl <;> cases hsign <;> cases hfraction <;> simp_all [Except.map]

/-! ### Integers -/

private theorem isDigit_of_mem_toDigits {n : Nat} {c : Char} (h : c ∈ Nat.toDigits 10 n) : isDigit c :=
  Nat.isDigit_of_mem_toDigits (by decide) (by decide) h

private theorem isWhole_toDigits (n : Nat) : IsWhole (Nat.toDigits 10 n) := by
  have hfirst (n : Nat) (hn : 0 < n) : ∃ d more, Nat.toDigits 10 n = d :: more ∧ d ≠ '0' := by
    induction n using Nat.strongRecOn with
    | ind n ih =>
      rw [Nat.toDigits_eq_if (by decide)]
      split
      · rename_i hsmall
        have hdigits : ∀ n < 10, 0 < n → Nat.digitChar n ≠ '0' := by decide
        exact ⟨_, [], rfl, hdigits n hsmall hn⟩
      · rename_i hlarge
        obtain ⟨d, more, htext, hd⟩ := ih (n / 10) (by omega) (by omega)
        exact ⟨d, _, by rw [htext, List.cons_append], hd⟩
  rcases Nat.eq_zero_or_pos n with rfl | hn
  · exact .zero
  · obtain ⟨d, more, htext, hd⟩ := hfirst n hn
    have hdigits : ∀ c ∈ d :: more, isDigit c := htext ▸ fun c hc => isDigit_of_mem_toDigits hc
    rw [htext]
    exact .positive (hdigits d List.mem_cons_self) hd fun c hc => hdigits c (List.mem_cons_of_mem _ hc)

private theorem natOfDigits_toDigits (n : Nat) : natOfDigits (Nat.toDigits 10 n) = n :=
  Nat.ofDigitChars_toDigits (by decide) (by decide)

def Literal.ofInt (n : Int) : Literal := ⟨n < 0, Nat.toDigits 10 n.natAbs, none, none⟩

theorem isNumeral_toString (n : Int) : IsNumeral (.ofInt n) (toString n).toList := by
  have hparts {negative : Bool} {sign : List Char} (hsign : IsSign negative sign) (size : Nat) :
      IsNumeral ⟨negative, Nat.toDigits 10 size, none, none⟩ (sign ++ Nat.toDigits 10 size) := by
    have h : IsNumeral _ _ := .mk hsign (isWhole_toDigits size) .none .none
    rwa [List.append_nil, List.append_nil] at h
  cases n with
  | ofNat n =>
    have htext : (toString (Int.ofNat n)).toList = Nat.toDigits 10 n := by
      show (toString n).toList = _
      rw [Nat.toString_eq_ofList_toDigits, String.toList_ofList]
    rw [htext]
    exact hparts .positive n
  | negSucc n =>
    have htext : (toString (Int.negSucc n)).toList = '-' :: Nat.toDigits 10 (n + 1) := by
      show ("-" ++ toString (n + 1)).toList = _
      simp only [String.toList_append, Nat.toString_eq_ofList_toDigits, String.toList_ofList]
      rfl
    have hliteral : Literal.ofInt (Int.negSucc n) = ⟨true, Nat.toDigits 10 (n + 1), none, none⟩ := by
      simp [Literal.ofInt, Int.negSucc_lt_zero]
    rw [htext, hliteral]
    exact hparts .negative (n + 1)

/-- The integers that are kept exactly: those of 64 bits, with or without a sign. -/
def IsExactInteger (n : Int) : Prop := -(Nat.pow 2 63 : Int) ≤ n ∧ n < (Nat.pow 2 64 : Int)

theorem isExactInteger_int32 (n : Int32) : IsExactInteger n.toInt := by
  have hlow : -2147483648 ≤ n.toInt := Int32.le_toInt n
  have hhigh : n.toInt < 2147483648 := Int32.toInt_lt n
  simp only [IsExactInteger, Nat.pow_eq]
  omega

private theorem number?_ofInt {n : Int} (h : IsExactInteger n) : (Literal.ofInt n).number? = some (.integer n) := by
  obtain ⟨hlow, hhigh⟩ := h
  have hsize : natOfDigits (Nat.toDigits 10 n.natAbs) = n.natAbs := natOfDigits_toDigits _
  by_cases hsign : n < 0
  · have hbound : ¬ (n.natAbs = 0 ∨ Nat.pow 2 63 < n.natAbs) := by
      simp only [Nat.pow_eq] at hlow ⊢
      omega
    simp only [Literal.number?, Literal.ofInt, hsize, hsign, decide_true, Option.isSome_none, Bool.or_self,
      Bool.false_eq_true, if_false, if_true, if_neg hbound]
    congr 2
    omega
  · have hbound : n.natAbs < Nat.pow 2 64 := by
      simp only [Nat.pow_eq] at hhigh ⊢
      omega
    simp only [Literal.number?, Literal.ofInt, hsize, hsign, decide_false, Option.isSome_none, Bool.or_self,
      Bool.false_eq_true, if_false, if_pos hbound]
    congr 2
    omega

theorem readNumber_toString {n : Int} (h : IsExactInteger n) (hrest : EndsValue rest) :
    readNumber ((toString n).toList ++ rest) = .ok (.integer n, rest) := by
  rw [readNumber, readLiteral_append _ (isNumeral_toString n) hrest]
  simp only [number?_ofInt h]

end SchemaDocs.Json
