/-!
# Ascending ranges of code points

A character class is a list of inclusive code point ranges in ascending order, so a search may stop
at the first range that begins behind the code point it looks for.
-/

namespace SchemaDocs.Text

/-- Inclusive ranges of code points, in ascending order. -/
abbrev Ranges := List (Nat × Nat)

/-- Whether some range holds `code`; ranges that begin behind it are not looked at. -/
def Ranges.holds : Ranges → Nat → Bool
  | [], _ => false
  | (first, last) :: later, code =>
    if code < first then false else if code ≤ last then true else Ranges.holds later code

end SchemaDocs.Text
