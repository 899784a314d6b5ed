import SchemaDocs.Text.CaseTables

/-!
# Letter case

Lower-casing a text depends on neighbours in one place: a capital sigma that ends a word becomes a
final sigma. Capitalizing and case folding work character by character.
-/

namespace SchemaDocs.Text

private def mapCase (expansions : List (Nat × List Nat)) (runs : List CaseRun) (c : Char) : List Char :=
  match CaseRun.apply? runs c.toNat with
  | some code => [Char.ofNat code]
  | none =>
    match expansions.lookup c.toNat with
    | some codes => codes.map Char.ofNat
    | none => [c]

/-- Lower-case form of a character apart from its neighbours. -/
def lowerChar (c : Char) : List Char :=
  if c.toNat < 128 then [c.toLower] else mapCase lowercaseExpansions lowercaseRuns c

def upperChar (c : Char) : List Char :=
  if c.toNat < 128 then [c.toUpper] else mapCase uppercaseExpansions uppercaseRuns c

/-- Whether the text begins, after characters without a bearing on case, with a cased one. -/
def beginsCased (text : List Char) : Bool :=
  match text.dropWhile fun c => caseIgnorableRanges.holds c.toNat with
  | [] => false
  | c :: _ => casedRanges.holds c.toNat

/-- Lower-cases `text`, which follows the reversed text `before`. -/
def lowercaseAfter (before : List Char) : List Char → List Char
  | [] => []
  | c :: after =>
    (if c = 'Σ' then [if beginsCased before && !beginsCased after then 'ς' else 'σ'] else lowerChar c) ++
      lowercaseAfter (c :: before) after

def lowercase (text : List Char) : List Char := lowercaseAfter [] text

def capitalize : List Char → List Char
  | [] => []
  | c :: rest => upperChar c ++ rest

/-- A form in which two spellings that differ only in case are equal. The dotless i folds to itself
alone. -/
def foldChar (c : Char) : List Char :=
  if c = 'ı' then [c] else ((lowerChar c).flatMap upperChar).flatMap lowerChar

def foldCase (text : List Char) : List Char := text.flatMap foldChar

end SchemaDocs.Text
