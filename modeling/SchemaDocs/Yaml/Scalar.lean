import SchemaDocs.Yaml.Place

/-!
# Scalars

Plain, quoted and block scalars. A gap within a plain or quoted scalar is folded: a single line
break becomes a space, of several breaks all but the first stay. The functions take the place behind
the indicator that begins the scalar and return its text with the place behind it; what is not a
scalar gives nothing.
-/

namespace SchemaDocs.Yaml

inductive Style where
  | plain
  | singleQuoted
  | doubleQuoted
  | literal
  | folded
deriving DecidableEq, Repr

/-! ### Gaps -/

/-- Blanks, or line breaks with whatever blanks surround them. -/
structure Gap where
  blanks : List Char := []
  breaks : List (List Char) := []

namespace Gap

def isEmpty (gap : Gap) : Bool := gap.blanks.isEmpty && gap.breaks.isEmpty

def text (gap : Gap) : List Char :=
  match gap.breaks with
  | [] => gap.blanks
  | first :: later =>
    if first = ['\n'] then if later.isEmpty then [' '] else later.flatten
    else first ++ later.flatten

end Gap

/-- Passes blanks and breaks. A tab may not stand in for the first `indent` columns of a line. -/
def passGap (indent : Nat) : (fuel : Nat) → Place → Gap → Option (Gap × Place)
  | 0, place, gap => some (gap, place)
  | fuel + 1, place, gap =>
    match place.rest with
    | [] => some (gap, place)
    | c :: _ =>
      if isBlank c then
        if gap.breaks.isEmpty then passGap indent fuel (place.skip 1) { gap with blanks := gap.blanks ++ [c] }
        else if c = '\t' && place.column < indent then none
        else passGap indent fuel (place.skip 1) gap
      else
        match place.breakLine? with
        | some (text, place) => passGap indent fuel place { gap with breaks := gap.breaks ++ [text] }
        | none => some (gap, place)

/-! ### Quoted scalars -/

def hexNumber? (digits : List Char) : Option Nat :=
  digits.foldlM (fun n c =>
    if '0' ≤ c ∧ c ≤ '9' then some (16 * n + (c.toNat - 48))
    else if 'a' ≤ c ∧ c ≤ 'f' then some (16 * n + (c.toNat - 87))
    else if 'A' ≤ c ∧ c ≤ 'F' then some (16 * n + (c.toNat - 55))
    else none) 0

/-- The character of an escape, and the number of characters behind the backslash that it takes. -/
def escape? (text : List Char) : Option (Char × Nat) :=
  let coded (width : Nat) (digits : List Char) : Option (Char × Nat) :=
    if digits.length < width then none
    else
      match hexNumber? (digits.take width) with
      | none => none
      | some code => if code.isValidChar then some (Char.ofNat code, width + 1) else none
  match text with
  | [] => none
  | c :: rest =>
    match c with
    | '0' => some (Char.ofNat 0, 1)
    | 'a' => some ('\x07', 1)
    | 'b' => some ('\x08', 1)
    | 't' => some ('\t', 1)
    | '\t' => some ('\t', 1)
    | 'n' => some ('\n', 1)
    | 'v' => some ('\x0b', 1)
    | 'f' => some ('\x0c', 1)
    | 'r' => some ('\r', 1)
    | 'e' => some ('\x1b', 1)
    | ' ' => some (' ', 1)
    | '\x22' => some ('\x22', 1)
    | '/' => some ('/', 1)
    | '\\' => some ('\\', 1)
    | 'N' => some ('\u0085', 1)
    | '_' => some ('\u00a0', 1)
    | 'L' => some ('\u2028', 1)
    | 'P' => some ('\u2029', 1)
    | 'x' => coded 2 rest
    | 'u' => coded 4 rest
    | 'U' => coded 8 rest
    | _ => none

/-- Reads a quoted scalar behind its opening quote. `gap` is the gap passed last. -/
def readQuoted (style : Style) : (fuel : Nat) → Place → Option (List Char × Place)
  | 0, _ => none
  | fuel + 1, place =>
    let onward (text : List Char) (place : Place) : Option (List Char × Place) :=
      (readQuoted style fuel place).map fun (more, place) => (text ++ more, place)
    if place.atDocumentBoundary then none
    else
      match place.rest with
      | [] => none
      | c :: rest =>
        if isBlank c || isBreak c then do
          let (gap, place) ← passGap 0 (rest.length + 1) place {}
          if gap.isEmpty then none else onward gap.text place
        else if style = .singleQuoted then
          if c = '\x27' then
            if rest.head? = some '\x27' then onward ['\x27'] (place.skip 2) else some ([], place.skip 1)
          else onward [c] (place.skip 1)
        else if c = '\x22' then some ([], place.skip 1)
        else if c = '\\' then
          match (place.skip 1).breakLine? with
          | some (_, place) => do
            let (gap, place) ← passGap 0 rest.length place { breaks := [[]] }
            onward gap.text place
          | none =>
            match escape? rest with
            | some (character, width) => onward [character] (place.skip (width + 1))
            | none => none
        else onward [c] (place.skip 1)

/-! ### Plain scalars -/

def isFlowIndicator (c : Char) : Bool := c = ',' || c = '[' || c = ']' || c = '\x7b' || c = '\x7d'

/-- The part of a plain scalar up to the next gap, with the place behind it. -/
def plainPart? (inFlow : Bool) : List Char → Option (List Char)
  | [] => some []
  | c :: rest =>
    let next := rest.head?
    if isBlank c || isBreak c then some []
    else if c = ':' && inFlow && next.any fun d => d = '?' || isFlowIndicator d then none
    else if c = ':' && (next.all fun d => isBlank d || isBreak d) then some []
    else if inFlow && isFlowIndicator c then some []
    else (plainPart? inFlow rest).map (c :: ·)

/-- Reads a plain scalar on from a place behind `gap`: its text, the place behind it, and whether a
line break follows it. Outside flow collections its lines are indented by `indent` at least. -/
def readPlain (inFlow : Bool) (indent : Nat) : (fuel : Nat) → Place → Gap → Option (List Char × Place × Bool)
  | 0, _, _ => none
  | fuel + 1, place, gap =>
    let ended := some ([], place, !gap.breaks.isEmpty)
    if place.atDocumentBoundary || place.rest.head? = some '#' then ended
    else do
      let part ← plainPart? inFlow place.rest
      let behind := place.skip part.length
      if behind.rest.isEmpty || !behind.gapAt 0 then
        if part.isEmpty then ended else some (gap.text ++ part, behind, false)
      else
        let start := if part.isEmpty then gap else {}
        let text := if part.isEmpty then [] else gap.text ++ part
        let (next, behind) ← passGap indent (behind.rest.length + 1) behind start
        if !inFlow && behind.column < indent then some (text, behind, !next.breaks.isEmpty)
        else
          let (more, place, broken) ← readPlain inFlow indent fuel behind next
          some (text ++ more, place, broken)

/-! ### Block scalars -/

/-- Passes empty lines and the indentation of the next one. Where `indent` is not known it is the
widest indentation seen, but `least` at least. -/
def passBlockBreaks (least : Nat) : (fuel : Nat) → Place → (indent? : Option Nat) → (widest : Nat) →
    (breaks : List (List Char)) → Option (Nat × List (List Char) × Place)
  | 0, _, _, _, _ => none
  | fuel + 1, place, indent?, widest, breaks =>
    let blanks := (place.rest.takeWhile (· = ' ')).length
    let place := place.skip (match indent? with
      | none => blanks
      | some indent => min blanks (indent - place.column))
    let widest := max widest place.column
    let inside := indent?.all (place.column < ·)
    if inside && place.rest.head? = some '\t' then none
    else
      match place.breakLine? with
      | some (text, place) => passBlockBreaks least fuel place indent? widest (breaks ++ [text])
      | none => some (indent?.getD (max widest least), breaks, place)

/-- Whether the breaks at the end of a block scalar are dropped, kept, or reduced to one. -/
inductive Chomping where
  | strip
  | clip
  | keep
deriving DecidableEq

/-- Reads the header of a block scalar: how it ends, the indentation given, and the place at its
first line. -/
def readBlockHeader (place : Place) : Option (Chomping × Option Nat × Place) := do
  let chomping? : Char → Option Chomping
    | '-' => some .strip
    | '+' => some .keep
    | _ => none
  let digit? (c : Char) : Option Nat := if c.isDigit then some (c.toNat - 48) else none
  let (chomping, digit, place) := match place.rest with
    | c :: d :: _ =>
      match chomping? c, digit? c with
      | some chomping, _ =>
        match digit? d with
        | some digit => (chomping, some digit, place.skip 2)
        | none => (chomping, none, place.skip 1)
      | none, some digit => ((chomping? d).getD .clip, some digit, place.skip (if (chomping? d).isSome then 2 else 1))
      | none, none => (.clip, none, place)
    | [c] => ((chomping? c).getD .clip, digit? c, place.skip (if (chomping? c).isSome || c.isDigit then 1 else 0))
    | [] => (Chomping.clip, none, place)
  if digit = some 0 then none
  else
    let place := (place.span isBlank).2
    let place := if place.rest.head? = some '#' then (place.span fun _ => true).2 else place
    match place.rest with
    | [] => some (chomping, digit, place)
    | _ => place.breakLine?.map fun (_, place) => (chomping, digit, place)

/-- Reads the lines of a block scalar. `broken` is the break before the line, and `folding` tells
that the line before may be folded with it. -/
def readBlockLines (isLiteral : Bool) (indent : Nat) (chomping : Chomping) : (fuel : Nat) → Place →
    (broken : List Char) → (folding : Bool) → (breaks : List (List Char)) → Option (List Char × Place)
  | 0, _, _, _, _ => none
  | fuel + 1, place, broken, folding, breaks =>
    if place.column = indent && !place.rest.isEmpty then do
      let blank := place.rest.head?.any isBlank
      let folded := !isLiteral && broken = ['\n'] && folding && !blank
      let gap := (if folded then if breaks.isEmpty then [' '] else [] else broken) ++ breaks.flatten
      let (line, place) := place.span fun _ => true
      let (broken, place) := place.breakLine?.getD ([], place)
      let (_, breaks, place) ← passBlockBreaks 0 (place.rest.length + 2) place (some indent) 0 []
      let (more, place) ← readBlockLines isLiteral indent chomping fuel place broken (!blank) breaks
      some (gap ++ line ++ more, place)
    else
      match chomping with
      | .strip => some ([], place)
      | .clip => some (broken, place)
      | .keep => some (broken ++ breaks.flatten, place)

/-- Reads a block scalar behind its indicator, within a block whose indentation is `outer`. -/
def readBlock (isLiteral : Bool) (outer : Int) (place : Place) : Option (List Char × Place) := do
  let (chomping, digit, place) ← readBlockHeader place
  let indent? := digit.map fun digit => if 0 ≤ outer then outer.toNat + digit else digit
  let least := max 1 (outer + 1).toNat
  let (indent, breaks, place) ← passBlockBreaks least (place.rest.length + 2) place indent? 0 []
  readBlockLines isLiteral indent chomping (place.rest.length + 2) place [] true breaks

end SchemaDocs.Yaml
