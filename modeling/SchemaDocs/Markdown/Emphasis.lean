import SchemaDocs.Text.Blank
import SchemaDocs.Markdown.Line
import SchemaDocs.Markdown.Tree

/-!
# Emphasis

Runs of asterisks, underscores and tildes open and close emphasis. Running content with unresolved
runs is read from left to right over a stack of openers; a run that can close takes the nearest
opener that fits, and openers above that one become plain text.
-/

namespace SchemaDocs.Markdown

structure DelimiterRun where
  delimiter : Char
  count : Nat
  opens : Bool
  closes : Bool

/-- Whether a run can open: text follows, and a word does not go on through an underscore or a
single tilde. -/
def canOpen (delimiter : Char) (count : Nat) (before after : Option Char) : Bool :=
  match after, before with
  | none, _ => false
  | some next, before =>
    !Text.isWhiteSpace next &&
      match before with
      | none => true
      | some last =>
        (delimiter = '*' && !Text.isPunctuation next) ||
          (delimiter = '~' && (1 < count || (last = '~' && !Text.isPunctuation next))) ||
            Text.isWhiteSpace last || Text.isPunctuation last

/-- Whether a run can close, by the same conditions with its two sides exchanged. -/
def canClose (delimiter : Char) (count : Nat) (before after : Option Char) : Bool :=
  match before with
  | none => false
  | some last =>
    !Text.isWhiteSpace last &&
      match after with
      | none => true
      | some next =>
        ((delimiter = '*' || (delimiter = '~' && 1 < count)) && !Text.isPunctuation last) ||
          (delimiter = '~' && last = '~') || Text.isWhiteSpace next || Text.isPunctuation next

/-- The run of a delimiter between two characters. Three tildes or more mean nothing. -/
def DelimiterRun.between (delimiter : Char) (count : Nat) (before after : Option Char) : DelimiterRun :=
  if delimiter = '~' && 2 < count then ⟨delimiter, count, false, false⟩
  else ⟨delimiter, count, canOpen delimiter count before after, canClose delimiter count before after⟩

inductive Piece where
  | inline (inline : Inline)
  | run (run : DelimiterRun)

/-- A run that may open, the number of its delimiters that are left, and what follows it, in
reverse. -/
structure Opener where
  run : DelimiterRun
  left : Nat
  content : List Inline

/-- Content read so far: what stands before the first opener, in reverse, and the openers, innermost
first. Tildes find no opener among the lowest `tildeFloor` ones. -/
structure EmphasisState where
  ground : List Inline
  openers : List Opener
  tildeFloor : Nat

namespace EmphasisState

def append (state : EmphasisState) (content : List Inline) : EmphasisState :=
  match state.openers with
  | [] => { state with ground := content ++ state.ground }
  | top :: below => { state with openers := { top with content := content ++ top.content } :: below }

def plain (delimiter : Char) (count : Nat) : Inline := .text (String.ofList (List.replicate count delimiter))

/-- The content of openers, innermost first, that turned out to be plain text, in reverse. -/
def flatten (openers : List Opener) : List Inline :=
  openers.flatMap fun opener => opener.content ++ [plain opener.run.delimiter opener.left]

/-- Whether an opener fits a closing run: the sum of their lengths is no multiple of three when
either could do both, unless the closing run's length is one. -/
def fits (run : DelimiterRun) (opener : Opener) : Bool :=
  opener.run.delimiter = run.delimiter &&
    (run.delimiter ≠ '~' || opener.run.count = run.count) &&
      (!((run.opens && run.closes) || (opener.run.opens && opener.run.closes)) ||
        (run.count + opener.run.count) % 3 ≠ 0 || run.count % 3 = 0)

/-- The nearest fitting opener with the openers above it and below it. -/
def findOpener (run : DelimiterRun) (floor : Nat) : List Opener → Option (List Opener × Opener × List Opener)
  | [] => none
  | top :: below =>
    if below.length < floor then none
    else if fits run top then some ([], top, below)
    else
      match findOpener run floor below with
      | none => none
      | some (above, opener, below) => some (top :: above, opener, below)

/-- Wraps content in as many elements as `count` delimiters make: one of strong emphasis for each
two of them, and one of emphasis around these for a last single one. -/
def wrap (delimiter : Char) (count : Nat) (content : List Inline) : List Inline :=
  if delimiter = '~' then [.strikethrough content]
  else
    let strong := (List.range (count / 2)).foldl (fun inner _ => [Inline.strong inner]) content
    if count % 2 = 1 then [.emphasis strong] else strong

/-- Closes openers with the `left` delimiters of a run until none fits, and tells how many are left. -/
def close (run : DelimiterRun) : (fuel left : Nat) → EmphasisState → Nat × EmphasisState
  | 0, left, state => (left, state)
  | fuel + 1, left, state =>
    if left = 0 then (0, state)
    else
      match findOpener run (if run.delimiter = '~' then state.tildeFloor else 0) state.openers with
      | none =>
        (left, if run.delimiter = '~' then { state with tildeFloor := state.openers.length } else state)
      | some (above, opener, below) =>
        let count := min left opener.left
        let wrapped := wrap run.delimiter count (flatten above ++ opener.content).reverse
        let lowered : EmphasisState := ⟨state.ground, below, min state.tildeFloor below.length⟩
        let next :=
          if count < opener.left then
            { lowered with openers := { opener with left := opener.left - count, content := wrapped } :: below }
          else lowered.append wrapped
        close run fuel (left - count) next

def push (state : EmphasisState) : Piece → EmphasisState
  | .inline inline => state.append [inline]
  | .run run =>
    let (left, state) := if run.closes then close run run.count run.count state else (run.count, state)
    if left = 0 then state
    else if run.opens then { state with openers := ⟨run, left, []⟩ :: state.openers }
    else state.append [plain run.delimiter left]

def finish (state : EmphasisState) : List Inline := (flatten state.openers ++ state.ground).reverse

end EmphasisState

def resolveEmphasis (pieces : List Piece) : List Inline :=
  (pieces.foldl EmphasisState.push ⟨[], [], 0⟩).finish

end SchemaDocs.Markdown
