import SchemaDocs.Markdown.Event
import SchemaDocs.Text.Blank

/-!
# Plain text and first sentences

The plain text of a document is its words with single spaces between them. Its summary is the first
sentence: up to the first full stop, exclamation mark or question mark that a space or the end of
the text follows.
-/

namespace SchemaDocs.Markdown

def Event.plain : Event → String
  | .text raw => raw
  | .code raw => raw
  | .html raw => raw
  | .inlineHtml raw => raw
  | .softBreak => " "
  | .hardBreak => " "
  | .stop .paragraph => " "
  | .stop (.heading _) => " "
  | .stop .item => " "
  | _ => ""

/-- The words of a text, parted by white space. The word in progress comes reversed in `word`. -/
def wordsFrom : (word : List Char) → List Char → List (List Char)
  | word, [] => if word.isEmpty then [] else [word.reverse]
  | word, c :: rest =>
    if Text.isWhiteSpace c then if word.isEmpty then wordsFrom [] rest else word.reverse :: wordsFrom [] rest
    else wordsFrom (c :: word) rest

def words (text : List Char) : List (List Char) := wordsFrom [] text

def plainText (events : List Event) : List Char :=
  List.intercalate [' '] (words (events.flatMap fun event => event.plain.toList))

def endsSentence (c : Char) : Bool := c = '.' || c = '!' || c = '?'

/-- The shortest part of a text up to the end of a sentence. -/
def sentence? : List Char → Option (List Char)
  | [] => none
  | c :: rest =>
    if endsSentence c && (match rest with
        | [] => true
        | next :: _ => Text.isWhiteSpace next)
    then some [c]
    else (sentence? rest).map (c :: ·)

/-- The first sentence of a text, or all of it. -/
def firstSentence (text : List Char) : List Char := (sentence? text).getD text

end SchemaDocs.Markdown
