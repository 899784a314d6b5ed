import SchemaDocs.Json.Reader
import SchemaDocs.Json.Printer
import SchemaDocs.Storage.Tree
import SchemaDocs.Text.Split

/-!
# Archives

A tree of files as one JSON object: a path is the key of each file, and its value is the text of the
file, or its bytes in hexadecimal where they are no text. Null stands for a directory without files.
-/

namespace SchemaDocs.Archive

open Json (Value)

def bytesOfHex? : List Char → Option (List UInt8)
  | [] => some []
  | [_] => none
  | a :: b :: rest => do
    let byte ← Json.natOfHex? [a, b]
    return byte.toUInt8 :: (← bytesOfHex? rest)

def hexOfBytes (bytes : List UInt8) : List Char :=
  bytes.flatMap fun byte => [Json.hexDigit (byte.toNat / 16), Json.hexDigit (byte.toNat % 16)]

def content? : Value → Option ByteArray
  | .string text => some text.toUTF8
  | .object [("hex", .string digits)] => (bytesOfHex? digits.toList).map fun bytes => ⟨bytes.toArray⟩
  | _ => none

def ofContent (content : ByteArray) : Value :=
  match String.fromUTF8? content with
  | some text => .string text
  | none => .object [("hex", .string (String.ofList (hexOfBytes content.toList)))]

def unpackMember (tree : Tree) (member : String × Value) : Tree :=
  let place := (Text.pieces '/' member.1).filter fun name => name ≠ "" && name ≠ "."
  match content? member.2 with
  | some content => tree.put place (.file content)
  | none => if (tree.get? place).any Tree.isDirectory then tree else tree.put place (.directory [])

def unpack (tree : Tree) (members : List (String × Value)) : Tree := members.foldl unpackMember tree

def files (tree : Tree) : List (String × ByteArray) :=
  (tree.files.map fun (place, content) => (String.intercalate "/" place, content)).mergeSort
    fun a b => decide (a.1 ≤ b.1)

def pack (tree : Tree) : List (String × Value) := (files tree).map fun (path, content) => (path, ofContent content)

end SchemaDocs.Archive
