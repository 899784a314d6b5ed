import SchemaDocs.Yaml.Token

/-!
# YAML documents

The tokens of a text are read as one document: a tree of scalars, sequences and mappings. An alias
stands for the node that its anchor marks. Readers take tokens from their node on, with the anchors
met so far, and return what is left of both.
-/

namespace SchemaDocs.Yaml

inductive Node where
  | scalar (style : Style) (tag : Option String) (text : String)
  | sequence (items : List Node)
  | mapping (entries : List (Node × Node))
  /-- An alias of a collection that it stands in. -/
  | cycle
deriving Inhabited, Repr

/-- The nodes that anchors mark, the latest first; a collection that is not complete has none. -/
abbrev Anchors := List (String × Option Node)

abbrev NodeReader (α : Type) := Anchors → List Token → Option (α × Anchors × List Token)

/-- A scalar that is not written. -/
def Node.absent : Node := .scalar .plain none ""

/-- The tag that a handle and the rest of it stand for. -/
def resolveTag (handles : List (String × String)) (handle ending : String) : Option String :=
  if handle = "" then some ending else (handles.lookup handle).map (· ++ ending)

def readProperties (handles : List (String × String)) (tokens : List Token) :
    Option (Option String × Option String × List Token) :=
  match tokens with
  | .anchor name :: .tag handle ending :: rest =>
    (resolveTag handles handle ending).map fun tag => (some name, some tag, rest)
  | .tag handle ending :: .anchor name :: rest =>
    (resolveTag handles handle ending).map fun tag => (some name, some tag, rest)
  | .anchor name :: rest => some (some name, none, rest)
  | .tag handle ending :: rest => (resolveTag handles handle ending).map fun tag => (none, some tag, rest)
  | rest => some (none, none, rest)

def nextIn (tokens : List Token) (among : List Token) : Bool := tokens.head?.any among.contains

/-- Reads a node unless one of `ends` follows, which leaves the node out. -/
def readOptional (read : NodeReader Node) (ends : List Token) : NodeReader Node := fun anchors tokens =>
  if nextIn tokens ends then some (.absent, anchors, tokens) else read anchors tokens

/-- Reads the items of a block sequence. Without tokens around it the sequence ends at the first
token that is no entry. -/
def readBlockItems (read : NodeReader Node) (enclosed : Bool) : (fuel : Nat) → NodeReader (List Node)
  | 0, _, _ => none
  | fuel + 1, anchors, tokens =>
    match tokens with
    | .blockEntry :: rest => do
      let ends := if enclosed then [.blockEntry, .blockEnd] else [.blockEntry, .key, .value, .blockEnd]
      let (item, anchors, rest) ← readOptional read ends anchors rest
      let (items, anchors, rest) ← readBlockItems read enclosed fuel anchors rest
      some (item :: items, anchors, rest)
    | .blockEnd :: rest => some ([], anchors, if enclosed then rest else tokens)
    | _ => if enclosed then none else some ([], anchors, tokens)

def readBlockEntries (read : NodeReader Node) : (fuel : Nat) → NodeReader (List (Node × Node))
  | 0, _, _ => none
  | fuel + 1, anchors, tokens =>
    match tokens with
    | .key :: rest => do
      let (key, anchors, rest) ← readOptional read [.key, .value, .blockEnd] anchors rest
      let (value, anchors, rest) ← match rest with
        | .value :: rest => readOptional read [.key, .value, .blockEnd] anchors rest
        | _ => some (.absent, anchors, rest)
      let (entries, anchors, rest) ← readBlockEntries read fuel anchors rest
      some ((key, value) :: entries, anchors, rest)
    | .blockEnd :: rest => some ([], anchors, rest)
    | _ => none

/-- Reads the value of an entry of a flow collection. -/
def readFlowValue (read : NodeReader Node) (closing : Token) : NodeReader Node := fun anchors tokens =>
  match tokens with
  | .value :: rest => readOptional read [.flowEntry, closing] anchors rest
  | _ => some (.absent, anchors, tokens)

def passFlowEntry (first : Bool) (tokens : List Token) : Option (List Token) :=
  if first then some tokens
  else
    match tokens with
    | .flowEntry :: rest => some rest
    | _ => none

/-- Reads the items of a flow sequence. An entry with a key is a mapping of its own. -/
def readFlowItems (read : NodeReader Node) : (fuel : Nat) → (first : Bool) → NodeReader (List Node)
  | 0, _, _, _ => none
  | fuel + 1, first, anchors, tokens =>
    if nextIn tokens [.flowSequenceEnd] then some ([], anchors, tokens.drop 1)
    else do
      let tokens ← passFlowEntry first tokens
      match tokens with
      | .flowSequenceEnd :: rest => some ([], anchors, rest)
      | .key :: rest =>
        let (key, anchors, rest) ← readOptional read [.value, .flowEntry, .flowSequenceEnd] anchors rest
        let (value, anchors, rest) ← readFlowValue read .flowSequenceEnd anchors rest
        let (items, anchors, rest) ← readFlowItems read fuel false anchors rest
        some (.mapping [(key, value)] :: items, anchors, rest)
      | _ =>
        let (item, anchors, rest) ← read anchors tokens
        let (items, anchors, rest) ← readFlowItems read fuel false anchors rest
        some (item :: items, anchors, rest)

def readFlowEntries (read : NodeReader Node) : (fuel : Nat) → (first : Bool) → NodeReader (List (Node × Node))
  | 0, _, _, _ => none
  | fuel + 1, first, anchors, tokens =>
    if nextIn tokens [.flowMappingEnd] then some ([], anchors, tokens.drop 1)
    else do
      let tokens ← passFlowEntry first tokens
      match tokens with
      | .flowMappingEnd :: rest => some ([], anchors, rest)
      | .key :: rest =>
        let (key, anchors, rest) ← readOptional read [.value, .flowEntry, .flowMappingEnd] anchors rest
        let (value, anchors, rest) ← readFlowValue read .flowMappingEnd anchors rest
        let (entries, anchors, rest) ← readFlowEntries read fuel false anchors rest
        some ((key, value) :: entries, anchors, rest)
      | _ =>
        let (key, anchors, rest) ← read anchors tokens
        let (entries, anchors, rest) ← readFlowEntries read fuel false anchors rest
        some ((key, .absent) :: entries, anchors, rest)

/-- Reads a node. In a flow collection no block collection may begin; where `indentless`, the items
of a sequence need not be deeper than what holds it. The fuel bounds the nesting and the loops. -/
def readNode (handles : List (String × String)) : (fuel : Nat) → (inBlock indentless : Bool) → NodeReader Node
  | 0, _, _, _, _ => none
  | fuel + 1, inBlock, indentless, anchors, tokens => do
    match tokens with
    | .aliasOf name :: rest =>
      match anchors.lookup name with
      | none => none
      | some node? => some (node?.getD .cycle, anchors, rest)
    | _ =>
      let (anchor?, tag?, rest) ← readProperties handles tokens
      let opened := match anchor? with
        | some name => (name, none) :: anchors
        | none => anchors
      let read := readNode handles fuel
      let sequence? (items : Option (List Node × Anchors × List Token)) : Option (Node × Anchors × List Token) :=
        items.map fun (items, anchors, rest) => (.sequence items, anchors, rest)
      let mapping? (entries : Option (List (Node × Node) × Anchors × List Token)) :
          Option (Node × Anchors × List Token) :=
        entries.map fun (entries, anchors, rest) => (.mapping entries, anchors, rest)
      let (node, anchors, rest) ← match rest with
        | .scalar style text :: rest =>
          some (.scalar style (tag?.filter (· ≠ "!")) text, opened, rest)
        | .flowSequenceStart :: rest => sequence? (readFlowItems (read false false) fuel true opened rest)
        | .flowMappingStart :: rest => mapping? (readFlowEntries (read false false) fuel true opened rest)
        | .blockEntry :: _ =>
          if indentless then sequence? (readBlockItems (read true false) false fuel opened rest)
          else if anchor?.isSome || tag?.isSome then some (.scalar .plain tag? "", opened, rest)
          else none
        | .blockSequenceStart :: rest' =>
          if inBlock then sequence? (readBlockItems (read true false) true fuel opened rest')
          else if anchor?.isSome || tag?.isSome then some (.scalar .plain tag? "", opened, rest)
          else none
        | .blockMappingStart :: rest' =>
          if inBlock then mapping? (readBlockEntries (read true true) fuel opened rest')
          else if anchor?.isSome || tag?.isSome then some (.scalar .plain tag? "", opened, rest)
          else none
        | _ => if anchor?.isSome || tag?.isSome then some (.scalar .plain tag? "", opened, rest) else none
      match anchor? with
      | some name => some (node, (name, some node) :: anchors, rest)
      | none => some (node, anchors, rest)

/-- The handles that need no directive. -/
def defaultHandles : List (String × String) := [("!", "!"), ("!!", "tag:yaml.org,2002:")]

/-- Reads the directives before a document. Each handle is defined once, and one version at most is
given. -/
def readDirectives : List Token → (version : Bool) → (handles : List (String × String)) →
    Option (List (String × String) × List Token)
  | .versionDirective :: rest, version, handles => if version then none else readDirectives rest true handles
  | .tagDirective handle leading :: rest, version, handles =>
    if (handles.lookup handle).isSome then none else readDirectives rest version ((handle, leading) :: handles)
  | rest, _, handles => some (handles ++ defaultHandles, rest)

/-- What a text holds: nothing but blanks and comments, or one document. -/
inductive Content where
  | empty
  | document (root : Node)

def atDocumentEnd (tokens : List Token) : Bool :=
  match tokens with
  | [] => true
  | .versionDirective :: _ | .tagDirective _ _ :: _ | .documentStart :: _ | .documentEnd :: _ => true
  | _ => false

/-- The content of a text that holds one document at most. -/
def parse? (text : List Char) : Option Content := do
  let tokens ← tokens? text
  let fuel := tokens.length + 1
  let ended (result : Option (Node × Anchors × List Token)) : Option Content := do
    let (root, _, rest) ← result
    if rest.all (· = .documentEnd) then some (.document root) else none
  match tokens with
  | [] => some .empty
  | .versionDirective :: _ | .tagDirective _ _ :: _ | .documentStart :: _ =>
    let (handles, rest) ← readDirectives tokens false []
    match rest with
    | .documentStart :: rest =>
      if atDocumentEnd rest then ended (some (.absent, [], rest)) else ended (readNode handles fuel true false [] rest)
    | _ => none
  | _ => ended (readNode defaultHandles fuel true false [] tokens)

end SchemaDocs.Yaml
