import TransformChain.Keyed
import TransformChain.Yaml.Token

/-!
# Nodes of a document

Builds the tree of a YAML document from its tokens.  Aliases are replaced by the nodes that their
anchors mark, and what stands for nothing is an empty plain scalar.
-/

namespace TransformChain
namespace Yaml

inductive Node where
  | scalar (tag : Option String) (plain : Bool) (text : String)
  | sequence (tag : Option String) (items : List Node)
  | mapping (tag : Option String) (entries : List (Node × Node))
deriving Inhabited

namespace Node

/-- What stands where a node may be left out. -/
def empty : Node :=
  .scalar none true ""

end Node

structure Marks where
  anchors : List (String × Node)
  handles : List (String × String)

namespace Marks

def initial : Marks :=
  ⟨[], [("!", "!"), ("!!", "tag:yaml.org,2002:")]⟩

/-- The full tag that a handle and a text write.  A lone mark is no tag of its own. -/
def tag? (marks : Marks) (handle text : String) : Option (Option String) :=
  if handle = "" then some (some text)
  else if handle = "!" && text = "" then some none
  else
    match Keyed.get? handle marks.handles with
    | some start => some (some (start ++ text))
    | none => none

def mark (marks : Marks) (anchor : Option String) (node : Node) : Marks :=
  match anchor with
  | some name => { marks with anchors := Keyed.put name node marks.anchors }
  | none => marks

end Marks

structure Properties where
  anchor : Option String
  tag : Option (Option String)

namespace Properties

def none : Properties :=
  ⟨Option.none, Option.none⟩

def isNone (properties : Properties) : Bool :=
  properties.anchor.isNone && properties.tag.isNone

def read (marks : Marks) : List Token → Option (Properties × List Token)
  | .anchor name :: .tag handle text :: rest =>
      (marks.tag? handle text).map (fun tag => (⟨some name, some tag⟩, rest))
  | .anchor name :: rest => some (⟨some name, Option.none⟩, rest)
  | .tag handle text :: .anchor name :: rest =>
      (marks.tag? handle text).map (fun tag => (⟨some name, some tag⟩, rest))
  | .tag handle text :: rest =>
      (marks.tag? handle text).map (fun tag => (⟨Option.none, some tag⟩, rest))
  | tokens => some (none, tokens)

end Properties

/-- Where a node stands: inside a flow collection, as an item of a block, or as the key or value of
a block mapping, where the dashes of a sequence need no indentation. -/
inductive Position where
  | flow
  | block
  | entry
deriving DecidableEq

abbrev Reader (α : Type) := Marks → List Token → Option (α × Marks × List Token)

def startsBlockItem : List Token → Bool
  | .blockEntry :: _ => false
  | .blockEnd :: _ => false
  | _ => true

def startsIndentlessItem : List Token → Bool
  | .blockEntry :: _ => false
  | .key :: _ => false
  | .value :: _ => false
  | .blockEnd :: _ => false
  | _ => true

def startsBlockEntry : List Token → Bool
  | .key :: _ => false
  | .value :: _ => false
  | .blockEnd :: _ => false
  | _ => true

def startsFlowKey : List Token → Bool
  | .value :: _ => false
  | .flowEntry :: _ => false
  | .flowMappingEnd :: _ => false
  | .flowSequenceEnd :: _ => false
  | _ => true

/-!
## Collections

Each reader takes a reader for the nodes inside.
-/

def orEmpty (starts : List Token → Bool) (node : Reader Node) : Reader Node :=
  fun marks tokens =>
    if starts tokens then node marks tokens else some (Node.empty, marks, tokens)

def blockItems (item : Reader Node) : Nat → Reader (List Node)
  | 0 => fun _ _ => none
  | budget + 1 => fun marks tokens =>
      match tokens with
      | .blockEntry :: rest =>
          match orEmpty startsBlockItem item marks rest with
          | none => none
          | some (first, marks, rest) =>
              match blockItems item budget marks rest with
              | none => none
              | some (others, marks, rest) => some (first :: others, marks, rest)
      | .blockEnd :: rest => some ([], marks, rest)
      | _ => none

def indentlessItems (item : Reader Node) : Nat → Reader (List Node)
  | 0 => fun _ _ => none
  | budget + 1 => fun marks tokens =>
      match tokens with
      | .blockEntry :: rest =>
          match orEmpty startsIndentlessItem item marks rest with
          | none => none
          | some (first, marks, rest) =>
              match indentlessItems item budget marks rest with
              | none => none
              | some (others, marks, rest) => some (first :: others, marks, rest)
      | tokens => some ([], marks, tokens)

def blockValue (entry : Reader Node) : Reader Node :=
  fun marks tokens =>
    match tokens with
    | .value :: rest => orEmpty startsBlockEntry entry marks rest
    | tokens => some (Node.empty, marks, tokens)

def blockEntries (entry : Reader Node) : Nat → Reader (List (Node × Node))
  | 0 => fun _ _ => none
  | budget + 1 => fun marks tokens =>
      let keyed : Option (Option (Node × Marks × List Token)) :=
        match tokens with
        | .key :: rest => (orEmpty startsBlockEntry entry marks rest).map some
        | .value :: rest => some (some (Node.empty, marks, .value :: rest))
        | .blockEnd :: _ => some none
        | _ => none
      match keyed with
      | none => none
      | some none => some ([], marks, tokens.drop 1)
      | some (some (key, marks, rest)) =>
          match blockValue entry marks rest with
          | none => none
          | some (value, marks, rest) =>
              match blockEntries entry budget marks rest with
              | none => none
              | some (others, marks, rest) => some ((key, value) :: others, marks, rest)

def flowValue (node : Reader Node) : Reader Node :=
  fun marks tokens =>
    match tokens with
    | .value :: rest => orEmpty startsFlowKey node marks rest
    | tokens => some (Node.empty, marks, tokens)

/-- An item of a flow sequence; a key makes it a mapping of one entry. -/
def flowItem (node : Reader Node) : Reader Node :=
  fun marks tokens =>
    match tokens with
    | .key :: rest =>
        match orEmpty startsFlowKey node marks rest with
        | none => none
        | some (key, marks, rest) =>
            match flowValue node marks rest with
            | none => none
            | some (value, marks, rest) => some (.mapping none [(key, value)], marks, rest)
    | tokens => node marks tokens

/-- An entry of a flow mapping; a lone node is a key without value. -/
def flowMappingEntry (node : Reader Node) : Reader (Node × Node) :=
  fun marks tokens =>
    match tokens with
    | .key :: rest =>
        match orEmpty startsFlowKey node marks rest with
        | none => none
        | some (key, marks, rest) =>
            match flowValue node marks rest with
            | none => none
            | some (value, marks, rest) => some ((key, value), marks, rest)
    | tokens =>
        match node marks tokens with
        | none => none
        | some (key, marks, rest) => some ((key, Node.empty), marks, rest)

/-- The parts of a flow collection up to its end, with commas between them and possibly one after
the last. -/
def flowParts (ending : Token) (part : Reader α) : Nat → Reader (List α)
  | 0 => fun _ _ => none
  | budget + 1 => fun marks tokens =>
      if tokens.head? = some ending then
        some ([], marks, tokens.drop 1)
      else
        match part marks tokens with
        | none => none
        | some (first, marks, rest) =>
            match rest with
            | .flowEntry :: more =>
                match flowParts ending part budget marks more with
                | none => none
                | some (others, marks, rest) => some (first :: others, marks, rest)
            | next :: more => if next = ending then some ([first], marks, more) else none
            | [] => none

/-!
## Nodes
-/

def marked (anchor : Option String) (build : α → Node) :
    Option (α × Marks × List Token) → Option (Node × Marks × List Token)
  | none => none
  | some (content, marks, rest) =>
      let node := build content
      some (node, marks.mark anchor node, rest)

/-- A node in the given position.  The nodes inside a collection are read by `inside?`; without
it no collection may begin. -/
def nodeWith (inside? : Option (Position → Reader Node)) (position : Position) : Reader Node :=
  fun marks tokens =>
    match tokens with
    | .reference name :: rest =>
        (Keyed.get? name marks.anchors).map (fun node => (node, marks, rest))
    | tokens =>
        match Properties.read marks tokens with
        | none => none
        | some (properties, rest) =>
            let tag := properties.tag.getD none
            let count := rest.length + 1
            let empty :=
              if properties.isNone then none
              else marked properties.anchor id (some (.scalar tag true "", marks, rest))
            match rest with
            | .scalar plain text :: rest =>
                marked properties.anchor id (some (.scalar tag plain text, marks, rest))
            | .flowSequenceStart :: rest =>
                inside?.bind fun inside =>
                  marked properties.anchor (Node.sequence tag)
                    (flowParts .flowSequenceEnd (flowItem (inside .flow)) count marks rest)
            | .flowMappingStart :: rest =>
                inside?.bind fun inside =>
                  marked properties.anchor (Node.mapping tag)
                    (flowParts .flowMappingEnd (flowMappingEntry (inside .flow)) count marks rest)
            | .blockSequenceStart :: rest =>
                if position = .flow then none
                else
                  inside?.bind fun inside =>
                    marked properties.anchor (Node.sequence tag)
                      (blockItems (inside .block) count marks rest)
            | .blockMappingStart :: rest =>
                if position = .flow then none
                else
                  inside?.bind fun inside =>
                    marked properties.anchor (Node.mapping tag)
                      (blockEntries (inside .entry) count marks rest)
            | .blockEntry :: _ =>
                if position = .entry then
                  inside?.bind fun inside =>
                    marked properties.anchor (Node.sequence tag)
                      (indentlessItems (inside .block) count marks rest)
                else empty
            | _ => empty

def readNode : Nat → Position → Reader Node
  | 0 => nodeWith none
  | budget + 1 => nodeWith (some (readNode budget))

def nestingLimit : Nat := 128

/-!
## Documents
-/

def readDirectives (marks : Marks) : List Token → Marks × Bool × List Token
  | .directive shorthand :: rest =>
      let next :=
        match shorthand with
        | some (handle, text) => { marks with handles := Keyed.put handle text marks.handles }
        | none => marks
      let (final, _, after) := readDirectives next rest
      (final, true, after)
  | tokens => (marks, false, tokens)

def endsDocument : List Token → Bool
  | [] => true
  | .directive _ :: _ => true
  | .documentStart :: _ => true
  | .documentEnd :: _ => true
  | _ => false

def readRoot (marks : Marks) (tokens : List Token) : Option (Node × List Token) :=
  match readNode nestingLimit .block marks tokens with
  | some (node, _, rest) => some (node, rest)
  | none => none

def readContent (marks : Marks) (tokens : List Token) : Option (Node × List Token) :=
  if endsDocument tokens then some (Node.empty, tokens) else readRoot marks tokens

def isDocumentEnd : Token → Bool
  | .documentEnd => true
  | _ => false

/-- The single document that the tokens write; none is an empty document. -/
def ofTokens (tokens : List Token) : Option (Option Node) :=
  match readDirectives Marks.initial tokens with
  | (_, false, []) => some none
  | (marks, directed, rest) =>
      let content :=
        match rest with
        | .documentStart :: after => readContent marks after
        | rest =>
            if directed then none else readRoot marks rest
      match content with
      | none => none
      | some (node, after) =>
          if after.all isDocumentEnd then some (some node) else none

def read (text : String) : Option (Option Node) :=
  match scan text with
  | some tokens => ofTokens tokens
  | none => none

end Yaml
end TransformChain
