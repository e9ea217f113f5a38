import LicenseForecast.Json.Token

namespace LicenseForecast

/-!
# Document trees as far as the text goes

A text is read from left to right, and the first problem met decides how it is refused, be it the
text or the value that is wrong.  `Node.ofText` therefore never fails: it keeps what could be
read and marks the place where the text could not go on.  A reader walks such a tree from left
to right and reports the first thing that it cannot accept.

* `Node.refusal` — what a reader reports that wants a value of another kind;
* `Node.pass` — how a value fares that nobody looks at;
* `Node.json?` — the document, if the text is flawless.
-/

/-- How a list or an object ends. -/
inductive Ending where
  | closed
  /-- The text ends; `comma` tells whether a comma came last. -/
  | missing (comma : Bool)
  /-- Something else stands there. -/
  | stray
deriving Inhabited

/-- What a reader reports that looks for the end or for more before it. -/
def Ending.check : Ending → Except Fault Unit
  | .closed => .ok ()
  | .missing _ => .error .unfinished
  | .stray => .error .malformed

/-- What a reader reports that wants no more and looks for the end. -/
def Ending.close : Ending → Except Fault Unit
  | .closed => .ok ()
  | .missing false => .error .unfinished
  | .missing true => .error .malformed
  | .stray => .error .malformed

/-- A document tree that may be flawed. -/
inductive Node where
  | null
  | bool (b : Bool)
  | number (n : Lexeme Number)
  | text (s : Lexeme String)
  | array (items : List Node) (ending : Ending)
  | object (fields : List (Lexeme String × Node)) (ending : Ending)
  /-- A list or object inside too many others. -/
  | deep (inner : Node)
  /-- No value can start with what stands here. -/
  | broken (fault : Fault)
  /-- The text ends where a value should start. -/
  | absent
deriving Inhabited

namespace Node

/-! ### Assembling a tree from tokens -/

/-- A list or object around the place that is being read, its last item first.  The object waits
    for the value of `key`. -/
inductive Frame where
  | array (items : List Node)
  | object (fields : List (Lexeme String × Node)) (key : Lexeme String)

/-- Where the reading of a tree has got to; `outer` is what lies around that place. -/
inductive Place where
  | value (outer : List Frame)
  | item (comma : Bool) (items : List Node) (outer : List Frame)
  | itemEnd (items : List Node) (outer : List Frame)
  | key (comma : Bool) (fields : List (Lexeme String × Node)) (outer : List Frame)
  | colon (fields : List (Lexeme String × Node)) (key : Lexeme String) (outer : List Frame)
  | fieldEnd (fields : List (Lexeme String × Node)) (outer : List Frame)

/-- What a token leads to. -/
inductive Step where
  | next (place : Place)
  | done (node : Node)
  /-- The text cannot go on. -/
  | stop (node : Node)

/-- The most lists and objects that may lie around a place. -/
def maxOuter : Nat := 126

/-- Marks a list or object that is nested too deeply. -/
def nest (outer : List Frame) (node : Node) : Node :=
  if (outer.drop maxOuter).isEmpty then node else .deep node

/-- A list, its last item first, that ends. -/
def endArray (items : List Node) (outer : List Frame) (ending : Ending) : Node :=
  nest outer (.array items.reverse ending)

/-- An object, its last field first, that ends. -/
def endObject (fields : List (Lexeme String × Node)) (outer : List Frame) (ending : Ending) :
    Node :=
  nest outer (.object fields.reverse ending)

/-- The tree of a text that breaks off with `node`. -/
def abandon : List Frame → Node → Node
  | [], node => node
  | .array items :: outer, node =>
    abandon outer (endArray (node :: items) outer (.missing false))
  | .object fields key :: outer, node =>
    abandon outer (endObject ((key, node) :: fields) outer (.missing false))

/-- A value is complete. -/
def complete (outer : List Frame) (node : Node) : Step :=
  match outer with
  | [] => .done node
  | .array items :: outer => .next (.itemEnd (node :: items) outer)
  | .object fields key :: outer => .next (.fieldEnd ((key, node) :: fields) outer)

/-- A value is complete unless its token could not be finished. -/
def completeLexeme {α : Type} (outer : List Frame) (l : Lexeme α) (node : Node) : Step :=
  match l with
  | .cut .. => .stop (abandon outer node)
  | _ => complete outer node

/-- A value starts with `token`. -/
def start (outer : List Frame) (token : Token) : Step :=
  match token with
  | .openArray => .next (.item false [] outer)
  | .openObject => .next (.key false [] outer)
  | .null => complete outer .null
  | .bool b => complete outer (.bool b)
  | .number n => completeLexeme outer n (.number n)
  | .text s => completeLexeme outer s (.text s)
  | .broken fault => .stop (abandon outer (.broken fault))
  | .comma | .colon | .closeArray | .closeObject => .stop (abandon outer (.broken .malformed))

/-- A key of an object, or its end, starts with `token`. -/
def startKey (comma : Bool) (fields : List (Lexeme String × Node)) (outer : List Frame)
    (token : Token) : Step :=
  match token with
  -- the key is kept, so that a reader sees its fault and not that of a missing value
  | .text (.cut reading skipping) =>
    .stop (abandon (.object fields (.cut reading skipping) :: outer) .absent)
  | .text key => .next (.colon fields key outer)
  | .closeObject =>
    if comma then .stop (abandon outer (endObject fields outer .stray))
    else complete outer (endObject fields outer .closed)
  | _ => .stop (abandon outer (endObject fields outer .stray))

/-- The effect of one token. -/
def Place.step (place : Place) (token : Token) : Step :=
  match place with
  | .value outer => start outer token
  | .item comma items outer =>
    match token with
    | .closeArray =>
      if comma then .stop (abandon outer (endArray items outer .stray))
      else complete outer (endArray items outer .closed)
    | token => start (.array items :: outer) token
  | .itemEnd items outer =>
    match token with
    | .comma => .next (.item true items outer)
    | .closeArray => complete outer (endArray items outer .closed)
    | _ => .stop (abandon outer (endArray items outer .stray))
  | .key comma fields outer => startKey comma fields outer token
  | .colon fields name outer =>
    match token with
    | .colon => .next (.value (.object fields name :: outer))
    | _ => .stop (abandon (.object fields name :: outer) (.broken .malformed))
  | .fieldEnd fields outer =>
    match token with
    | .comma => .next (.key true fields outer)
    | .closeObject => complete outer (endObject fields outer .closed)
    | _ => .stop (abandon outer (endObject fields outer .stray))

/-- The tree of a text that ends here. -/
def Place.ended : Place → Node
  | .value outer => abandon outer .absent
  | .item comma items outer => abandon outer (endArray items outer (.missing comma))
  | .itemEnd items outer => abandon outer (endArray items outer (.missing false))
  | .key comma fields outer => abandon outer (endObject fields outer (.missing comma))
  | .colon fields name outer => abandon (.object fields name :: outer) .absent
  | .fieldEnd fields outer => abandon outer (endObject fields outer (.missing false))

/-- The tree of some tokens, and those that are left over after it. -/
def assemble (place : Place) : List Token → Node × List Token
  | [] => (place.ended, [])
  | token :: rest =>
    match place.step token with
    | .next place => assemble place rest
    | .done node => (node, rest)
    | .stop node => (node, [])

/-- The tree of a text, and whether more follows after it. -/
def ofText (s : String) : Node × Bool :=
  let (node, rest) := assemble (.value []) (Token.ofText s)
  (node, !rest.isEmpty)

/-! ### Walking over a tree -/

/-- What a reader reports that wants a value of another kind. -/
def refusal : Node → Fault
  | .null | .bool _ | .array .. | .object .. | .deep _ => .mismatch
  | .number n => n.refusal
  | .text s => s.refusal
  | .broken fault => fault
  | .absent => .unfinished

mutual
/-- Whether one can get past a value.  `strict` asks for sound numbers, sound texts and no more
    than the permitted nesting, as keeping the value for later does. -/
def pass (strict : Bool) : Node → Except Fault Unit
  | .null => .ok ()
  | .bool _ => .ok ()
  | .number n => if strict then n.read.map fun _ => () else n.skip
  | .text s => if strict then s.read.map fun _ => () else s.skip
  | .array items ending => do passItems strict items; ending.check
  | .object fields ending => do passFields strict fields; ending.check
  | .deep inner => if strict then .error .malformed else pass strict inner
  | .broken fault => .error fault
  | .absent => .error .unfinished

/-- Whether one can get past the items of a list. -/
def passItems (strict : Bool) : List Node → Except Fault Unit
  | [] => .ok ()
  | item :: rest => do item.pass strict; passItems strict rest

/-- Whether one can get past the fields of an object. -/
def passFields (strict : Bool) : List (Lexeme String × Node) → Except Fault Unit
  | [] => .ok ()
  | (key, value) :: rest => do
    if strict then discard key.read else key.skip
    value.pass strict
    passFields strict rest
end

mutual
/-- The tree of a document. -/
def ofJson : Json → Node
  | .null => .null
  | .bool b => .bool b
  | .number n => .number (.whole n)
  | .text s => .text (.whole s)
  | .array items => .array (ofItems items) .closed
  | .object fields => .object (ofFields fields) .closed

/-- The trees of the items of a list. -/
def ofItems : List Json → List Node
  | [] => []
  | item :: rest => ofJson item :: ofItems rest

/-- The trees of the fields of an object. -/
def ofFields : List (String × Json) → List (Lexeme String × Node)
  | [] => []
  | (name, value) :: rest => (.whole name, ofJson value) :: ofFields rest
end

mutual
/-- The document of a tree without flaws. -/
def json? : Node → Except Fault Json
  | .null => .ok .null
  | .bool b => .ok (.bool b)
  | .number n => return .number (← n.read)
  | .text s => return .text (← s.read)
  | .array items ending => do
    let items ← jsonItems? items
    ending.check
    return .array items
  | .object fields ending => do
    let fields ← jsonFields? fields
    ending.check
    return .object fields
  | .deep inner => json? inner
  | .broken fault => .error fault
  | .absent => .error .unfinished

/-- The documents of the items of a list. -/
def jsonItems? : List Node → Except Fault (List Json)
  | [] => .ok []
  | item :: rest => do return (← item.json?) :: (← jsonItems? rest)

/-- The documents of the fields of an object. -/
def jsonFields? : List (Lexeme String × Node) → Except Fault (List (String × Json))
  | [] => .ok []
  | (key, value) :: rest => do
    return (← key.read, ← value.json?) :: (← jsonFields? rest)
end

end Node

end LicenseForecast
