import JavaResources.Toml.Scalar
import JavaResources.Toml.Table
import JavaResources.Toml.Token

/-!
# Statements of a document

A document is a list of statements, each on lines of its own: headers, which name the table that
follows, and assignments. This module reads them from tokens and fails where the tokens do not stand
together as they have to. Keys and values that are wrong in themselves are read as flawed. Braces
and brackets may be nested `maxDepth` deep, and a dotted key may have `maxKeyParts` parts.
-/

namespace JavaResources.Toml

/-- The header of a table, or in double brackets of one more table of an array. -/
structure Header where
  key : DottedKey
  doubled : Bool
  span : Span

/-- The text of a bare value. -/
abbrev BareText := List Char

/-- One statement. Its key and its values may have flaws. -/
inductive Statement where
  | header (content : Except Flaw Header)
  | assignment (content : Except Flaw (Assignment BareText))

/-- Reads a value, which may have a flaw. -/
abbrev ValueReader := (tokens : List Token) → Reading Token (Except Flaw (Node BareText)) tokens

/-- How deep braces and brackets may be nested. -/
def maxDepth : Nat := 80

/-- The most parts that a dotted key may have. -/
def maxKeyParts : Nat := 80

/-- The token is a given symbol. -/
def Token.isSymbol (token : Token) (sign : Symbol) : Bool :=
  match token.lexeme with
  | .symbol found => found == sign
  | _ => false

/-- The token ends a line. -/
def Token.isLineEnd (token : Token) : Bool :=
  match token.lexeme with
  | .lineEnd => true
  | _ => false

/-- No blanks stand before the token. -/
def Token.isAdjacent (token : Token) : Bool :=
  token.blanks.isEmpty

/-- One given symbol, and its place. -/
def symbol (sign : Symbol) : (tokens : List Token) → Reading Token Span tokens
  | [] => none
  | token :: rest => if token.isSymbol sign then .found token.span rest (by simp) else none

/-! ## Keys -/

/-- The characters of a key without quotes. -/
def isKeyChar (c : Char) : Bool :=
  ('a' ≤ c && c ≤ 'z') || ('A' ≤ c && c ≤ 'Z') || ('0' ≤ c && c ≤ '9') || c == '_' || c == '-'

/-- The key that a token is, if it is one. -/
def Token.key? (token : Token) : Option (Except Flaw Key) :=
  match token.lexeme with
  | .word characters =>
    some (if characters.all isKeyChar then .ok ⟨String.ofList characters, token.span⟩
      else .error .malformed)
  | .quoted content =>
    some (match content.read? with
      | some ⟨text, false⟩ => .ok ⟨String.ofList text, token.span⟩
      | _ => .error .malformed)
  | _ => none

/-- One more part in front of a dotted key. -/
def DottedKey.prepend (part : Except Flaw Key) (tail : Except Flaw DottedKey) :
    Except Flaw DottedKey := do
  let key ← part
  let tail ← tail
  return ⟨key :: tail.path, tail.last⟩

/-- A dotted key, which may have a flaw, and whether its last part is there at all. -/
structure WrittenKey where
  key : Except Flaw DottedKey
  complete : Bool

/-- The parts of a dotted key, however many. A part that is left out is a flaw of the key. -/
def keyParts : (tokens : List Token) → WrittenKey × Remainder tokens
  | [] => (⟨.error .malformed, false⟩, ⟨[], by simp⟩)
  | token :: rest =>
    if token.isSymbol .dot then
      match keyParts rest with
      | (tail, ⟨left, hleft⟩) =>
        (⟨.error .malformed, tail.complete⟩, ⟨left, by rw [List.length_cons]; omega⟩)
    else
      match token.key?, rest with
      | none, left => (⟨.error .malformed, false⟩, ⟨token :: left, by simp⟩)
      | some part, [] => (⟨part.map (⟨[], ·⟩), true⟩, ⟨[], by simp⟩)
      | some part, next :: others =>
        if next.isSymbol .dot then
          match keyParts others with
          | (tail, ⟨left, hleft⟩) =>
            (⟨DottedKey.prepend part tail.key, tail.complete⟩,
              ⟨left, by simp only [List.length_cons]; omega⟩)
        else (⟨part.map (⟨[], ·⟩), true⟩, ⟨next :: others, by simp⟩)

/-- A dotted key. -/
def dottedKey (tokens : List Token) : WrittenKey × Remainder tokens :=
  let (⟨key, complete⟩, rest) := keyParts tokens
  let limited := key.bind fun key =>
    if key.path.length < maxKeyParts then .ok key else .error .longKey
  (⟨limited, complete⟩, rest)

/-! ## Values -/

/-- The text with which a bare value goes on, the span of its last token, and what is left. Words
belong to the value, with the blanks before them, and points that have no blanks before them. -/
def bareText (last : Span) :
    (tokens : List Token) → (List Char × Span) × Remainder tokens
  | [] => (([], last), ⟨[], by simp⟩)
  | token :: others =>
    let part : Option (List Char) :=
      match token.lexeme with
      | .word characters => some characters
      | .symbol .dot => if token.isAdjacent then some ['.'] else none
      | _ => none
    match part with
    | none => (([], last), ⟨token :: others, by simp⟩)
    | some characters =>
      let ((text, stop), ⟨rest, hrest⟩) := bareText token.span others
      ((token.blanks ++ characters ++ text, stop), ⟨rest, by grind⟩)

/-- A bare value behind its first token. -/
def bareNode (start : Span) (opening : List Char) (tokens : List Token) :
    Except Flaw (Node BareText) × Remainder tokens :=
  let ((more, stop), rest) := bareText start tokens
  let text := opening ++ more
  (if Scalar.hasForm text then .ok ⟨start.through stop, .bare text⟩ else .error .malformed, rest)

/-- The text of a quotation in a given place. -/
def quotedNode (content : Quotation) (span : Span) : Except Flaw (Node BareText) :=
  match content.read? with
  | some ⟨text, _⟩ => .ok ⟨span, .string (String.ofList text)⟩
  | none => .error .malformed

/-- What is left behind line ends. -/
def skipLineEnds (tokens : List Token) : Remainder tokens :=
  ⟨tokens.dropWhile Token.isLineEnd, length_dropWhile_le _ _⟩

/-- The items of an array behind its opening bracket or a comma, and the place of the closing
bracket. Line ends may stand anywhere between, and a comma behind the last item. -/
def arrayItems (value : ValueReader) (tokens : List Token) :
    Reading Token (List (Except Flaw (Node BareText)) × Span) tokens :=
  match skipLineEnds tokens with
  | ⟨start, hstart⟩ =>
    match symbol .closeBracket start with
    | some (span, rest) => Reading.behind hstart (some (([], span), rest))
    | none =>
      match value start with
      | none => none
      | some (item, ⟨afterItem, hitem⟩) =>
        match skipLineEnds afterItem with
        | ⟨next, hnext⟩ =>
          match symbol .comma next with
          | some (_, ⟨rest, hrest⟩) =>
            ((arrayItems value rest).mapValue fun (items, span) => (item :: items, span)).behind
              (by omega)
          | none =>
            ((symbol .closeBracket next).mapValue fun span => ([item], span)).behind (by omega)
termination_by tokens.length

/-- The assignment of a value to a key. The flaw of the key comes first. -/
def Assignment.give (key : Except Flaw DottedKey) (node : Except Flaw (Node BareText)) :
    Except Flaw (Assignment BareText) := do
  let key ← key
  let node ← node
  return ⟨key, node⟩

/-- The table in braces ends here. -/
def closesTable (tokens : List Token) : Bool :=
  tokens.head?.any (·.isSymbol .closeBrace)

/-- An assignment in braces. Line ends may stand on both sides of its equals sign. A table that ends
before the sign or before the value makes the value flawed. -/
def bracedAssignment (value : ValueReader) (tokens : List Token) :
    Option (Except Flaw (Assignment BareText) × Remainder tokens) :=
  match dottedKey tokens with
  | (⟨key, _⟩, ⟨afterKey, hkey⟩) =>
    match skipLineEnds afterKey with
    | ⟨sign, hsign⟩ =>
      match symbol .equals sign with
      | none =>
        if closesTable sign then
          some (Assignment.give key (.error .malformed), ⟨sign, by omega⟩)
        else none
      | some (_, ⟨afterSign, hafterSign⟩) =>
        match skipLineEnds afterSign with
        | ⟨start, hstart⟩ =>
          if closesTable start then
            some (Assignment.give key (.error .malformed), ⟨start, by omega⟩)
          else
            (value start).map fun (node, ⟨rest, hrest⟩) =>
              (Assignment.give key node, ⟨rest, by omega⟩)

/-- The assignments of a table behind its opening brace or a comma, and the place of the closing
brace. Line ends may stand anywhere between, and a comma behind the last assignment. -/
def tableItems (value : ValueReader) (tokens : List Token) :
    Reading Token (List (Except Flaw (Assignment BareText)) × Span) tokens :=
  match skipLineEnds tokens with
  | ⟨start, hstart⟩ =>
    match symbol .closeBrace start with
    | some (span, rest) => Reading.behind hstart (some (([], span), rest))
    | none =>
      match bracedAssignment value start with
      | none => none
      | some (item, ⟨afterItem, hitem⟩) =>
        match skipLineEnds afterItem with
        | ⟨next, hnext⟩ =>
          match symbol .comma next with
          | some (_, ⟨rest, hrest⟩) =>
            ((tableItems value rest).mapValue fun (items, span) => (item :: items, span)).behind
              (by omega)
          | none =>
            ((symbol .closeBrace next).mapValue fun span => ([item], span)).behind (by omega)
termination_by tokens.length

/-- A quoted text, a bare value, an array or a table. A bracket or brace needs some depth left. -/
def value : Nat → ValueReader
  | _, [] => none
  | depth, first :: rest =>
    let bare (opening : List Char) : Reading Token (Except Flaw (Node BareText)) (first :: rest) :=
      match bareNode first.span opening rest with
      | (node, ⟨left, hleft⟩) => .found node left (by rw [List.length_cons]; omega)
    match first.lexeme with
    | .quoted content => .found (quotedNode content first.span) rest (by simp)
    | .word characters => bare characters
    | .lineEnd => none
    | .symbol sign =>
      match depth, sign with
      | _, .dot => bare ['.']
      | depth + 1, .openBracket =>
        ((arrayItems (value depth) rest).mapValue fun (items, stop) =>
          (items.mapM id).map fun nodes =>
            ⟨first.span.through stop, .array .brackets nodes⟩).behind (by simp)
      | depth + 1, .openBrace =>
        ((tableItems (value depth) rest).mapValue fun (items, stop) =>
          (assignAll [] items).map fun entries =>
            ⟨first.span.through stop, .table .braces entries⟩).behind (by simp)
      | _, _ => none

/-! ## Statements -/

/-- A symbol that directly follows the token before it. -/
def adjacentSymbol (sign : Symbol) : (tokens : List Token) → Reading Token Span tokens
  | [] => none
  | token :: rest => if token.isAdjacent then symbol sign (token :: rest) else none

/-- The brackets that close a header, and the place of the last one. -/
def closingBrackets (doubled : Bool) (tokens : List Token) : Reading Token Span tokens :=
  if doubled then
    (symbol .closeBracket tokens).andThen fun _ rest => adjacentSymbol .closeBracket rest
  else symbol .closeBracket tokens

/-- What is left from the end of the line on. -/
def skipLine (tokens : List Token) : Remainder tokens :=
  ⟨tokens.dropWhile (!·.isLineEnd), length_dropWhile_le _ _⟩

/-- A header behind its opening brackets. If the last part of its key is missing, and no closing
bracket follows either, the rest of the line belongs to the flawed header. -/
def headerKey (doubled : Bool) (start : Span) (tokens : List Token) :
    Option (Except Flaw Header × Remainder tokens) :=
  match dottedKey tokens with
  | (⟨key, complete⟩, ⟨rest, hrest⟩) =>
    match closingBrackets doubled rest with
    | some (stop, ⟨left, hleft⟩) =>
      some (key.map (⟨·, doubled, start.through stop⟩), ⟨left, by omega⟩)
    | none =>
      if complete || rest.head?.any (·.isSymbol .closeBracket) then none
      else
        match skipLine rest with
        | ⟨left, hleft⟩ => some (.error .malformed, ⟨left, by omega⟩)

/-- A header. Double brackets have no blanks between them. -/
def header (tokens : List Token) : Reading Token (Except Flaw Header) tokens :=
  match symbol .openBracket tokens with
  | none => none
  | some (start, ⟨inner, hinner⟩) =>
    match adjacentSymbol .openBracket inner with
    | some (_, ⟨key, hkey⟩) =>
      (headerKey true start key).map fun (content, ⟨rest, hrest⟩) => (content, ⟨rest, by omega⟩)
    | none =>
      (headerKey false start inner).map fun (content, ⟨rest, hrest⟩) => (content, ⟨rest, by omega⟩)

/-- An assignment on a line of its own. If the line ends behind the equals sign, the value is
flawed. -/
def assignment (value : ValueReader) (tokens : List Token) :
    Reading Token (Except Flaw (Assignment BareText)) tokens :=
  match dottedKey tokens with
  | (⟨key, _⟩, ⟨sign, hsign⟩) =>
    match symbol .equals sign with
    | none => none
    | some (_, ⟨start, hstart⟩) =>
      if start.head?.all Token.isLineEnd then
        .found (Assignment.give key (.error .malformed)) start (by omega)
      else ((value start).mapValue (Assignment.give key)).behind (by omega)

/-- A header or an assignment, whatever follows it. -/
def statement (tokens : List Token) : Reading Token Statement tokens :=
  if tokens.head?.any (·.isSymbol .openBracket) then (header tokens).mapValue .header
  else (assignment (value maxDepth) tokens).mapValue .assignment

/-- The statements of a document. Each is followed by a line end or the end of the document. -/
def statements? (tokens : List Token) : Option (List Statement) :=
  match skipLineEnds tokens with
  | ⟨[], _⟩ => some []
  | ⟨start, _⟩ =>
    match statement start with
    | none => none
    | some (first, ⟨rest, _⟩) =>
      match rest with
      | [] => some [first]
      | next :: others =>
        if next.isLineEnd then (statements? others).map (first :: ·) else none
termination_by tokens.length
decreasing_by simp only [List.length_cons] at *; omega

end JavaResources.Toml
