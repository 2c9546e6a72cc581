import JavaResources.Text.Utf8
import JavaResources.Toml.Quotation
import JavaResources.Toml.Span

/-!
# Tokens of a document

A document is cut into symbols, quotations, bare words and line ends. Comments leave no token, and a
token carries the blanks that stand before it, since in a few places these matter. `Token.scan?`
cuts a whole document. It fails at a control character in a comment and at a carriage return that
ends no line.
-/

namespace JavaResources.Toml

/-- The signs that structure a document. -/
inductive Symbol where
  | dot
  | equals
  | comma
  | openBracket
  | closeBracket
  | openBrace
  | closeBrace
  deriving DecidableEq, Repr

/-- The symbol that a character is. -/
def Symbol.ofChar? : Char → Option Symbol
  | '.' => some .dot
  | '=' => some .equals
  | ',' => some .comma
  | '[' => some .openBracket
  | ']' => some .closeBracket
  | '\x7b' => some .openBrace
  | '\x7d' => some .closeBrace
  | _ => none

/-- What a token is. A bare word is anything else up to the next blank, symbol or comment. -/
inductive Lexeme where
  | symbol (sign : Symbol)
  | quoted (content : Quotation)
  | word (characters : List Char)
  | lineEnd

/-- A token with its place and the blanks before it. -/
structure Token where
  lexeme : Lexeme
  span : Span
  blanks : List Char

/-- The characters of bare words. -/
def isWordChar (c : Char) : Bool :=
  !(isBlank c || c == '\n' || c == '\r' || c == '#' || (Symbol.ofChar? c).isSome)

/-- What follows a comment: the end of its line. A comment may hold no control characters, apart
from the carriage return of its line end. -/
def skipComment : List Char → Option (List Char)
  | [] => some []
  | '\n' :: rest => some ('\n' :: rest)
  | '\r' :: '\n' :: rest => some ('\r' :: '\n' :: rest)
  | c :: rest => if isTextChar c then skipComment rest else none

theorem length_skipComment_le {input rest : List Char} (hrest : skipComment input = some rest) :
    rest.length ≤ input.length := by
  fun_induction skipComment input generalizing rest with
  | case1 => simp_all
  | case2 => simp_all
  | case3 => simp_all
  | case4 c tail _ _ _ ih =>
      have := ih hrest
      simp only [List.length_cons]
      omega
  | case5 => simp_all

/-- The way of quoting that a character starts. -/
def Quoting.ofChar? : Char → Option Quoting
  | '"' => some .basic
  | '\'' => some .literal
  | _ => none

/-- One lexeme, or a comment, from the front of an input that starts with no blank. -/
def readLexeme : (input : List Char) → Reading Char (Option Lexeme) input
  | [] => none
  | c :: rest =>
    if c = '#' then
      match hcomment : skipComment rest with
      | none => none
      | some left =>
        .found none left (Nat.lt_succ_of_le (length_skipComment_le hcomment))
    else
      match Quoting.ofChar? c, lineEnd (c :: rest), Symbol.ofChar? c with
      | some quoting, _, _ =>
        match quotation quoting rest with
        | (content, ⟨left, hleft⟩) =>
          .found (some (.quoted content)) left (Nat.lt_succ_of_le hleft)
      | none, some (_, ⟨left, hleft⟩), _ => .found (some .lineEnd) left hleft
      | none, none, some sign => .found (some (.symbol sign)) rest (Nat.lt_succ_self _)
      | none, none, none =>
        if isWordChar c then
          .found (some (.word (c :: rest.takeWhile isWordChar))) (rest.dropWhile isWordChar)
            (Nat.lt_succ_of_le (length_dropWhile_le isWordChar rest))
        else none

/-- The number of bytes from the start of an input to what is left of it. -/
def bytesBetween (input rest : List Char) : Nat :=
  (Text.encode (input.take (input.length - rest.length))).length

/-- The tokens of a text whose first byte has a given place in the document. -/
def Token.scanFrom? (place : Nat) (text : List Char) : Option (List Token) :=
  if text.dropWhile isBlank = [] then some []
  else
    match readLexeme (text.dropWhile isBlank) with
    | none => none
    | some (content, ⟨rest, _⟩) =>
      have := length_dropWhile_le isBlank text
      let start := place + (Text.encode (text.takeWhile isBlank)).length
      let size := bytesBetween (text.dropWhile isBlank) rest
      match content with
      | none => scanFrom? (start + size) rest
      | some lexeme =>
        (scanFrom? (start + size) rest).map
          (⟨lexeme, ⟨start, size⟩, text.takeWhile isBlank⟩ :: ·)
termination_by text.length
decreasing_by all_goals omega

/-- The tokens of a document. A byte order mark at its start counts for places only. -/
def Token.scan? : List Char → Option (List Token)
  | '\uFEFF' :: text => scanFrom? 3 text
  | text => scanFrom? 0 text

end JavaResources.Toml
