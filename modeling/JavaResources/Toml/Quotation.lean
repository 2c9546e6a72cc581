import JavaResources.Toml.Quoted

/-!
# Where quoted text ends

A document is cut into tokens before its quoted texts are understood, so their ends are found by the
quotes alone: an escape is looked at only to see whether it hides a quote. A text that is never
closed goes on to the end of its line, or to the end of the document if it may have several lines.
-/

namespace JavaResources.Toml

/-- A quoted text as it is written: what stands behind its first quote, up to and including the
closing quotes. -/
structure Quotation where
  quoting : Quoting
  content : List Char

namespace Quotation

/-- A backslash that starts an escape hides a second backslash, and a quote. -/
def isHidden (quoting : Quoting) (c : Char) : Bool :=
  c == '\\' || c == quoting.quote

/-- The number of characters of a text on one line. A backslash that starts an escape may stand
directly before the input. -/
def lineExtent (quoting : Quoting) : (backslash : Bool) → List Char → Nat
  | _, [] => 0
  | backslash, c :: rest =>
    if backslash && isHidden quoting c then lineExtent quoting false rest + 1
    else if c = quoting.quote then 1
    else if c = '\n' then 0
    else lineExtent quoting (quoting.escapes && c == '\\') rest + 1

/-- The number of characters of a text over several lines. Up to two quotes before the three that
close it belong to the text. -/
def manyLineExtent (quoting : Quoting) : (backslash : Bool) → List Char → Nat
  | _, [] => 0
  | backslash, c :: rest =>
    if backslash && isHidden quoting c then manyLineExtent quoting false rest + 1
    else
      let quotes := ((c :: rest).takeWhile (· == quoting.quote)).length
      if 3 ≤ quotes then min quotes 5
      else manyLineExtent quoting (quoting.escapes && c == '\\') rest + 1

/-- The number of characters of a quoted text behind its first quote. -/
def extent (quoting : Quoting) (input : List Char) : Nat :=
  if input.take 2 = [quoting.quote, quoting.quote] then
    manyLineExtent quoting false (input.drop 2) + 2
  else lineExtent quoting false input

/-- The text that a quotation stands for, if it is closed and its escapes are right. -/
def read? (quotation : Quotation) : Option Quoted :=
  match quoted quotation.quoting quotation.content with
  | some (content, ⟨[], _⟩) => some content
  | _ => none

end Quotation

/-- A quotation whose first quote has been read, and what is left behind it. -/
def quotation (quoting : Quoting) (input : List Char) : Quotation × Remainder input :=
  let size := Quotation.extent quoting input
  (⟨quoting, input.take size⟩, ⟨input.drop size, by simp⟩)

end JavaResources.Toml
