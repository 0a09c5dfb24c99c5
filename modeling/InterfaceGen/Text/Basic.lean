import InterfaceGen.Sorting

/-! Text is a list of characters, so every rule on it is a rule on lists. This module holds the
operations that need no knowledge of the characters themselves: affixes, the part before the first
occurrence of a pattern, trimming by a class of characters, the lines of a file, size and order. -/

namespace InterfaceGen

/-- A piece of text, character by character. -/
abbrev Text := List Char

namespace Text

/-- What follows `lead` at the start of a text that begins with it. -/
def withoutLead? : (lead t : Text) → Option Text
  | [], t => some t
  | _ :: _, [] => none
  | a :: lead, c :: t => if a = c then withoutLead? lead t else none

/-- What precedes `tail` at the end of a text that ends with it. -/
def withoutTail? (tail t : Text) : Option Text :=
  (withoutLead? tail.reverse t.reverse).map List.reverse

/-- The part before the first occurrence of `pattern`, the whole text when there is none. -/
def before (pattern : Text) : Text → Text
  | [] => []
  | c :: t => if pattern.isPrefixOf (c :: t) then [] else c :: before pattern t

/-- The parts on the two sides of the first `c`. -/
def splitAt? (c : Char) : Text → Option (Text × Text)
  | [] => none
  | d :: t => if d = c then some ([], t) else (splitAt? c t).map fun (l, r) => (d :: l, r)

/-- Without the characters of the class `p` at the start. -/
def trimStart (p : Char → Bool) (t : Text) : Text := t.dropWhile p

/-- Without the characters of the class `p` at the end. -/
def trimEnd (p : Char → Bool) (t : Text) : Text := (t.reverse.dropWhile p).reverse

/-- Without the characters of the class `p` at either end. -/
def trim (p : Char → Bool) (t : Text) : Text := trimEnd p (trimStart p t)

/-- A carriage return right before a line feed belongs to the line end. -/
def withoutReturn (line : Text) : Text := (withoutTail? ['\r'] line).getD line

/-- The lines of a file. A line feed ends a line, so a final one opens no empty line; a line that
no line feed ends keeps its carriage return. -/
def lines (t : Text) : List Text :=
  let parts := t.splitOn '\n'
  parts.dropLast.map withoutReturn ++ (parts.getLast?.toList.filter (!·.isEmpty))

/-- The bytes a text takes in UTF-8. -/
def utf8Size : Text → Nat
  | [] => 0
  | c :: t => c.utf8Size + utf8Size t

/-- The order of texts by code points, which is also that of their bytes in UTF-8. -/
def le (s t : Text) : Bool := Sorting.lexicographic (fun a b => a.toNat ≤ b.toNat) s t

end Text

end InterfaceGen
