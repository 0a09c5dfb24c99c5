import InterfaceGen.Text.Blank
import InterfaceGen.Text.Letter

/-! What a line of a class file is. No syntax tree is built: the words and marks of a line decide,
and only those before a trailing comment. -/

namespace InterfaceGen.Line

open Text

/-- The words that open a type declaration. -/
def typeMarkers : List Text :=
  ["class".toList, "struct".toList, "record".toList, "interface".toList, "enum".toList]

/-- The word that makes a member part of the generated interface. -/
def publicMarker : Text := "public".toList

def hasWord (line word : Text) : Bool := (words line).contains word

/-- A line comment, the start of a block comment, or a line inside a documentation block. -/
def isComment (line : Text) : Bool :=
  let t := trimStart isBlank line
  "//".toList.isPrefixOf t || "/*".toList.isPrefixOf t || "*".toList.isPrefixOf t

/-- The line without its trailing comment. -/
def code (line : Text) : Text := before "//".toList line

def isTypeDeclaration (line : Text) : Bool :=
  !isComment line && typeMarkers.any (hasWord (code line))

/-- A type declaration that names a parent. -/
def isInheritance (line : Text) : Bool := isTypeDeclaration line && (code line).contains ':'

/-- Whatever has a parameter list. -/
def isMethod (line : Text) : Bool := (code line).contains '(' && (code line).contains ')'

/-- A public member that holds a value. -/
def isField (line : Text) : Bool :=
  hasWord (code line) publicMarker && !isComment line && !isTypeDeclaration line && !isMethod line

end InterfaceGen.Line
