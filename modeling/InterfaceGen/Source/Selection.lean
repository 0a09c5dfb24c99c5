import InterfaceGen.Identifier
import InterfaceGen.Path.Basic

/-! Which files are class files, and which type name a file name stands for. -/

namespace InterfaceGen

structure Selection where
  /-- What is taken off the end of a file's stem to get the name of its type. -/
  suffix? : Option Text := some "Resource".toList
  /-- The extensions of class files, with or without a dot; when none is given, any file is one. -/
  extensions : List Text := []
deriving DecidableEq, Repr

namespace Selection

/-- The lower case of the letters from `A` to `Z`. -/
def foldAscii (t : Text) : Text := t.map Char.toLower

/-- Whether a file name has one of the wanted extensions, in whatever case. -/
def accepts (s : Selection) (fileName : Text) : Bool :=
  s.extensions.isEmpty ||
    match FileName.extension? fileName with
    | none => false
    | some ext =>
      s.extensions.any fun wanted =>
        foldAscii (Text.trimStart (· == '.') wanted) == foldAscii ext

/-- The stem without the suffix, unless nothing would be left. -/
def bareStem (suffix? : Option Text) (stem : Text) : Text :=
  match suffix? with
  | none => stem
  | some suffix =>
    match Text.withoutTail? suffix stem with
    | none | some [] => stem
    | some rest => rest

/-- The name of the type that the file `fileName` declares. -/
def typeName (suffix? : Option Text) (fileName : Text) : Text :=
  match (⟨fileName⟩ : Path).fileName? with
  | none => []
  | some n => Identifier.pascal (bareStem suffix? (FileName.stem n))

end Selection

end InterfaceGen
