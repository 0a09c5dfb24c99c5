import InterfaceGen.Text.CaseMapping

/-! The two forms of an identifier. Types are named in pascal case, files and members in camel
case. -/

namespace InterfaceGen.Identifier

open Text

/-- The first character in upper case, the rest as it is: `userProfile` becomes `UserProfile`. -/
def pascal : Text → Text
  | [] => []
  | c :: t => if isUppercase c then c :: t else upperChar c ++ t

/-- Whether no lowercase letter occurs, as in `ID` and `URL2`. -/
def isAllCapitals (t : Text) : Bool := !t.any fun c => isAlphabetic c && isLowercase c

/-- A text that starts in lower case stays as it is, one in capitals is lowered as a whole (`URL2`
becomes `url2`), any other only in its first character (`FirstName` becomes `firstName`). -/
def camel : Text → Text
  | [] => []
  | c :: t =>
    if isLowercase c then c :: t
    else if isAllCapitals (c :: t) then lower (c :: t)
    else lowerChar c ++ t

end InterfaceGen.Identifier
