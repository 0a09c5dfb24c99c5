import InterfaceGen.Json.Quoted
import InterfaceGen.Settings.Basic

/-! Settings as indented JSON. Directories that are not set are left out; a suffix that is not set
is written as `null`, since leaving it out would set it to its default. -/

namespace InterfaceGen

open Json

namespace Json

def boolText : Bool → Text
  | true => "true".toList
  | false => "false".toList

/-- The values of a list or the members of an object, each on a line of its own behind `margin`. -/
def block (opening closing : Char) (margin : Text) (items : List Text) : Text :=
  if items.isEmpty then [opening, closing]
  else
    [[opening, '\n'], [',', '\n'].intercalate (items.map (margin ++ "  ".toList ++ ·)), ['\n'],
      margin, [closing]].flatten

/-- A member of an object. -/
def member (key value : Text) : Text := quoted key ++ ": ".toList ++ value

end Json

namespace Settings

/-- The written value of a key, if it is written at all. -/
def valueText? (s : Settings) : Key → Option Text
  | .working => s.working?.map quoted
  | .output => s.output?.map quoted
  | .banner => some (boolText s.banner)
  | .suffix => some ((s.suffix?.map quoted).getD "null".toList)
  | .extensions => some (block '[' ']' "  ".toList (s.extensions.map quoted))
  | .dates => some (boolText s.dates)
  | .extension => some (quoted s.extension)

/-- The text of settings, without a final line feed. -/
def toText (s : Settings) : Text :=
  block '\x7b' '\x7d' [] (Key.all.filterMap fun key => (s.valueText? key).map (member key.text))

end Settings

end InterfaceGen
