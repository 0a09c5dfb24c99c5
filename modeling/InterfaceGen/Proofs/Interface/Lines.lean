import InterfaceGen.Interface.Printer
import Mathlib.Tactic

/-! The file of an interface as a list of lines. The printer fills a page step by step and keeps an
indentation depth; what comes out is one line after the other, each with its line feed. -/

namespace InterfaceGen

/-- The text of some lines, each ended by a line feed. -/
def Text.ofLines (lines : List Text) : Text := lines.flatMap (· ++ ['\n'])

@[simp] theorem Text.ofLines_nil : Text.ofLines [] = [] := rfl

@[simp] theorem Text.ofLines_cons (line : Text) (lines : List Text) :
    Text.ofLines (line :: lines) = line ++ '\n' :: Text.ofLines lines := by
  simp [Text.ofLines]

@[simp] theorem Text.ofLines_append (lines lines' : List Text) :
    Text.ofLines (lines ++ lines') = Text.ofLines lines ++ Text.ofLines lines' := by
  simp [Text.ofLines]

namespace Page

variable (p : Page)

/-- What stands in front of a line at the current depth. -/
def margin : Text := (List.replicate p.depth p.unit).flatten

@[simp] theorem text_addLine (t : Text) :
    (p.addLine t).text = p.text ++ p.margin ++ t ++ ['\n'] := by
  simp [addLine, addIndented, add, margin]

@[simp] theorem margin_addLine (t : Text) : (p.addLine t).margin = p.margin := rfl

@[simp] theorem unit_addLine (t : Text) : (p.addLine t).unit = p.unit := rfl

@[simp] theorem depth_addLine (t : Text) : (p.addLine t).depth = p.depth := rfl

@[simp] theorem text_addBlankLine : p.addBlankLine.text = p.text ++ ['\n'] := rfl

@[simp] theorem unit_addBlankLine : p.addBlankLine.unit = p.unit := rfl

@[simp] theorem depth_addBlankLine : p.addBlankLine.depth = p.depth := rfl

theorem addLines_cons (t : Text) (ts : List Text) :
    p.addLines (t :: ts) = (p.addLine t).addLines ts :=
  rfl

@[simp] theorem unit_addLines (ts : List Text) : (p.addLines ts).unit = p.unit := by
  induction ts generalizing p with
  | nil => rfl
  | cons t ts ih => rw [addLines_cons, ih, unit_addLine]

@[simp] theorem depth_addLines (ts : List Text) : (p.addLines ts).depth = p.depth := by
  induction ts generalizing p with
  | nil => rfl
  | cons t ts ih => rw [addLines_cons, ih, depth_addLine]

/-- Adding lines does not change the margin, so every one of them gets the same. -/
@[simp] theorem text_addLines (ts : List Text) :
    (p.addLines ts).text = p.text ++ Text.ofLines (ts.map (p.margin ++ ·)) := by
  induction ts generalizing p with
  | nil => simp [addLines]
  | cons t ts ih => simp [addLines_cons, ih]

end Page

namespace Interface

/-- The lines of the file of an interface: the banner and an empty line if wanted, a line for each
of the imports and an empty line if there are any, then the declaration. -/
def lines (layout : Layout) (i : Interface) : List Text :=
  (if layout.banner then [bannerLine, []] else []) ++ i.imports.map (·.importLine) ++
    (if i.imports.isEmpty then [] else [[]]) ++
    i.header :: i.properties.map (layout.indent ++ ·.line) ++ [footer]

theorem contents_eq_ofLines (layout : Layout) (i : Interface) :
    i.contents layout = Text.ofLines (i.lines layout) := by
  cases hb : layout.banner <;> cases hi : i.imports.isEmpty <;>
    simp [contents, lines, hb, hi, Page.indent, Page.dedent, Page.margin, Function.comp_def]

end Interface

end InterfaceGen
