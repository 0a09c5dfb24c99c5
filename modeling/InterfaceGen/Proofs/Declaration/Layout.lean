import InterfaceGen.Model.Extraction
import InterfaceGen.Proofs.Declaration.Line

/-! Layout does not matter. Whatever is found out about a line can be found out from the tokens of
its code, so blanks and comments may be put in, taken out and changed without an effect on the
model. Only the quotation of a line in a finding shows them. -/

namespace InterfaceGen

open Text

section Tokens

variable {s t word : Text} {c : Char}

theorem Line.hasWord_congr (h : tokens s = tokens t) :
    Line.hasWord s word = Line.hasWord t word := by
  rw [Bool.eq_iff_iff, Line.hasWord_iff_exists, Line.hasWord_iff_exists, h]

theorem Line.contains_congr (hc : isBlank c = false) (h : tokens s = tokens t) :
    s.contains c = t.contains c := by
  rw [Bool.eq_iff_iff, Line.contains_iff_exists hc, Line.contains_iff_exists hc, h]

/-- What a list of tokens has on the two sides of the first `c`. -/
def cutTokens (c : Char) : List Text → Option (List Text × List Text)
  | [] => none
  | w :: ws =>
    match splitAt? c w with
    | some (l, r) => some (tokens l, tokens r ++ ws)
    | none => (cutTokens c ws).map fun (l, r) => (w :: l, r)

/-- Tokens without the mark are passed over. -/
theorem cutTokens_append {ws : List Text} (hws : ∀ w ∈ ws, c ∉ w) (vs : List Text) :
    cutTokens c (ws ++ vs) = (cutTokens c vs).map fun (l, r) => (ws ++ l, r) := by
  induction ws with
  | nil => simp
  | cons w ws ih =>
    rw [List.cons_append, cutTokens, splitAt?_of_notMem (hws w List.mem_cons_self),
      ih fun v hv => hws v (List.mem_cons_of_mem w hv), Option.map_map]
    rfl

/-- The tokens on the two sides of a mark are those on the two sides of it among the tokens. -/
theorem map_tokens_splitAt? (hc : isBlank c = false) (t : Text) :
    (splitAt? c t).map (Prod.map tokens tokens) = cutTokens c (tokens t) := by
  have hrun : ∀ w, (∀ d ∈ w, isBlank d = false) → tokens w = if w = [] then [] else [w] :=
    fun w => pieces_of_forall_not
  have hcut : ∀ s b t, isBlank b = true → tokens (s ++ b :: t) = tokens s ++ tokens t :=
    fun s b t hb => pieces_append_cons hb s t
  induction t using pieces_induction isBlank with
  | run w hw =>
    rw [hrun w hw]
    split_ifs with hne
    · rw [hne]
      rfl
    · rw [cutTokens]
      rcases splitAt? c w with _ | ⟨l, r⟩ <;> simp [cutTokens]
  | cut w b t hw hb ih =>
    rw [hcut w b t hb]
    by_cases hmem : c ∈ w
    · obtain ⟨l, r, rfl, hl⟩ := List.eq_append_cons_of_mem hmem
      rw [hrun _ hw, if_neg (by simp), List.singleton_append, cutTokens, splitAt?_append_cons hl,
        List.append_assoc, List.cons_append, splitAt?_append_cons hl]
      change some (tokens l, tokens (r ++ b :: t)) = _
      rw [hcut r b t hb]
    · have hbc : b ≠ c := by
        rintro rfl
        rw [hb] at hc
        cases hc
      have hfree : ∀ v ∈ tokens w, c ∉ v := fun v hv hcv => hmem ((mem_pieces hv).2 c hcv).2
      rw [splitAt?_append hmem, splitAt?, if_neg hbc, cutTokens_append hfree, ← ih]
      simp only [Option.map_map]
      congr 1
      funext q
      obtain ⟨l, r⟩ := q
      exact congrArg (·, tokens r) (hcut w b l hb)

theorem Parent.ofLine?_eq (line : Text) : Parent.ofLine? line =
    (cutTokens ':' (tokens line)).bind fun (head, tail) =>
      if head.contains constraintWord then none
      else tail.head?.bind fun w =>
        if (w.takeWhile (!endsName ·)).isEmpty then none else some (w.takeWhile (!endsName ·)) := by
  rw [← map_tokens_splitAt? (by decide) line, Parent.ofLine?]
  cases splitAt? ':' line <;> rfl

theorem Parent.ofLine?_congr (h : tokens s = tokens t) : Parent.ofLine? s = Parent.ofLine? t := by
  rw [Parent.ofLine?_eq, Parent.ofLine?_eq, h]

end Tokens

namespace Line

/-- Two lines have the same tokens in front of their comments. -/
def Alike (l k : Text) : Prop := tokens (code l) = tokens (code k)

instance (l k : Text) : Decidable (Alike l k) := inferInstanceAs (Decidable (_ = _))

variable {l k word : Text}

/-- Of two lines that are alike both are comments or none, if they say anything at all. -/
theorem isComment_congr (h : Alike l k) (hw : hasWord (code l) word = true) :
    isComment l = isComment k := by
  cases htokens : tokens (code l) with
  | nil =>
    rw [hasWord_of_tokens_eq_nil htokens] at hw
    cases hw
  | cons w ws => rw [isComment_of_tokens htokens, isComment_of_tokens (h ▸ htokens)]

theorem isTypeDeclaration_congr (h : Alike l k) : isTypeDeclaration l = isTypeDeclaration k := by
  have hany : typeMarkers.any (hasWord (code l)) = typeMarkers.any (hasWord (code k)) := by
    congr 1
    funext word
    exact hasWord_congr h
  rw [isTypeDeclaration, isTypeDeclaration, ← hany]
  cases hw : typeMarkers.any (hasWord (code l)) with
  | false => simp
  | true =>
    obtain ⟨word, -, hword⟩ := List.any_eq_true.mp hw
    rw [isComment_congr h hword]

theorem isInheritance_congr (h : Alike l k) : isInheritance l = isInheritance k := by
  rw [isInheritance, isInheritance, isTypeDeclaration_congr h, contains_congr (by decide) h]

theorem isMethod_congr (h : Alike l k) : isMethod l = isMethod k := by
  rw [isMethod, isMethod, contains_congr (by decide) h, contains_congr (c := ')') (by decide) h]

theorem isField_congr (h : Alike l k) : isField l = isField k := by
  rw [isField, isField, isTypeDeclaration_congr h, isMethod_congr h, ← hasWord_congr h]
  cases hw : hasWord (code l) publicMarker with
  | false => simp
  | true => rw [isComment_congr h hw]

end Line

/-- Two lines that are alike declare the same member, or have the same defect. -/
theorem Member.ofLine_congr {l k : Text} (h : Line.Alike l k) : ofLine l = ofLine k := by
  rw [ofLine, ofLine, h]

/-- Two findings say the same, of the same line of the same file; only the line that they quote may
be spelled differently. -/
structure Finding.SameButQuote (f g : Finding) : Prop where
  severity : f.severity = g.severity
  rule : f.rule = g.rule
  location : f.location = g.location
  suggestion : f.suggestion? = g.suggestion?
  message : ∃ (reason : Member.Defect) (quote quote' : Text),
    f.message = [reason.message, ": `".toList, quote, "`".toList].flatten ∧
      g.message = [reason.message, ": `".toList, quote', "`".toList].flatten

namespace Extract

/-- The same parent, the same members, and findings that agree one by one. -/
structure SameButQuotes (a b : Extract) : Prop where
  parent : a.parent? = b.parent?
  members : a.members = b.members
  findings : List.Forall₂ Finding.SameButQuote a.findings b.findings

variable {a a' b b' : Extract} {l k : Text}

theorem SameButQuotes.append (h : a.SameButQuotes b) (h' : a'.SameButQuotes b') :
    (a ++ a').SameButQuotes (b ++ b') := by
  refine ⟨?_, ?_, List.rel_append h.findings h'.findings⟩
  · change (a.parent? <|> a'.parent?) = (b.parent? <|> b'.parent?)
    rw [h.parent, h'.parent]
  · change a.members ++ a'.members = b.members ++ b'.members
    rw [h.members, h'.members]

theorem sameButQuote_malformed (path : Path) (n : Nat) (l k : Text) (defect : Member.Defect) :
    (malformed path n l defect).SameButQuote (malformed path n k defect) :=
  ⟨rfl, rfl, rfl, rfl, defect, strip l, strip k, rfl, rfl⟩

theorem ofLine_sameButQuotes (path : Path) (n : Nat) (h : Line.Alike l k) :
    (ofLine path n l).SameButQuotes (ofLine path n k) := by
  unfold ofLine
  rw [Line.isInheritance_congr h, Line.isField_congr h, Member.ofLine_congr h,
    Parent.ofLine?_congr h]
  split_ifs
  · exact ⟨rfl, rfl, .nil⟩
  · cases Member.ofLine k with
    | ok member => exact ⟨rfl, rfl, .nil⟩
    | error defect => exact ⟨rfl, rfl, .cons (sameButQuote_malformed path n l k defect) .nil⟩
  · exact ⟨rfl, rfl, .nil⟩

theorem ofLines_sameButQuotes (path : Path) (n : Nat) {ls ks : List Text}
    (h : List.Forall₂ Line.Alike ls ks) :
    (ofLines path n ls).SameButQuotes (ofLines path n ks) := by
  induction h generalizing n with
  | nil => exact ⟨rfl, rfl, .nil⟩
  | cons hline _ ih => exact (ofLine_sameButQuotes path n hline).append (ih (n + 1))

end Extract

namespace Source

variable {s t : Source}

/-- Of two sources whose lines are alike one by one, the models are equal, and the findings agree
one by one in all but the spelling of the quoted line. -/
theorem extract_ignores_layout (hname : s.name = t.name) (hgroup : s.group = t.group)
    (hpath : s.path = t.path) (hlines : List.Forall₂ Line.Alike s.lines t.lines) :
    s.model = t.model ∧ List.Forall₂ Finding.SameButQuote s.findings t.findings := by
  have h : s.extract.SameButQuotes t.extract := by
    rw [extract, extract, hpath]
    exact Extract.ofLines_sameButQuotes t.path 1 hlines
  refine ⟨?_, h.findings⟩
  rw [model, model, hname, hgroup, hpath, h.parent, h.members]

/-- Tabs for spaces, a carriage return, comments that come, change and go: the parent and the member
are the same, and the line that declares nothing is quoted as it stands. -/
theorem post_extract_ignores_layout :
    let s : Source := ⟨"Post".toList, "blog".toList, ⟨"blog/Post.cs".toList⟩,
      ["// class Post : Draft".toList, "public class Post : Entity // see: Entity".toList,
        "\tpublic int Age;// (years)".toList, "  public".toList]⟩
    let t : Source := ⟨"Post".toList, "blog".toList, ⟨"blog/Post.cs".toList⟩,
      ["".toList, "  public\tclass Post  : Entity".toList, "public int  Age;\r".toList,
        "public // nothing".toList]⟩
    List.Forall₂ Line.Alike s.lines t.lines ∧ s.model = t.model ∧
    s.model.parent? = some "Entity".toList ∧ s.model.members.map (·.name) = ["Age".toList] ∧
    s.findings.length = 1 ∧ s.findings ≠ t.findings ∧
    List.Forall₂ Finding.SameButQuote s.findings t.findings := by
  intro s t
  have hlines : List.Forall₂ Line.Alike s.lines t.lines := by
    refine .cons ?_ (.cons ?_ (.cons ?_ (.cons ?_ .nil))) <;> decide +kernel
  obtain ⟨hmodel, hfindings⟩ :=
    extract_ignores_layout (s := s) (t := t) rfl rfl rfl hlines
  exact ⟨hlines, hmodel, by decide +kernel, by decide +kernel, by decide +kernel,
    by decide +kernel, hfindings⟩

end Source

end InterfaceGen
