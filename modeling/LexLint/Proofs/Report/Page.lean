import LexLint.Proofs.Report.Findings
import LexLint.Proofs.Report.Markup

/-!
# Pages show what was found and nothing else

A page of the tool's own layout is a fixed head followed by segments (`toList_text`), of which
those of a card hold escaped texts only. So what is shown can be read again
(`shownOf_text`), and the markup depends on nothing but the severities of the findings
and on whether their lines are empty (`outline_segments_eq`).
-/

namespace LexLint

/-- A text as the characters that a page shows it by. -/
def escaped (s : String) : List Char := s.toList.flatMap htmlChar

theorem toList_escapeHtml (s : String) : (escapeHtml s).toList = escaped s := String.toList_ofList

/-- The characters of lines that each follow a newline. -/
def linesText (lines : List String) : List Char := lines.flatMap fun line => '\n' :: line.toList

theorem linesText_append (a b : List String) : linesText (a ++ b) = linesText a ++ linesText b :=
  List.flatMap_append

/-! ### The segments of a page -/

/-- The indent of a card. -/
def indent : List Char := "\n  ".toList

/-- The indent of a line inside a card. -/
def gap : List Char := "\n    ".toList

namespace HtmlCard

def locationText (c : HtmlCard) : List Char :=
  escaped c.file ++ ':' :: ((toString c.line).toList ++ ':' :: (toString c.column).toList)

/-- The tags of a card as far as its severity. -/
def badgeSegments (c : HtmlCard) : List Segment :=
  [⟨"div class=\"card sev-".toList ++ escaped c.severity ++ ['"'], gap⟩,
   ⟨"span class=\"badge badge-".toList ++ escaped c.severity ++ ['"'], escaped c.severity⟩,
   ⟨"/span".toList, gap⟩]

def placeSegments (c : HtmlCard) : List Segment :=
  [⟨"code".toList, '[' :: (escaped c.code ++ [']'])⟩, ⟨"/code".toList, gap⟩,
   ⟨"span class=\"loc\"".toList, c.locationText⟩, ⟨"/span".toList, gap⟩]

/-- The tags of the message, of the line if there is something on it, and of the card's end. -/
def messageSegments (c : HtmlCard) : List Segment :=
  ⟨"div class=\"msg\"".toList, escaped c.message⟩ ::
  (if c.sourceLine.isEmpty then [⟨"/div".toList, gap ++ indent⟩]
    else [⟨"/div".toList, gap⟩, ⟨"pre".toList, escaped c.sourceLine⟩, ⟨"/pre".toList, indent⟩]) ++
  [⟨"/div".toList, indent ++ indent⟩]

/-- The tags of a card with the texts behind them. -/
def segments (c : HtmlCard) : List Segment :=
  c.badgeSegments ++ c.placeSegments ++ c.messageSegments

-- The indent before a line goes to the text behind the tag before it, so each part gives up one
-- indent at its start and takes one at its end.
theorem linesText_badge (c : HtmlCard) :
    linesText (c.lines.take 2) ++ gap = indent ++ c.badgeSegments.flatMap Segment.written := by
  simp [linesText, lines, badgeSegments, gap, indent, toList_escapeHtml, Segment.written]

theorem linesText_place (c : HtmlCard) :
    linesText ((c.lines.drop 2).take 2) ++ gap =
      gap ++ c.placeSegments.flatMap Segment.written := by
  have same (s : String) : toString s = s := rfl
  simp [linesText, lines, placeSegments, locationText, gap, toList_escapeHtml, Segment.written,
    same]

theorem linesText_message (c : HtmlCard) :
    linesText (c.lines.drop 4) ++ (indent ++ indent) =
      gap ++ c.messageSegments.flatMap Segment.written := by
  by_cases empty : c.sourceLine.isEmpty = true
  all_goals simp [linesText, lines, sourceBlock, messageSegments, gap, indent, toList_escapeHtml,
    Segment.written, empty]

theorem linesText_lines (c : HtmlCard) :
    linesText c.lines ++ (indent ++ indent) = indent ++ c.segments.flatMap Segment.written := by
  have parts : c.lines = c.lines.take 2 ++ ((c.lines.drop 2).take 2 ++ c.lines.drop 4) := rfl
  calc linesText c.lines ++ (indent ++ indent)
      = linesText (c.lines.take 2) ++ (linesText ((c.lines.drop 2).take 2) ++
          (linesText (c.lines.drop 4) ++ (indent ++ indent))) := by
        rw [parts, linesText_append, linesText_append, List.append_assoc, List.append_assoc]
        rfl
    _ = linesText (c.lines.take 2) ++ (linesText ((c.lines.drop 2).take 2) ++ gap ++
          c.messageSegments.flatMap Segment.written) := by
        rw [c.linesText_message, List.append_assoc]
    _ = linesText (c.lines.take 2) ++ gap ++ (c.placeSegments.flatMap Segment.written ++
          c.messageSegments.flatMap Segment.written) := by
        rw [c.linesText_place, List.append_assoc, List.append_assoc]
    _ = indent ++ c.segments.flatMap Segment.written := by
        rw [c.linesText_badge, segments, List.flatMap_append, List.flatMap_append,
          List.append_assoc, List.append_assoc]

end HtmlCard

namespace HtmlPage

/-- The page up to its first card. -/
def headText : List Char := (joinStrings "\n" headLines).toList ++ (indent ++ indent)

def footSegments (total : Nat) : List Segment :=
  [⟨"div class=\"summary\"".toList,
      (toString total).toList ++ " finding".toList ++ (if total = 1 then "" else "s").toList ++
        " reported.".toList⟩,
   ⟨"/div".toList, "\n".toList⟩, ⟨"/body".toList, "\n".toList⟩, ⟨"/html".toList, []⟩]

/-- The tags of a page behind its head. -/
def segments (page : HtmlPage) : List Segment :=
  page.cards.flatMap HtmlCard.segments ++ footSegments page.cards.length

theorem linesText_foot (total : Nat) :
    linesText (footLines total) = indent ++ (footSegments total).flatMap Segment.written := by
  have same (s : String) : toString s = s := rfl
  simp [linesText, footLines, footSegments, indent, Segment.written, same]

theorem linesText_cards (cards : List HtmlCard) :
    linesText (cards.flatMap fun c => "  " :: c.lines) ++ (indent ++ indent) =
      indent ++ indent ++ (cards.flatMap HtmlCard.segments).flatMap Segment.written := by
  induction cards with
  | nil => rfl
  | cons c cards ih =>
    have first : linesText ("  " :: c.lines) = indent ++ linesText c.lines := rfl
    rw [List.flatMap_cons, linesText_append, List.append_assoc, ih, first, List.append_assoc,
      ← List.append_assoc (linesText c.lines), c.linesText_lines, List.flatMap_cons,
      List.flatMap_append]
    simp only [List.append_assoc]

/-- A page is its head, followed by tags with the texts behind them. -/
theorem toList_text (page : HtmlPage) :
    page.text.toList = headText ++ page.segments.flatMap Segment.written := by
  have foot : linesText ("  " :: footLines page.cards.length) =
      indent ++ indent ++ (footSegments page.cards.length).flatMap Segment.written := by
    show indent ++ linesText (footLines page.cards.length) = _
    rw [linesText_foot, List.append_assoc]
  have behind : page.text.toList = (joinStrings "\n" headLines).toList ++
      (linesText (page.cards.flatMap fun c => "  " :: c.lines) ++
        linesText ("  " :: footLines page.cards.length)) := by
    rw [text, List.append_assoc, toList_joinStrings_newline_append (by decide),
      ← linesText_append]
    rfl
  rw [behind, foot, ← List.append_assoc (linesText _), linesText_cards, headText, segments,
    List.flatMap_append]
  simp only [List.append_assoc]

end HtmlPage

/-! ### What a page shows -/

theorem markup_escaped (s : String) : markup (escaped s) = [] := markup_escape s.toList

theorem decodeHtml_escaped (s : String) : decodeHtml (escaped s) = s.toList := by
  have read := decodeHtml_escape_append s.toList []
  rwa [List.append_nil, decodeHtml_of_notMem List.not_mem_nil, List.append_nil] at read

theorem markup_toString (n : Nat) : markup (toString n).toList = [] := by
  have digits : (toString n).toList = Nat.toDigits 10 n := Nat.toList_repr
  rw [digits, markup, List.filter_eq_nil_iff]
  intro c member special
  have digit := Nat.isDigit_of_mem_toDigits (by decide) (by decide) member
  simp only [isMarkup, Bool.or_eq_true, beq_iff_eq] at special
  rcases special with ((rfl | rfl) | rfl) | rfl <;> exact absurd digit (by decide)

/-- The tags of the elements that show codes, messages and lines. -/
def shownTags : List (List Char) := ["code".toList, "div class=\"msg\"".toList, "pre".toList]

/-- The elements of a page that show codes, messages and lines. -/
def shownOf (page : String) : List Element :=
  (elementsOf page.toList).filter (·.tag ∈ shownTags)

namespace HtmlCard

theorem markup_locationText (c : HtmlCard) : markup c.locationText = [] := by
  have colon (s : List Char) : markup (':' :: s) = markup s := rfl
  rw [locationText, markup_append, markup_escaped, colon, markup_append, markup_toString, colon,
    markup_toString]
  rfl

theorem clean_segments (c : HtmlCard) : ∀ s ∈ c.segments, s.Clean := by
  have noLess (s : String) : '<' ∉ escaped s := notMem_of_markup_eq_nil (markup_escaped s) rfl
  have noGreater (s : String) : '>' ∉ escaped s := notMem_of_markup_eq_nil (markup_escaped s) rfl
  have place : '<' ∉ c.locationText := notMem_of_markup_eq_nil c.markup_locationText rfl
  by_cases empty : c.sourceLine.isEmpty = true
  all_goals simp [segments, badgeSegments, placeSegments, messageSegments, gap, indent,
    Segment.Clean, empty, noLess, noGreater, place]

/-- The code, the message and the line of a card, each in its element. -/
def shown (c : HtmlCard) : List Element :=
  [⟨"code".toList, ("[" ++ c.code ++ "]").toList⟩,
   ⟨"div class=\"msg\"".toList, c.message.toList⟩] ++
  if c.sourceLine.isEmpty then [] else [⟨"pre".toList, c.sourceLine.toList⟩]

theorem shown_segments (c : HtmlCard) :
    (collectElements c.segments).filter (·.tag ∈ shownTags) = c.shown := by
  have code : decodeHtml ('[' :: (escaped c.code ++ [']'])) = '[' :: (c.code.toList ++ [']']) := by
    rw [decodeHtml_cons_of_ne (by decide), escaped, decodeHtml_escape_append]
    rfl
  by_cases empty : c.sourceLine.isEmpty = true
  all_goals simp [segments, badgeSegments, placeSegments, messageSegments, collectElements,
    Segment.closes, Segment.name, shownTags, shown, empty, code, decodeHtml_escaped]

/-- The contents of a card's elements with a tag. -/
def contents (c : HtmlCard) (tag : String) : List String :=
  (c.shown.filter (·.tag == tag.toList)).map fun e => String.ofList e.content

theorem contents_code (c : HtmlCard) : c.contents "code" = ["[" ++ c.code ++ "]"] := by
  by_cases empty : c.sourceLine.isEmpty = true
  all_goals simp [contents, shown, empty, String.append_assoc]

theorem contents_message (c : HtmlCard) : c.contents "div class=\"msg\"" = [c.message] := by
  by_cases empty : c.sourceLine.isEmpty = true
  all_goals simp [contents, shown, empty]

theorem contents_line (c : HtmlCard) :
    c.contents "pre" = [c.sourceLine].filter (!·.isEmpty) := by
  by_cases empty : c.sourceLine.isEmpty = true
  all_goals simp [contents, shown, empty]

/-- Cards of one severity, both with or both without a line, have the same tags and markup. -/
theorem outline_segments_eq {c d : HtmlCard} (severity : c.severity = d.severity)
    (line : c.sourceLine.isEmpty = d.sourceLine.isEmpty) :
    c.segments.map Segment.outline = d.segments.map Segment.outline := by
  have code (s : String) : markup ('[' :: (escaped s ++ [']'])) = [] := by
    show markup (escaped s ++ [']']) = []
    rw [markup_append, markup_escaped]
    rfl
  by_cases empty : d.sourceLine.isEmpty = true
  all_goals simp [segments, badgeSegments, placeSegments, messageSegments, Segment.outline,
    severity, line, empty, code, markup_escaped, markup_locationText]

end HtmlCard

namespace HtmlPage

theorem shown_headText :
    (collectElements (segmentsOf headText)).filter (·.tag ∈ shownTags) = [] := by
  rw [headText, toList_joinStrings_newline, headLines, shownTags]
  simp only [List.map_cons, List.map_nil]
  -- The lines are made into lists of characters one by one, to be read by evaluation.
  repeat rw [String.toList_ofList]
  decide +kernel

theorem shown_footSegments (total : Nat) :
    (collectElements (footSegments total)).filter (·.tag ∈ shownTags) = [] := by
  simp [footSegments, collectElements, Segment.closes, Segment.name, shownTags]

theorem clean_footSegments (total : Nat) : ∀ s ∈ footSegments total, s.Clean := by
  have number : '<' ∉ (toString total).toList :=
    notMem_of_markup_eq_nil (markup_toString total) rfl
  by_cases one : total = 1
  all_goals simp_all [footSegments, Segment.Clean]

theorem clean_segments (page : HtmlPage) : ∀ s ∈ page.segments, s.Clean := by
  rw [segments, List.forall_mem_append, List.forall_mem_flatMap]
  exact ⟨fun c _ => c.clean_segments, clean_footSegments _⟩

/-- A page is read as it is written. -/
theorem segmentsOf_text (page : HtmlPage) :
    segmentsOf page.text.toList = segmentsOf headText ++ page.segments := by
  rw [toList_text, segmentsOf_append_written page.clean_segments]

/-- Behind every card and behind the head comes a tag that opens an element. -/
theorem exists_opening (cards : List HtmlCard) (total : Nat) :
    ∃ s rest, cards.flatMap HtmlCard.segments ++ footSegments total = s :: rest ∧
      s.tag.head? ≠ some '/' := by
  cases cards with
  | nil => exact ⟨_, _, rfl, by simp⟩
  | cons c cards => exact ⟨_, _, rfl, by simp⟩

theorem shown_segments (cards : List HtmlCard) (total : Nat) :
    (collectElements (cards.flatMap HtmlCard.segments ++ footSegments total)).filter
      (·.tag ∈ shownTags) = cards.flatMap HtmlCard.shown := by
  induction cards with
  | nil => exact shown_footSegments total
  | cons c cards ih =>
    obtain ⟨s, rest, same, opens⟩ := exists_opening cards total
    rw [same] at ih
    rw [List.flatMap_cons, List.append_assoc, same, collectElements_append _ _ opens,
      List.filter_append, c.shown_segments, ih, List.flatMap_cons]

/-- A page shows its cards, and nothing else where it shows them. -/
theorem shownOf_text (page : HtmlPage) :
    shownOf page.text = page.cards.flatMap HtmlCard.shown := by
  obtain ⟨s, rest, same, opens⟩ := exists_opening page.cards page.cards.length
  rw [shownOf, elementsOf, segmentsOf_text, segments, same, collectElements_append _ _ opens,
    List.filter_append, shown_headText, ← same, shown_segments]
  rfl

theorem outline_cards_eq {cards others : List HtmlCard}
    (alike : cards.map (fun c => (c.severity, c.sourceLine.isEmpty)) =
      others.map fun c => (c.severity, c.sourceLine.isEmpty)) :
    (cards.flatMap HtmlCard.segments).map Segment.outline =
      (others.flatMap HtmlCard.segments).map Segment.outline := by
  induction cards generalizing others with
  | nil => rw [List.map_eq_nil_iff.mp alike.symm]
  | cons c cards ih =>
    obtain ⟨d, rest, rfl, same, more⟩ := List.map_eq_cons_iff.mp alike.symm
    obtain ⟨severity, line⟩ := Prod.mk.inj same
    rw [List.flatMap_cons, List.flatMap_cons, List.map_append, List.map_append, ih more.symm,
      HtmlCard.outline_segments_eq severity line]

/-- Pages whose cards agree in severity and in having a line have the same tags and markup. -/
theorem outline_segments_eq {page other : HtmlPage}
    (alike : page.cards.map (fun c => (c.severity, c.sourceLine.isEmpty)) =
      other.cards.map fun c => (c.severity, c.sourceLine.isEmpty)) :
    page.segments.map Segment.outline = other.segments.map Segment.outline := by
  have total : page.cards.length = other.cards.length := by
    have lengths := congrArg List.length alike
    rwa [List.length_map, List.length_map] at lengths
  rw [segments, segments, List.map_append, List.map_append, total, outline_cards_eq alike]

end HtmlPage

/-! ### Pages of reports -/

/-- The contents of the elements with a tag, in the order of the page. -/
def contentsOf (tag page : String) : List String :=
  ((elementsOf page.toList).filter (·.tag == tag.toList)).map fun e => String.ofList e.content

/-- The tags of a page, without their angle brackets. -/
def tagsOf (page : String) : List (List Char) := (segmentsOf page.toList).map (·.tag)

/-- The line on which a finding begins. -/
def shownLine (p : Source × Finding) : String :=
  String.ofList (p.1.rawLine p.1.index (p.1.index.position p.2.start).line)

def cardOf (p : Source × Finding) : HtmlCard := .ofFinding p.1 p.1.index p.2

/-- What is shown of findings reads as they say it. -/
structure ShowsFindings (page : String) (findings : List (Source × Finding)) : Prop where
  codes : contentsOf "code" page = findings.map fun p => "[" ++ p.2.code ++ "]"
  messages : contentsOf "div class=\"msg\"" page = findings.map (·.2.message)
  lines : contentsOf "pre" page = (findings.map shownLine).filter (!·.isEmpty)
  /-- What belongs to a finding stands together. -/
  together : shownOf page = findings.flatMap fun p => (cardOf p).shown

/-- The findings of reports are shown in their order. -/
theorem cards_htmlPage (reports : List Report) :
    (htmlPage reports).cards = (reportedFindings reports).map cardOf := by
  have added (findings : List (Source × Finding)) (page : HtmlPage) :
      (findings.foldl (fun page p => page.add p.1 p.1.index p.2) page).cards =
        page.cards ++ findings.map cardOf := by
    induction findings generalizing page with
    | nil => exact (List.append_nil _).symm
    | cons p findings ih =>
      rw [List.foldl_cons, ih, HtmlPage.add, List.append_assoc]
      rfl
  have all := foldl_reports HtmlPage.add {} reports
  rw [htmlPage, ← List.nil_append (List.map _ _)]
  exact (congrArg HtmlPage.cards all).trans (added _ _)

theorem contentsOf_text {tag : String} (known : tag.toList ∈ shownTags) (page : HtmlPage) :
    contentsOf tag page.text = page.cards.flatMap (·.contents tag) := by
  have implied (e : Element) :
      (e.tag == tag.toList) = (e.tag == tag.toList && decide (e.tag ∈ shownTags)) := by
    by_cases same : e.tag = tag.toList
    · simp [same, known]
    · simp [same]
  have shown : (elementsOf page.text.toList).filter (·.tag == tag.toList) =
      (shownOf page.text).filter (·.tag == tag.toList) := by
    rw [shownOf, List.filter_filter]
    simp only [← implied]
  rw [contentsOf, shown, HtmlPage.shownOf_text, List.filter_flatMap, List.map_flatMap]
  rfl

theorem showsFindings_htmlPage (reports : List Report) :
    ShowsFindings (htmlPage reports).text (reportedFindings reports) := by
  constructor
  case codes =>
    rw [contentsOf_text (by decide), cards_htmlPage, List.flatMap_map, List.map_eq_flatMap]
    simp only [HtmlCard.contents_code]
    rfl
  case messages =>
    rw [contentsOf_text (by decide), cards_htmlPage, List.flatMap_map, List.map_eq_flatMap]
    simp only [HtmlCard.contents_message]
    rfl
  case lines =>
    rw [contentsOf_text (by decide), cards_htmlPage, List.flatMap_map, List.map_eq_flatMap,
      List.filter_flatMap]
    simp only [HtmlCard.contents_line]
    rfl
  case together => rw [HtmlPage.shownOf_text, cards_htmlPage, List.flatMap_map]

/-- What the layout of a page depends on: how grave a finding is, and whether its line is empty. -/
def layoutOf (p : Source × Finding) : Severity × Bool := (p.2.severity, (shownLine p).isEmpty)

theorem outline_htmlPage_eq {reports others : List Report}
    (alike : (reportedFindings others).map layoutOf = (reportedFindings reports).map layoutOf) :
    (htmlPage others).segments.map Segment.outline =
      (htmlPage reports).segments.map Segment.outline := by
  apply HtmlPage.outline_segments_eq
  have shown (p : Source × Finding) : ((cardOf p).severity, (cardOf p).sourceLine.isEmpty) =
      ((layoutOf p).1.text, (layoutOf p).2) := rfl
  rw [cards_htmlPage, cards_htmlPage, List.map_map, List.map_map]
  simp only [Function.comp_def, shown]
  have texts := congrArg (List.map fun layout => (layout.1.text, layout.2)) alike
  rw [List.map_map, List.map_map] at texts
  exact texts

/-- Under the tool's own layout there is always a page, whatever the engine for templates. It shows
the codes, the messages and the lines of the findings as they are, and its markup is that of every
page whose findings agree in severity and in whether their lines are empty, whatever texts they
bring along. -/
theorem pages_cannot_be_injected {files : FileTree} {env : Environment} {path : String}
    (own : chooseTemplate files env path = .ok none) (engine : TemplateEngine)
    (reports : List Report) :
    ∃ page, (htmlPage reports).render engine files env path = .ok page ∧
      ShowsFindings page (reportedFindings reports) ∧
      ∀ others : List Report,
        (reportedFindings others).map layoutOf = (reportedFindings reports).map layoutOf →
        ∃ other, (htmlPage others).render engine files env path = .ok other ∧
          markup other.toList = markup page.toList ∧ tagsOf other = tagsOf page := by
  have rendered (page : HtmlPage) := HtmlPage.render_of_builtin own page engine
  refine ⟨_, rendered _, showsFindings_htmlPage reports, ?_⟩
  intro others alike
  have outlines := outline_htmlPage_eq alike
  refine ⟨_, rendered _, ?_, ?_⟩
  · rw [HtmlPage.toList_text, HtmlPage.toList_text, markup_append, markup_append,
      markup_flatMap_written, markup_flatMap_written, outlines]
  · have tags := congrArg (List.map Prod.fst) outlines
    rw [List.map_map, List.map_map] at tags
    rw [tagsOf, tagsOf, HtmlPage.segmentsOf_text, HtmlPage.segmentsOf_text, List.map_append,
      List.map_append]
    exact congrArg _ tags

/-- A message that would close its element and open another, and a line that reads like a
reference. -/
theorem pages_cannot_be_injected_script :
    let hostile : Report := ⟨.ofString "<b>.tes" "a&lt;", [⟨0, 1, "</div><script>'&lt;'</script>",
      .error, "\"onclick=\"", "strings"⟩]⟩
    let harmless : Report := ⟨.ofString "a.tes" "b", [⟨0, 1, "c", .error, "d", "strings"⟩]⟩
    chooseTemplate {} [] "" = .ok none ∧
      ∃ page other,
        (htmlPage [hostile]).render HtmlTemplate.plainEngine {} [] "" = .ok page ∧
        (htmlPage [harmless]).render HtmlTemplate.plainEngine {} [] "" = .ok other ∧
        contentsOf "div class=\"msg\"" page = ["</div><script>'&lt;'</script>"] ∧
        contentsOf "pre" page = ["a&lt;"] ∧
        markup other.toList = markup page.toList ∧ tagsOf other = tagsOf page := by
  intro hostile harmless
  have own : chooseTemplate {} [] "" = .ok none := rfl
  have alike : (reportedFindings [harmless]).map layoutOf =
      (reportedFindings [hostile]).map layoutOf := by decide
  obtain ⟨page, rendered, shows, same⟩ := pages_cannot_be_injected own HtmlTemplate.plainEngine [hostile]
  obtain ⟨other, renderedOther, sameMarkup, sameTags⟩ := same [harmless] alike
  have line : ((reportedFindings [hostile]).map shownLine).filter (!·.isEmpty) = ["a&lt;"] := by
    decide
  exact ⟨own, page, other, rendered, renderedOther, shows.messages, shows.lines.trans line,
    sameMarkup, sameTags⟩

end LexLint
