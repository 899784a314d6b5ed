import SchemaDocs.Proofs.Markdown.Markup
import SchemaDocs.Proofs.Markdown.Nesting
import SchemaDocs.Proofs.Text.Slugs

/-!
# Elements as they are written

What begins or ends an element is written as markup of the writer, if it holds no address that runs a
script. An image is the exception, since its tag is written by many events: its beginning holds no
whole tag, and becomes one with the alternative text and the ending behind it.
-/

namespace SchemaDocs.Markdown

/-- An event without raw HTML and without an address that runs a script. -/
def Event.IsHarmless : Event → Prop
  | .html _ | .inlineHtml _ => False
  | .start (.link _ target _) | .start (.image target _) => ¬ RunsScript target.toList
  | _ => True

def headingTag (level : Nat) (anchor : Option String) : HtmlTag where
  name := 'h' :: (toString level).toList
  attributes := (anchor.map fun anchor => ⟨"id".toList, (escapeAttribute anchor).toList⟩).toList

def footnoteTag (label : String) : HtmlTag where
  name := "div".toList
  attributes := [⟨"class".toList, "footnote-definition".toList⟩, ⟨"id".toList, (escapeAttribute label).toList⟩]

def Event.marks : Event → List HtmlTag
  | .start (.heading level anchor) => [headingTag level anchor]
  | .start (.footnoteDefinition label) => [footnoteTag label]
  | _ => []

/-! ### Escaped texts -/

private theorem bracket_not_mem_escapeBodyChar (c : Char) : '<' ∉ escapeBodyChar c := by
  unfold escapeBodyChar
  split_ifs with hand hopening
  · decide
  · decide
  · decide
  · simpa using Ne.symm hopening

theorem bracket_not_mem_escapeBody (text : String) : '<' ∉ (escapeBody text).toList := by
  rw [escapeBody, String.toList_ofList, List.mem_flatMap]
  intro ⟨c, _, hmem⟩
  exact bracket_not_mem_escapeBodyChar c hmem

private theorem isValue_flatMap {α : Type} {items : List α} {text : α → List Char} (h : ∀ item, IsValue (text item)) :
    IsValue (items.flatMap text) := by
  constructor
  · rw [List.mem_flatMap]
    intro ⟨item, _, hmem⟩
    exact (h item).quote_not_mem hmem
  · rw [List.mem_flatMap]
    intro ⟨item, _, hmem⟩
    exact (h item).bracket_not_mem hmem

theorem isValue_escapeAttribute (text : String) : IsValue (escapeAttribute text).toList := by
  rw [escapeAttribute, String.toList_ofList]
  refine isValue_flatMap fun c => ⟨?_, ?_⟩
  · unfold escapeAttributeChar escapeBodyChar
    split_ifs with hquote
    · decide
    · decide
    · decide
    · decide
    · simpa using Ne.symm hquote
  · unfold escapeAttributeChar
    split_ifs
    · decide
    · exact bracket_not_mem_escapeBodyChar c

private theorem isValue_percentByte (byte : UInt8) : IsValue (percentByte byte) := by
  have hdigits : ∀ high < 16, ∀ low < 16, IsValue ['%', if high < 10 then Char.ofNat (48 + high) else Char.ofNat (55 + high),
      if low < 10 then Char.ofNat (48 + low) else Char.ofNat (55 + low)] := by
    decide
  have hbyte : byte.toNat < 256 := byte.toNat_lt
  exact hdigits _ (by omega) _ (by omega)

theorem isValue_escapeAddress (address : String) : IsValue (escapeAddress address).toList := by
  rw [escapeAddress, String.toList_ofList]
  refine isValue_flatMap fun c => ?_
  unfold escapeAddressChar
  split_ifs with hsafe
  · have hmarks : ∀ mark ∈ ['\x22', '<'], isAddressSafe mark = false := by decide
    have hne : ∀ mark ∈ ['\x22', '<'], mark ∉ [c] := by
      intro mark hmark hmem
      rw [List.mem_singleton] at hmem
      rw [← hmem, hmarks mark hmark] at hsafe
      cases hsafe
    exact ⟨hne _ (by decide), hne _ (by decide)⟩
  · decide
  · decide
  · exact isValue_flatMap isValue_percentByte

theorem isValue_append {left right : List Char} (hleft : IsValue left) (hright : IsValue right) :
    IsValue (left ++ right) :=
  ⟨by simp [hleft.quote_not_mem, hright.quote_not_mem], by simp [hleft.bracket_not_mem, hright.bracket_not_mem]⟩

theorem isValue_toString (number : Nat) : IsValue (toString number).toList := by
  constructor
  · intro hmem
    exact absurd (Text.isDigit_of_mem_toString hmem) (by decide)
  · intro hmem
    exact absurd (Text.isDigit_of_mem_toString hmem) (by decide)

/-! ### Elements -/

private theorem isOwn_of_plain {name value : List Char} (hname : name ∈ ownAttributes.map String.toList)
    (hplain : name ∉ addressAttributes.map String.toList) (hvalue : IsValue value) :
    HtmlAttribute.IsOwn ⟨name, value⟩ :=
  ⟨hname, hvalue, fun haddress => absurd haddress hplain⟩

private theorem isOwn_of_address {name value : List Char} (hname : name ∈ ownAttributes.map String.toList)
    (hvalue : IsValue value) (hsafe : ¬ RunsScript value) : HtmlAttribute.IsOwn ⟨name, value⟩ :=
  ⟨hname, hvalue, fun _ => hsafe⟩

private theorem isOwn_of_attributes {name : List Char} {fields : List HtmlAttribute}
    (hname : unslashed name ∈ ownNames.map String.toList) (hfields : ∀ field ∈ fields, field.IsOwn) :
    HtmlTag.IsOwn ⟨name, fields⟩ :=
  ⟨.inl hname, hfields⟩

theorem isMarkup_putLine {writer : Writer} {text : String} {marks : List HtmlTag} (h : IsMarkup text.toList marks) :
    IsMarkup (writer.putLine text).2.toList marks := by
  rw [Writer.putLine, Writer.put]
  split
  · exact h
  · rw [String.toList_append]
    exact (IsMarkup.of_not_mem (by decide)).plain_append h

private theorem isMarkup_number (number : Nat) : IsMarkup (toString number).toList [] :=
  .of_not_mem (isValue_toString number).bracket_not_mem

theorem isHeadingName_cons (level : Nat) : isHeadingName ('h' :: (toString level).toList) := by
  have hne := List.isEmpty_eq_false_iff.mpr (Text.toList_toString_ne_nil level)
  simp only [isHeadingName, hne, Bool.not_false, Bool.true_and, List.all_eq_true]
  exact fun _ => Text.isDigit_of_mem_toString

private theorem isMark_headingTag (level : Nat) (anchor : Option String) : (headingTag level anchor).isMark :=
  Bool.or_eq_true_iff.mpr (.inl (isHeadingName_cons level))

private theorem isMarkup_heading (level : Nat) (anchor : Option String) :
    IsMarkup ((headingTag level anchor).text []) [headingTag level anchor] := by
  have hown : (headingTag level anchor).IsOwn := by
    refine ⟨.inr (isHeadingName_cons level), fun field hfield => ?_⟩
    obtain ⟨anchor, -, rfl⟩ := Option.map_eq_some_iff.mp (Option.mem_toList.mp hfield)
    exact isOwn_of_plain (by decide) (by decide) (isValue_escapeAttribute anchor)
  exact .of_mark hown (isMark_headingTag level anchor)

private theorem isMarkup_headingEnd (level : Nat) : IsMarkup ("</h" ++ toString level ++ ">\n").toList [] := by
  have hown : HtmlTag.IsOwn ⟨'/' :: 'h' :: (toString level).toList, []⟩ :=
    ⟨.inr (isHeadingName_cons level), fun _ hfield => absurd hfield List.not_mem_nil⟩
  have htext : ("</h" ++ toString level ++ ">\n").toList =
      HtmlTag.text ⟨'/' :: 'h' :: (toString level).toList, []⟩ [] ++ ['\n'] := by
    simp [HtmlTag.text, HtmlTag.opening]
  rw [htext]
  exact (IsMarkup.of_closedTag hown rfl).append_plain (.of_not_mem (by decide))

private theorem isMarkup_code (language : String) :
    IsMarkup ("<pre><code class=\"language-" ++ escapeAttribute language ++ "\">").toList [] := by
  have hvalue : IsValue ("language-" ++ escapeAttribute language).toList := by
    rw [String.toList_append]
    exact isValue_append (by decide) (isValue_escapeAttribute language)
  have hown : HtmlTag.IsOwn ⟨"code".toList, [⟨"class".toList, ("language-" ++ escapeAttribute language).toList⟩]⟩ :=
    isOwn_of_attributes (by decide) (List.forall_mem_singleton.mpr (isOwn_of_plain (by decide) (by decide) hvalue))
  have htext : ("<pre><code class=\"language-" ++ escapeAttribute language ++ "\">").toList = "<pre>".toList ++
      HtmlTag.text ⟨"code".toList, [⟨"class".toList, ("language-" ++ escapeAttribute language).toList⟩]⟩ [] := by
    simp [HtmlTag.text, HtmlTag.opening, HtmlAttribute.text, HtmlAttribute.opening]
  rw [htext]
  exact (IsMarkup.literal "<pre>" (by decide)).append_plain (.of_closedTag hown rfl)

private theorem isMarkup_orderedList (start : Nat) :
    IsMarkup ("<ol start=\"" ++ toString start ++ "\">\n").toList [] := by
  have hown : HtmlTag.IsOwn ⟨"ol".toList, [⟨"start".toList, (toString start).toList⟩]⟩ :=
    isOwn_of_attributes (by decide)
      (List.forall_mem_singleton.mpr (isOwn_of_plain (by decide) (by decide) (isValue_toString start)))
  have htext : ("<ol start=\"" ++ toString start ++ "\">\n").toList =
      HtmlTag.text ⟨"ol".toList, [⟨"start".toList, (toString start).toList⟩]⟩ [] ++ ['\n'] := by
    simp [HtmlTag.text, HtmlTag.opening, HtmlAttribute.text, HtmlAttribute.opening]
  rw [htext]
  exact (IsMarkup.of_closedTag hown rfl).append_plain (.of_not_mem (by decide))

private theorem isMarkup_footnote (label : String) (number : Nat) :
    IsMarkup ("<div class=\"footnote-definition\" id=\"" ++ escapeAttribute label ++
      "\"><sup class=\"footnote-definition-label\">" ++ toString number ++ "</sup>").toList [footnoteTag label] := by
  have hown : (footnoteTag label).IsOwn :=
    isOwn_of_attributes (by decide) (List.forall_mem_cons.mpr ⟨by decide, List.forall_mem_singleton.mpr
      (isOwn_of_plain (by decide) (by decide) (isValue_escapeAttribute label))⟩)
  have htext : ("<div class=\"footnote-definition\" id=\"" ++ escapeAttribute label ++
      "\"><sup class=\"footnote-definition-label\">" ++ toString number ++ "</sup>").toList =
      (footnoteTag label).text [] ++ "<sup class=\"footnote-definition-label\">".toList ++ (toString number).toList ++
        "</sup>".toList := by
    simp [footnoteTag, HtmlTag.text, HtmlTag.opening, HtmlAttribute.text, HtmlAttribute.opening]
  rw [htext]
  exact (((IsMarkup.of_mark hown rfl).append_plain
    (.literal "<sup class=\"footnote-definition-label\">" (by decide))).append_plain (isMarkup_number number)).append_plain
    (.literal "</sup>" (by decide))

theorem isMarkup_footnoteReference (label : String) (number : Nat) :
    IsMarkup ("<sup class=\"footnote-reference\"><a href=\"#" ++ escapeAttribute label ++ "\">" ++ toString number ++
      "</a></sup>").toList [] := by
  have hvalue : IsValue ('#' :: (escapeAttribute label).toList) :=
    isValue_append (show IsValue ['#'] by decide) (isValue_escapeAttribute label)
  -- the label is not escaped as an address, but no scheme begins with the mark before it
  have haddress : HtmlAttribute.IsOwn ⟨"href".toList, '#' :: (escapeAttribute label).toList⟩ :=
    isOwn_of_address (by decide) hvalue (not_runsScript_cons (by decide) (by decide))
  have hown : HtmlTag.IsOwn ⟨"a".toList, [⟨"href".toList, '#' :: (escapeAttribute label).toList⟩]⟩ :=
    isOwn_of_attributes (by decide) (List.forall_mem_singleton.mpr haddress)
  have htext : ("<sup class=\"footnote-reference\"><a href=\"#" ++ escapeAttribute label ++ "\">" ++ toString number ++
      "</a></sup>").toList = "<sup class=\"footnote-reference\">".toList ++
        HtmlTag.text ⟨"a".toList, [⟨"href".toList, '#' :: (escapeAttribute label).toList⟩]⟩ [] ++
        (toString number).toList ++ "</a></sup>".toList := by
    simp [HtmlTag.text, HtmlTag.opening, HtmlAttribute.text, HtmlAttribute.opening]
  rw [htext]
  exact (((IsMarkup.literal "<sup class=\"footnote-reference\">" (by decide)).append_plain
    (.of_closedTag hown rfl)).append_plain (isMarkup_number number)).append_plain
    (.literal "</a></sup>" (by decide))

private theorem isMarkup_cell (inTableHead : Bool) (alignment : Option Alignment) :
    IsMarkup ((if inTableHead then "<th" else "<td") ++ (match alignment with
      | some .left => " style=\"text-align: left\""
      | some .center => " style=\"text-align: center\""
      | some .right => " style=\"text-align: right\""
      | _ => "") ++ ">").toList [] := by
  cases inTableHead <;> rcases alignment with _ | _ | _ | _ | _ <;> exact .literal _ (by decide)

def titleAttributes (title : String) : List HtmlAttribute :=
  if title.isEmpty then [] else [⟨"title".toList, (escapeAttribute title).toList⟩]

private theorem toList_titleAttribute (title : String) :
    (Writer.titleAttribute title).toList = (titleAttributes title).flatMap HtmlAttribute.text := by
  rw [Writer.titleAttribute, titleAttributes]
  split
  · rfl
  · simp [HtmlAttribute.text, HtmlAttribute.opening]

private theorem isOwn_of_mem_titleAttributes {title : String} {field : HtmlAttribute}
    (h : field ∈ titleAttributes title) :
    field.IsOwn := by
  rw [titleAttributes] at h
  split at h
  · cases h
  · rw [List.mem_singleton.mp h]
    exact isOwn_of_plain (by decide) (by decide) (isValue_escapeAttribute title)

private theorem isMark_titleAttributes {name : List Char} (fields : List HtmlAttribute) (title : String)
    (hplain : HtmlTag.isMark ⟨name, fields⟩ = false) : HtmlTag.isMark ⟨name, fields ++ titleAttributes title⟩ = false := by
  have htitle : (titleAttributes title).any (fun field => field.name = "id".toList) = false := by
    rw [titleAttributes]
    split <;> rfl
  rw [HtmlTag.isMark, HtmlTag.hasId, Bool.or_eq_false_iff] at hplain ⊢
  rw [List.any_append, htitle, Bool.or_false]
  exact hplain

private theorem isMarkup_link {mail : Bool} {target : String} (title : String) (htarget : ¬ RunsScript target.toList) :
    IsMarkup ("<a href=\"" ++ (if mail then "mailto:" else "") ++ escapeAddress target ++ "\"" ++
      Writer.titleAttribute title ++ ">").toList [] := by
  let address : List Char := (if mail then "mailto:" else "").toList ++ (escapeAddress target).toList
  have hvalue : IsValue address := isValue_append (by cases mail <;> decide) (isValue_escapeAddress target)
  have hsafe : ¬ RunsScript address := by
    cases mail with
    | true => exact not_runsScript_cons (show ¬ Text.isWhiteSpace 'm' by decide) (by decide)
    | false => simpa [address] using not_runsScript_escapeAddress htarget
  have haddress : HtmlAttribute.IsOwn ⟨"href".toList, address⟩ := isOwn_of_address (by decide) hvalue hsafe
  have hown : HtmlTag.IsOwn ⟨"a".toList, ⟨"href".toList, address⟩ :: titleAttributes title⟩ :=
    isOwn_of_attributes (by decide) (List.forall_mem_cons.mpr ⟨haddress, fun _ => isOwn_of_mem_titleAttributes⟩)
  have htext : ("<a href=\"" ++ (if mail then "mailto:" else "") ++ escapeAddress target ++ "\"" ++
      Writer.titleAttribute title ++ ">").toList =
      HtmlTag.text ⟨"a".toList, ⟨"href".toList, address⟩ :: titleAttributes title⟩ [] := by
    simp [address, HtmlTag.text, HtmlTag.opening, HtmlAttribute.text, HtmlAttribute.opening, toList_titleAttribute]
  rw [htext]
  exact .of_closedTag hown (isMark_titleAttributes [⟨"href".toList, address⟩] title rfl)

theorem isMarkup_start {writer : Writer} {tag : Tag} (hharmless : (Event.start tag).IsHarmless)
    (himage : ∀ target title, tag ≠ .image target title) :
    IsMarkup (writer.start tag).2.toList (Event.start tag).marks := by
  cases tag with
  | paragraph => exact isMarkup_putLine (.literal "<p>" (by decide))
  | heading level anchor =>
    have hmarkup := isMarkup_heading level anchor
    refine isMarkup_putLine ?_
    cases anchor with
    | none => simpa [Event.marks, headingTag, HtmlTag.text, HtmlTag.opening] using hmarkup
    | some anchor =>
      simpa [Event.marks, headingTag, HtmlTag.text, HtmlTag.opening, HtmlAttribute.text, HtmlAttribute.opening]
        using hmarkup
  | blockQuote => exact isMarkup_putLine (.literal "<blockquote>\n" (by decide))
  | codeBlock info =>
    cases info with
    | none => exact isMarkup_putLine (.literal "<pre><code>" (by decide))
    | some info =>
      by_cases hempty : (String.ofList (info.toList.takeWhile (· ≠ ' '))).isEmpty
      · rw [Writer.start, if_pos hempty]
        exact isMarkup_putLine (.literal "<pre><code>" (by decide))
      · rw [Writer.start, if_neg hempty]
        exact isMarkup_putLine (isMarkup_code _)
  | htmlBlock => exact .literal "" (by decide)
  | list start =>
    rcases start with _ | _ | _ | start
    · exact isMarkup_putLine (.literal "<ul>\n" (by decide))
    · exact isMarkup_putLine (isMarkup_orderedList 0)
    · exact isMarkup_putLine (.literal "<ol>\n" (by decide))
    · exact isMarkup_putLine (isMarkup_orderedList (start + 2))
  | item => exact isMarkup_putLine (.literal "<li>" (by decide))
  | footnoteDefinition label => exact isMarkup_putLine (isMarkup_footnote label (writer.footnoteNumber label).2)
  | table alignments => exact .literal "<table>" (by decide)
  | tableHead => exact .literal "<thead><tr>" (by decide)
  | tableRow => exact .literal "<tr>" (by decide)
  | tableCell => exact isMarkup_cell writer.inTableHead writer.alignments[writer.column]?
  | emphasis => exact .literal "<em>" (by decide)
  | strong => exact .literal "<strong>" (by decide)
  | strikethrough => exact .literal "<del>" (by decide)
  | link mail target title => exact isMarkup_link title hharmless
  | image target title => exact absurd rfl (himage target title)

theorem isMarkup_stop (writer : Writer) (tag : TagEnd) : IsMarkup (writer.stop tag).2.toList [] := by
  cases tag with
  | paragraph => exact .literal "</p>\n" (by decide)
  | heading level => exact isMarkup_headingEnd level
  | blockQuote => exact .literal "</blockquote>\n" (by decide)
  | codeBlock => exact .literal "</code></pre>\n" (by decide)
  | htmlBlock => exact .literal "" (by decide)
  | list numbered =>
    cases numbered with
    | false => exact .literal "</ul>\n" (by decide)
    | true => exact .literal "</ol>\n" (by decide)
  | item => exact .literal "</li>\n" (by decide)
  | footnoteDefinition => exact .literal "</div>\n" (by decide)
  | table => exact .literal "</tbody></table>\n" (by decide)
  | tableHead => exact .literal "</tr></thead><tbody>\n" (by decide)
  | tableRow => exact .literal "</tr>\n" (by decide)
  | tableCell =>
    have hcell (inTableHead : Bool) : IsMarkup (if inTableHead then "</th>" else "</td>").toList [] := by
      cases inTableHead <;> exact .literal _ (by decide)
    exact hcell writer.inTableHead
  | emphasis => exact .literal "</em>" (by decide)
  | strong => exact .literal "</strong>" (by decide)
  | strikethrough => exact .literal "</del>" (by decide)
  | link => exact .literal "</a>" (by decide)
  | image => exact .literal "" (by decide)

/-! ### Images -/

/-- The text of an image up to its alternative text. -/
def imageOpening (source : List Char) : List Char :=
  HtmlTag.opening ⟨"img".toList, [⟨"src".toList, source⟩]⟩ ++ HtmlAttribute.opening "alt".toList

theorem toList_start_image (writer : Writer) (target title : String) :
    (writer.start (.image target title)).2.toList = imageOpening (escapeAddress target).toList := by
  simp [Writer.start, Writer.put, imageOpening, HtmlTag.opening, HtmlAttribute.text, HtmlAttribute.opening]

/-- An image that is complete is markup. -/
theorem isMarkup_image {source alt : List Char} (title : String) (hsource : IsValue source)
    (hsafe : ¬ RunsScript source) (halt : IsValue alt) :
    IsMarkup (imageOpening source ++ alt ++ ("\"" ++ Writer.titleAttribute title ++ " />").toList) [] := by
  have hown : HtmlTag.IsOwn ⟨"img".toList, ⟨"src".toList, source⟩ :: ⟨"alt".toList, alt⟩ :: titleAttributes title⟩ :=
    isOwn_of_attributes (by decide) (List.forall_mem_cons.mpr ⟨isOwn_of_address (by decide) hsource hsafe,
      List.forall_mem_cons.mpr ⟨isOwn_of_plain (by decide) (by decide) halt, fun _ => isOwn_of_mem_titleAttributes⟩⟩)
  have htext : imageOpening source ++ alt ++ ("\"" ++ Writer.titleAttribute title ++ " />").toList =
      HtmlTag.text ⟨"img".toList, ⟨"src".toList, source⟩ :: ⟨"alt".toList, alt⟩ :: titleAttributes title⟩ [' ', '/'] := by
    simp [imageOpening, HtmlTag.text, HtmlTag.opening, HtmlAttribute.text, HtmlAttribute.opening, toList_titleAttribute]
  rw [htext]
  exact .of_tag hown (isMark_titleAttributes [⟨"src".toList, source⟩, ⟨"alt".toList, alt⟩] title rfl) (by decide)

theorem read_imageOpening {source alt : List Char} (tags : List HtmlTag) (hsource : IsValue source)
    (hsafe : ¬ RunsScript source) (halt : IsValue alt) :
    (TagReader.read ⟨tags, .text⟩ (imageOpening source ++ alt)).tags = tags := by
  have hown : HtmlTag.IsOwn ⟨"img".toList, [⟨"src".toList, source⟩]⟩ :=
    isOwn_of_attributes (by decide) (List.forall_mem_singleton.mpr (isOwn_of_address (by decide) hsource hsafe))
  obtain ⟨place, hopening, hwithin⟩ := TagReader.read_opening tags hown.isReadable
  rw [imageOpening, TagReader.read_append, TagReader.read_append, hopening,
    TagReader.read_attributeOpening hwithin (isAttributeName_of_own (by decide)),
    TagReader.read_value halt.quote_not_mem]

end SchemaDocs.Markdown
