import SchemaDocs.Proofs.Page.Division
import SchemaDocs.Proofs.Text.Lines

/-!
# Delimiters of front matter

A delimiter is a line that consists of the mark, but for white space behind it. Front matter is found by the mark
alone: the first line that is not blank opens it if the line begins with the mark, behind white space or not, and
the next line that begins with the mark closes it. `DividesAt` divides a source by any two such tests of lines. The
two readings come to the same where the lines that decide are delimiters if they begin with the mark; a rule of
more than three hyphens, or a word behind them, tells them apart.
-/

namespace SchemaDocs

open Text (splitChars trim trimStart trimEnd joinLines textLines)

namespace Division

variable {text block rest source line front first last : List Char} {lines later inner behind : List (List Char)} {c : Char}

/-! ### Marked lines and delimiters -/

/-- A line that consists of the mark, but for white space behind it. -/
def IsDelimiter (line : List Char) : Prop := trimEnd line = mark

instance (line : List Char) : Decidable (IsDelimiter line) := inferInstanceAs (Decidable (_ = _))

private theorem IsDelimiter.marked (h : IsDelimiter line) : mark <+: line := h ▸ Text.trimEnd_prefix line

private theorem trimStart_of_marked (h : mark <+: line) : trimStart line = line := by
  obtain ⟨rest, rfl⟩ := h
  exact List.dropWhile_cons_of_neg (by decide)

private theorem IsDelimiter.opens (h : IsDelimiter line) : mark <+: trimStart line := by
  rw [trimStart_of_marked h.marked]
  exact h.marked

/-- The mark does not reach beyond the end of a line. -/
theorem mark_prefix_joinLines_iff (line : List Char) (later : List (List Char)) :
    mark <+: joinLines (line :: later) ↔ mark <+: line := by
  rw [Text.joinLines_cons]
  refine ⟨fun h => ?_, fun h => h.trans (List.prefix_append _ _)⟩
  cases later with
  | nil => rwa [List.flatMap_nil, List.append_nil] at h
  | cons next later => exact Text.prefix_of_prefix_append_cons (by decide) h

/-! ### Where a text of lines is closed -/

private theorem not_closing_cons (hc : c ≠ '\n') (text : List Char) : ¬ closing <+: c :: text := fun h =>
  hc (List.cons_prefix_cons.mp h).1.symm

theorem IsClosed.append_left (hfront : '\n' ∉ front) (h : IsClosed text block rest) :
    IsClosed (front ++ text) (front ++ block) rest := by
  induction front with
  | nil => exact h
  | cons c front ih =>
    rw [List.mem_cons, not_or] at hfront
    exact (ih hfront.2).cons (not_closing_cons (Ne.symm hfront.1) _)

theorem closing_infix_of_append (hfront : '\n' ∉ front) (h : closing <:+: front ++ text) : closing <:+: text := by
  induction front with
  | nil => exact h
  | cons c front ih =>
    rw [List.mem_cons, not_or] at hfront
    rcases List.infix_cons_iff.mp h with hhere | hbehind
    · exact absurd hhere (not_closing_cons (Ne.symm hfront.1) _)
    · exact ih hfront.2 hbehind

theorem joinLines_cons_cons (first line : List Char) (later : List (List Char)) :
    joinLines (first :: line :: later) = first ++ '\n' :: joinLines (line :: later) := by
  rw [joinLines, List.intercalate_cons_cons, List.append_assoc]
  rfl

private theorem isClosed_lines (hfirst : '\n' ∉ first) (hinner : ∀ line ∈ inner, '\n' ∉ line ∧ ¬ mark <+: line)
    (hlast : mark <+: last) (behind : List (List Char)) :
    IsClosed (joinLines (first :: (inner ++ last :: behind))) (joinLines (first :: inner))
      (joinLines (last.drop 3 :: behind)) := by
  induction inner generalizing first with
  | nil =>
    obtain ⟨rest, rfl⟩ := hlast
    have hclosed := (IsClosed.here (joinLines (rest :: behind))).append_left hfirst
    rw [List.append_nil, Text.joinLines_cons] at hclosed
    rw [List.nil_append, joinLines_cons_cons, Text.joinLines_cons, joinLines, List.intercalate_singleton,
      Text.joinLines_cons]
    exact hclosed
  | cons line inner ih =>
    obtain ⟨⟨hend, hmark⟩, hinner⟩ := List.forall_mem_cons.mp hinner
    have hnot : ¬ closing <+: '\n' :: joinLines (line :: (inner ++ last :: behind)) := fun h =>
      hmark ((mark_prefix_joinLines_iff line _).mp (List.cons_prefix_cons.mp h).2)
    rw [List.cons_append, joinLines_cons_cons, joinLines_cons_cons]
    exact ((ih hend hinner).cons hnot).append_left hfirst

private theorem not_closing_infix_lines (hfirst : '\n' ∉ first)
    (hlater : ∀ line ∈ later, '\n' ∉ line ∧ ¬ mark <+: line) :
    ¬ closing <:+: joinLines (first :: later) := by
  induction later generalizing first with
  | nil =>
    intro h
    rw [joinLines, List.intercalate_singleton, ← List.append_nil first] at h
    exact List.cons_ne_nil _ _ (List.infix_nil.mp (closing_infix_of_append hfirst h))
  | cons line later ih =>
    obtain ⟨⟨hend, hmark⟩, hlater⟩ := List.forall_mem_cons.mp hlater
    rw [joinLines_cons_cons]
    intro h
    rcases List.infix_cons_iff.mp (closing_infix_of_append hfirst h) with hhere | hbehind
    · exact hmark ((mark_prefix_joinLines_iff line later).mp (List.cons_prefix_cons.mp hhere).2)
    · exact ih hend hlater hbehind

/-! ### Dividing at lines -/

/-- How a source divides where one test of lines tells which one opens front matter, and another which one closes
it. What stands behind the three hyphens of these lines belongs to the text beside it. -/
inductive DividesAt (opens closes : List Char → Prop) (source : List Char) : Division → Prop where
  | bare (hopens : ∀ line ∈ (textLines source).head?, ¬ opens line) : DividesAt opens closes source .bare
  | unclosed {first : List Char} {later : List (List Char)} (hlines : textLines source = first :: later)
    (hopens : opens first) (hcloses : ∀ line ∈ later, ¬ closes line) : DividesAt opens closes source .unclosed
  | block {first last : List Char} {inner behind : List (List Char)}
    (hlines : textLines source = first :: (inner ++ last :: behind)) (hopens : opens first)
    (hinner : ∀ line ∈ inner, ¬ closes line) (hcloses : closes last) :
    DividesAt opens closes source
      (.block (trim (joinLines ((trimStart first).drop 3 :: inner))) (trimStart (joinLines (last.drop 3 :: behind))))

/-- A line opens front matter if it begins with the mark behind its indentation. -/
def Opens (line : List Char) : Prop := mark <+: trimStart line

/-- A line closes front matter if it begins with the mark. -/
def Closes (line : List Char) : Prop := mark <+: line

instance (line : List Char) : Decidable (Opens line) := inferInstanceAs (Decidable (_ <+: _))

instance (line : List Char) : Decidable (Closes line) := inferInstanceAs (Decidable (_ <+: _))

private theorem marked_iff_of_textLines (h : textLines source = first :: later) :
    mark <+: trimStart source ↔ Opens first := by
  rw [Text.trimStart_of_textLines h, mark_prefix_joinLines_iff]
  rfl

private theorem drop_of_textLines (h : textLines source = first :: later) (hopens : Opens first) :
    (trimStart source).drop 3 = joinLines ((trimStart first).drop 3 :: later) := by
  rw [Text.trimStart_of_textLines h, Text.joinLines_cons, Text.joinLines_cons, List.drop_append_of_le_length]
  exact hopens.length_le

private theorem lines_cases (later : List (List Char)) :
    (∀ line ∈ later, ¬ Closes line) ∨
      ∃ inner last behind, later = inner ++ last :: behind ∧ Closes last ∧ ∀ line ∈ inner, ¬ Closes line := by
  cases hfind : later.find? (fun line => decide (Closes line)) with
  | none => exact .inl fun line hline => by simpa using List.find?_eq_none.mp hfind line hline
  | some last =>
    obtain ⟨hlast, inner, behind, hlater, hinner⟩ := List.find?_eq_some_iff_append.mp hfind
    exact .inr ⟨inner, last, behind, hlater, by simpa using hlast, fun line hline => by simpa using hinner line hline⟩

/-- Front matter stands between the first line that is not blank and the first marked line behind it. -/
theorem dividesAt_ofSource (source : List Char) : DividesAt Opens Closes source (ofSource source) := by
  have hdivides := divides_ofSource source
  cases hlines : textLines source with
  | nil =>
    have hnone : ¬ mark <+: trimStart source := by
      rw [Text.trimStart_of_textLines_nil hlines]
      exact fun h => List.cons_ne_nil _ _ (List.prefix_nil.mp h)
    have hbare : DividesAt Opens Closes source .bare := .bare (by rw [hlines]; exact nofun)
    generalize ofSource source = division at hdivides ⊢
    cases hdivides with
    | bare _ => exact hbare
    | unclosed hmark _ => exact absurd hmark hnone
    | block hmark _ => exact absurd hmark hnone
  | cons first later =>
    have hends : ∀ line ∈ first :: later, '\n' ∉ line := fun line hline => Text.not_mem_of_mem_textLines (hlines ▸ hline)
    obtain ⟨hfirst, hlater⟩ := List.forall_mem_cons.mp hends
    have hdropped : '\n' ∉ (trimStart first).drop 3 := fun hmem =>
      hfirst ((Text.trimStart_suffix first).subset (List.mem_of_mem_drop hmem))
    have hmarked := marked_iff_of_textLines hlines
    generalize ofSource source = division at hdivides ⊢
    cases hdivides with
    | bare hmark =>
      refine .bare fun line hline hopens => hmark (hmarked.mpr ?_)
      rw [hlines] at hline
      exact Option.some.inj hline ▸ hopens
    | unclosed hmark hclosing =>
      have hopens := hmarked.mp hmark
      rcases lines_cases later with hnone | ⟨inner, last, behind, rfl, hlast, hinner⟩
      · exact .unclosed hlines hopens hnone
      · have hclosed := isClosed_lines hdropped (fun line hline =>
          ⟨hlater line (List.mem_append_left _ hline), hinner line hline⟩) hlast behind
        rw [drop_of_textLines hlines hopens] at hclosing
        exact absurd hclosed.isInfix hclosing
    | block hmark hclosed =>
      have hopens := hmarked.mp hmark
      rw [drop_of_textLines hlines hopens] at hclosed
      rcases lines_cases later with hnone | ⟨inner, last, behind, rfl, hlast, hinner⟩
      · exact absurd hclosed.isInfix (not_closing_infix_lines hdropped fun line hline => ⟨hlater line hline, hnone line hline⟩)
      · have hfound := isClosed_lines hdropped (fun line hline =>
          ⟨hlater line (List.mem_append_left _ hline), hinner line hline⟩) hlast behind
        -- a text is closed at one place only, so that the search stops at this line
        obtain ⟨rfl, rfl⟩ := hclosed.unique hfound
        exact .block hlines hopens hinner hlast

/-! ### Dividing at delimiters -/

/-- The lines of a source that decide are delimiters if they begin with the mark: the first one that is not blank,
and the first marked one behind it. -/
def HasWholeDelimiters (source : List Char) : Prop :=
  ∀ first later, textLines source = first :: later → Opens first →
    IsDelimiter first ∧ ∀ last ∈ later.find? (fun line => decide (Closes line)), IsDelimiter last

private theorem find?_closes (hinner : ∀ line ∈ inner, ¬ Closes line) (hlast : Closes last)
    (behind : List (List Char)) :
    (inner ++ last :: behind).find? (fun line => decide (Closes line)) = some last :=
  List.find?_eq_some_iff_append.mpr ⟨decide_eq_true hlast, inner, behind, rfl, fun line hline => by simpa using hinner line hline⟩

private theorem HasWholeDelimiters.dividesAt (h : HasWholeDelimiters source) :
    DividesAt IsDelimiter IsDelimiter source (ofSource source) := by
  have hdivides := dividesAt_ofSource source
  generalize ofSource source = division at hdivides ⊢
  cases hdivides with
  | bare hopens => exact .bare fun line hline hdelimiter => hopens line hline hdelimiter.opens
  | unclosed hlines hopens hcloses =>
    exact .unclosed hlines (h _ _ hlines hopens).1 fun line hline hdelimiter => hcloses line hline hdelimiter.marked
  | block hlines hopens hinner hcloses =>
    obtain ⟨hfirst, hlast⟩ := h _ _ hlines hopens
    exact .block hlines hfirst (fun line hline hdelimiter => hinner line hline hdelimiter.marked)
      (hlast _ (find?_closes hinner hcloses _))

private theorem length_rest_lt (hlast : Closes last) (first : List Char) (more behind : List (List Char)) :
    (trimStart (joinLines (last.drop 3 :: behind))).length <
      (trimStart (joinLines (first :: (more ++ last :: behind)))).length := by
  obtain ⟨rest, rfl⟩ := hlast
  have hlines : joinLines (first :: (more ++ (mark ++ rest) :: behind)) =
      (first ++ more.flatMap ('\n' :: ·) ++ ['\n']) ++ '-' :: ('-' :: '-' :: joinLines (rest :: behind)) := by
    simp [Text.joinLines_cons, mark]
  have hkept : (trimStart (joinLines (rest :: behind))).length ≤ (joinLines (rest :: behind)).length :=
    (Text.trimStart_suffix _).length_le
  have hmark := (Text.cons_suffix_trimStart (by decide : Text.isWhiteSpace '-' = false)
    (first ++ more.flatMap ('\n' :: ·) ++ ['\n']) ('-' :: '-' :: joinLines (rest :: behind))).length_le
  rw [hlines]
  exact Nat.lt_of_le_of_lt hkept (Nat.lt_of_lt_of_le (by simp only [List.length_cons]; omega) hmark)

private theorem isDelimiter_of_same_rest {first : List Char} {others : List (List Char)}
    (hinner : ∀ line ∈ inner, ¬ Closes line)
    (hfirst : IsDelimiter first) (hlines : inner ++ last :: behind = lines ++ first :: others)
    (hrest : trimStart (joinLines (last.drop 3 :: behind)) = trimStart (joinLines (first.drop 3 :: others))) :
    IsDelimiter last := by
  rcases List.append_eq_append_iff.mp hlines with ⟨more, -, hbehind⟩ | ⟨more, hmore, hbehind⟩
  · cases more with
    | nil => exact (List.cons.inj hbehind).1 ▸ hfirst
    | cons line more =>
      -- the mark of the delimiter would belong to the content
      obtain ⟨rfl, rfl⟩ := List.cons.inj hbehind
      exact absurd (congrArg List.length hrest).symm (Nat.ne_of_lt (length_rest_lt hfirst.marked _ more others))
  · cases more with
    | nil => exact (List.cons.inj hbehind).1 ▸ hfirst
    | cons line more =>
      obtain ⟨rfl, -⟩ := List.cons.inj hbehind
      exact absurd hfirst.marked (hinner _ (hmore ▸ List.mem_append_right lines List.mem_cons_self))

private theorem hasWholeDelimiters_of_dividesAt (h : DividesAt IsDelimiter IsDelimiter source (ofSource source)) :
    HasWholeDelimiters source := by
  intro first later hlines hopens
  have hmarks := dividesAt_ofSource source
  generalize ofSource source = division at h hmarks
  cases hmarks with
  | bare hnone => exact absurd hopens (hnone first (by rw [hlines]; rfl))
  | unclosed hsame _ hnone =>
    obtain ⟨rfl, rfl⟩ := List.cons.inj (hlines.symm.trans hsame)
    cases h with
    | unclosed hother hfirst _ =>
      obtain ⟨rfl, rfl⟩ := List.cons.inj (hlines.symm.trans hother)
      refine ⟨hfirst, fun last hlast => absurd ?_ (hnone last (List.mem_of_find?_eq_some hlast))⟩
      simpa using List.find?_some hlast
  | @block _ last inner behind hsame _ hinner hlast =>
    obtain ⟨rfl, rfl⟩ := List.cons.inj (hlines.symm.trans hsame)
    generalize hdivision : Division.block _ _ = division at h
    cases h with
    | bare => cases hdivision
    | unclosed => cases hdivision
    | block hother hfirst _ hdelimiter =>
      obtain ⟨rfl, hbehind⟩ := List.cons.inj (hlines.symm.trans hother)
      refine ⟨hfirst, fun found hfound => ?_⟩
      rw [find?_closes hinner hlast] at hfound
      exact Option.some.inj hfound ▸
        isDelimiter_of_same_rest hinner hdelimiter hbehind (Division.block.inj hdivision).2

end Division

namespace FrontMatter

open Division

variable {source : String}

theorem extract_eq_bare_iff : extract source = .ok (none, source) ↔ ofSource source.toList = .bare := by
  cases hdivision : ofSource source.toList with
  | bare => exact iff_of_true (extract_of_bare hdivision) rfl
  | unclosed =>
    rw [extract_of_unclosed hdivision]
    exact iff_of_false nofun nofun
  | block yaml rest =>
    rw [extract_of_block hdivision]
    exact iff_of_false ((map_ofBlock_ne yaml _).1 source) nofun

theorem extract_eq_unclosed_iff : extract source = .error .unclosed ↔ ofSource source.toList = .unclosed := by
  cases hdivision : ofSource source.toList with
  | bare =>
    rw [extract_of_bare hdivision]
    exact iff_of_false nofun nofun
  | unclosed => exact iff_of_true (extract_of_unclosed hdivision) rfl
  | block yaml rest =>
    rw [extract_of_block hdivision]
    exact iff_of_false (map_ofBlock_ne yaml _).2 nofun

/-- Front matter is opened by the first line that is not blank if it begins with the mark behind its indentation,
and closed by the first line behind it that begins with the mark. A source divides at delimiters exactly if these
two lines are delimiters. Then it is content alone, and unchanged, exactly if the first line that is not blank is
no delimiter, and it is refused as unclosed only if that line is one and no other is. -/
theorem extract_delimited (source : String) :
    DividesAt Opens Closes source.toList (ofSource source.toList) ∧
      (DividesAt IsDelimiter IsDelimiter source.toList (ofSource source.toList) ↔ HasWholeDelimiters source.toList) ∧
      (HasWholeDelimiters source.toList →
        (extract source = .ok (none, source) ↔ ∀ line ∈ (textLines source.toList).head?, ¬ IsDelimiter line) ∧
        (extract source = .error .unclosed →
          ∃ first later, textLines source.toList = first :: later ∧ IsDelimiter first ∧ ∀ line ∈ later, ¬ IsDelimiter line)) := by
  refine ⟨dividesAt_ofSource _, ⟨hasWholeDelimiters_of_dividesAt, HasWholeDelimiters.dividesAt⟩, fun hwhole => ?_⟩
  have hdivides := hwhole.dividesAt
  rw [extract_eq_bare_iff, extract_eq_unclosed_iff]
  generalize ofSource source.toList = division at hdivides ⊢
  cases hdivides with
  | bare hopens => exact ⟨iff_of_true rfl hopens, nofun⟩
  | unclosed hlines hopens hcloses =>
    exact ⟨iff_of_false nofun fun h => h _ (by rw [hlines]; rfl) hopens, fun _ => ⟨_, _, hlines, hopens, hcloses⟩⟩
  | block hlines hopens _ _ => exact ⟨iff_of_false nofun fun h => h _ (by rw [hlines]; rfl) hopens, nofun⟩

/-- A rule of three hyphens within the content is left alone. -/
theorem extract_delimited_rule :
    HasWholeDelimiters "# A\n\n---\n".toList ∧ extract "# A\n\n---\n" = .ok (none, "# A\n\n---\n") := by
  have hlines : textLines "# A\n\n---\n".toList = ["# A".toList, [], "---".toList, []] := by decide
  have hwhole : HasWholeDelimiters "# A\n\n---\n".toList := fun first later hsame hopens => by
    rw [hlines] at hsame
    exact absurd ((List.cons.inj hsame).1 ▸ hopens) (by decide)
  refine ⟨hwhole, ((extract_delimited "# A\n\n---\n").2.2 hwhole).1.mpr fun line hline => ?_⟩
  rw [hlines] at hline
  exact Option.some.inj hline ▸ by decide

/-- A rule of four hyphens is no delimiter, yet it opens front matter, and closes it. -/
theorem extract_long_rule :
    (textLines "----\ntext\n".toList).head? = some "----".toList ∧ ¬ IsDelimiter "----".toList ∧
      extract "----\ntext\n" = .error .unclosed ∧
      extract "---\ntitle: A\n----\nB\n" = .ok (some { title := some "A" }, "-\nB\n") := by
  refine ⟨by decide, by decide, by decide, by decide +kernel⟩

end FrontMatter

end SchemaDocs
