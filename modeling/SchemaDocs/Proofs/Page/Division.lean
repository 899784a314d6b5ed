import SchemaDocs.Page.FrontMatter
import SchemaDocs.Proofs.Text.Pieces

/-!
# How a source divides

The front matter of a page stands between the mark that the page begins with and the first line behind it that
begins with the mark. `IsClosed` says where that is without the search. What is read is the text between the
two without white space at its ends, and the content is what follows without white space before it. A block
with no marked line of its own is found as it was written, whatever marks come behind it.
-/

namespace SchemaDocs

open Text (splitChars trim trimStart)

namespace Division

variable {text block rest before yaml behind source : List Char} {c : Char}

/-! ### The first marked line -/

/-- The end of a line with the mark behind it. -/
def closing : List Char := '\n' :: mark

/-- A text is closed behind a block: the mark begins a line there, and no line before. -/
structure IsClosed (text block rest : List Char) : Prop where
  text_eq : text = block ++ closing ++ rest
  first : ∀ front back, text = front ++ closing ++ back → block.length ≤ front.length

/-- A text is closed in one place at most. -/
theorem IsClosed.unique {other behind : List Char} (h : IsClosed text block rest)
    (hother : IsClosed text other behind) :
    block = other ∧ rest = behind := by
  have hlength : block.length = other.length :=
    Nat.le_antisymm (h.first _ _ hother.text_eq) (hother.first _ _ h.text_eq)
  have htexts := h.text_eq.symm.trans hother.text_eq
  rw [List.append_assoc, List.append_assoc] at htexts
  obtain ⟨hblock, hbehind⟩ := List.append_inj htexts hlength
  exact ⟨hblock, List.append_cancel_left hbehind⟩

theorem IsClosed.here (rest : List Char) : IsClosed (closing ++ rest) [] rest :=
  ⟨rfl, fun _ _ _ => Nat.zero_le _⟩

/-- A character in front puts the place off, unless it ends a line that the mark follows. -/
theorem IsClosed.cons (h : IsClosed text block rest) (hnot : ¬ closing <+: c :: text) :
    IsClosed (c :: text) (c :: block) rest := by
  refine ⟨congrArg (c :: ·) h.text_eq, fun front back htext => ?_⟩
  cases front with
  | nil => exact absurd ⟨back, htext.symm⟩ hnot
  | cons d front =>
    obtain ⟨-, htext⟩ := List.cons.inj htext
    exact Nat.succ_le_succ (h.first front back htext)

/-! ### The search -/

theorem closes_iff : (c = '\n' && mark.isPrefixOf rest) = true ↔ closing <+: c :: rest := by
  rw [Bool.and_eq_true, decide_eq_true_eq, List.isPrefixOf_iff_prefix, closing, List.cons_prefix_cons, eq_comm]

theorem splitAtMark?_eq_none_iff : splitAtMark? before text = none ↔ ¬ closing <:+: text := by
  induction text generalizing before with
  | nil =>
    rw [splitAtMark?, List.infix_nil]
    exact iff_of_true rfl (List.cons_ne_nil _ _)
  | cons c text ih =>
    rw [splitAtMark?, List.infix_cons_iff, not_or, ← closes_iff]
    split
    · rename_i hcloses
      exact iff_of_false (Option.some_ne_none _) fun hnot => hnot.1 hcloses
    · rename_i hnot
      rw [ih, and_iff_right hnot]

private theorem exists_isClosed_of_splitAtMark? (h : splitAtMark? before text = some (block, rest)) :
    ∃ front, block = before.reverse ++ front ∧ IsClosed text front rest := by
  induction text generalizing before with
  | nil => cases h
  | cons c text ih =>
    rw [splitAtMark?] at h
    split at h
    · rename_i hcloses
      obtain ⟨back, hback⟩ := closes_iff.mp hcloses
      obtain ⟨rfl, rfl⟩ := Prod.mk.inj (Option.some.inj h)
      have hrest : text.drop 3 = back := by
        rw [← (List.cons.inj hback).2]
        rfl
      rw [hrest, ← hback]
      exact ⟨[], (List.append_nil _).symm, .here back⟩
    · rename_i hnot
      obtain ⟨front, hblock, hclosed⟩ := ih h
      refine ⟨c :: front, ?_, hclosed.cons (fun hcloses => hnot (closes_iff.mpr hcloses))⟩
      rw [hblock, List.reverse_cons, List.append_assoc, List.singleton_append]

theorem splitAtMark?_eq_some_iff : splitAtMark? [] text = some (block, rest) ↔ IsClosed text block rest := by
  constructor
  · intro h
    obtain ⟨front, rfl, hclosed⟩ := exists_isClosed_of_splitAtMark? h
    exact hclosed
  · intro h
    cases hfound : splitAtMark? [] text with
    | none => exact absurd ⟨block, rest, h.text_eq.symm⟩ (splitAtMark?_eq_none_iff.mp hfound)
    | some found =>
      obtain ⟨other, behind⟩ := found
      obtain ⟨front, rfl, hclosed⟩ := exists_isClosed_of_splitAtMark? hfound
      obtain ⟨rfl, rfl⟩ := h.unique hclosed
      rfl

/-! ### Lines without the mark -/

/-- No line of a text begins with the mark. -/
def IsUnmarked (text : List Char) : Prop := ∀ line ∈ splitChars '\n' text, ¬ mark <+: line

instance (text : List Char) : Decidable (IsUnmarked text) := List.decidableBAll _ _

private theorem exists_marked_line (h : closing <:+: '\n' :: text) : ∃ line ∈ splitChars '\n' text, mark <+: line := by
  obtain ⟨front, back, htext⟩ := h
  obtain ⟨line, lines, hlines⟩ := List.exists_cons_of_ne_nil (Text.splitChars_ne_nil '\n' back)
  have hmarked : splitChars '\n' (mark ++ back) = (mark ++ line) :: lines :=
    Text.splitChars_cons_of_ne (by decide)
      (Text.splitChars_cons_of_ne (by decide) (Text.splitChars_cons_of_ne (by decide) hlines))
  refine ⟨mark ++ line, ?_, List.prefix_append _ _⟩
  cases front with
  | nil =>
    have hback : text = mark ++ back := (List.cons.inj htext).2.symm
    rw [hback, hmarked]
    exact List.mem_cons_self
  | cons c front =>
    have hback : text = front ++ '\n' :: (mark ++ back) := by
      rw [← (List.cons.inj htext).2]
      exact List.append_assoc front closing back
    rw [hback, Text.splitChars_append_separator, hmarked]
    exact List.mem_append_right _ List.mem_cons_self

private theorem IsUnmarked.isClosed (h : IsUnmarked yaml) (rest : List Char) :
    IsClosed ('\n' :: yaml ++ closing ++ rest) ('\n' :: yaml) rest := by
  refine ⟨rfl, fun front back htext => Nat.le_of_not_lt fun hlt => ?_⟩
  have hnone : ¬ closing <:+: '\n' :: yaml := fun hinfix => by
    obtain ⟨line, hline, hmark⟩ := exists_marked_line hinfix
    exact h line hline hmark
  rw [List.append_assoc, List.append_assoc, List.append_eq_append_iff] at htext
  rcases htext with ⟨more, hfront, -⟩ | ⟨more, hyaml, hmore⟩
  · rw [hfront, List.length_append] at hlt
    omega
  · -- the mark would begin in the block and end in it, or have the end of a line within
    rcases List.prefix_or_prefix_of_prefix ⟨back, hmore⟩ (List.prefix_append more _) with hinside | ⟨tail, htail⟩
    · exact hnone (hyaml ▸ (hinside.isInfix.trans (List.suffix_append front more).isInfix))
    · cases more with
      | nil =>
        rw [hyaml, List.append_nil] at hlt
        exact Nat.lt_irrefl _ hlt
      | cons d more =>
        obtain ⟨hd, hmarks⟩ := List.cons.inj htail
        cases tail with
        | nil =>
          rw [List.append_nil] at htail
          exact hnone (hyaml ▸ htail ▸ (List.suffix_append front (d :: more)).isInfix)
        | cons e tail =>
          rw [← htail, List.append_assoc] at hmore
          have hend : e = '\n' := (List.cons.inj (List.append_cancel_left hmore)).1.trans hd
          have hmem : e ∈ mark := by
            rw [← hmarks]
            exact List.mem_append_right more List.mem_cons_self
          exact absurd (hend ▸ hmem) (by decide)

/-! ### Dividing -/

/-- How a source divides: it is content alone unless the mark comes first, and behind the mark it has to be
closed. -/
inductive Divides (source : List Char) : Division → Prop where
  | bare (hmark : ¬ mark <+: trimStart source) : Divides source .bare
  | unclosed (hmark : mark <+: trimStart source) (hclosing : ¬ closing <:+: (trimStart source).drop 3) :
    Divides source .unclosed
  | block {block rest : List Char} (hmark : mark <+: trimStart source)
    (hclosed : IsClosed ((trimStart source).drop 3) block rest) : Divides source (.block (trim block) (trimStart rest))

theorem divides_ofSource (source : List Char) : Divides source (ofSource source) := by
  rw [ofSource]
  by_cases hmark : mark.isPrefixOf (trimStart source)
  · simp only [if_pos hmark]
    rw [List.isPrefixOf_iff_prefix] at hmark
    cases hfound : splitAtMark? [] ((trimStart source).drop 3) with
    | none => exact .unclosed hmark (splitAtMark?_eq_none_iff.mp hfound)
    | some found =>
      obtain ⟨block, rest⟩ := found
      exact .block hmark (splitAtMark?_eq_some_iff.mp hfound)
  · simp only [if_neg hmark]
    rw [List.isPrefixOf_iff_prefix] at hmark
    exact .bare hmark

theorem ofSource_of_isClosed (hmark : mark <+: trimStart source) (h : IsClosed ((trimStart source).drop 3) block rest) :
    ofSource source = .block (trim block) (trimStart rest) := by
  rw [ofSource]
  simp only [if_pos (List.isPrefixOf_iff_prefix.mpr hmark), splitAtMark?_eq_some_iff.mpr h]

/-- A line end before a text does not count where white space is left out. -/
theorem trimStart_cons_newline (text : List Char) : trimStart ('\n' :: text) = trimStart text :=
  List.dropWhile_cons_of_pos (by decide)

private theorem ofSource_of_isUnmarked (h : IsUnmarked yaml) (body : List Char) :
    ofSource (mark ++ ('\n' :: yaml ++ closing ++ '\n' :: body)) = .block (trim yaml) (trimStart body) := by
  have htext : trimStart (mark ++ ('\n' :: yaml ++ closing ++ '\n' :: body)) =
      mark ++ ('\n' :: yaml ++ closing ++ '\n' :: body) := List.dropWhile_cons_of_neg (by decide)
  have hclosed : IsClosed ((trimStart (mark ++ ('\n' :: yaml ++ closing ++ '\n' :: body))).drop 3) ('\n' :: yaml)
      ('\n' :: body) := by
    rw [htext]
    exact h.isClosed ('\n' :: body)
  rw [ofSource_of_isClosed (htext ▸ List.prefix_append mark _) hclosed, trim, trimStart_cons_newline,
    trimStart_cons_newline]
  rfl

theorem IsClosed.isInfix (h : IsClosed text block rest) : closing <:+: text := ⟨block, rest, h.text_eq.symm⟩

end Division

/-! ### Reading -/

namespace FrontMatter

open Division

/-- What a block declares, or that it cannot be read. A block without text declares nothing. -/
def ofBlock (block : List Char) : Except FrontMatterError FrontMatter :=
  if block = [] then .ok {} else (ofYaml? block).elim (.error .invalidYaml) .ok

private theorem ofBlock_of_ofYaml? {block : List Char} (hne : block ≠ []) :
    ofBlock block = (ofYaml? block).elim (.error .invalidYaml) .ok := if_neg hne

theorem extract_of_block {source : String} {block rest : List Char} (h : ofSource source.toList = .block block rest) :
    extract source = (ofBlock block).map fun front => (some front, String.ofList rest) := by
  rw [extract, h]
  cases block with
  | nil => rfl
  | cons c block =>
    rw [ofBlock_of_ofYaml? (List.cons_ne_nil c block)]
    cases hread : ofYaml? (c :: block) with
    | none =>
      simp only [hread]
      rfl
    | some front =>
      simp only [hread]
      rfl

theorem extract_of_bare {source : String} (h : ofSource source.toList = .bare) :
    extract source = .ok (none, source) := by
  rw [extract, h]

theorem extract_of_unclosed {source : String} (h : ofSource source.toList = .unclosed) :
    extract source = .error .unclosed := by
  rw [extract, h]

/-- What a block gives is always front matter, or the fault that it cannot be read. -/
theorem map_ofBlock_ne (block : List Char) (content : String) :
    (∀ other, (ofBlock block).map (fun front => (some front, content)) ≠ .ok (none, other)) ∧
      (ofBlock block).map (fun front => (some front, content)) ≠ .error .unclosed := by
  rw [ofBlock]
  split
  · exact ⟨fun _ => nofun, nofun⟩
  · cases ofYaml? block <;> exact ⟨fun _ => nofun, nofun⟩

private theorem suffix_of_isClosed {source block rest : List Char}
    (h : IsClosed ((trimStart source).drop 3) block rest) :
    trimStart rest <:+ source := by
  have hrest : rest <:+ (trimStart source).drop 3 := ⟨block ++ closing, h.text_eq.symm⟩
  exact (List.dropWhile_suffix _).trans (hrest.trans ((List.drop_suffix 3 _).trans (List.dropWhile_suffix _)))

private theorem extract_of_isUnmarked {yaml : String} (h : IsUnmarked yaml.toList) (body : String) :
    extract ("---\n" ++ yaml ++ "\n---\n" ++ body) =
      (ofBlock (trim yaml.toList)).map fun front => (some front, String.ofList (trimStart body.toList)) := by
  have hsource : ("---\n" ++ yaml ++ "\n---\n" ++ body).toList =
      mark ++ ('\n' :: yaml.toList ++ closing ++ '\n' :: body.toList) := by
    simp [String.toList_append, mark, closing]
  exact extract_of_block (hsource ▸ ofSource_of_isUnmarked h body.toList)

/-- A source is read as it divides. Without the mark in front it is all content; with the mark and no closing one
it is refused; else the text between them, trimmed, is what is read, and the content is what follows, an end of
the source. So a block without marked lines is read as it stands but for white space at its ends, before any
content. -/
theorem extract_exact :
    (∀ source : String,
      (∀ content, extract source = .ok (none, content) ↔ content = source ∧ ¬ mark <+: trimStart source.toList) ∧
      (extract source = .error .unclosed ↔
        mark <+: trimStart source.toList ∧ ¬ closing <:+: (trimStart source.toList).drop 3) ∧
      (mark <+: trimStart source.toList → closing <:+: (trimStart source.toList).drop 3 →
        ∃ block rest, IsClosed ((trimStart source.toList).drop 3) block rest ∧ trimStart rest <:+ source.toList ∧
          extract source = (ofBlock (trim block)).map fun front => (some front, String.ofList (trimStart rest)))) ∧
    ∀ yaml body : String, IsUnmarked yaml.toList →
      extract ("---\n" ++ yaml ++ "\n---\n" ++ body) =
        (ofBlock (trim yaml.toList)).map fun front => (some front, String.ofList (trimStart body.toList)) := by
  refine ⟨fun source => ?_, fun yaml body hyaml => extract_of_isUnmarked hyaml body⟩
  have hdivides := divides_ofSource source.toList
  generalize hdivision : ofSource source.toList = division at hdivides
  cases hdivides with
  | bare hmark =>
    rw [extract_of_bare hdivision]
    refine ⟨fun content => ?_, iff_of_false nofun fun h => hmark h.1, fun h => absurd h hmark⟩
    rw [Except.ok.injEq, Prod.mk.injEq, and_iff_right rfl, and_iff_left hmark, eq_comm]
  | unclosed hmark hclosing =>
    rw [extract_of_unclosed hdivision]
    refine ⟨fun content => iff_of_false nofun fun h => h.2 hmark, iff_of_true rfl ⟨hmark, hclosing⟩, fun _ h => ?_⟩
    exact absurd h hclosing
  | block hmark hclosed =>
    rw [extract_of_block hdivision]
    obtain ⟨hfront, hfault⟩ := map_ofBlock_ne (trim _) (String.ofList (trimStart _))
    refine ⟨fun content => iff_of_false (hfront content) fun h => h.2 hmark,
      iff_of_false hfault fun h => h.2 hclosed.isInfix, fun _ _ => ?_⟩
    exact ⟨_, _, hclosed, suffix_of_isClosed hclosed, rfl⟩

/-- The content may have marked lines of its own. -/
theorem extract_exact_marked :
    IsUnmarked "title: A".toList ∧
      extract ("---\n" ++ "title: A" ++ "\n---\n" ++ "\n---\nB\n---\n") =
        .ok (some { title := some "A" }, "---\nB\n---\n") := by
  have hunmarked : IsUnmarked "title: A".toList := by decide
  have hread : ofYaml? (trim "title: A".toList) = some { title := some "A" } := by decide +kernel
  refine ⟨hunmarked, (extract_exact.2 _ "\n---\nB\n---\n" hunmarked).trans ?_⟩
  rw [ofBlock_of_ofYaml? (by decide), hread]
  rfl

/-- A block whose lines are all indented can be read, but not without the white space in front of its first line. -/
theorem extract_indented :
    IsUnmarked " title: x\n order: 1".toList ∧
      ofYaml? " title: x\n order: 1".toList = some { title := some "x", order := some 1 } ∧
      extract ("---\n" ++ " title: x\n order: 1" ++ "\n---\n" ++ "B") = .error .invalidYaml := by
  have hunmarked : IsUnmarked " title: x\n order: 1".toList := by decide
  have htrimmed : ofYaml? (trim " title: x\n order: 1".toList) = none := by decide +kernel
  refine ⟨hunmarked, by decide +kernel, (extract_of_isUnmarked hunmarked "B").trans ?_⟩
  rw [ofBlock_of_ofYaml? (by decide), htrimmed]
  rfl

end FrontMatter

end SchemaDocs
