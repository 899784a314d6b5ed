import SchemaDocs.Proofs.Storage.Below
import SchemaDocs.Proofs.Storage.Ways
import Mathlib.Data.List.DropRight

/-!
# Paths behind a directory

A relative path that is put behind the path of a directory keeps its names: its parent is found behind the
directory as well, as long as there is one. What is above its first name is spelled differently, as nothing or a dot
before and as the directory itself behind it.
-/

namespace SchemaDocs.Path

variable {base path parent : String} {names front : List (List Char)} {last : List Char}

/-! ### Names without blanks at the end -/

theorem trimNames_append (names : List (List Char)) (back : List (List Char)) :
    trimNames (names ++ back) = if trimNames back = [] then trimNames names else names ++ trimNames back := by
  rw [trimNames, trimNames, trimNames, List.reverse_append, List.dropWhile_append]
  simp only [List.isEmpty_iff, List.reverse_eq_nil_iff]
  split
  · rfl
  · rw [List.reverse_append, List.reverse_reverse]

theorem isBlank_of_trimNames (h : trimNames names = []) : ∀ name ∈ names, IsBlank name := by
  obtain ⟨blanks, hnames, hblanks⟩ := exists_trimNames names
  rw [h, List.nil_append] at hnames
  exact hnames ▸ hblanks

theorem trimNames_subset (names : List (List Char)) : trimNames names ⊆ names := by
  obtain ⟨blanks, hnames, -⟩ := exists_trimNames names
  intro name hname
  rw [hnames]
  exact List.mem_append_left _ hname

private theorem trimNames_trimNames (names : List (List Char)) : trimNames (trimNames names) = trimNames names := by
  rw [trimNames, trimNames, List.reverse_reverse, List.dropWhile_idempotent]

private theorem trimNames_cons_of_blank {blank : List Char} (hblank : IsBlank blank) (names : List (List Char)) :
    trimNames (blank :: names) = if trimNames names = [] then [] else blank :: trimNames names := by
  have halone : trimNames [blank] = [] := by
    rcases hblank with rfl | rfl <;> rfl
  rw [← List.singleton_append, trimNames_append, halone]
  rfl

/-! ### Parents -/

theorem parent?_eq (front : List (List Char)) (last : List Char)
    (h : trimNames (Text.splitChars '/' (path.toList.drop (lead path.toList).length)) = front ++ [last]) :
    parent? path = some (String.ofList (lead path.toList ++ ['/'].intercalate (trimNames front))) := by
  rw [parent?]
  simp only [h]
  split
  · rename_i hnil
    exact absurd hnil (by simp)
  · rw [List.dropLast_concat]

theorem length_parent_lt (h : parent? path = some parent) : parent.toList.length < path.toList.length := by
  have hparts := lead_append_drop path.toList
  rcases exists_of_parent h with ⟨hdot, rfl⟩ | ⟨kept, more, hmore, hfront, htext⟩
  · rw [← hparts, hdot]
    simp
  · by_cases hkept : kept = []
    · rw [hkept, List.intercalate_nil, List.append_nil] at hfront
      have hlength := congrArg List.length hparts
      rw [List.length_append] at hlength
      rw [hfront, ← hlength]
      refine Nat.lt_add_of_pos_right (List.length_pos_of_ne_nil fun hdrop => ?_)
      -- a path that is nothing but its lead has no parent of its own
      have hempty : trimNames (Text.splitChars '/' []) = [] := rfl
      rw [parent?] at h
      simp only [hdrop, hempty] at h
      split at h
      · rename_i hdot
        rw [← Option.some.inj h, hdot] at hfront
        cases hfront
      · cases h
    · rw [Text.intercalate_append hkept hmore, List.append_assoc, ← List.append_assoc, ← hfront] at htext
      rw [htext]
      simp

/-! ### Behind a directory -/

/-- What a relative path is put behind: the path of a directory, and a slash unless it ends with one. -/
def behind (base : String) : List Char :=
  if base.toList.getLast? = some '/' then base.toList else base.toList ++ ['/']

theorem toList_join (hbase : base ≠ "") (hpath : isAbsolute path = false) :
    (join base path).toList = behind base ++ path.toList := by
  rw [join_of_relative hpath, if_neg hbase, behind]
  split
  · exact String.toList_append
  · rw [String.toList_append, String.toList_append]
    rfl

private theorem exists_behind (base : String) : ∃ front, behind base = front ++ ['/'] := by
  rw [behind]
  split
  · exact List.getLast?_eq_some_iff.mp ‹_›
  · exact ⟨_, rfl⟩

theorem join_of_absolute (h : isAbsolute path = true) (base : String) : join base path = path := by
  rw [join, h]
  rfl

/-- Names that a path has in front of its own when it is put behind a directory. -/
structure IsAbove (base : String) (above : List (List Char)) : Prop where
  lead : ∀ text, lead (behind base ++ text) = lead (behind base)
  names : ∀ text, Text.splitChars '/' ((behind base ++ text).drop (Path.lead (behind base)).length) =
    above ++ Text.splitChars '/' text

private theorem exists_isAbove (base : String) : ∃ above, IsAbove base above := by
  obtain ⟨front, hfront⟩ := exists_behind base
  have hlead (text : List Char) : lead (behind base ++ text) = lead (behind base) := by
    rw [hfront]
    refine lead_append (by simp) (fun hdot => ?_) text
    have hlast := congrArg List.getLast? hdot
    rw [List.getLast?_concat] at hlast
    cases hlast
  by_cases hshort : (lead (behind base)).length ≤ front.length
  · refine ⟨Text.splitChars '/' (front.drop (lead (behind base)).length), hlead, fun text => ?_⟩
    rw [hfront] at hshort ⊢
    rw [List.append_assoc, List.drop_append_of_le_length hshort, List.singleton_append, Text.splitChars_append_separator]
  -- nothing but the root is as short as its lead
  · have hone := length_lead_le (behind base)
    obtain rfl : front = [] := List.eq_nil_of_length_eq_zero (by omega)
    refine ⟨[], hlead, fun text => ?_⟩
    rw [hfront]
    rfl

namespace IsAbove

variable {above : List (List Char)}

theorem behind_append (h : IsAbove base above) (hnames : names ≠ []) (hslashes : ∀ name ∈ names, '/' ∉ name) :
    behind base ++ ['/'].intercalate names = Path.lead (behind base) ++ ['/'].intercalate (above ++ names) := by
  have hwhole := lead_append_drop (behind base ++ ['/'].intercalate names)
  have hparts := Text.intercalate_splitChars '/' ((behind base ++ ['/'].intercalate names).drop (Path.lead (behind base)).length)
  rw [h.names, Text.splitChars_intercalate hnames hslashes] at hparts
  rw [hparts, ← h.lead (['/'].intercalate names), hwhole]

private theorem parent?_join (h : IsAbove base above) (hbase : base ≠ "") (hpath : isAbsolute path = false)
    (hlast : trimNames (Text.splitChars '/' path.toList) = front ++ [last]) :
    parent? (join base path) =
      some (String.ofList (Path.lead (behind base) ++ ['/'].intercalate (trimNames (above ++ front)))) := by
  have htext := toList_join hbase hpath
  have hlead := h.lead path.toList
  rw [← htext] at hlead
  rw [parent?_eq (above ++ front) last, hlead]
  rw [hlead, htext, h.names, trimNames_append, if_neg (by rw [hlast]; simp), hlast, List.append_assoc]

end IsAbove

theorem directory_join_eq {name other : String} (hbase : base ≠ "") (hname : IsSegment name)
    (hother : IsSegment other) :
    directory (join base name) = directory (join base other) := by
  obtain ⟨above, habove⟩ := exists_isAbove base
  have htrimmed {name : String} (hname : IsSegment name) : trimNames (Text.splitChars '/' name.toList) = [] ++ [name.toList] := by
    rw [Text.splitChars_of_not_mem hname.slash_not_mem]
    exact trimNames_concat hname []
  rw [directory, directory, habove.parent?_join hbase hname.isAbsolute (htrimmed hname),
    habove.parent?_join hbase hother.isAbsolute (htrimmed hother)]

private theorem names_of_relative (hpath : isAbsolute path = false) :
    lead path.toList = [] ∨ lead path.toList = ['.'] ∧ ∃ names, Text.splitChars '/' path.toList = ['.'] :: names ∧
      Text.splitChars '/' (path.toList.drop 1) = [] :: names := by
  rcases lead_cases path.toList with ⟨-, rest, hrest⟩ | ⟨hlead, hdot | ⟨rest, hrest⟩⟩ | hlead
  · simp [isAbsolute, hrest] at hpath
  · exact .inr ⟨hlead, [], by rw [hdot]; rfl, by rw [hdot]; rfl⟩
  · refine .inr ⟨hlead, Text.splitChars '/' rest, ?_, ?_⟩
    · rw [hrest]
      exact Text.splitChars_append_separator '/' ['.'] rest
    · rw [hrest]
      exact Text.splitChars_cons_self '/' rest
  · exact .inl hlead

private theorem parent?_of_relative (hpath : isAbsolute path = false)
    (h : trimNames (Text.splitChars '/' path.toList) = front ++ [last]) :
    trimNames front = [] ∧ (parent? path = some "" ∨ parent? path = some ".") ∨
      trimNames front ≠ [] ∧ parent? path = some (String.ofList (['/'].intercalate (trimNames front))) := by
  rcases names_of_relative hpath with hlead | ⟨hlead, names, hnames, hbehind⟩
  · have hparent : parent? path = some (String.ofList (['/'].intercalate (trimNames front))) := by
      rw [parent?_eq front last, hlead, List.nil_append]
      rw [hlead]
      exact h
    by_cases hfront : trimNames front = []
    · exact .inl ⟨hfront, .inl (by rw [hparent, hfront]; rfl)⟩
    · exact .inr ⟨hfront, hparent⟩
  -- the dot in front is a name of its own behind a directory, and the lead before
  · rw [hnames, trimNames_cons_of_blank (.inr rfl)] at h
    split at h
    · exact absurd h (by simp)
    · rename_i hkept
      obtain ⟨others, other, hothers⟩ := (List.eq_nil_or_concat' (trimNames names)).resolve_left hkept
      rw [hothers, ← List.cons_append] at h
      obtain ⟨rfl, hlast⟩ := List.append_inj' h rfl
      have hparent : parent? path = some (String.ofList (['.'] ++ ['/'].intercalate (trimNames ([] :: others)))) := by
        rw [parent?_eq ([] :: others) other, hlead]
        rw [hlead]
        show trimNames (Text.splitChars '/' (path.toList.drop 1)) = _
        rw [hbehind, trimNames_cons_of_blank (.inl rfl), if_neg hkept, hothers, List.cons_append]
      rw [trimNames_cons_of_blank (.inl rfl)] at hparent
      rw [trimNames_cons_of_blank (.inr rfl)]
      split at hparent
      · rename_i hnone
        rw [if_pos hnone]
        exact .inl ⟨rfl, .inr hparent⟩
      · rename_i hsome
        rw [if_neg hsome]
        refine .inr ⟨List.cons_ne_nil _ _, hparent.trans ?_⟩
        rw [List.intercalate_cons_of_ne_nil hsome, List.intercalate_cons_of_ne_nil hsome]
        rfl

theorem isSegment_x : IsSegment "x" := ⟨by decide, by decide, by decide, by decide⟩

/-- A relative path that is not only blank has its parent behind a directory where it has one. Above its first name
is nothing, or a dot, and behind the directory what every name has that is joined to it. -/
theorem parent?_behind (hbase : base ≠ "") (hpath : isAbsolute path = false)
    (hnames : trimNames (Text.splitChars '/' path.toList) ≠ []) :
    ((parent? path = some "" ∨ parent? path = some ".") ∧
        parent? (join base path) = some (directory (join base "x"))) ∨
      ∃ parent, parent? path = some parent ∧ parent ≠ "" ∧ parent? (join base path) = some (join base parent) := by
  obtain ⟨front, last, hlast⟩ := (List.eq_nil_or_concat' _).resolve_left hnames
  obtain ⟨above, habove⟩ := exists_isAbove base
  rw [habove.parent?_join hbase hpath hlast]
  rcases parent?_of_relative hpath hlast with ⟨hfront, hparent⟩ | ⟨hfront, hparent⟩
  · refine .inl ⟨hparent, ?_⟩
    have hname : trimNames (Text.splitChars '/' ("x" : String).toList) = [] ++ [['x']] := rfl
    rw [directory, habove.parent?_join hbase isSegment_x.isAbsolute hname, Option.getD_some, trimNames_append, if_pos hfront,
      List.append_nil]
  · have hslashes : ∀ part ∈ trimNames front, '/' ∉ part := fun part hpart => by
      have hpiece : part ∈ trimNames (Text.splitChars '/' path.toList) := by
        rw [hlast]
        exact List.mem_append_left _ (trimNames_subset _ hpart)
      exact Text.not_mem_of_mem_splitChars (trimNames_subset _ hpiece)
    have hparts := Text.splitChars_intercalate hfront hslashes
    refine .inr ⟨_, hparent, fun hempty => hfront ?_, ?_⟩
    · -- nothing would be a blank name that has been trimmed
      have hnone := congrArg String.toList hempty
      rw [String.toList_ofList] at hnone
      rw [hnone] at hparts
      rw [← trimNames_trimNames, ← hparts]
      rfl
    · have hrelative : isAbsolute (String.ofList (['/'].intercalate (trimNames front))) = false := by
        rw [(begins_parent hparent).isAbsolute, hpath]
      congr 1
      apply String.toList_injective
      rw [toList_join hbase hrelative, String.toList_ofList, String.toList_ofList, trimNames_append, if_neg hfront,
        habove.behind_append hfront hslashes]

/-- The parent of a path that is not only blank, before and behind a directory: both have none, it is above the first
name, or it is behind the directory as well. -/
theorem parent?_join_cases (hbase : base ≠ "")
    (hpath : isAbsolute path = true ∨ trimNames (Text.splitChars '/' path.toList) ≠ []) :
    (parent? path = none ∧ parent? (join base path) = none) ∨
      (∃ home, (home = "" ∨ home = ".") ∧ parent? path = some home ∧
        parent? (join base path) = some (directory (join base "x"))) ∨
      ∃ parent, parent ≠ "" ∧ parent? path = some parent ∧ parent? (join base path) = some (join base parent) := by
  cases hrelative : isAbsolute path with
  | true =>
    rw [join_of_absolute hrelative]
    cases hparent : parent? path with
    | none => exact .inl ⟨rfl, rfl⟩
    | some parent =>
      have habsolute := (begins_parent hparent).isAbsolute.trans hrelative
      refine .inr (.inr ⟨parent, ?_, rfl, by rw [join_of_absolute habsolute]⟩)
      rintro rfl
      cases habsolute
  | false =>
    have hnames := hpath.resolve_left (by rw [hrelative]; exact Bool.false_ne_true)
    rcases parent?_behind hbase hrelative hnames with ⟨hparent | hparent, houter⟩ | ⟨parent, hparent, hne, houter⟩
    · exact .inr (.inl ⟨"", .inl rfl, hparent, houter⟩)
    · exact .inr (.inl ⟨".", .inr rfl, hparent, houter⟩)
    · exact .inr (.inr ⟨parent, hne, hparent, houter⟩)

/-- A plain path has names that mean something, also behind another one. -/
theorem IsPlain.trimNames_join (h : IsPlain path) (base : String) :
    isAbsolute (join base path) = true ∨ trimNames (Text.splitChars '/' (join base path).toList) ≠ [] := by
  by_cases hbase : isAbsolute (join base path) = true
  · exact .inl hbase
  refine .inr fun hblank => ?_
  have hblanks := isBlank_of_trimNames hblank
  have hnames : ∀ name ∈ Text.splitChars '/' path.toList, IsBlank name := by
    by_cases hempty : base = ""
    · rwa [hempty, join_of_relative (isAbsolute_of_isDownward h.isDownward), if_pos rfl] at hblanks
    · obtain ⟨front, hfront⟩ := exists_behind base
      rw [toList_join hempty (isAbsolute_of_isDownward h.isDownward), hfront, List.append_assoc, List.singleton_append,
        Text.splitChars_append_separator] at hblanks
      exact fun name hname => hblanks name (List.mem_append_right _ hname)
  obtain ⟨name, names, hsplit⟩ := List.exists_cons_of_ne_nil (Text.splitChars_ne_nil '/' path.toList)
  rw [hsplit] at hnames
  have hname : IsSegment (String.ofList name) := h _ (List.mem_map_of_mem (hsplit ▸ List.mem_cons_self))
  rcases hnames name List.mem_cons_self with rfl | rfl
  · exact hname.ne_empty rfl
  · exact hname.ne_dot rfl

/-! ### Joining twice -/

private theorem behind_join (hbase : base ≠ "") (hpath : isAbsolute path = false) :
    behind (join base path) = behind base ++ if path = "" then [] else behind path := by
  rw [behind, toList_join hbase hpath]
  by_cases hempty : path = ""
  · have hslash : (behind base).getLast? = some '/' := by
      rw [behind]
      split
      · assumption
      · exact List.getLast?_concat
    simp [hempty, hslash]
  · have hchars : path.toList ≠ [] := fun hnil => hempty (String.toList_injective hnil)
    have hback : behind path = if path.toList.getLast? = some '/' then path.toList else path.toList ++ ['/'] := rfl
    rw [List.getLast?_append_of_ne_nil _ hchars, if_neg hempty, hback]
    split
    · rfl
    · rw [List.append_assoc]

theorem join_ne_empty (hbase : base ≠ "") (hpath : path ≠ "" ∨ isAbsolute path = false) : join base path ≠ "" := by
  cases hrelative : isAbsolute path with
  | true =>
    rw [join, hrelative]
    exact hpath.resolve_right (by simp [hrelative])
  | false =>
    intro hempty
    have htext := toList_join hbase hrelative
    rw [hempty, behind] at htext
    split at htext
    · rename_i hslash
      rw [(List.append_eq_nil_iff.mp htext.symm).1] at hslash
      cases hslash
    · simp at htext

/-- A relative path is joined behind a directory as it is joined before. -/
theorem join_join_of_relative (hbase : base ≠ "") {rest : String} (hrest : isAbsolute rest = false) (path : String) :
    join (join base path) rest = join base (join path rest) := by
  cases hpath : isAbsolute path with
  | true =>
    have hjoined : isAbsolute (join path rest) = true := by rw [isAbsolute_join hrest, hpath]
    rw [join_of_absolute hpath, join_of_absolute hjoined]
  | false =>
    have hjoined : isAbsolute (join path rest) = false := by rw [isAbsolute_join hrest, hpath]
    apply String.toList_injective
    rw [toList_join (join_ne_empty hbase (.inr hpath)) hrest, behind_join hbase hpath, toList_join hbase hjoined,
      List.append_assoc]
    split
    · rename_i hempty
      rw [hempty, join_of_relative hrest, if_pos rfl, List.nil_append]
    · rename_i hne
      rw [toList_join hne hrest]

/-! ### Sizes -/

theorem size_le_of_append {rest : List Char} (h : path.toList = parent.toList ++ rest) :
    parent.utf8ByteSize ≤ path.utf8ByteSize := by
  have hparts : path = parent ++ String.ofList rest := by
    apply String.toList_injective
    rw [String.toList_append, String.toList_ofList, h]
  rw [hparts, String.utf8ByteSize_append]
  exact Nat.le_add_right _ _

theorem size_le_join (base path : String) : path.utf8ByteSize ≤ (join base path).utf8ByteSize := by
  rw [join]
  split
  · exact Nat.le_refl _
  · split <;> simp only [String.utf8ByteSize_append] <;> omega

theorem size_join_x_le (base : String) : (join base "x").utf8ByteSize ≤ base.utf8ByteSize + 2 := by
  have hone : ("x" : String).utf8ByteSize = 1 := rfl
  have hslash : ("/" : String).utf8ByteSize = 1 := rfl
  rw [join_of_relative rfl]
  split
  · omega
  · split <;> simp only [String.utf8ByteSize_append] <;> omega

theorem size_parent_le (h : parent? path = some parent) : parent.utf8ByteSize ≤ path.utf8ByteSize := by
  rcases exists_of_parent h with ⟨-, rfl⟩ | ⟨kept, more, hmore, hfront, htext⟩
  · exact Nat.zero_le _
  · by_cases hkept : kept = []
    · rw [hkept, List.intercalate_nil, List.append_nil] at hfront
      exact size_le_of_append (by rw [hfront]; exact (lead_append_drop path.toList).symm)
    · rw [Text.intercalate_append hkept hmore, List.append_assoc, ← List.append_assoc, ← hfront] at htext
      exact size_le_of_append htext

/-! ### Slashes at the end -/

def bare (path : String) : String := if withoutTrailingSlashes path = "" then path else withoutTrailingSlashes path

private theorem exists_bare (path : String) :
    ∃ count, path.toList = (bare path).toList ++ List.replicate count '/' := by
  rw [bare]
  split
  · exact ⟨0, (List.append_nil _).symm⟩
  · exact exists_slashes path

theorem bare_ne_empty (hpath : path ≠ "") : bare path ≠ "" := by
  rw [bare]
  split <;> assumption

theorem size_bare_le (path : String) : (bare path).utf8ByteSize ≤ path.utf8ByteSize := by
  obtain ⟨count, htext⟩ := exists_bare path
  exact size_le_of_append htext

private theorem isAbsolute_bare (path : String) : isAbsolute (bare path) = isAbsolute path := by
  by_cases hpath : path = ""
  · rw [hpath]
    rfl
  · obtain ⟨count, htext⟩ := exists_bare path
    obtain ⟨c, rest, hrest⟩ := List.exists_cons_of_ne_nil fun hnil => bare_ne_empty hpath (String.toList_injective hnil)
    simp [isAbsolute, htext, hrest]

private theorem withoutTrailingSlashes_ne_empty (hpath : path ≠ "") (hrelative : isAbsolute path = false) :
    withoutTrailingSlashes path ≠ "" := by
  intro hempty
  obtain ⟨count, htext⟩ := exists_slashes path
  rw [hempty] at htext
  cases count with
  | zero => exact hpath (String.toList_injective htext)
  | succ count => simp [isAbsolute, htext, List.replicate_succ] at hrelative

theorem bare_join (hbase : base ≠ "") (hpath : path ≠ "") : bare (join base path) = join base (bare path) := by
  cases hrelative : isAbsolute path with
  | true => rw [join_of_absolute hrelative, join_of_absolute (by rw [isAbsolute_bare, hrelative])]
  | false =>
    have hkept := withoutTrailingSlashes_ne_empty hpath hrelative
    have hbare : bare path = withoutTrailingSlashes path := if_neg hkept
    have hshort : isAbsolute (withoutTrailingSlashes path) = false := by rw [← hbare, isAbsolute_bare, hrelative]
    have hjoined : withoutTrailingSlashes (join base path) = join base (withoutTrailingSlashes path) := by
      have hne : path.toList.reverse.dropWhile (· = '/') ≠ [] := fun hnil => hkept (by rw [withoutTrailingSlashes, hnil]; rfl)
      apply String.toList_injective
      rw [toList_join hbase hshort, withoutTrailingSlashes, withoutTrailingSlashes, toList_join hbase hrelative,
        List.reverse_append, List.dropWhile_append, if_neg (by simpa using hne), String.toList_ofList, String.toList_ofList,
        List.reverse_append, List.reverse_reverse]
    rw [bare, hjoined, if_neg (join_ne_empty hbase (.inl hkept)), hbare]

end SchemaDocs.Path
