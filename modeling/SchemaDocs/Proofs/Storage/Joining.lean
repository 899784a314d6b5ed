import SchemaDocs.Proofs.Storage.Places

/-!
# Joined paths

A relative path that is joined to another one leads on from where that one leads, whatever that one ends
with. Names that are joined one by one are followed one by one from where the path leads, and the last of
them can be taken off again.
-/

namespace SchemaDocs

/-! ### Relative paths -/

namespace Path

variable {path : String}

theorem join_of_relative (h : isAbsolute path = false) (base : String) :
    join base path =
      if base = "" then path else if base.toList.getLast? = some '/' then base ++ path else base ++ "/" ++ path := by
  rw [join, h]
  by_cases hbase : base = "" <;> simp [hbase]

theorem isAbsolute_join (h : isAbsolute path = false) (base : String) :
    isAbsolute (join base path) = isAbsolute base := by
  rw [join_of_relative h]
  split
  · rename_i hbase
    rw [hbase, h]
    rfl
  · rename_i hbase
    have hne : base.toList ≠ [] := fun hnil => hbase (String.toList_injective hnil)
    obtain ⟨c, rest, hrest⟩ := List.exists_cons_of_ne_nil hne
    split <;> simp [isAbsolute, String.toList_append, hrest]

private theorem pieces_join (h : isAbsolute path = false) (base : String) :
    ∃ front, Text.pieces '/' (join base path) = front ++ Text.pieces '/' path ∧
      (Text.pieces '/' base = front ∨ Text.pieces '/' base = front ++ [""]) := by
  have hslash : ("/" : String).toList = ['/'] := rfl
  rw [join_of_relative h]
  split
  · rename_i hbase
    rw [hbase]
    exact ⟨[], rfl, .inr rfl⟩
  · split
    · rename_i hlast
      obtain ⟨front, hfront⟩ := List.getLast?_eq_some_iff.mp hlast
      have hbase : base = String.ofList front ++ "/" ++ "" := by
        apply String.toList_injective
        simp [String.toList_append, hfront]
      have hjoined : base ++ path = String.ofList front ++ "/" ++ path := by
        rw [hbase, String.append_empty]
      rw [hjoined, Text.pieces_append_separator hslash]
      refine ⟨_, rfl, .inr ?_⟩
      rw [hbase, Text.pieces_append_separator hslash]
      rfl
    · rw [Text.pieces_append_separator hslash]
      exact ⟨_, rfl, .inl rfl⟩

end Path

namespace FileSystem

variable {path : String}

theorem follow_append (root : Tree) (place names more : List String) :
    follow root place (names ++ more) = follow root place names >>= fun middle => follow root middle more := by
  induction names generalizing place with
  | nil => rfl
  | cons name names ih =>
    rw [List.cons_append, follow, follow]
    split
    · rfl
    · rfl
    · split
      · exact ih place
      · split
        · exact ih _
        · split
          · rfl
          · exact ih _

/-- A path that is joined to another one leads on from where that one leads. -/
theorem walk_join (h : Path.isAbsolute path = false) (place : List String) (base : String) :
    walk place (Text.pieces '/' (Path.join base path)) = walk (walk place (Text.pieces '/' base)) (Text.pieces '/' path) := by
  obtain ⟨front, hjoin, hbase⟩ := Path.pieces_join h base
  rw [hjoin, walk_append]
  rcases hbase with hbase | hbase
  · rw [hbase]
  · rw [hbase, walk_append]
    rfl

theorem follow_join (h : Path.isAbsolute path = false) (root : Tree) (place : List String) (base : String) :
    follow root place (Text.pieces '/' (Path.join base path)) =
      follow root place (Text.pieces '/' base) >>= fun middle => follow root middle (Text.pieces '/' path) := by
  obtain ⟨front, hjoin, hbase⟩ := Path.pieces_join h base
  rw [hjoin, follow_append]
  rcases hbase with hbase | hbase
  · rw [hbase]
  · rw [hbase, follow_append]
    cases follow root place front with
    | error error => rfl
    | ok middle =>
      -- an empty name asks for a directory, as the first of the joined names does
      obtain ⟨name, names, hpieces⟩ := List.exists_cons_of_ne_nil (Text.pieces_ne_nil '/' path)
      rw [hpieces]
      show follow root middle (name :: names) = follow root middle [""] >>= fun middle => follow root middle (name :: names)
      cases hmiddle : root.get? middle with
      | none => simp only [follow, hmiddle]; rfl
      | some tree =>
        cases tree with
        | file content => simp only [follow, hmiddle]; rfl
        | directory entries =>
          have hempty : follow root middle [""] = .ok middle := by simp [follow, hmiddle]
          rw [hempty]
          rfl

end FileSystem

/-! ### Names that lead one step down -/

variable {name : String}

/-- A name that leads one step down. -/
structure IsSegment (name : String) : Prop where
  ne_empty : name ≠ ""
  ne_dot : name ≠ "."
  ne_dots : name ≠ ".."
  slash_not_mem : '/' ∉ name.toList

namespace IsSegment

theorem enter (h : IsSegment name) (place : List String) : FileSystem.enter place name = place ++ [name] := by
  simp [FileSystem.enter, h.ne_empty, h.ne_dot, h.ne_dots]

theorem isAbsolute (h : IsSegment name) : Path.isAbsolute name = false := by
  rw [Path.isAbsolute, decide_eq_false_iff_not]
  intro hhead
  exact h.slash_not_mem (List.mem_of_mem_head? hhead)

theorem join (h : IsSegment name) (base : String) :
    Path.join base name =
      if base = "" then name else if base.toList.getLast? = some '/' then base ++ name else base ++ "/" ++ name :=
  Path.join_of_relative h.isAbsolute base

theorem isAbsolute_join (h : IsSegment name) (base : String) :
    Path.isAbsolute (Path.join base name) = Path.isAbsolute base :=
  Path.isAbsolute_join h.isAbsolute base

private theorem pieces (h : IsSegment name) : Text.pieces '/' name = [name] := Text.pieces_of_not_mem h.slash_not_mem

theorem pieces_join (h : IsSegment name) (base : String) :
    ∃ front, Text.pieces '/' (Path.join base name) = front ++ [name] ∧
      (Text.pieces '/' base = front ∨ Text.pieces '/' base = front ++ [""]) := by
  have hjoin := Path.pieces_join h.isAbsolute base
  rwa [h.pieces] at hjoin

/-- A name that is joined to a path leads one step down, also where the path ends with a slash. -/
theorem walk_join (h : IsSegment name) (place : List String) (base : String) :
    FileSystem.walk place (Text.pieces '/' (Path.join base name)) =
      FileSystem.walk place (Text.pieces '/' base) ++ [name] := by
  rw [FileSystem.walk_join h.isAbsolute, h.pieces]
  exact h.enter _

private theorem toList_join (h : IsSegment name) (base : String) :
    ∃ front, (Path.join base name).toList = front ++ name.toList ∧ (front = [] ∨ ∃ rest, front = rest ++ ['/']) := by
  rw [h.join]
  split
  · exact ⟨[], rfl, .inl rfl⟩
  · split
    · rename_i hlast
      obtain ⟨rest, hrest⟩ := List.getLast?_eq_some_iff.mp hlast
      exact ⟨base.toList, String.toList_append, .inr ⟨rest, hrest⟩⟩
    · refine ⟨base.toList ++ ['/'], ?_, .inr ⟨_, rfl⟩⟩
      rw [String.toList_append, String.toList_append]
      rfl

theorem toList_ne_nil (h : IsSegment name) : name.toList ≠ [] := fun hnil => h.ne_empty (String.toList_injective hnil)

theorem getLast?_join (h : IsSegment name) (base : String) : (Path.join base name).toList.getLast? ≠ some '/' := by
  obtain ⟨front, hjoin, -⟩ := h.toList_join base
  obtain ⟨rest, last, hname⟩ := (List.eq_nil_or_concat name.toList).resolve_left h.toList_ne_nil
  intro hlast
  rw [hjoin, hname, List.concat_eq_append, ← List.append_assoc, List.getLast?_concat] at hlast
  refine h.slash_not_mem ?_
  rw [hname, Option.some.inj hlast, List.concat_eq_append]
  exact List.mem_append_right _ List.mem_cons_self

theorem join_ne_empty (h : IsSegment name) (base : String) : Path.join base name ≠ "" := by
  obtain ⟨front, hjoin, -⟩ := h.toList_join base
  intro hempty
  rw [hempty] at hjoin
  exact h.toList_ne_nil (List.append_eq_nil_iff.mp hjoin.symm).2

end IsSegment

namespace Path

theorem exists_foldl_join {names : List String} (hnames : ∀ name ∈ names, IsSegment name) (base : String) :
    ∃ rest, names.foldl join base = base ++ rest := by
  induction names generalizing base with
  | nil => exact ⟨"", String.append_empty.symm⟩
  | cons name names ih =>
    obtain ⟨hname, hnames⟩ := List.forall_mem_cons.mp hnames
    obtain ⟨rest, hrest⟩ := ih hnames (join base name)
    rw [List.foldl_cons, hrest, hname.join]
    split
    · rename_i hbase
      exact ⟨name ++ rest, by rw [hbase, String.empty_append]⟩
    · split
      · exact ⟨name ++ rest, String.append_assoc⟩
      · exact ⟨"/" ++ name ++ rest, by simp only [String.append_assoc]⟩

theorem length_le_foldl_join {names : List String} (hnames : ∀ name ∈ names, IsSegment name) (base : String) :
    base.length + names.length ≤ (names.foldl join base).length := by
  induction names generalizing base with
  | nil => exact Nat.le_refl _
  | cons name names ih =>
    obtain ⟨hname, hnames⟩ := List.forall_mem_cons.mp hnames
    have hlength : base.length + 1 ≤ (join base name).length := by
      have hpositive : name.length ≠ 0 := fun hzero => hname.ne_empty (String.length_eq_zero_iff.mp hzero)
      rw [hname.join]
      split
      · rename_i hbase
        rw [hbase, String.length_empty]
        omega
      · split
        · rw [String.length_append]
          omega
        · rw [String.length_append, String.length_append]
          omega
    have hrest := ih hnames (join base name)
    rw [List.foldl_cons, List.length_cons]
    omega

theorem withoutTrailingSlashes_join (h : IsSegment name) (base : String) :
    withoutTrailingSlashes (join base name) = join base name := by
  have hlast := h.getLast?_join base
  rw [← List.head?_reverse] at hlast
  have hkept : (join base name).toList.reverse.dropWhile (· = '/') = (join base name).toList.reverse := by
    cases htext : (join base name).toList.reverse with
    | nil => rfl
    | cons c rest =>
      rw [htext, List.head?_cons] at hlast
      have hc : c ≠ '/' := fun hc => hlast (congrArg some hc)
      rw [List.dropWhile_cons_of_neg (by simpa using hc)]
  rw [withoutTrailingSlashes, hkept, List.reverse_reverse, String.ofList_toList]

theorem lead_append {text : List Char} (hne : text ≠ []) (hdot : text ≠ ['.']) (rest : List Char) :
    lead (text ++ rest) = lead text := by
  match text with
  | [] => contradiction
  | [c] =>
    by_cases hslash : c = '/'
    · rw [hslash]
      rfl
    · have hc : c ≠ '.' := fun hc => hdot (by rw [hc])
      simp [lead, hslash, hc]
  | c :: d :: text =>
    by_cases hslash : c = '/'
    · rw [hslash]
      rfl
    · by_cases hc : c = '.'
      · by_cases hd : d = '/' <;> simp [lead, hc, hd]
      · simp [lead, hslash, hc]

theorem length_lead_le (text : List Char) : (lead text).length ≤ 1 := by
  unfold lead
  split <;> decide

theorem lead_append_drop (text : List Char) : lead text ++ text.drop (lead text).length = text := by
  unfold lead
  split <;> rfl

theorem lead_eq_nil (h : IsSegment name) : lead name.toList = [] := by
  unfold lead
  split
  · rename_i rest hname
    exact absurd (hname ▸ List.mem_cons_self) h.slash_not_mem
  · rename_i hname
    exact absurd (String.toList_injective hname) h.ne_dot
  · rename_i rest hname
    exact absurd (hname ▸ List.mem_cons_of_mem _ List.mem_cons_self) h.slash_not_mem
  · rfl

theorem trimNames_concat (h : IsSegment name) (names : List (List Char)) :
    trimNames (names ++ [name.toList]) = names ++ [name.toList] := by
  have hdot : name.toList ≠ ['.'] := fun hdot => h.ne_dot (String.toList_injective hdot)
  simp [trimNames, h.toList_ne_nil, hdot]

section

variable {last : String}

private theorem exists_front (hname : IsSegment name) (base : String) :
    ∃ front, (join base name).toList = front ++ name.toList ∧ (front = [] ∨ ∃ rest, front = rest ++ ['/']) ∧
      (lead (join base name).toList).length ≤ front.length := by
  obtain ⟨front, htext, hfront⟩ := hname.toList_join base
  refine ⟨front, htext, hfront, ?_⟩
  rcases hfront with rfl | ⟨rest, rfl⟩
  · exact Nat.le_of_eq (by rw [htext, List.nil_append, lead_eq_nil hname])
  · exact Nat.le_trans (length_lead_le _) (by simp)

private theorem toList_join_join (hname : IsSegment name) (hlast : IsSegment last) (base : String) :
    (join (join base name) last).toList = (join base name).toList ++ '/' :: last.toList := by
  rw [hlast.join, if_neg (hname.join_ne_empty base), if_neg (hname.getLast?_join base), String.toList_append,
    String.toList_append, List.append_assoc]
  rfl

private theorem lead_join (hname : IsSegment name) (hlast : IsSegment last) (base : String) :
    lead (join (join base name) last).toList = lead (join base name).toList := by
  obtain ⟨front, htext, hfront, -⟩ := exists_front hname base
  rw [toList_join_join hname hlast]
  refine lead_append (fun hnil => hname.join_ne_empty base (String.toList_injective hnil)) ?_ _
  rw [htext]
  rcases hfront with rfl | ⟨rest, rfl⟩
  · exact fun hdot => hname.ne_dot (String.toList_injective hdot)
  · intro hdot
    have hslash : '/' ∈ ['.'] := hdot ▸ List.mem_append_left _ (List.mem_append_right _ List.mem_cons_self)
    exact absurd hslash (by decide)

/-- A name that is joined to a path is the last one behind its lead. -/
theorem exists_names_join (hname : IsSegment name) (base : String) :
    ∃ names, Text.splitChars '/' ((join base name).toList.drop (lead (join base name).toList).length) =
      names ++ [name.toList] := by
  obtain ⟨front, htext, hfront, hlength⟩ := exists_front hname base
  have hname := Text.splitChars_of_not_mem hname.slash_not_mem
  rw [htext, List.drop_append_of_le_length (htext ▸ hlength)]
  rcases hfront with rfl | ⟨rest, rfl⟩
  · exact ⟨[], by rw [List.drop_nil, List.nil_append, hname, List.nil_append]⟩
  · generalize (lead (rest ++ ['/'] ++ name.toList)).length = count
    by_cases hcount : count ≤ rest.length
    · rw [List.drop_append_of_le_length hcount, List.append_assoc, List.singleton_append,
        Text.splitChars_append_separator, hname]
      exact ⟨_, rfl⟩
    · rw [List.drop_eq_nil_of_le (by simp; omega), List.nil_append, hname]
      exact ⟨[], rfl⟩

private theorem drop_lead_join (hname : IsSegment name) (hlast : IsSegment last) (base : String) :
    (join (join base name) last).toList.drop (lead (join (join base name) last).toList).length =
      (join base name).toList.drop (lead (join base name).toList).length ++ '/' :: last.toList := by
  obtain ⟨front, htext, -, hlength⟩ := exists_front hname base
  rw [lead_join hname hlast, toList_join_join hname hlast, List.drop_append_of_le_length]
  rw [htext, List.length_append]
  exact Nat.le_add_right_of_le (htext ▸ hlength)

/-- A name that is joined behind another one is taken off again. -/
theorem parent?_join (hname : IsSegment name) (hlast : IsSegment last) (base : String) :
    parent? (join (join base name) last) = some (join base name) := by
  obtain ⟨names, hnames⟩ := exists_names_join hname base
  have hlead := lead_join hname hlast base
  -- the lead stays, and of the names behind it the last one is dropped
  have hparts : trimNames (Text.splitChars '/'
      ((join (join base name) last).toList.drop (lead (join (join base name) last).toList).length)) =
      names ++ [name.toList] ++ [last.toList] := by
    rw [drop_lead_join hname hlast, Text.splitChars_append_separator, Text.splitChars_of_not_mem hlast.slash_not_mem,
      hnames, trimNames_concat hlast]
  have hback : lead (join base name).toList ++ List.intercalate ['/'] (names ++ [name.toList]) = (join base name).toList := by
    rw [← hnames, Text.intercalate_splitChars, lead_append_drop]
  rw [parent?]
  simp only [hparts]
  split
  · rename_i hnil
    exact absurd hnil (List.append_ne_nil_of_right_ne_nil _ (List.cons_ne_nil _ _))
  · rw [List.dropLast_concat, trimNames_concat hname, hlead, hback, String.ofList_toList]

end

end Path

namespace FileSystem

variable {names : List String}

/-- Names that are joined to a path are followed from where the path leads. -/
theorem follow_foldl_join (hnames : ∀ name ∈ names, IsSegment name) (root : Tree) (place : List String)
    (base : String) :
    follow root place (Text.pieces '/' (names.foldl Path.join base)) =
      follow root place (Text.pieces '/' base) >>= fun middle => follow root middle names := by
  induction names generalizing base with
  | nil =>
    rw [List.foldl_nil]
    cases follow root place (Text.pieces '/' base) <;> rfl
  | cons name names ih =>
    obtain ⟨hname, hnames⟩ := List.forall_mem_cons.mp hnames
    rw [List.foldl_cons, ih hnames, follow_join hname.isAbsolute, hname.pieces]
    cases follow root place (Text.pieces '/' base) with
    | error error => rfl
    | ok middle => exact (follow_append root middle [name] names).symm

theorem walk_foldl_join (hnames : ∀ name ∈ names, IsSegment name) (start : List String) (base : String) :
    Path.isAbsolute (names.foldl Path.join base) = Path.isAbsolute base ∧
      walk start (Text.pieces '/' (names.foldl Path.join base)) = walk start (Text.pieces '/' base) ++ names := by
  induction names generalizing base with
  | nil => simp
  | cons name names ih =>
    obtain ⟨hname, hnames⟩ := List.forall_mem_cons.mp hnames
    obtain ⟨habsolute, hwalk⟩ := ih hnames (Path.join base name)
    rw [List.foldl_cons, habsolute, hwalk, hname.isAbsolute_join, hname.walk_join]
    simp

end FileSystem

end SchemaDocs
