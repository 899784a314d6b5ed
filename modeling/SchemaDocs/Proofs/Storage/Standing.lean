import SchemaDocs.Proofs.Storage.Making

/-!
# Directories that stand

Directories that have been made can be asked for again, and nothing changes; that goes for the path of an
output directory, whatever slashes and dots it ends with, and for the directory that a name joined to this
path lies in, which is spelled differently.
-/

namespace SchemaDocs

/-! ### The directory of a joined name -/

namespace Path

/-- Names that mean nothing on the way. -/
def IsBlank (name : List Char) : Prop := name = [] ∨ name = ['.']

theorem exists_trimNames (names : List (List Char)) :
    ∃ blanks, names = trimNames names ++ blanks ∧ ∀ name ∈ blanks, IsBlank name := by
  refine ⟨(names.reverse.takeWhile fun name => name = [] || name = ['.']).reverse, ?_, fun name hname => ?_⟩
  · rw [trimNames, ← List.reverse_append, List.takeWhile_append_dropWhile, List.reverse_reverse]
  · have hall := List.all_takeWhile (p := fun name => name = [] || name = ['.']) (l := names.reverse)
    rw [List.all_eq_true] at hall
    simpa [IsBlank] using hall name (List.mem_reverse.mp hname)

variable {name base : String}

theorem lead_cases (text : List Char) :
    (lead text = ['/'] ∧ ∃ rest, text = '/' :: rest) ∨
      (lead text = ['.'] ∧ (text = ['.'] ∨ ∃ rest, text = '.' :: '/' :: rest)) ∨ lead text = [] := by
  unfold lead
  split
  · exact .inl ⟨rfl, _, rfl⟩
  · exact .inr (.inl ⟨rfl, .inl rfl⟩)
  · exact .inr (.inl ⟨rfl, .inr ⟨_, rfl⟩⟩)
  · exact .inr (.inr rfl)

private theorem eq_empty_of_join (h : IsSegment name) (hsame : join base name = name) : base = "" := by
  by_contra hbase
  have hpositive : base.length ≠ 0 := fun hzero => hbase (String.length_eq_zero_iff.mp hzero)
  rw [h.join, if_neg hbase] at hsame
  have hlength := congrArg String.length hsame
  split at hlength <;> simp only [String.length_append] at hlength <;> omega

private theorem exists_parts_join (h : IsSegment name) (base : String) :
    ∃ kept blanks : List (List Char), (∀ other ∈ blanks, IsBlank other) ∧
      (join base name).toList = lead (join base name).toList ++ ['/'].intercalate (kept ++ (blanks ++ [name.toList])) ∧
      (directory (join base name)).toList = lead (join base name).toList ++ ['/'].intercalate kept ∧
      Text.splitChars '/' (['/'].intercalate (blanks ++ [name.toList])) = blanks ++ [name.toList] := by
  obtain ⟨names, hnames⟩ := exists_names_join h base
  obtain ⟨blanks, htrim, hblanks⟩ := exists_trimNames names
  refine ⟨trimNames names, blanks, hblanks, ?_, ?_, Text.splitChars_intercalate (by simp) fun part hpart => ?_⟩
  · rw [← List.append_assoc, ← htrim, ← hnames, Text.intercalate_splitChars, lead_append_drop]
  · rw [directory, parent?]
    simp only [hnames, trimNames_concat h]
    split
    · rename_i hnil
      exact absurd hnil (List.append_ne_nil_of_right_ne_nil _ (List.cons_ne_nil _ _))
    · rw [List.dropLast_concat, Option.getD_some, String.toList_ofList]
  · have hmem : part ∈ Text.splitChars '/' ((join base name).toList.drop (lead (join base name).toList).length) := by
      rw [hnames, htrim, List.append_assoc]
      exact List.mem_append_right _ hpart
    exact Text.not_mem_of_mem_splitChars hmem

private theorem splitChars_of_blanks {text : List Char} {blanks : List (List Char)} (h : IsSegment name)
    (hne : text ≠ name.toList) (hblanks : ∀ other ∈ blanks, IsBlank other)
    (htext : text = lead text ++ ['/'].intercalate (blanks ++ [name.toList]))
    (hrest : Text.splitChars '/' (['/'].intercalate (blanks ++ [name.toList])) = blanks ++ [name.toList]) :
    (lead text = ['/'] ∧ Text.splitChars '/' text = [] :: (blanks ++ [name.toList])) ∨
      (lead text = ['.'] ∧ ∃ fewer : List (List Char), (∀ other ∈ fewer, IsBlank other) ∧
        Text.splitChars '/' text = ['.'] :: (fewer ++ [name.toList])) := by
  rcases lead_cases text with ⟨hlead, -⟩ | ⟨hlead, hdot⟩ | hlead <;> rw [hlead] at htext
  · refine .inl ⟨hlead, ?_⟩
    rw [htext, List.singleton_append, Text.splitChars_cons_self, hrest]
  · rw [List.singleton_append] at htext
    refine .inr ⟨hlead, ?_⟩
    rcases hdot with rfl | ⟨rest, rfl⟩
    -- behind a dot alone there is no name
    · rw [← (List.cons.inj htext).2] at hrest
      have hlast := congrArg List.getLast? hrest
      rw [List.getLast?_append_of_ne_nil _ (List.cons_ne_nil _ _)] at hlast
      exact absurd (Option.some.inj hlast).symm h.toList_ne_nil
    · rw [← (List.cons.inj htext).2, Text.splitChars_cons_self] at hrest
      cases blanks with
      | nil => exact absurd (List.cons.inj hrest).1.symm h.toList_ne_nil
      | cons blank blanks =>
        have hseam := Text.splitChars_append_separator '/' ['.'] rest
        rw [(List.cons.inj hrest).2] at hseam
        exact ⟨blanks, (List.forall_mem_cons.mp hblanks).2, hseam⟩
  -- without a lead there are no blank names in front, so that the text is the name
  · rw [List.nil_append] at htext
    cases blanks with
    | nil => exact absurd (htext.trans List.intercalate_singleton) hne
    | cons blank blanks =>
      rw [List.cons_append, List.intercalate_cons_of_ne_nil (by simp)] at htext
      rcases (List.forall_mem_cons.mp hblanks).1 with rfl | rfl <;> rw [htext] at hlead <;> cases hlead

/-- What a path leads through from its directory: blank names, and then its last name. -/
theorem splitChars_directory (h : IsSegment name) (hbase : base ≠ "") :
    directory (join base name) ≠ "" ∧ (∃ rest, (join base name).toList = (directory (join base name)).toList ++ rest) ∧
    ∃ blanks : List (List Char), (∀ other ∈ blanks, IsBlank other) ∧
      (Text.splitChars '/' (join base name).toList =
          Text.splitChars '/' (directory (join base name)).toList ++ (blanks ++ [name.toList]) ∨
        directory (join base name) = "/" ∧
          Text.splitChars '/' (join base name).toList = [] :: (blanks ++ [name.toList])) := by
  obtain ⟨kept, blanks, hblanks, htext, hdirectory, hrest⟩ := exists_parts_join h base
  by_cases hkept : kept = []
  · rw [hkept, List.nil_append] at htext
    rw [hkept, List.intercalate_nil, List.append_nil] at hdirectory
    have hne : (join base name).toList ≠ name.toList := fun hsame => hbase (eq_empty_of_join h (String.toList_injective hsame))
    have hprefix : ∃ rest, (join base name).toList = (directory (join base name)).toList ++ rest :=
      ⟨_, by rw [hdirectory]; exact htext⟩
    rcases splitChars_of_blanks h hne hblanks htext hrest with ⟨hlead, hsplit⟩ | ⟨hlead, fewer, hfewer, hsplit⟩
    · have hroot : directory (join base name) = "/" := String.toList_injective (hdirectory.trans hlead)
      exact ⟨by rw [hroot]; decide, hprefix, blanks, hblanks, .inr ⟨hroot, hsplit⟩⟩
    · have hdot : directory (join base name) = "." := String.toList_injective (hdirectory.trans hlead)
      refine ⟨by rw [hdot]; decide, hprefix, fewer, hfewer, .inl ?_⟩
      rw [hsplit, hdot]
      rfl
  · have hseam : (join base name).toList = (directory (join base name)).toList ++
        '/' :: ['/'].intercalate (blanks ++ [name.toList]) := by
      rw [hdirectory]
      conv_lhs => rw [htext, Text.intercalate_append hkept (by simp)]
      simp
    refine ⟨fun hempty => ?_, ⟨_, hseam⟩, blanks, hblanks, .inl ?_⟩
    -- behind nothing the path would begin at the root
    · rw [hempty] at hseam hdirectory
      rw [hseam] at hdirectory
      cases hdirectory
    · conv_lhs => rw [hseam, Text.splitChars_append_separator, hrest]

theorem directory_of_segment (h : IsSegment name) : directory name = "" := by
  have hname : Text.splitChars '/' (name.toList.drop (lead name.toList).length) = [] ++ [name.toList] := by
    rw [lead_eq_nil h]
    exact Text.splitChars_of_not_mem h.slash_not_mem
  rw [directory, parent?]
  simp only [hname, trimNames_concat h]
  rw [lead_eq_nil h]
  rfl

theorem exists_slashes (path : String) :
    ∃ count, path.toList = (withoutTrailingSlashes path).toList ++ List.replicate count '/' := by
  refine ⟨(path.toList.reverse.takeWhile (· = '/')).length, ?_⟩
  have hslashes : path.toList.reverse.takeWhile (· = '/') =
      List.replicate (path.toList.reverse.takeWhile (· = '/')).length '/' := by
    refine List.eq_replicate_iff.mpr ⟨rfl, fun c hc => ?_⟩
    have hall := List.all_takeWhile (p := (· = '/')) (l := path.toList.reverse)
    rw [List.all_eq_true] at hall
    simpa using hall c hc
  have hparts := List.takeWhile_append_dropWhile (p := (· = '/')) (l := path.toList.reverse)
  rw [hslashes] at hparts
  rw [withoutTrailingSlashes, String.toList_ofList, ← List.reverse_replicate, ← List.reverse_append, hparts,
    List.reverse_reverse]

end Path

namespace FileSystem

variable {fs next : FileSystem} {root : Tree} {top place names front : List String} {name base path : String}

/-! ### Paths that lead to a directory -/

theorem locate_eq_ok_iff :
    fs.locate path = .ok place ↔ path ≠ "" ∧ path.utf8ByteSize ≤ maxPathSize ∧ Char.ofNat 0 ∉ path.toList ∧
      follow fs.root (fs.start path) (Text.pieces '/' path) = .ok place := by
  rw [locate]
  split
  · rename_i hempty
    simp [hempty]
  · rename_i hne
    split
    · rename_i hinvalid
      simp only [Bool.or_eq_true, decide_eq_true_eq, List.contains_iff_mem] at hinvalid
      constructor
      · intro h
        cases h
      · rintro ⟨-, hsize, hnoNul, -⟩
        exact hinvalid.elim (fun hlong => absurd hlong (Nat.not_lt.mpr hsize)) fun hnul => absurd hnul hnoNul
    · rename_i hvalid
      simp only [Bool.or_eq_true, decide_eq_true_eq, List.contains_iff_mem, not_or, Nat.not_lt] at hvalid
      exact ⟨fun h => ⟨hne, hvalid.1, hvalid.2, h⟩, fun h => h.2.2.2⟩

theorem isDirectory_iff :
    fs.isDirectory path = true ↔ ∃ place, fs.locate path = .ok place ∧ fs.root.bareAt? place = some (.directory []) := by
  refine ⟨fun h => ?_, fun ⟨place, hplace, hdirectory⟩ => isDirectory_of_locate hplace hdirectory⟩
  rw [isDirectory, find] at h
  cases hlocate : fs.locate path with
  | error error =>
    rw [hlocate] at h
    cases h
  | ok place =>
    rw [hlocate] at h
    refine ⟨place, rfl, ?_⟩
    cases hget : fs.root.get? place with
    | none =>
      simp only [bind, Except.bind, hget] at h
      cases h
    | some tree =>
      simp only [bind, Except.bind, hget] at h
      cases tree with
      | file content => cases h
      | directory entries => exact Tree.bareAt?_eq_directory_iff.mpr ⟨entries, hget⟩

theorem exists_leads_of_isDirectory (h : fs.isDirectory path = true) : ∃ top, fs.Leads path top := by
  obtain ⟨place, hplace, hdirectory⟩ := isDirectory_iff.mp h
  exact ⟨place, follow_of_locate hplace, hdirectory⟩

/-- Blank names stay where they are. -/
theorem follow_blanks {blanks : List (List Char)} (hblanks : ∀ blank ∈ blanks, Path.IsBlank blank) (root : Tree)
    (place : List String) : ∀ {result}, follow root place (blanks.map String.ofList) = .ok result → result = place := by
  intro result h
  have hwalk := eq_walk_of_follow h
  clear h
  induction blanks with
  | nil => exact hwalk
  | cons blank blanks ih =>
    obtain ⟨hblank, hblanks⟩ := List.forall_mem_cons.mp hblanks
    refine ih hblanks ?_
    rcases hblank with rfl | rfl <;> exact hwalk

theorem follow_slashes (hplace : root.bareAt? place = some (.directory [])) (count : Nat) :
    follow root place (List.replicate count "") = .ok place := by
  induction count with
  | zero => rfl
  | succ count ih => exact follow_cons_eq_ok_iff.mpr ⟨hplace, by decide, ih⟩

private theorem locate_withoutTrailingSlashes (hdirectory : fs.root.bareAt? place = some (.directory [])) :
    fs.locate path = .ok place ↔ path.utf8ByteSize ≤ maxPathSize ∧
      fs.locate (if Path.withoutTrailingSlashes path = "" then path else Path.withoutTrailingSlashes path) = .ok place := by
  split
  · exact ⟨fun h => ⟨(locate_eq_ok_iff.mp h).2.1, h⟩, And.right⟩
  · rename_i hbare
    obtain ⟨count, htext⟩ := Path.exists_slashes path
    have hne : (Path.withoutTrailingSlashes path).toList ≠ [] := fun hnil => hbare (String.toList_injective hnil)
    have hpath : path ≠ "" := by
      rintro rfl
      exact hne (List.append_eq_nil_iff.mp htext.symm).1
    have hpieces : Text.pieces '/' path = Text.pieces '/' (Path.withoutTrailingSlashes path) ++ List.replicate count "" := by
      rw [Text.pieces, htext, Text.splitChars_append_replicate, List.map_append, List.map_replicate]
      rfl
    have hstart : fs.start path = fs.start (Path.withoutTrailingSlashes path) := by
      obtain ⟨c, rest, hrest⟩ := List.exists_cons_of_ne_nil hne
      simp [start, Path.isAbsolute, htext, hrest]
    have hsize : (Path.withoutTrailingSlashes path).utf8ByteSize ≤ path.utf8ByteSize := by
      have hparts : path = Path.withoutTrailingSlashes path ++ String.ofList (List.replicate count '/') := by
        apply String.toList_injective
        rw [String.toList_append, String.toList_ofList, ← htext]
      conv_rhs => rw [hparts, String.utf8ByteSize_append]
      exact Nat.le_add_right _ _
    have hnul : Char.ofNat 0 ∈ path.toList ↔ Char.ofNat 0 ∈ (Path.withoutTrailingSlashes path).toList := by
      rw [htext, List.mem_append, List.mem_replicate]
      exact or_iff_left fun hslash => absurd hslash.2 (by decide)
    rw [locate_eq_ok_iff, locate_eq_ok_iff, hpieces, hstart, follow_append, hnul]
    constructor
    · rintro ⟨-, hlong, hnoNul, h⟩
      refine ⟨hlong, hbare, Nat.le_trans hsize hlong, hnoNul, ?_⟩
      obtain ⟨middle, hmiddle, h⟩ := bind_eq_ok_iff.mp h
      have hblanks : List.replicate count "" = (List.replicate count []).map String.ofList := by
        rw [List.map_replicate]
      rw [hblanks] at h
      rw [hmiddle, follow_blanks (fun blank hblank => .inl (List.eq_of_mem_replicate hblank)) fs.root middle h]
    · rintro ⟨hlong, -, -, hnoNul, h⟩
      exact ⟨hpath, hlong, hnoNul, bind_eq_ok_iff.mpr ⟨place, h, follow_slashes hdirectory count⟩⟩

/-! ### Making directories again -/

/-- A directory that is asked for and is there changes nothing. -/
theorem createAncestors_of_isDirectory (h : fs.isDirectory path = true) (fuel : Nat) :
    createAncestors (fuel + 1) path fs = (.ok (), fs) := by
  obtain ⟨place, hplace, hdirectory⟩ := isDirectory_iff.mp h
  obtain ⟨entries, hget⟩ := Tree.bareAt?_eq_directory_iff.mp hdirectory
  obtain ⟨hsize, hbare⟩ := (locate_withoutTrailingSlashes hdirectory).mp hplace
  have hcreate : fs.createDirectory path = .error .alreadyExists := by
    rw [createDirectory, if_neg (Nat.not_lt.mpr hsize)]
    simp only [hbare, bind, Except.bind, hget]
  rw [createAncestors, if_neg (locate_eq_ok_iff.mp hplace).1]
  simp only [hcreate, h, if_pos]

theorem createDirectories_of_isDirectory (h : fs.isDirectory path = true) : fs.createDirectories path = (.ok (), fs) :=
  createAncestors_of_isDirectory h path.length

private theorem isDirectory_of_createDirectory (h : fs.createDirectory path = .ok next) :
    next.isDirectory path = true := by
  have hkeeps := keeps_of_createDirectory h
  obtain ⟨place, hplace, -, -, hnext⟩ := bareAt?_of_createDirectory h
  have hdirectory : next.root.bareAt? place = some (.directory []) := by rw [hnext, if_pos rfl]
  have hsize : path.utf8ByteSize ≤ maxPathSize := (createDirectory_eq_ok_iff.mp h).1
  exact isDirectory_of_locate ((locate_withoutTrailingSlashes hdirectory).mpr ⟨hsize, hkeeps.locate hplace⟩) hdirectory

/-- Where directories are made, the last of them is there. -/
theorem isDirectory_of_createDirectories (h : fs.createDirectories path = (.ok (), next)) :
    path = "" ∨ next.isDirectory path = true := by
  rcases createAncestors_cases h with
    hempty | hmade | ⟨hdirectory, rfl⟩ | ⟨parent, middle, -, -, hmade | ⟨hdirectory, rfl⟩⟩
  · exact .inl hempty
  · exact .inr (isDirectory_of_createDirectory hmade)
  · exact .inr hdirectory
  · exact .inr (isDirectory_of_createDirectory hmade)
  · exact .inr hdirectory

theorem createDirectories_again {later : FileSystem} {changed : List (List String)}
    (h : fs.createDirectories path = (.ok (), next)) (hkeeps : next.Keeps later changed) :
    later.createDirectories path = (.ok (), later) := by
  rcases isDirectory_of_createDirectories h with rfl | hdirectory
  · rfl
  · obtain ⟨place, hplace, hdirectory⟩ := isDirectory_iff.mp hdirectory
    exact createDirectories_of_isDirectory (isDirectory_of_locate (hkeeps.locate hplace) (hkeeps.directory place hdirectory))

private theorem exists_front_join (hbase : fs.Leads base top) (hname : IsSegment name) :
    ∃ front, Text.pieces '/' (Path.join base name) = front ++ [name] ∧ follow fs.root (fs.start base) front = .ok top := by
  obtain ⟨front, hjoin, hfront⟩ := hname.pieces_join base
  refine ⟨front, hjoin, ?_⟩
  have hfollows := hbase.follows
  rcases hfront with hfront | hfront
  · rwa [hfront] at hfollows
  · rw [hfront, follow_append] at hfollows
    obtain ⟨middle, hmiddle, hfollows⟩ := bind_eq_ok_iff.mp hfollows
    have hblank : ∀ blank ∈ [([] : List Char)], Path.IsBlank blank := List.forall_mem_singleton.mpr (.inl rfl)
    rw [hmiddle, follow_blanks hblank fs.root middle hfollows]

private theorem start_directory_join (hname : IsSegment name) (hempty : base ≠ "") :
    fs.start (Path.directory (Path.join base name)) = fs.start base := by
  obtain ⟨hne, ⟨rest, htext⟩, -⟩ := Path.splitChars_directory hname hempty
  have hchars : (Path.directory (Path.join base name)).toList ≠ [] := fun hnil => hne (String.toList_injective hnil)
  obtain ⟨c, chars, hchars⟩ := List.exists_cons_of_ne_nil hchars
  rw [start, start, ← hname.isAbsolute_join base]
  simp [Path.isAbsolute, htext, hchars]

/-- The directory of a name that is joined to the path of a directory is spelled otherwise, but it is this one. -/
theorem follow_directory_join (hbase : fs.Leads base top) (hname : IsSegment name) (hempty : base ≠ "") :
    follow fs.root (fs.start base) (Text.pieces '/' (Path.directory (Path.join base name))) = .ok top := by
  obtain ⟨-, -, blanks, hblanks, hpieces⟩ := Path.splitChars_directory hname hempty
  obtain ⟨front, hjoin, hway⟩ := exists_front_join hbase hname
  have hfront (parts : List (List Char)) (h : Text.splitChars '/' (Path.join base name).toList = parts ++ [name.toList]) :
      front = parts.map String.ofList := by
    rw [Text.pieces, h, List.map_append, List.map_singleton, String.ofList_toList] at hjoin
    exact (List.append_cancel_right hjoin).symm
  rcases hpieces with hpieces | ⟨hroot, hpieces⟩
  · rw [← List.append_assoc] at hpieces
    rw [hfront _ hpieces, List.map_append, follow_append] at hway
    obtain ⟨middle, hmiddle, hway⟩ := bind_eq_ok_iff.mp hway
    rw [Text.pieces, hmiddle, follow_blanks hblanks fs.root middle hway]
  -- the root parts into two empty names
  · rw [hfront ([] :: blanks) hpieces] at hway
    have htop := follow_blanks (List.forall_mem_cons.mpr ⟨.inl rfl, hblanks⟩) fs.root _ hway
    rw [hroot, ← htop]
    exact follow_slashes hbase.directory 2

theorem createDirectories_directory_join (hbase : fs.Leads base top) (hname : IsSegment name)
    (hlimits : WithinLimits base [name]) :
    fs.createDirectories (Path.directory (Path.join base name)) = (.ok (), fs) := by
  by_cases hempty : base = ""
  · have hjoin : Path.join base name = name := by rw [hname.join, if_pos hempty]
    rw [hjoin, Path.directory_of_segment hname]
    rfl
  · obtain ⟨hne, ⟨rest, htext⟩, -⟩ := Path.splitChars_directory hname hempty
    refine createDirectories_of_isDirectory (isDirectory_of_locate (locate_eq_ok_iff.mpr ⟨hne, ?_, ?_, ?_⟩) hbase.directory)
    · have hparts : Path.join base name = Path.directory (Path.join base name) ++ String.ofList rest := by
        apply String.toList_injective
        rw [String.toList_append, String.toList_ofList, htext]
      have hsize : (Path.join base name).utf8ByteSize ≤ maxPathSize := hlimits.size
      rw [hparts, String.utf8ByteSize_append] at hsize
      exact Nat.le_trans (Nat.le_add_right _ _) hsize
    · intro hnul
      refine hlimits.noNul ?_
      show Char.ofNat 0 ∈ (Path.join base name).toList
      rw [htext]
      exact List.mem_append_left _ hnul
    · rw [start_directory_join hname hempty]
      exact follow_directory_join hbase hname hempty

end FileSystem

end SchemaDocs
