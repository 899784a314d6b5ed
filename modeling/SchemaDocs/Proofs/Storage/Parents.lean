import SchemaDocs.Proofs.Storage.Ways

/-!
# Where a file lies

A path to something that is no directory ends with a name that leads one step down, and the directory that the
path lies in leads to the place above. So does the directory of every path that a name is joined to, whatever
that path ends with.
-/

namespace SchemaDocs

variable {fs : FileSystem} {place : List String} {path base name : String}

namespace Path

private theorem exists_eq_join {front : List String} (hname : IsSegment name)
    (h : Text.pieces '/' path = front ++ [name]) :
    ∃ base, path = join base name := by
  obtain ⟨parts, last, hparts⟩ :=
    (List.eq_nil_or_concat' (Text.splitChars '/' path.toList)).resolve_left (Text.splitChars_ne_nil '/' path.toList)
  have hlast : last = name.toList := by
    rw [Text.pieces, hparts, List.map_append, List.map_singleton] at h
    rw [← List.singleton_inj.mp (List.append_inj' h rfl).2, String.toList_ofList]
  have htext := Text.intercalate_splitChars '/' path.toList
  rw [hparts, hlast] at htext
  by_cases hnone : parts = []
  · refine ⟨"", String.toList_injective ?_⟩
    rw [hname.join, if_pos rfl, ← htext, hnone, List.nil_append, List.intercalate_singleton]
  · -- the path up to its last slash
    rw [Text.intercalate_append hnone (List.cons_ne_nil _ _), List.intercalate_singleton] at htext
    refine ⟨String.ofList (['/'].intercalate parts ++ ['/']), String.toList_injective ?_⟩
    have hne : String.ofList (['/'].intercalate parts ++ ['/']) ≠ "" := fun hempty => by
      have hchars := congrArg String.toList hempty
      rw [String.toList_ofList] at hchars
      exact absurd hchars (by simp)
    rw [hname.join, if_neg hne, if_pos (by rw [String.toList_ofList, List.getLast?_concat]), String.toList_append,
      String.toList_ofList, ← htext]

end Path

namespace FileSystem

theorem placeOf_join_segment (hname : IsSegment name) (fs : FileSystem) (base : String) :
    fs.placeOf (Path.join base name) = fs.placeOf base ++ [name] := by
  rw [placeOf, placeOf, start, hname.isAbsolute_join, ← start, hname.walk_join]

private theorem walk_blanks {blanks : List (List Char)} (hblanks : ∀ blank ∈ blanks, Path.IsBlank blank)
    (place : List String) :
    walk place (blanks.map String.ofList) = place := by
  induction blanks with
  | nil => rfl
  | cons blank blanks ih =>
    obtain ⟨hblank, hrest⟩ := List.forall_mem_cons.mp hblanks
    rcases hblank with rfl | rfl <;> exact ih hrest

/-- The directory of a joined name leads where the path before the name leads. -/
theorem placeOf_directory_join (hname : IsSegment name) (fs : FileSystem) (base : String) :
    fs.placeOf (Path.directory (Path.join base name)) = fs.placeOf base := by
  by_cases hempty : base = ""
  · rw [hname.join, if_pos hempty, Path.directory_of_segment hname, hempty]
  · obtain ⟨hne, ⟨rest, htext⟩, blanks, hblanks, hpieces⟩ := Path.splitChars_directory hname hempty
    have hstart : fs.start (Path.join base name) = fs.start (Path.directory (Path.join base name)) := by
      obtain ⟨c, chars, hchars⟩ := List.exists_cons_of_ne_nil fun hnil => hne (String.toList_injective hnil)
      simp [start, Path.isAbsolute, htext, hchars]
    have hlast : String.ofList name.toList = name := String.ofList_toList
    have hplace : fs.placeOf (Path.join base name) = fs.placeOf base ++ [name] := placeOf_join_segment hname fs base
    refine List.append_cancel_right (hplace.symm.trans ?_).symm
    rw [placeOf, placeOf, hstart]
    rcases hpieces with hpieces | ⟨hroot, hpieces⟩
    · rw [Text.pieces, Text.pieces, hpieces, List.map_append, List.map_append, walk_append, walk_append, walk_blanks hblanks,
        List.map_singleton, hlast]
      exact hname.enter _
    -- the root parts into two empty names
    · rw [Text.pieces, Text.pieces, hpieces, hroot, ← List.cons_append, List.map_append, walk_append,
        walk_blanks (List.forall_mem_cons.mpr ⟨.inl rfl, hblanks⟩), List.map_singleton, hlast]
      exact hname.enter _

/-- What is no directory lies in the directory of its path. -/
theorem exists_join_of_locate (h : fs.locate path = .ok place) (hplain : fs.root.bareAt? place ≠ some (.directory [])) :
    ∃ base name, IsSegment name ∧ path = Path.join base name ∧ place = fs.placeOf (Path.directory path) ++ [name] := by
  obtain ⟨front, last, hpieces⟩ := (List.eq_nil_or_concat' (Text.pieces '/' path)).resolve_left (Text.pieces_ne_nil '/' path)
  have hfollow := follow_of_locate h
  rw [hpieces, follow_append] at hfollow
  obtain ⟨middle, -, hlast⟩ := bind_eq_ok_iff.mp hfollow
  obtain ⟨hdirectory, -, hresult⟩ := follow_cons_eq_ok_iff.mp hlast
  obtain rfl := Except.ok.inj hresult
  -- a name that stays or leads up ends at a directory
  have hname : IsSegment last := by
    refine ⟨?_, ?_, ?_, Text.not_mem_of_mem_pieces (hpieces ▸ List.mem_append_right _ List.mem_cons_self)⟩
    · rintro rfl
      exact hplain hdirectory
    · rintro rfl
      exact hplain hdirectory
    · rintro rfl
      exact hplain (Tree.bareAt?_dropLast hdirectory)
  obtain ⟨base, rfl⟩ := Path.exists_eq_join hname hpieces
  refine ⟨base, last, hname, rfl, ?_⟩
  rw [placeOf_directory_join hname, ← placeOf_join_segment hname]
  exact eq_placeOf_of_locate h

end FileSystem

end SchemaDocs
