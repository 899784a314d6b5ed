import SchemaDocs.Proofs.Storage.Outside
import SchemaDocs.Proofs.Storage.Standing

/-!
# Below a directory

A path that leads downwards leads from a directory to itself or below it, and what it finds there is a matter of
that directory alone. If all its names are plain, it finds a file exactly where they lead.
-/

namespace SchemaDocs

/-! ### Paths that lead downwards -/

namespace Path

variable {path : String}

/-- The names of a path that lead on; blank ones stay where they are. -/
def steps (path : String) : List String := (Text.pieces '/' path).filter fun name => name ≠ "" && name ≠ "."

def IsPlain (path : String) : Prop := ∀ name ∈ Text.pieces '/' path, IsSegment name

theorem isDownward_iff : isDownward path ↔ lead path.toList = [] ∧ ∀ name ∈ Text.pieces '/' path, name ≠ ".." := by
  have hdots : (∀ name ∈ Text.pieces '/' path, name ≠ "..") ↔ ∀ name ∈ Text.splitChars '/' path.toList, name ≠ ['.', '.'] := by
    rw [Text.pieces, List.forall_mem_map]
    exact forall₂_congr fun name _ => not_congr String.ofList_inj
  rw [hdots, isDownward, Bool.and_eq_true, List.isEmpty_iff, List.all_eq_true]
  simp only [decide_eq_true_eq]

theorem isAbsolute_of_isDownward (h : isDownward path) : isAbsolute path = false := by
  have hlead := (isDownward_iff.mp h).1
  rw [isAbsolute, decide_eq_false_iff_not]
  intro hhead
  obtain ⟨rest, hrest⟩ := List.head?_eq_some_iff.mp hhead
  rw [hrest] at hlead
  cases hlead

theorem isSegment_of_mem_steps (h : isDownward path) {name : String} (hname : name ∈ steps path) : IsSegment name := by
  obtain ⟨hpiece, hleads⟩ := List.mem_filter.mp hname
  simp only [Bool.and_eq_true, decide_eq_true_eq] at hleads
  exact ⟨hleads.1, hleads.2, (isDownward_iff.mp h).2 name hpiece, Text.not_mem_of_mem_pieces hpiece⟩

theorem IsPlain.isDownward (h : IsPlain path) : isDownward path := by
  have hchars : ∀ name ∈ Text.splitChars '/' path.toList, IsSegment (String.ofList name) := fun name hname =>
    h _ (List.mem_map_of_mem hname)
  refine isDownward_iff.mpr ⟨?_, fun name hname => (h name hname).ne_dots⟩
  generalize path.toList = text at hchars ⊢
  rcases lead_cases text with ⟨-, rest, rfl⟩ | ⟨-, rfl | ⟨rest, rfl⟩⟩ | hlead
  · rw [Text.splitChars_cons_self] at hchars
    exact absurd rfl (hchars [] List.mem_cons_self).ne_empty
  · exact absurd rfl (hchars ['.'] List.mem_cons_self).ne_dot
  · have hparts := Text.splitChars_append_separator '/' ['.'] rest
    rw [List.singleton_append] at hparts
    rw [hparts] at hchars
    exact absurd rfl (hchars ['.'] List.mem_cons_self).ne_dot
  · exact hlead

theorem isAbsolute_segment_append {name : String} (h : IsSegment name) (rest : String) :
    isAbsolute (name ++ rest) = false := by
  obtain ⟨c, letters, hletters⟩ := List.exists_cons_of_ne_nil h.toList_ne_nil
  have hslash : c ≠ '/' := fun hc => h.slash_not_mem (hletters ▸ hc ▸ List.mem_cons_self)
  simp [isAbsolute, String.toList_append, hletters, hslash]

private theorem join_join {name : String} (hname : IsSegment name) (h : isAbsolute path = false) (base : String) :
    join base (name ++ "/" ++ path) = join (join base name) path := by
  have hlong : isAbsolute (name ++ "/" ++ path) = false := by
    rw [String.append_assoc]
    exact isAbsolute_segment_append hname _
  rw [join_of_relative hlong, join_of_relative h (join base name), if_neg (hname.join_ne_empty base),
    if_neg (hname.getLast?_join base), hname.join]
  split
  · rfl
  · split <;> simp only [String.append_assoc]

private theorem foldl_join_intercalate {names : List String} (hne : names ≠ [])
    (hnames : ∀ name ∈ names, IsSegment name) (base : String) :
    isAbsolute (String.intercalate "/" names) = false ∧ names.foldl join base = join base (String.intercalate "/" names) := by
  induction names generalizing base with
  | nil => exact absurd rfl hne
  | cons name names ih =>
    obtain ⟨hname, hnames⟩ := List.forall_mem_cons.mp hnames
    cases names with
    | nil =>
      rw [String.intercalate_singleton]
      exact ⟨hname.isAbsolute, rfl⟩
    | cons next names =>
      obtain ⟨hrelative, hjoin⟩ := ih (List.cons_ne_nil _ _) hnames (join base name)
      rw [String.intercalate_cons_cons, List.foldl_cons, hjoin, join_join hname hrelative, String.append_assoc]
      exact ⟨isAbsolute_segment_append hname _, rfl⟩

theorem IsPlain.steps_eq (h : IsPlain path) : steps path = Text.pieces '/' path := by
  refine List.filter_eq_self.mpr fun name hname => ?_
  simp [(h name hname).ne_empty, (h name hname).ne_dot]

/-- Joining the names of a plain path one by one is joining the path. -/
theorem IsPlain.foldl_join (h : IsPlain path) (base : String) :
    (Text.pieces '/' path).foldl join base = join base path := by
  have hne := Text.pieces_ne_nil '/' path
  have hpath : String.intercalate "/" (Text.pieces '/' path) = path := by
    apply Text.pieces_injective '/'
    exact Text.pieces_intercalate rfl hne fun name hname => Text.not_mem_of_mem_pieces hname
  rw [(foldl_join_intercalate hne h base).2, hpath]

end Path

/-! ### What is found below a directory -/

namespace FileSystem

variable {fs other : FileSystem} {root sibling : Tree} {top names : List String} {base path : String} {content : ByteArray}

theorem walk_eq_append (hnames : ∀ name ∈ names, name ≠ "..") (place : List String) :
    walk place names = place ++ names.filter fun name => name ≠ "" && name ≠ "." := by
  induction names generalizing place with
  | nil => exact (List.append_nil _).symm
  | cons name names ih =>
    obtain ⟨hdots, hnames⟩ := List.forall_mem_cons.mp hnames
    show walk (enter place name) names = _
    rw [ih hnames, enter, if_neg hdots, List.filter_cons]
    by_cases hblank : name = "" ∨ name = "."
    · rcases hblank with rfl | rfl <;> rfl
    · obtain ⟨hempty, hdot⟩ := not_or.mp hblank
      simp [hempty, hdot]

private theorem follow_eq_of_get? (hnames : ∀ name ∈ names, name ≠ "..") (h : sibling.get? top = root.get? top) :
    follow sibling top names = follow root top names := by
  refine follow_congr fun front hfront _ => ?_
  rw [walk_eq_append fun name hname => hnames name (hfront.subset hname), Tree.bareAt?, Tree.bareAt?, Tree.get?_append,
    Tree.get?_append, h]

theorem placeOf_join (h : Path.isDownward path) (fs : FileSystem) (base : String) :
    fs.placeOf (Path.join base path) = fs.placeOf base ++ Path.steps path := by
  have hrelative := Path.isAbsolute_of_isDownward h
  rw [placeOf, start, Path.isAbsolute_join hrelative, walk_join hrelative, walk_eq_append (Path.isDownward_iff.mp h).2]
  rfl

theorem follow_join_of_leads (hbase : fs.Leads base top) (h : Path.isAbsolute path = false) :
    follow fs.root (fs.start (Path.join base path)) (Text.pieces '/' (Path.join base path)) =
      follow fs.root top (Text.pieces '/' path) := by
  rw [start, Path.isAbsolute_join h, ← start, follow_join h, hbase.follows]
  rfl

/-- What a path that leads downwards finds depends on the directory that it is joined to, and on nothing else. -/
theorem read_join_congr (h : Path.isDownward path) (hbase : fs.Leads base top) (hother : other.Leads base top)
    (hsame : other.root.get? top = fs.root.get? top) : other.read (Path.join base path) = fs.read (Path.join base path) := by
  have hrelative := Path.isAbsolute_of_isDownward h
  have hdown := (Path.isDownward_iff.mp h).2
  have hlocate : other.locate (Path.join base path) = fs.locate (Path.join base path) := by
    have hfollow := follow_eq_of_get? hdown hsame
    rw [← follow_join_of_leads hbase hrelative, ← follow_join_of_leads hother hrelative] at hfollow
    rw [locate, locate, ← start, ← start, hfollow]
  rw [read, read, find, find, hlocate]
  cases hplace : fs.locate (Path.join base path) with
  | error error => rfl
  | ok place =>
    have hfollow := follow_of_locate hplace
    rw [follow_join_of_leads hbase hrelative] at hfollow
    have hget : other.root.get? place = fs.root.get? place := by
      rw [eq_walk_of_follow hfollow, walk_eq_append hdown, Tree.get?_append, Tree.get?_append, hsame]
    simp only [bind, Except.bind, hget]

/-- A file that is found below a directory lies there. -/
theorem leads_of_read_join (h : Path.isDownward path) (hread : fs.read (Path.join base path) = .ok content) :
    fs.Leads base (fs.placeOf base) ∧ fs.root.get? (fs.placeOf base ++ Path.steps path) = some (.file content) := by
  have hrelative := Path.isAbsolute_of_isDownward h
  obtain ⟨place, hplace, hcontent⟩ := read_eq_ok_iff.mp hread
  constructor
  · have hfollow := follow_of_locate hplace
    rw [start, Path.isAbsolute_join hrelative, ← start, follow_join hrelative] at hfollow
    obtain ⟨top, htop, hfollow⟩ := bind_eq_ok_iff.mp hfollow
    obtain ⟨name, names, hpieces⟩ := List.exists_cons_of_ne_nil (Text.pieces_ne_nil '/' path)
    rw [hpieces] at hfollow
    have hbase : top = fs.placeOf base := eq_walk_of_follow htop
    exact hbase ▸ ⟨htop, (follow_cons_eq_ok_iff.mp hfollow).1⟩
  · rw [← placeOf_join h, ← eq_placeOf_of_locate hplace]
    exact Tree.bareAt?_eq_file_iff.mp hcontent

/-- A plain path finds the file that its names lead to, as long as they are within limits. -/
theorem read_join_eq_ok_iff (hbase : fs.Leads base top) (h : Path.IsPlain path) :
    fs.read (Path.join base path) = .ok content ↔
      WithinLimits base (Text.pieces '/' path) ∧ fs.root.get? (top ++ Text.pieces '/' path) = some (.file content) := by
  constructor
  · intro hread
    obtain ⟨-, hcontent⟩ := leads_of_read_join h.isDownward hread
    rw [h.steps_eq, placeOf, ← eq_walk_of_follow hbase.follows] at hcontent
    obtain ⟨place, hplace, -⟩ := read_eq_ok_iff.mp hread
    rw [← h.foldl_join] at hplace
    exact ⟨withinLimits_of_locate h hplace, hcontent⟩
  · rintro ⟨hlimits, hcontent⟩
    obtain ⟨front, last, hpieces⟩ :=
      (List.eq_nil_or_concat' (Text.pieces '/' path)).resolve_left (Text.pieces_ne_nil '/' path)
    have hfits : Fits base (front ++ [last]) := hpieces ▸ ⟨hlimits, h⟩
    rw [hpieces, ← Tree.bareAt?_eq_file_iff] at hcontent
    rw [← h.foldl_join, hpieces]
    refine read_eq_ok_iff.mpr ⟨_, locate_of_directory hbase hfits ?_, hcontent⟩
    rw [← List.append_assoc] at hcontent
    exact Tree.directory_above (List.cons_ne_nil _ _) hcontent

end FileSystem

end SchemaDocs
