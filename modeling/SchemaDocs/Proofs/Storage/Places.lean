import SchemaDocs.Proofs.Text.Pieces
import SchemaDocs.Storage.FileSystem

/-!
# What stands at a place

Putting a tree into another changes every directory on the way, but only in what it holds.
`Tree.bareAt?` leaves that out, so that a new leaf changes it at one place alone. Following a path
looks at nothing else, and where it succeeds the place it leads to is a matter of the names alone.
-/

namespace SchemaDocs

namespace Tree

variable {root new : Tree} {parent place : List String} {name : String}

def bare : Tree → Tree
  | .file content => .file content
  | .directory _ => .directory []

def bareAt? (root : Tree) (place : List String) : Option Tree := (root.get? place).map bare

theorem lookup_cons (name other : String) (tree : Tree) (entries : List (String × Tree)) :
    ((name, tree) :: entries).lookup other = if other = name then some tree else entries.lookup other := by
  rw [List.lookup_cons]
  by_cases hother : other = name
  · simp [hother]
  · simp [beq_eq_false_iff_ne.mpr hother, hother]

private theorem lookup_putEntry (name other : String) (tree : Tree) (entries : List (String × Tree)) :
    (putEntry name tree entries).lookup other = if other = name then some tree else entries.lookup other := by
  induction entries with
  | nil => rw [putEntry, lookup_cons]
  | cons entry entries ih =>
    obtain ⟨n, t⟩ := entry
    rw [putEntry]
    split
    · rw [lookup_cons]
    · split
      · rename_i hname
        subst hname
        rw [lookup_cons, lookup_cons]
        split <;> rfl
      · rename_i hname
        rw [lookup_cons, lookup_cons, ih]
        by_cases hother : other = n
        · have hne : n ≠ name := Ne.symm hname
          simp [hother, hne]
        · simp [hother]

@[simp] theorem get?_nil (tree : Tree) : tree.get? [] = some tree := by
  cases tree <;> rfl

theorem get?_append (tree : Tree) (place rest : List String) :
    tree.get? (place ++ rest) = (tree.get? place).bind (·.get? rest) := by
  induction place generalizing tree with
  | nil => simp
  | cons name place ih =>
    cases tree with
    | file content => rfl
    | directory entries =>
      show (entries.lookup name).bind _ = ((entries.lookup name).bind _).bind _
      cases entries.lookup name with
      | none => rfl
      | some tree => exact ih tree

theorem bareAt?_eq_directory_iff :
    root.bareAt? place = some (.directory []) ↔ ∃ entries, root.get? place = some (.directory entries) := by
  rw [bareAt?, Option.map_eq_some_iff]
  constructor
  · rintro ⟨tree, htree, hbare⟩
    cases tree with
    | file content => cases hbare
    | directory entries => exact ⟨entries, htree⟩
  · rintro ⟨entries, htree⟩
    exact ⟨_, htree, rfl⟩

theorem bareAt?_eq_file_iff {content : ByteArray} :
    root.bareAt? place = some (.file content) ↔ root.get? place = some (.file content) := by
  rw [bareAt?, Option.map_eq_some_iff]
  constructor
  · rintro ⟨tree, htree, hbare⟩
    cases tree with
    | file content =>
      rw [htree, ← hbare]
      rfl
    | directory entries => cases hbare
  · intro htree
    exact ⟨_, htree, rfl⟩

theorem bareAt?_eq_none_iff : root.bareAt? place = none ↔ root.get? place = none := by
  rw [bareAt?, Option.map_eq_none_iff]

theorem bareAt?_cases (root : Tree) (place : List String) :
    root.bareAt? place = none ∨ root.bareAt? place = some (.directory []) ∨
      ∃ content, root.bareAt? place = some (.file content) := by
  rw [bareAt?]
  cases root.get? place with
  | none => exact .inl rfl
  | some tree =>
    cases tree with
    | file content => exact .inr (.inr ⟨content, rfl⟩)
    | directory entries => exact .inr (.inl rfl)

theorem bareAt?_dropLast (h : root.bareAt? place = some (.directory [])) :
    root.bareAt? place.dropLast = some (.directory []) := by
  rcases place.eq_nil_or_concat with rfl | ⟨parent, name, rfl⟩
  · exact h
  · rw [bareAt?_eq_directory_iff] at h ⊢
    obtain ⟨entries, hplace⟩ := h
    rw [List.concat_eq_append, get?_append] at hplace
    obtain ⟨tree, hparent, hname⟩ := Option.bind_eq_some_iff.mp hplace
    rw [List.concat_eq_append, List.dropLast_concat]
    cases tree with
    | file content => cases hname
    | directory entries => exact ⟨entries, hparent⟩

theorem get?_below {rest : List String} (hplace : root.bareAt? place ≠ some (.directory [])) (hrest : rest ≠ []) :
    root.get? (place ++ rest) = none := by
  rw [get?_append]
  cases htree : root.get? place with
  | none => rfl
  | some tree =>
    obtain ⟨name, rest, rfl⟩ := List.exists_cons_of_ne_nil hrest
    cases tree with
    | file content => rfl
    | directory entries => exact absurd (bareAt?_eq_directory_iff.mpr ⟨entries, htree⟩) hplace

theorem directory_above {tree : Tree} {rest : List String} (hrest : rest ≠ [])
    (h : root.bareAt? (place ++ rest) = some tree) : root.bareAt? place = some (.directory []) := by
  refine Classical.byContradiction fun hplace => ?_
  rw [bareAt?_eq_none_iff.mpr (get?_below hplace hrest)] at h
  cases h

/-! ### Putting a tree into another -/

theorem get?_put_cons (entries : List (String × Tree)) (first : String) (place : List String) (new : Tree)
    (name : String) (rest : List String) :
    ((Tree.directory entries).put (first :: place) new).get? (name :: rest) =
      if name = first then (((entries.lookup first).getD (.directory [])).put place new).get? rest
      else (Tree.directory entries).get? (name :: rest) := by
  rw [put, get?, lookup_putEntry]
  split <;> rfl

private theorem exists_entry_of_directory {first : String} (h : root.bareAt? (first :: parent) = some (.directory [])) :
    ∃ entries sub, root = .directory entries ∧ entries.lookup first = some sub ∧
      sub.bareAt? parent = some (.directory []) := by
  obtain ⟨below, hway⟩ := bareAt?_eq_directory_iff.mp h
  cases root with
  | file content => cases hway
  | directory entries =>
    obtain ⟨sub, hsub, hparent⟩ := Option.bind_eq_some_iff.mp hway
    exact ⟨entries, sub, rfl, hsub, bareAt?_eq_directory_iff.mpr ⟨below, hparent⟩⟩

private theorem exists_entries_of_directory (h : root.bareAt? [] = some (.directory [])) :
    ∃ entries, root = .directory entries := by
  obtain ⟨entries, hroot⟩ := bareAt?_eq_directory_iff.mp h
  exact ⟨entries, Option.some.inj ((get?_nil root).symm.trans hroot)⟩

private theorem get?_put_append (hparent : root.bareAt? parent = some (.directory [])) (rest : List String) :
    (root.put (parent ++ [name]) new).get? (parent ++ [name] ++ rest) = new.get? rest := by
  induction parent generalizing root with
  | nil =>
    obtain ⟨entries, rfl⟩ := exists_entries_of_directory hparent
    rw [List.nil_append, List.singleton_append, get?_put_cons, if_pos rfl, put]
  | cons first parent ih =>
    obtain ⟨entries, sub, rfl, hsub, hparent⟩ := exists_entry_of_directory hparent
    rw [List.cons_append, List.cons_append, get?_put_cons, if_pos rfl, hsub, Option.getD_some]
    exact ih hparent

private theorem bareAt?_put_above {front : List String} (hparent : root.bareAt? parent = some (.directory []))
    (hfront : front <+: parent) : (root.put (parent ++ [name]) new).bareAt? front = some (.directory []) := by
  induction front generalizing root parent with
  | nil =>
    cases parent with
    | nil =>
      obtain ⟨entries, rfl⟩ := exists_entries_of_directory hparent
      rfl
    | cons first parent =>
      obtain ⟨entries, sub, rfl, -, -⟩ := exists_entry_of_directory hparent
      rfl
  | cons first front ih =>
    obtain ⟨below, rfl, hbelow⟩ := List.cons_prefix_iff.mp hfront
    obtain ⟨entries, sub, rfl, hsub, hsubParent⟩ := exists_entry_of_directory hparent
    rw [bareAt?, List.cons_append, get?_put_cons, if_pos rfl, hsub, Option.getD_some]
    exact ih hsubParent hbelow

private theorem get?_put_apart (hparent : root.bareAt? parent = some (.directory [])) {other : List String}
    (habove : ¬ other <+: parent ++ [name]) (hbelow : ¬ parent ++ [name] <+: other) :
    (root.put (parent ++ [name]) new).get? other = root.get? other := by
  cases other with
  | nil => exact absurd List.nil_prefix habove
  | cons first rest =>
    induction parent generalizing root first rest with
    | nil =>
      obtain ⟨entries, rfl⟩ := exists_entries_of_directory hparent
      rw [List.nil_append, get?_put_cons, if_neg]
      rintro rfl
      exact hbelow (List.prefix_append [first] rest)
    | cons last parent ih =>
      obtain ⟨entries, sub, rfl, hsub, hsubParent⟩ := exists_entry_of_directory hparent
      rw [List.cons_append, get?_put_cons]
      split
      · rename_i hfirst
        subst hfirst
        rw [List.cons_append, List.prefix_cons_inj] at habove hbelow
        rw [hsub, Option.getD_some, get?, hsub, Option.bind_some]
        cases rest with
        | nil => exact absurd List.nil_prefix habove
        | cons next rest => exact ih hsubParent next rest habove hbelow
      · rfl

private theorem get?_of_bare (hnew : new.bare = new) {rest : List String} (hrest : rest ≠ []) :
    new.get? rest = none := by
  obtain ⟨name, rest, rfl⟩ := List.exists_cons_of_ne_nil hrest
  cases new with
  | file content => rfl
  | directory entries =>
    obtain rfl : [] = entries := by simpa [bare] using hnew
    rfl

/-- A file or an empty directory, put where no directory was, changes what stands there and nothing
else. -/
theorem bareAt?_put (hparent : root.bareAt? parent = some (.directory []))
    (hplace : root.bareAt? (parent ++ [name]) ≠ some (.directory [])) (hnew : new.bare = new) (other : List String) :
    (root.put (parent ++ [name]) new).bareAt? other =
      if other = parent ++ [name] then some new else root.bareAt? other := by
  by_cases hbelow : parent ++ [name] <+: other
  · obtain ⟨rest, rfl⟩ := hbelow
    rw [bareAt?, get?_put_append hparent]
    by_cases hrest : rest = []
    · rw [hrest, List.append_nil, if_pos rfl, get?_nil, Option.map_some, hnew]
    · rw [if_neg fun hsame => hrest (List.append_right_eq_self.mp hsame), get?_of_bare hnew hrest, bareAt?,
        get?_below hplace hrest]
  · have hne : other ≠ parent ++ [name] := by
      rintro rfl
      exact hbelow (List.prefix_refl _)
    rw [if_neg hne]
    by_cases habove : other <+: parent ++ [name]
    · have hfront : other <+: parent := (List.prefix_concat_iff.mp habove).resolve_left hne
      rw [bareAt?_put_above hparent hfront]
      obtain ⟨rest, rfl⟩ := hfront
      by_cases hrest : rest = []
      · rw [hrest, List.append_nil] at hparent
        exact hparent.symm
      · exact (directory_above hrest hparent).symm
    · rw [bareAt?, get?_put_apart hparent habove hbelow, bareAt?]

/-- It changes no tree but those on the way to it. -/
theorem get?_put (hparent : root.bareAt? parent = some (.directory []))
    (hplain : root.bareAt? (parent ++ [name]) ≠ some (.directory [])) (hnew : new.bare = new) {other : List String}
    (hother : ¬ other <+: parent ++ [name]) : (root.put (parent ++ [name]) new).get? other = root.get? other := by
  by_cases hbelow : parent ++ [name] <+: other
  · obtain ⟨rest, rfl⟩ := hbelow
    have hrest : rest ≠ [] := by
      rintro rfl
      rw [List.append_nil] at hother
      exact hother (List.prefix_refl _)
    rw [get?_put_append hparent, get?_of_bare hnew hrest, get?_below hplain hrest]
  · exact get?_put_apart hparent hother hbelow

end Tree

namespace FileSystem

variable {fs next : FileSystem} {root other : Tree} {place result names : List String} {name path : String}

/-! ### Following names -/

/-- The place that a name leads to. -/
def enter (place : List String) (name : String) : List String :=
  if name = "" || name = "." then place else if name = ".." then place.dropLast else place ++ [name]

/-- The place that names lead to where each of them stands for a directory. -/
def walk (place names : List String) : List String := names.foldl enter place

theorem walk_append (place names more : List String) : walk place (names ++ more) = walk (walk place names) more :=
  List.foldl_append

theorem follow_cons_eq_ok_iff :
    follow root place (name :: names) = .ok result ↔
      root.bareAt? place = some (.directory []) ∧ name.utf8ByteSize ≤ maxNameSize ∧
        follow root (enter place name) names = .ok result := by
  rw [Tree.bareAt?_eq_directory_iff, follow, enter]
  cases hplace : root.get? place with
  | none => simp
  | some tree =>
    cases tree with
    | file content => simp
    | directory entries =>
      have hfound : ∃ found, some (Tree.directory entries) = some (Tree.directory found) := ⟨entries, rfl⟩
      simp only [hfound, true_and, Bool.or_eq_true, decide_eq_true_eq]
      split
      · rename_i hname
        have hsize : name.utf8ByteSize ≤ maxNameSize := by
          rcases hname with rfl | rfl <;> decide
        simp [hsize]
      · split
        · rename_i hname
          have hsize : name.utf8ByteSize ≤ maxNameSize := by
            rw [hname]
            decide
          simp [hsize]
        · split
          · rename_i hlong
            have hsize : ¬ name.utf8ByteSize ≤ maxNameSize := Nat.not_le.mpr hlong
            simp [hsize]
          · rename_i hlong
            simp [Nat.not_lt.mp hlong]

theorem eq_walk_of_follow (h : follow root place names = .ok result) : result = walk place names := by
  induction names generalizing place with
  | nil => exact (Except.ok.inj h).symm
  | cons name names ih => exact ih (follow_cons_eq_ok_iff.mp h).2.2

/-- More directories take no way away. -/
theorem follow_mono
    (hdirectories : ∀ place, root.bareAt? place = some (.directory []) → other.bareAt? place = some (.directory []))
    (h : follow root place names = .ok result) : follow other place names = .ok result := by
  induction names generalizing place with
  | nil => exact h
  | cons name names ih =>
    obtain ⟨hplace, hsize, hnames⟩ := follow_cons_eq_ok_iff.mp h
    exact follow_cons_eq_ok_iff.mpr ⟨hdirectories place hplace, hsize, ih hnames⟩

/-- Following names looks at nothing but what stands on the way. -/
theorem follow_congr
    (h : ∀ front, front <+: names → front ≠ names → other.bareAt? (walk place front) = root.bareAt? (walk place front)) :
    follow other place names = follow root place names := by
  induction names generalizing place with
  | nil => rfl
  | cons name names ih =>
    have hhere : other.bareAt? place = root.bareAt? place := h [] List.nil_prefix (List.cons_ne_nil _ _).symm
    have hnames : follow other (enter place name) names = follow root (enter place name) names :=
      ih fun front hfront hne => h (name :: front) ((List.prefix_cons_inj name).mpr hfront)
        fun hsame => hne (List.cons.inj hsame).2
    rw [follow, follow]
    rcases root.bareAt?_cases place with hroot | hroot | ⟨content, hroot⟩ <;> rw [hroot] at hhere
    · rw [Tree.bareAt?_eq_none_iff] at hroot hhere
      rw [hroot, hhere]
    · obtain ⟨entries, hroot⟩ := Tree.bareAt?_eq_directory_iff.mp hroot
      obtain ⟨others, hother⟩ := Tree.bareAt?_eq_directory_iff.mp hhere
      rw [hroot, hother]
      rw [enter] at hnames
      split at hnames <;> rename_i hname
      · rw [if_pos hname, if_pos hname, hnames]
      · rw [if_neg hname, if_neg hname]
        split at hnames <;> rename_i hdots
        · rw [if_pos hdots, if_pos hdots, hnames]
        · rw [if_neg hdots, if_neg hdots, hnames]
    · rw [Tree.bareAt?_eq_file_iff] at hroot hhere
      rw [hroot, hhere]

theorem lies_of_follow (hplace : root.bareAt? place = some (.directory []) ∨ names ≠ [])
    (h : follow root place names = .ok result) :
    root.bareAt? result = some (.directory []) ∨
      ∃ parent name, result = parent ++ [name] ∧ root.bareAt? parent = some (.directory []) := by
  induction names generalizing place with
  | nil =>
    obtain rfl := Except.ok.inj h
    exact .inl (hplace.resolve_right (· rfl))
  | cons name names ih =>
    obtain ⟨hdirectory, -, hnames⟩ := follow_cons_eq_ok_iff.mp h
    by_cases hrest : names = []
    · subst hrest
      obtain rfl := Except.ok.inj hnames
      rw [enter]
      split
      · exact .inl hdirectory
      · split
        · exact .inl (Tree.bareAt?_dropLast hdirectory)
        · exact .inr ⟨place, name, rfl, hdirectory⟩
    · exact ih (.inr hrest) hnames

/-- The place that relative names or those from the root begin at. -/
def start (fs : FileSystem) (path : String) : List String :=
  if Path.isAbsolute path then [] else fs.workingDirectory

theorem follow_of_locate (h : fs.locate path = .ok place) :
    follow fs.root (fs.start path) (Text.pieces '/' path) = .ok place := by
  rw [locate] at h
  split at h
  · cases h
  · split at h
    · cases h
    · exact h

theorem locate_mono (hworking : next.workingDirectory = fs.workingDirectory)
    (hdirectories : ∀ place, fs.root.bareAt? place = some (.directory []) →
      next.root.bareAt? place = some (.directory []))
    (h : fs.locate path = .ok place) : next.locate path = .ok place := by
  have hfollow := follow_mono hdirectories (follow_of_locate h)
  rw [locate] at h ⊢
  split at h
  · cases h
  · rename_i hempty
    split at h
    · cases h
    · rename_i hvalid
      rw [if_neg hempty, if_neg hvalid, hworking]
      exact hfollow

end FileSystem

end SchemaDocs
