import SchemaDocs.Proofs.Storage.Growth
import SchemaDocs.Proofs.Storage.Joining
import Mathlib.Data.List.Induction

/-!
# Making what is missing

Where a path leads to a directory, and nothing but directories is in the way of some names, the
directories of these names can be made and a file can be written into the last of them. Only the
places on the way change.
-/

namespace SchemaDocs.FileSystem

variable {fs next : FileSystem} {root : Tree} {base last : String} {top place names front rest : List String}

/-- A path leads to a directory. -/
structure Leads (fs : FileSystem) (base : String) (top : List String) : Prop where
  follows : follow fs.root (fs.start base) (Text.pieces '/' base) = .ok top
  directory : fs.root.bareAt? top = some (.directory [])

/-- Neither names nor the path that they make are too long, and there is no NUL character. -/
structure WithinLimits (base : String) (names : List String) : Prop where
  sizes : ∀ name ∈ names, name.utf8ByteSize ≤ maxNameSize
  size : (names.foldl Path.join base).utf8ByteSize ≤ maxPathSize
  noNul : Char.ofNat 0 ∉ (names.foldl Path.join base).toList

instance (base : String) (names : List String) : Decidable (WithinLimits base names) :=
  decidable_of_iff ((∀ name ∈ names, name.utf8ByteSize ≤ maxNameSize) ∧
      (names.foldl Path.join base).utf8ByteSize ≤ maxPathSize ∧ Char.ofNat 0 ∉ (names.foldl Path.join base).toList)
    ⟨fun h => ⟨h.1, h.2.1, h.2.2⟩, fun h => ⟨h.sizes, h.size, h.noNul⟩⟩

/-- Names within limits that lead downwards from a path. -/
structure Fits (base : String) (names : List String) : Prop extends WithinLimits base names where
  segments : ∀ name ∈ names, IsSegment name

/-! ### Following names through directories -/

theorem directory_of_append (h : root.bareAt? (place ++ rest) = some (.directory [])) :
    root.bareAt? place = some (.directory []) := by
  induction rest using List.reverseRecOn with
  | nil => rwa [List.append_nil] at h
  | append_singleton rest name ih =>
    have hparent := Tree.bareAt?_dropLast h
    rw [← List.append_assoc, List.dropLast_concat] at hparent
    exact ih hparent

theorem follow_singleton (hplace : root.bareAt? place = some (.directory [])) {name : String} (h : IsSegment name)
    (hsize : name.utf8ByteSize ≤ maxNameSize) : follow root place [name] = .ok (place ++ [name]) :=
  follow_cons_eq_ok_iff.mpr ⟨hplace, hsize, by rw [h.enter]; rfl⟩

private theorem follow_of_directory (hsegments : ∀ name ∈ names, IsSegment name)
    (hsizes : ∀ name ∈ names, name.utf8ByteSize ≤ maxNameSize)
    (hplace : root.bareAt? (place ++ names) = some (.directory [])) : follow root place names = .ok (place ++ names) := by
  induction names using List.reverseRecOn with
  | nil => rw [List.append_nil, follow]
  | append_singleton names name ih =>
    rw [List.forall_mem_append, List.forall_mem_singleton] at hsegments hsizes
    rw [← List.append_assoc] at hplace
    have hparent := directory_of_append hplace
    rw [follow_append, ih hsegments.1 hsizes.1 hparent, ← List.append_assoc]
    exact follow_singleton hparent hsegments.2 hsizes.2

private theorem follow_of_missing (hsegments : ∀ name ∈ names, IsSegment name)
    (hsizes : ∀ name ∈ names, name.utf8ByteSize ≤ maxNameSize) (hplace : root.bareAt? place = some (.directory []))
    (hfree : ∀ way, way <+: names → root.bareAt? (place ++ way) = none ∨ root.bareAt? (place ++ way) = some (.directory []))
    (hmissing : root.bareAt? (place ++ names) = none) (name : String) :
    follow root place (names ++ [name]) = .error .notFound := by
  induction names using List.reverseRecOn generalizing name with
  | nil =>
    rw [List.append_nil, hplace] at hmissing
    cases hmissing
  | append_singleton names other ih =>
    rw [List.forall_mem_append, List.forall_mem_singleton] at hsegments hsizes
    have hnames : names <+: names ++ [other] := List.prefix_append _ _
    rw [follow_append]
    rcases hfree names hnames with hparent | hparent
    · rw [ih hsegments.1 hsizes.1 (fun way hway => hfree way (hway.trans hnames)) hparent other]
      rfl
    · have hfollow : follow root place (names ++ [other]) = .ok (place ++ (names ++ [other])) := by
        rw [follow_append, follow_of_directory hsegments.1 hsizes.1 hparent, ← List.append_assoc]
        exact follow_singleton hparent hsegments.2 hsizes.2
      rw [Tree.bareAt?_eq_none_iff] at hmissing
      rw [hfollow]
      show follow root (place ++ (names ++ [other])) [name] = _
      rw [follow, hmissing]

theorem Fits.of_append (h : Fits base (front ++ rest)) : Fits base front := by
  obtain ⟨hsegments, hrest⟩ := List.forall_mem_append.mp h.segments
  obtain ⟨behind, hbehind⟩ := Path.exists_foldl_join hrest (front.foldl Path.join base)
  have hsize := h.size
  have hnoNul := h.noNul
  rw [List.foldl_append, hbehind] at hsize hnoNul
  refine ⟨⟨(List.forall_mem_append.mp h.sizes).1, ?_, fun hmem => hnoNul ?_⟩, hsegments⟩
  · rw [String.utf8ByteSize_append] at hsize
    omega
  · rw [String.toList_append]
    exact List.mem_append_left _ hmem

private theorem Fits.withoutTrailingSlashes (h : Fits base (front ++ [last])) :
    Path.withoutTrailingSlashes ((front ++ [last]).foldl Path.join base) = (front ++ [last]).foldl Path.join base := by
  rw [List.foldl_append]
  exact Path.withoutTrailingSlashes_join (h.segments last (List.mem_append_right _ List.mem_cons_self)) _

theorem Fits.ne_empty (h : Fits base (front ++ [last])) : (front ++ [last]).foldl Path.join base ≠ "" := by
  rw [List.foldl_append]
  exact (h.segments last (List.mem_append_right _ List.mem_cons_self)).join_ne_empty _

private theorem Fits.parent? (h : Fits base (front ++ [last])) (hfront : front ≠ []) :
    Path.parent? ((front ++ [last]).foldl Path.join base) = some (front.foldl Path.join base) := by
  obtain ⟨others, above, rfl⟩ := (List.eq_nil_or_concat' front).resolve_left hfront
  have habove := h.of_append.segments above (List.mem_append_right _ List.mem_cons_self)
  have hlast := h.segments last (List.mem_append_right _ List.mem_cons_self)
  simp only [List.foldl_append, List.foldl_cons, List.foldl_nil]
  exact Path.parent?_join habove hlast _

theorem Fits.directory (h : Fits base (front ++ [last])) (hfront : front ≠ []) :
    Path.directory ((front ++ [last]).foldl Path.join base) = front.foldl Path.join base := by
  rw [Path.directory, h.parent? hfront]
  rfl

private theorem locate_foldl_join (hbase : fs.Leads base top) (hnames : Fits base (front ++ [last])) :
    fs.locate ((front ++ [last]).foldl Path.join base) = follow fs.root top (front ++ [last]) := by
  have habsolute := (walk_foldl_join hnames.segments [] base).1
  have hvalid : ¬ (decide (maxPathSize < ((front ++ [last]).foldl Path.join base).utf8ByteSize) ||
      ((front ++ [last]).foldl Path.join base).toList.contains (Char.ofNat 0)) := by
    simp only [Bool.or_eq_true, decide_eq_true_eq, List.contains_iff_mem, not_or, Nat.not_lt]
    exact ⟨hnames.size, hnames.noNul⟩
  have hfollows := hbase.follows
  rw [start] at hfollows
  rw [locate, if_neg hnames.ne_empty, if_neg hvalid, habsolute, follow_foldl_join hnames.segments, hfollows]
  rfl

private theorem sizes_of_follow {result : List String} (h : follow root place names = .ok result) :
    ∀ name ∈ names, name.utf8ByteSize ≤ maxNameSize := by
  induction names generalizing place with
  | nil => exact fun _ hname => absurd hname List.not_mem_nil
  | cons name names ih =>
    obtain ⟨-, hsize, hnames⟩ := follow_cons_eq_ok_iff.mp h
    exact List.forall_mem_cons.mpr ⟨hsize, ih hnames⟩

theorem withinLimits_of_locate (hnames : ∀ name ∈ names, IsSegment name)
    (h : fs.locate (names.foldl Path.join base) = .ok place) : WithinLimits base names := by
  have hfollow := follow_of_locate h
  rw [follow_foldl_join hnames] at hfollow
  obtain ⟨middle, -, hmiddle⟩ := bind_eq_ok_iff.mp hfollow
  rw [locate] at h
  split at h
  · cases h
  · split at h
    · cases h
    · rename_i hvalid
      simp only [Bool.or_eq_true, decide_eq_true_eq, List.contains_iff_mem, not_or, Nat.not_lt] at hvalid
      exact ⟨sizes_of_follow hmiddle, hvalid.1, hvalid.2⟩

/-! ### Directories -/

/-- One file system has a leaf that the other may not have, and differs in nothing else. -/
structure HasLeaf (fs next : FileSystem) (place : List String) (leaf : Tree) : Prop where
  workingDirectory : next.workingDirectory = fs.workingDirectory
  bareAt : ∀ other, next.root.bareAt? other = if other = place then some leaf else fs.root.bareAt? other
  /-- Away from the leaf no tree is another one. -/
  spared : ∀ other, ¬ other <+: place → next.root.get? other = fs.root.get? other

private theorem hasLeaf_put {leaf : Tree} (hfront : fs.root.bareAt? (top ++ front) = some (.directory []))
    (hplain : fs.root.bareAt? (top ++ (front ++ [last])) ≠ some (.directory [])) (hleaf : leaf.bare = leaf) :
    fs.HasLeaf { fs with root := fs.root.put (top ++ (front ++ [last])) leaf } (top ++ (front ++ [last])) leaf := by
  rw [← List.append_assoc] at hplain ⊢
  exact ⟨rfl, Tree.bareAt?_put hfront hplain hleaf, fun _ => Tree.get?_put hfront hplain hleaf⟩

/-- The directories of some names have been made, and nothing else has changed. -/
structure Makes (fs next : FileSystem) (top names : List String) : Prop where
  workingDirectory : next.workingDirectory = fs.workingDirectory
  made : ∀ way, way ≠ [] → way <+: names → next.root.bareAt? (top ++ way) = some (.directory [])
  kept : ∀ place, (∀ way, way ≠ [] → way <+: names → place ≠ top ++ way) → next.root.bareAt? place = fs.root.bareAt? place
  /-- Away from the last of the directories no tree is another one. -/
  spared : ∀ place, ¬ place <+: top ++ names → next.root.get? place = fs.root.get? place

theorem Makes.kept_below (h : fs.Makes next top names) {other : List String}
    (hother : ¬ (other ≠ [] ∧ other <+: names)) :
    next.root.bareAt? (top ++ other) = fs.root.bareAt? (top ++ other) :=
  h.kept _ fun _ hne hway hsame => hother (List.append_cancel_left hsame ▸ ⟨hne, hway⟩)

/-- What lies in the last of the directories is as before. -/
theorem Makes.kept_concat (h : fs.Makes next top front) :
    next.root.bareAt? (top ++ (front ++ [last])) = fs.root.bareAt? (top ++ (front ++ [last])) :=
  h.kept_below fun ⟨_, hway⟩ => absurd hway.length_le (by simp)

theorem Makes.directory (h : fs.Makes next top names) (hplace : fs.root.bareAt? place = some (.directory [])) :
    next.root.bareAt? place = some (.directory []) := by
  by_cases hway : ∃ way, way ≠ [] ∧ way <+: names ∧ place = top ++ way
  · obtain ⟨way, hne, hway, rfl⟩ := hway
    exact h.made way hne hway
  · rw [h.kept place fun way hne hnames hplace => hway ⟨way, hne, hnames, hplace⟩]
    exact hplace

theorem Leads.mono (hbase : fs.Leads base top) (hworking : next.workingDirectory = fs.workingDirectory)
    (hdirectories : ∀ place, fs.root.bareAt? place = some (.directory []) → next.root.bareAt? place = some (.directory [])) :
    next.Leads base top where
  follows := by
    have hstart : next.start base = fs.start base := by rw [start, start, hworking]
    rw [hstart]
    exact follow_mono hdirectories hbase.follows
  directory := hdirectories top hbase.directory

theorem Makes.leads (h : fs.Makes next top names) (hbase : fs.Leads base top) : next.Leads base top :=
  hbase.mono h.workingDirectory fun _ => h.directory

theorem Makes.concat {middle : FileSystem} (h : fs.Makes middle top front)
    (hnext : middle.HasLeaf next (top ++ (front ++ [last])) (.directory [])) : fs.Makes next top (front ++ [last]) where
  workingDirectory := hnext.workingDirectory.trans h.workingDirectory
  made way hne hway := by
    rw [hnext.bareAt]
    split
    · rfl
    · rename_i hother
      refine h.made way hne ((List.prefix_concat_iff.mp hway).resolve_left fun hwhole => hother ?_)
      rw [hwhole]
  kept place hplace := by
    rw [hnext.bareAt, if_neg (hplace _ (by simp) (List.prefix_refl _))]
    exact h.kept place fun way hne hway => hplace way hne (hway.trans (List.prefix_append _ _))
  spared place hplace := by
    rw [hnext.spared place hplace]
    refine h.spared place fun hway => hplace (hway.trans ?_)
    rw [← List.append_assoc]
    exact List.prefix_append _ _

theorem makes_of_directory (h : fs.root.bareAt? (top ++ names) = some (.directory [])) : fs.Makes fs top names where
  workingDirectory := rfl
  made way _ hway := by
    obtain ⟨rest, rfl⟩ := hway
    rw [← List.append_assoc] at h
    exact directory_of_append h
  kept _ _ := rfl
  spared _ _ := rfl

theorem createDirectory_eq {path : String} (hbare : Path.withoutTrailingSlashes path = path) :
    fs.createDirectory path = fs.locate path >>= fun place =>
      if (fs.root.get? place).isSome then .error .alreadyExists
      else .ok { fs with root := fs.root.put place (.directory []) } := by
  rw [createDirectory]
  split
  · rename_i hlong
    have hne : path ≠ "" := by
      rintro rfl
      exact absurd hlong (by decide)
    simp only [locate, hne, hlong, decide_true, Bool.true_or, if_true, if_false]
    rfl
  · simp only [hbare, ite_self]
    congr 1
    funext place
    cases fs.root.get? place <;> rfl

theorem isDirectory_of_locate {path : String} (hlocate : fs.locate path = .ok place)
    (hplace : fs.root.bareAt? place = some (.directory [])) : fs.isDirectory path = true := by
  obtain ⟨entries, hget⟩ := Tree.bareAt?_eq_directory_iff.mp hplace
  have hfind : fs.find path = .ok (.directory entries) :=
    bind_eq_ok_iff.mpr ⟨place, hlocate, by rw [hget]⟩
  rw [isDirectory, hfind]
  rfl

section Creation

variable (hbase : fs.Leads base top) (hnames : Fits base (front ++ [last]))
include hbase hnames

theorem locate_of_directory (hfront : fs.root.bareAt? (top ++ front) = some (.directory [])) :
    fs.locate ((front ++ [last]).foldl Path.join base) = .ok (top ++ (front ++ [last])) := by
  have hsegments := List.forall_mem_append.mp hnames.segments
  have hsizes := List.forall_mem_append.mp hnames.sizes
  rw [locate_foldl_join hbase hnames, follow_append, follow_of_directory hsegments.1 hsizes.1 hfront, ← List.append_assoc]
  exact follow_singleton hfront (hsegments.2 last List.mem_cons_self) (hsizes.2 last List.mem_cons_self)

private theorem exists_createDirectory (hfront : fs.root.bareAt? (top ++ front) = some (.directory []))
    (hvacant : fs.root.bareAt? (top ++ (front ++ [last])) = none) :
    ∃ next, fs.createDirectory ((front ++ [last]).foldl Path.join base) = .ok next ∧
      fs.HasLeaf next (top ++ (front ++ [last])) (.directory []) := by
  refine ⟨_, ?_, hasLeaf_put hfront (by simp [hvacant]) rfl⟩
  rw [createDirectory_eq hnames.withoutTrailingSlashes, locate_of_directory hbase hnames hfront]
  refine if_neg ?_
  rw [Tree.bareAt?_eq_none_iff.mp hvacant]
  exact Bool.false_ne_true

private theorem createDirectory_of_directory (h : fs.root.bareAt? (top ++ (front ++ [last])) = some (.directory [])) :
    fs.createDirectory ((front ++ [last]).foldl Path.join base) = .error .alreadyExists ∧
      fs.isDirectory ((front ++ [last]).foldl Path.join base) = true := by
  have hfront : fs.root.bareAt? (top ++ front) = some (.directory []) := by
    rw [← List.append_assoc] at h
    exact directory_of_append h
  have hlocate := locate_of_directory hbase hnames hfront
  obtain ⟨entries, hget⟩ := Tree.bareAt?_eq_directory_iff.mp h
  refine ⟨?_, isDirectory_of_locate hlocate h⟩
  rw [createDirectory_eq hnames.withoutTrailingSlashes, hlocate]
  refine if_pos ?_
  rw [hget]
  rfl

private theorem createDirectory_of_missing
    (hfree : ∀ way, way <+: front → fs.root.bareAt? (top ++ way) = none ∨ fs.root.bareAt? (top ++ way) = some (.directory []))
    (hmissing : fs.root.bareAt? (top ++ front) = none) :
    fs.createDirectory ((front ++ [last]).foldl Path.join base) = .error .notFound := by
  have hsegments := List.forall_mem_append.mp hnames.segments
  have hsizes := List.forall_mem_append.mp hnames.sizes
  rw [createDirectory_eq hnames.withoutTrailingSlashes, locate_foldl_join hbase hnames,
    follow_of_missing hsegments.1 hsizes.1 hbase.directory hfree hmissing]
  rfl

end Creation

/-- Where nothing but directories is in the way, all directories of some names come to exist. -/
theorem exists_createAncestors {fuel : Nat} (hfuel : names.length ≤ fuel) (hne : names ≠ []) (hbase : fs.Leads base top)
    (hnames : Fits base names)
    (hfree : ∀ way, way <+: names → fs.root.bareAt? (top ++ way) = none ∨ fs.root.bareAt? (top ++ way) = some (.directory [])) :
    ∃ next, createAncestors fuel (names.foldl Path.join base) fs = (.ok (), next) ∧ fs.Makes next top names := by
  induction names using List.reverseRecOn generalizing fuel with
  | nil => exact absurd rfl hne
  | append_singleton front last ih =>
    obtain ⟨fuel, rfl⟩ : ∃ less, fuel = less + 1 := Nat.exists_eq_succ_of_ne_zero (by
      rw [List.length_append, List.length_singleton] at hfuel
      omega)
    have hfront : front <+: front ++ [last] := List.prefix_append _ _
    have hfreeFront := fun way (hway : way <+: front) => hfree way (hway.trans hfront)
    rw [createAncestors, if_neg hnames.ne_empty]
    rcases hfree front hfront with hparent | hparent
    · -- the directory above comes first
      have hfrontNe : front ≠ [] := by
        rintro rfl
        rw [List.append_nil, hbase.directory] at hparent
        cases hparent
      have hless : front.length ≤ fuel := by
        rw [List.length_append, List.length_singleton] at hfuel
        omega
      obtain ⟨middle, hmiddle, hmade⟩ := ih hless hfrontNe hnames.of_append hfreeFront
      have hvacant : middle.root.bareAt? (top ++ (front ++ [last])) = none := by
        rw [hmade.kept_concat, ← List.append_assoc, Tree.bareAt?_eq_none_iff]
        exact Tree.get?_below (by simp [hparent]) (List.cons_ne_nil _ _)
      obtain ⟨next, hnext, hleaf⟩ := exists_createDirectory (hmade.leads hbase) hnames
        (hmade.made _ hfrontNe (List.prefix_refl _)) hvacant
      simp only [createDirectory_of_missing hbase hnames hfreeFront hparent, hnames.parent? hfrontNe, hmiddle, hnext]
      exact ⟨next, rfl, hmade.concat hleaf⟩
    · rcases hfree (front ++ [last]) (List.prefix_refl _) with hvacant | hdirectory
      -- only the last directory is missing, or none is
      · obtain ⟨next, hnext, hleaf⟩ := exists_createDirectory hbase hnames hparent hvacant
        simp only [hnext]
        exact ⟨next, rfl, (makes_of_directory hparent).concat hleaf⟩
      · obtain ⟨hcreate, hexists⟩ := createDirectory_of_directory hbase hnames hdirectory
        simp only [hcreate, hexists, if_pos]
        exact ⟨fs, rfl, makes_of_directory hdirectory⟩

/-! ### Files -/

theorem exists_write (hbase : fs.Leads base top) (hnames : Fits base (front ++ [last]))
    (hfront : fs.root.bareAt? (top ++ front) = some (.directory []))
    (hplain : fs.root.bareAt? (top ++ (front ++ [last])) ≠ some (.directory [])) (content : ByteArray) :
    ∃ next, fs.write ((front ++ [last]).foldl Path.join base) content = .ok next ∧
      fs.HasLeaf next (top ++ (front ++ [last])) (.file content) := by
  refine ⟨_, bind_eq_ok_iff.mpr ⟨_, locate_of_directory hbase hnames hfront, ?_⟩, hasLeaf_put hfront hplain rfl⟩
  split
  · rename_i entries hget
    exact absurd (Tree.bareAt?_eq_directory_iff.mpr ⟨entries, hget⟩) hplain
  · rfl

end SchemaDocs.FileSystem
