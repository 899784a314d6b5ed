import SchemaDocs.Proofs.Navigation.Grafting
import SchemaDocs.Proofs.Navigation.Placement
import SchemaDocs.Proofs.Navigation.Rehoming
import SchemaDocs.Proofs.Schema.Outcome

/-!
# The shape of the merged tree

A merged tree consists of its root, the folders on the way to pages, the pages that are listed, each
in the folder that it declares or in that of its directories, and the reference subtree, with a
group for each kind and a leaf for each entry. There is nothing else, and no page lies in the
reference subtree. `HasShape` says this about the finished tree alone.
-/

namespace SchemaDocs

namespace PageTree

variable {base tree next : PageTree} {index reference parent left right : Nat} {groups : List (Nat × Kind)}
  {leaves : List Entry} {registry : Registry} {sources : List SourcePage} {way : List String}

/-! ### Below and beside the reference -/

namespace Grafted

private theorem atOrAbove_iff (h : Grafted base groups leaves tree) (hindex : index < tree.size) :
    tree.AtOrAbove base.size index ↔ base.size ≤ index := by
  constructor
  · intro habove
    clear hindex
    induction habove with
    | self => exact Nat.le_refl _
    | @up index parent hparent _ ih =>
      by_contra hlt
      rw [(h.kept index (by omega)).2] at hparent
      have hbase := h.basis.parent_lt hparent
      omega
  · intro hbelow
    rcases Nat.eq_or_lt_of_le hbelow with rfl | habove
    · exact .self
    · rcases h.kinds index habove hindex with hkind | hkind
      · obtain ⟨position, -, hgroup⟩ := (exists_of_mem_forall₂ h.groups).2 index (mem_numbersOf_iff.mpr ⟨hindex, hkind⟩)
        exact .up hgroup.parent .self
      · obtain ⟨declared, -, hleaf⟩ := (exists_of_mem_forall₂ h.leaves).2 index (mem_numbersOf_iff.mpr ⟨hindex, hkind⟩)
        obtain ⟨group, rank, hparent, hgroup⟩ := hleaf.parent
        exact .up hparent (.up hgroup.parent .self)

theorem origin_iff (h : Grafted base groups leaves tree)
    (horigins : ∀ index < base.size, (base.node index).origin = .page)
    (hindex : index < tree.size) : (tree.node index).origin = .reference ↔ base.size ≤ index := by
  constructor
  · intro horigin
    by_contra hlt
    have hpage := horigins index (by omega)
    rw [← (h.kept index (by omega)).1, horigin] at hpage
    cases hpage
  · intro hbelow
    rw [NavEntry.origin]
    rcases Nat.eq_or_lt_of_le hbelow with rfl | habove
    · rw [h.entry]
      rfl
    · rcases h.kinds index habove hindex with hkind | hkind <;> rw [hkind] <;> rfl

theorem reaches_iff (h : Grafted base groups leaves tree) : tree.Reaches way index ↔ base.Reaches way index := by
  constructor
  · intro hway
    refine hway.mono fun index hindex hkind => ?_
    have hlt : index < base.size := by
      by_contra hbelow
      rcases Nat.eq_or_lt_of_le (Nat.le_of_not_lt hbelow) with rfl | habove
      · rw [h.entry] at hkind
        cases hkind
      · rcases h.kinds index habove hindex with hother | hother <;> rw [hkind] at hother <;> cases hother
    rw [(h.kept index hlt).1, (h.kept index hlt).2]
    exact ⟨rfl, rfl, rfl⟩
  · intro hway
    refine hway.mono fun index hindex _ => ?_
    rw [(h.kept index hindex).1, (h.kept index hindex).2]
    exact ⟨rfl, rfl, rfl⟩

/-! ### Identities in the reference -/

private theorem pieces_id (h : Grafted base groups leaves tree) (hindex : index < tree.size)
    (hbelow : base.size ≤ index) :
    index = base.size ∧ Text.pieces '/' (tree.node index).id = ["reference"] ∨
      (∃ position, tree.HoldsGroup base.size index position ∧
        Text.pieces '/' (tree.node index).id = ["reference", position.2.tag]) ∨
      ∃ declared, tree.HoldsLeaf base.size index declared ∧
        Text.pieces '/' (tree.node index).id =
          ["reference", declared.kind.tag] ++ Text.pieces '/' declared.qualifiedName := by
  have htag (kind : Kind) : Text.pieces '/' kind.tag = [kind.tag] := by
    cases kind <;> decide
  have hgroup (kind : Kind) : Text.pieces '/' ("reference/" ++ kind.tag) = ["reference", kind.tag] := by
    have hseam := Text.pieces_append_separator (show "/".toList = ['/'] from rfl) "reference" kind.tag
    rw [htag] at hseam
    exact hseam
  rcases Nat.eq_or_lt_of_le hbelow with rfl | habove
  · rw [h.entry]
    exact .inl ⟨rfl, by decide⟩
  · rcases h.kinds index habove hindex with hkind | hkind
    · obtain ⟨position, -, hholds⟩ := (exists_of_mem_forall₂ h.groups).2 index (mem_numbersOf_iff.mpr ⟨hindex, hkind⟩)
      refine .inr (.inl ⟨position, hholds, ?_⟩)
      rw [hholds.entry]
      exact hgroup position.2
    · obtain ⟨declared, -, hholds⟩ := (exists_of_mem_forall₂ h.leaves).2 index (mem_numbersOf_iff.mpr ⟨hindex, hkind⟩)
      refine .inr (.inr ⟨declared, hholds, ?_⟩)
      rw [hholds.entry, ← hgroup declared.kind]
      exact Text.pieces_append_separator rfl _ _

/-- A group is the only one of its kind. -/
theorem group_unique (h : Grafted base groups leaves tree) {position other : Nat × Kind}
    (hleft : tree.HoldsGroup base.size left position) (hright : tree.HoldsGroup base.size right other)
    (hkind : position.2 = other.2) : left = right := by
  refine h.differ base.size left ((h.linked.mem_children_iff _ _).mpr hleft.parent) right
    ((h.linked.mem_children_iff _ _).mpr hright.parent) ?_ ?_
  · rw [hleft.entry, hright.entry]
    rfl
  · rw [hleft.entry, hright.entry]
    exact congrArg Kind.tag hkind

private theorem leaf_unique (h : Grafted base groups leaves tree) {declared other : Entry}
    (hleft : tree.HoldsLeaf base.size left declared) (hright : tree.HoldsLeaf base.size right other)
    (hkind : declared.kind = other.kind) (hname : declared.qualifiedName = other.qualifiedName) : left = right := by
  obtain ⟨leftGroup, leftRank, hleftParent, hleftGroup⟩ := hleft.parent
  obtain ⟨rightGroup, rightRank, hrightParent, hrightGroup⟩ := hright.parent
  obtain rfl := h.group_unique hleftGroup hrightGroup hkind
  refine h.differ leftGroup left ((h.linked.mem_children_iff _ _).mpr hleftParent) right
    ((h.linked.mem_children_iff _ _).mpr hrightParent) ?_ ?_
  · rw [hleft.entry, hright.entry]
    rfl
  · rw [hleft.entry, hright.entry]
    exact hname

private theorem eq_of_id (h : Grafted base groups leaves tree) (hleft : left < tree.size) (hright : right < tree.size)
    (hleftBelow : base.size ≤ left) (hrightBelow : base.size ≤ right) (hid : (tree.node left).id = (tree.node right).id) :
    left = right := by
  have hne (name : String) : Text.pieces '/' name ≠ [] := Text.pieces_ne_nil '/' name
  rcases h.pieces_id hleft hleftBelow with ⟨hroot, hpieces⟩ | ⟨position, hgroup, hpieces⟩ | ⟨declared, hleaf, hpieces⟩ <;>
    rcases h.pieces_id hright hrightBelow with ⟨hotherRoot, hother⟩ | ⟨otherPosition, hotherGroup, hother⟩ |
      ⟨otherDeclared, hotherLeaf, hother⟩ <;>
    rw [hid, hother] at hpieces
  · exact hroot.trans hotherRoot.symm
  · simp at hpieces
  · simp at hpieces
  · simp at hpieces
  · refine h.group_unique hgroup hotherGroup (Kind.tag_injective ?_)
    simpa using hpieces.symm
  · simp [hne] at hpieces
  · simp at hpieces
  · simp [hne] at hpieces
  · simp only [List.cons_append, List.nil_append, List.cons.injEq, true_and] at hpieces
    exact h.leaf_unique hleaf hotherLeaf (Kind.tag_injective hpieces.1.symm) (Text.pieces_injective '/' hpieces.2.symm)

private theorem idsDiffer (h : Grafted base groups leaves tree)
    (horigins : ∀ index < base.size, (base.node index).origin = .page) (hids : base.IdsDiffer) : tree.IdsDiffer := by
  intro left hleft right hright hleftRoot hrightRoot horigin hid
  by_cases hbelow : base.size ≤ left
  · have hreference := (h.origin_iff horigins hleft).mpr hbelow
    rw [horigin, h.origin_iff horigins hright] at hreference
    exact h.eq_of_id hleft hright hbelow hreference hid
  · have hother : ¬ base.size ≤ right := by
      rw [← h.origin_iff horigins hright, ← horigin, h.origin_iff horigins hleft]
      exact hbelow
    have hleftSize : left < base.size := by omega
    have hrightSize : right < base.size := by omega
    rw [(h.kept left hleftSize).1, (h.kept right hrightSize).1] at horigin hid
    exact hids left hleftSize right hrightSize hleftRoot hrightRoot horigin hid

/-! ### Pages and folders beside the reference -/

section

variable {isFolder : List String → Prop} {stands : List Stand}

private theorem lt_of_origin (h : Grafted base groups leaves tree)
    (horigins : ∀ index < base.size, (base.node index).origin = .page)
    (hindex : index < tree.size) (horigin : (tree.node index).origin = .page) : index < base.size := by
  by_contra hbelow
  have hreference := (h.origin_iff horigins hindex).mpr (Nat.le_of_not_lt hbelow)
  rw [horigin] at hreference
  cases hreference

theorem kind_eq_root_iff (h : Grafted base groups leaves tree) (harranged : base.Arranged isFolder stands)
    (hindex : index < tree.size) : (tree.node index).kind = .root ↔ index = root := by
  constructor
  · intro hkind
    have hlt := h.lt_of_origin (fun index => harranged.origin_eq) hindex (by rw [NavEntry.origin, hkind]; rfl)
    rw [(h.kept index hlt).1] at hkind
    by_contra hne
    rcases harranged.kinds index hlt hne with hother | hother <;> rw [hkind] at hother <;> cases hother
  · intro hsame
    subst hsame
    rw [(h.kept root h.basis.nonempty).1]
    exact harranged.root_kind

theorem kind_eq_referenceRoot_iff (h : Grafted base groups leaves tree)
    (horigins : ∀ index < base.size, (base.node index).origin = .page) (hindex : index < tree.size) :
    (tree.node index).kind = .referenceRoot ↔ index = base.size := by
  constructor
  · intro hkind
    rcases Nat.lt_trichotomy index base.size with hlt | hsame | habove
    · have horigin := horigins index hlt
      rw [← (h.kept index hlt).1, NavEntry.origin, hkind] at horigin
      cases horigin
    · exact hsame
    · rcases h.kinds index habove hindex with hother | hother <;> rw [hkind] at hother <;> cases hother
  · intro hsame
    subst hsame
    rw [h.entry]
    rfl

private theorem exists_way_of_folder (h : Grafted base groups leaves tree) (harranged : base.Arranged isFolder stands)
    (hkind : (tree.node index).kind = .folder) : ∃ way, tree.Reaches way index := by
  have hindex : index < tree.size := by
    by_contra hsize
    rw [node_of_size_le (Nat.le_of_not_lt hsize)] at hkind
    cases hkind
  have hlt := h.lt_of_origin (fun index => harranged.origin_eq) hindex (by rw [NavEntry.origin, hkind]; rfl)
  rw [(h.kept index hlt).1] at hkind
  obtain ⟨way, hway⟩ := harranged.reached index hkind
  exact ⟨way, h.reaches_iff.mpr hway⟩

private theorem holds_pages (h : Grafted base groups leaves tree) (harranged : base.Arranged isFolder stands) :
    List.Forall₂ tree.Holds (tree.numbersOf .page) stands := by
  rw [h.authored .page rfl]
  refine forall₂_imp_of_mem harranged.pages fun index hindex stand hholds => ?_
  have hkept := h.kept index (mem_numbersOf_iff.mp hindex).1
  obtain ⟨parent, hparent, hbelow⟩ := hholds.below
  exact ⟨hkept.1.trans hholds.entry, parent, hkept.2.trans hparent, h.reaches_iff.mpr hbelow⟩

end

end Grafted

/-! ### The whole tree -/

/-- What a merged tree consists of. -/
structure HasShape (sources : List SourcePage) (registry : Registry) (reference : Nat) (tree : PageTree) : Prop where
  /-- Nodes other than the root are known by origin and identity. -/
  ids : tree.IdsDiffer
  root_iff : ∀ index < tree.size, (tree.node index).kind = .root ↔ index = root
  /-- There is a folder for each directory on the way to a page, below the folder of its parent. -/
  folders : ∀ way, HasFolder sources way ↔ ∃ index ≠ root, tree.Reaches way index
  folder_unique : ∀ way left right, tree.Reaches way left → tree.Reaches way right → left = right
  folder_id : ∀ way index, tree.Reaches way index → (tree.node index).id = String.intercalate "/" way
  /-- There are no other folders. -/
  reached : ∀ index, (tree.node index).kind = .folder → ∃ way, tree.Reaches way index
  /-- The pages are those that are listed, each in the folder where it is to stand. -/
  pages : List.Forall₂ tree.Holds (tree.numbersOf .page) (finalLayout sources)
  homes : ∀ stand ∈ finalLayout sources, stand.page.IsHome sources stand.way
  page_ids : (tree.numbersOf .page).map (fun index => (tree.node index).id) = (listedPages sources).map SourcePage.id
  page_ids_nodup : ((listedPages sources).map SourcePage.id).Nodup
  reference_iff : ∀ index < tree.size, (tree.node index).kind = .referenceRoot ↔ index = reference
  reference_entry : (tree.node reference).toNavEntry = referenceEntry
  reference_parent : (tree.node reference).parent = some root
  /-- There is a group for each kind that has entries. -/
  groups : List.Forall₂ (tree.HoldsGroup reference) (tree.numbersOf .referenceGroup) (groupsOf registry)
  /-- There is a leaf for each entry, in the group of its kind. -/
  leaves : ∃ entries : List Entry, entries.Perm registry.entries ∧
    List.Forall₂ (tree.HoldsLeaf reference) (tree.numbersOf .reference) entries
  /-- The reference subtree holds the nodes of the reference, and no others. -/
  below_iff : ∀ index < tree.size, tree.AtOrAbove reference index ↔ (tree.node index).origin = .reference

namespace HasShape

private theorem map_id_of_holds (h : List.Forall₂ tree.Holds (tree.numbersOf .page) (finalLayout sources)) :
    (tree.numbersOf .page).map (fun index => (tree.node index).id) = (listedPages sources).map SourcePage.id := by
  have hstands : (listedPages sources).map SourcePage.id = (finalLayout sources).map fun stand => stand.page.id := by
    simp [finalLayout, standing]
  rw [hstands]
  refine map_eq_map_of_forall₂ (fun index stand hholds => ?_) h
  rw [hholds.entry]
  rfl

private theorem nodup_map_id (hids : tree.IdsDiffer) (hroot : (tree.node root).kind = .root) :
    ((tree.numbersOf .page).map fun index => (tree.node index).id).Nodup := by
  refine List.Nodup.map_on (fun left hleft right hright hid => ?_) (nodup_numbersOf tree .page)
  obtain ⟨hleftSize, hleftKind⟩ := mem_numbersOf_iff.mp hleft
  obtain ⟨hrightSize, hrightKind⟩ := mem_numbersOf_iff.mp hright
  have hne {index : Nat} (hkind : (tree.node index).kind = .page) : index ≠ root := by
    intro hsame
    rw [hsame, hroot] at hkind
    cases hkind
  exact hids left hleftSize right hrightSize (hne hleftKind) (hne hrightKind)
    (by rw [NavEntry.origin, NavEntry.origin, hleftKind, hrightKind]) hid

private theorem of_grafted (hsources : ∀ source ∈ sources, source.IsNamed)
    (harranged : base.Arranged (HasFolder sources) (finalLayout sources)) (hids : base.IdsDiffer)
    (h : Grafted base (groupsOf registry) (leavesOf registry) tree) : HasShape sources registry base.size tree where
  ids := h.idsDiffer (fun index => harranged.origin_eq) hids
  root_iff index := h.kind_eq_root_iff harranged
  folders way := by
    constructor
    · intro hfolder
      obtain ⟨index, hway⟩ := (harranged.folders way).mpr (.inr hfolder)
      refine ⟨index, fun hroot => ?_, h.reaches_iff.mpr hway⟩
      subst hroot
      exact hfolder.1 (hway.way_eq harranged.linked .root)
    · intro hreached
      obtain ⟨index, hne, hway⟩ := hreached
      exact harranged.isFolder_of_reaches (h.reaches_iff.mp hway) hne
  folder_unique way left right hleft hright :=
    (h.reaches_iff.mp hleft).unique harranged.linked harranged.differ (h.reaches_iff.mp hright)
  folder_id way index hway := by
    have hbase := h.reaches_iff.mp hway
    rw [(h.kept index (hbase.lt_size harranged.linked)).1]
    exact harranged.ids way index hbase
  reached index := h.exists_way_of_folder harranged
  pages := h.holds_pages harranged
  homes stand hstand := by
    rw [finalLayout, standing, List.map_nil, List.append_nil, List.mem_map] at hstand
    obtain ⟨source, -, rfl⟩ := hstand
    exact SourcePage.isHome_home hsources source
  page_ids := map_id_of_holds (h.holds_pages harranged)
  page_ids_nodup := by
    have hroot := (h.kind_eq_root_iff harranged (Nat.lt_trans h.basis.nonempty h.lt_size)).mpr rfl
    rw [← map_id_of_holds (h.holds_pages harranged)]
    exact nodup_map_id (h.idsDiffer (fun index => harranged.origin_eq) hids) hroot
  reference_iff index := h.kind_eq_referenceRoot_iff fun index => harranged.origin_eq
  reference_entry := h.entry
  reference_parent := h.parent
  groups := h.groups
  leaves := ⟨leavesOf registry, leavesOf_perm registry, h.leaves⟩
  below_iff index hindex := by
    rw [h.atOrAbove_iff hindex, h.origin_iff (fun index => harranged.origin_eq) hindex]

end HasShape

/-! ### Trees with other orders -/

/-- Trees have the same nodes, but for the order of their children. -/
structure SameNodes (tree next : PageTree) : Prop where
  size : next.size = tree.size
  entry : ∀ index, (next.node index).toNavEntry = (tree.node index).toNavEntry
  parent : ∀ index, (next.node index).parent = (tree.node index).parent

namespace SameNodes

theorem of_sort (tree : PageTree) : tree.SameNodes tree.sort := by
  refine ⟨size_sort tree, fun index => ?_, fun index => ?_⟩ <;> rw [node_sort]

private theorem numbersOf (h : tree.SameNodes next) (kind : NodeKind) : next.numbersOf kind = tree.numbersOf kind :=
  numbersOf_congr h.size fun index _ => by rw [h.entry]

theorem reaches_iff (h : tree.SameNodes next) : next.Reaches way index ↔ tree.Reaches way index :=
  Reaches.iff_of_keeps (fun index => by rw [h.entry]) (fun index => by rw [h.entry]) fun index _ => h.parent index

theorem atOrAbove_iff (h : tree.SameNodes next) {ancestor : Nat} :
    next.AtOrAbove ancestor index ↔ tree.AtOrAbove ancestor index := by
  constructor
  · intro habove
    exact habove.mono fun index parent hparent => (h.parent index).symm.trans hparent
  · intro habove
    exact habove.mono fun index parent hparent => (h.parent index).trans hparent

private theorem holds (h : tree.SameNodes next) {stand : Stand} (hholds : tree.Holds index stand) :
    next.Holds index stand := by
  obtain ⟨parent, hparent, hbelow⟩ := hholds.below
  exact ⟨(h.entry index).trans hholds.entry, parent, (h.parent index).trans hparent, h.reaches_iff.mpr hbelow⟩

private theorem holdsGroup (h : tree.SameNodes next) {position : Nat × Kind}
    (hholds : tree.HoldsGroup reference index position) :
    next.HoldsGroup reference index position :=
  ⟨(h.entry index).trans hholds.entry, (h.parent index).trans hholds.parent⟩

private theorem holdsLeaf (h : tree.SameNodes next) {declared : Entry}
    (hholds : tree.HoldsLeaf reference index declared) :
    next.HoldsLeaf reference index declared := by
  obtain ⟨group, rank, hparent, hgroup⟩ := hholds.parent
  exact ⟨(h.entry index).trans hholds.entry, group, rank, (h.parent index).trans hparent, h.holdsGroup hgroup⟩

end SameNodes

private theorem HasShape.of_sameNodes (h : HasShape sources registry reference tree) (hsame : tree.SameNodes next) :
    HasShape sources registry reference next where
  ids := h.ids.of_entries hsame.size hsame.entry
  root_iff index hindex := by
    rw [hsame.entry]
    exact h.root_iff index (hsame.size ▸ hindex)
  folders way := by
    simp only [hsame.reaches_iff]
    exact h.folders way
  folder_unique way left right := by
    rw [hsame.reaches_iff, hsame.reaches_iff]
    exact h.folder_unique way left right
  folder_id way index := by
    rw [hsame.reaches_iff, hsame.entry]
    exact h.folder_id way index
  reached index := by
    simp only [hsame.reaches_iff, hsame.entry]
    exact h.reached index
  pages := by
    rw [hsame.numbersOf]
    exact h.pages.imp fun index stand => hsame.holds
  homes := h.homes
  page_ids := by
    rw [hsame.numbersOf, ← h.page_ids]
    exact List.map_congr_left fun index _ => by rw [hsame.entry]
  page_ids_nodup := h.page_ids_nodup
  reference_iff index hindex := by
    rw [hsame.entry]
    exact h.reference_iff index (hsame.size ▸ hindex)
  reference_entry := (hsame.entry reference).trans h.reference_entry
  reference_parent := (hsame.parent reference).trans h.reference_parent
  groups := by
    rw [hsame.numbersOf]
    exact h.groups.imp fun index position => hsame.holdsGroup
  leaves := by
    obtain ⟨entries, hperm, hleaves⟩ := h.leaves
    rw [hsame.numbersOf]
    exact ⟨entries, hperm, hleaves.imp fun index declared => hsame.holdsLeaf⟩
  below_iff index hindex := by
    rw [hsame.atOrAbove_iff, NavEntry.origin, hsame.entry, ← NavEntry.origin]
    exact h.below_iff index (hsame.size ▸ hindex)

/-! ### Merging -/

variable {title directory : String} {files : FileSystem} {schema : Schema}

/-- A merged tree has its shape. On the way to it no directory was described twice, and every layout
was sound. -/
theorem merged_cases (hsources : ∀ source ∈ sources, source.IsNamed) (hnamed : WellNamed registry.entries)
    (hok : merge title sources registry = .ok tree) :
    ((indexPages sources).map SourcePage.id).Nodup ∧
      (∀ moved waiting, moved ++ waiting = listedPages sources → Apart (HasFolder sources) (standing sources moved waiting)) ∧
      ∃ reference, HasShape sources registry reference tree := by
  obtain ⟨placed, rehomed, merged, hplaced, hrehomed, hmerged, rfl⟩ := merge_eq_ok_iff.mp hok
  obtain ⟨-, hindex⟩ := arranged_of_placeAll hplaced
  obtain ⟨hfinal, hids, hlayouts⟩ := arranged_of_rehomeAll hsources hplaced hrehomed
  have hshape := HasShape.of_grafted hsources hfinal hids (grafted_of_addReference hfinal hnamed hmerged)
  exact ⟨hindex, hlayouts, _, hshape.of_sameNodes (.of_sort merged)⟩

/-- Pages and entries can be merged where no directory is described twice and every layout on the
way is sound. -/
theorem exists_merge (title : String) (hsources : ∀ source ∈ sources, source.IsNamed)
    (hnamed : WellNamed registry.entries) (hindex : ((indexPages sources).map SourcePage.id).Nodup)
    (hapart : ∀ moved waiting, moved ++ waiting = listedPages sources →
      Apart (HasFolder sources) (standing sources moved waiting)) : ∃ tree, merge title sources registry = .ok tree := by
  obtain ⟨placed, hplaced⟩ :=
    (arranged_new title).exists_placeAll (hapart [] _ rfl) hindex fun _ hid => absurd hid List.not_mem_nil
  obtain ⟨hdirectories, -⟩ := arranged_of_placeAll hplaced
  obtain ⟨rehomed, hrehomed⟩ :=
    Arranged.exists_rehomeAll hsources hdirectories (hdirectories.idsDiffer hsources) hapart
  obtain ⟨hfinal, -, -⟩ := arranged_of_rehomeAll hsources hplaced hrehomed
  obtain ⟨merged, hmerged, -⟩ :=
    exists_addReference hfinal.linked hfinal.differ (fun index => hfinal.origin_eq) hnamed
  exact ⟨merged.sort, merge_eq_ok_iff.mpr ⟨placed, rehomed, merged, hplaced, hrehomed, hmerged, rfl⟩⟩

/-- The tree of the pages that are found and of a schema consists of these pages, their folders and
the entries of the schema, and of nothing else. -/
theorem hasShape_of_merge (hfiles : files.root.IsNamed) (hregistry : Registry.build schema = .ok registry)
    (hok : merge title (Discovery.discover files directory) registry = .ok tree) :
    ∃ reference, HasShape (Discovery.discover files directory) registry reference tree := by
  have hsources : ∀ source ∈ Discovery.discover files directory, source.IsNamed := fun _ =>
    Discovery.isNamed_of_mem_discover hfiles
  obtain ⟨-, -, hshape⟩ := merged_cases hsources (wellNamed_of_build hregistry) hok
  exact hshape

/-- A page that declares a folder, and a page that describes this folder. -/
def sampleFiles : FileSystem where
  root := .directory [
    ("p", .directory [
      ("guides", .directory [("index.md", .file "".toUTF8)]),
      ("setup.md", .file "---\nparent: guides\n---\n".toUTF8)])]

def sampleSchema : Schema where
  output := "o"
  files := [{ name := "a" }]

theorem sampleFiles_named : sampleFiles.root.IsNamed := by
  have hname (name : String) (h : name ≠ "" ∧ '/' ∉ name.toList) : IsEntryName name := ⟨h.1, h.2⟩
  exact ⟨hname _ (by decide), ⟨hname _ (by decide), ⟨hname _ (by decide), trivial, trivial⟩, hname _ (by decide), trivial,
    trivial⟩, trivial⟩

theorem sampleSchema_registered : Registry.build sampleSchema = .ok (.ofEntries sampleSchema.entries) := rfl

theorem hasShape_of_merge_sample :
    ∃ registry tree reference, Registry.build sampleSchema = .ok registry ∧
      merge "Docs" (Discovery.discover sampleFiles "p") registry = .ok tree ∧
      HasShape (Discovery.discover sampleFiles "p") registry reference tree := by
  have hmerges : (merge "Docs" (Discovery.discover sampleFiles "p") (.ofEntries sampleSchema.entries)).toOption.isSome := by
    decide +kernel
  cases hok : merge "Docs" (Discovery.discover sampleFiles "p") (.ofEntries sampleSchema.entries) with
  | error collision =>
    rw [hok] at hmerges
    cases hmerges
  | ok tree =>
    obtain ⟨reference, hshape⟩ := hasShape_of_merge sampleFiles_named sampleSchema_registered hok
    exact ⟨_, tree, reference, sampleSchema_registered, hok, hshape⟩

end PageTree

end SchemaDocs
