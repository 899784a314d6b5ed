import SchemaDocs.Proofs.Navigation.Shape
import SchemaDocs.Proofs.Navigation.Siblings

/-!
# The two parts of the tree

What readers see of a merged tree has two parts, each of which knows nothing of the other: the pages are
seen as in a tree of their own, and behind them below the root comes the reference, which is the same
wherever it is hung. Neither names nor identities that the two share make a difference, since adding the
reference changes no node that is there but for the children of the root.
-/

namespace SchemaDocs

namespace PageTree

variable {base tree middle next : PageTree} {index parent changed group reference : Nat} {kind : Kind} {declared : Entry}
  {position : Nat × Kind} {registry : Registry}

/-! ### Nodes that stay -/

/-- All nodes of a tree show what they showed, and all but one have the children that they had. -/
structure KeepsLinks (tree next : PageTree) (changed : Nat) : Prop where
  size : tree.size ≤ next.size
  entry : ∀ index < tree.size, (next.node index).toNavEntry = (tree.node index).toNavEntry
  children : ∀ index < tree.size, index ≠ changed → (next.node index).children = (tree.node index).children

theorem KeepsLinks.refl (tree : PageTree) :
    tree.KeepsLinks tree changed := ⟨Nat.le_refl _, fun _ _ => rfl, fun _ _ _ => rfl⟩

private theorem KeepsLinks.trans {later : Nat} (h : tree.KeepsLinks middle changed)
    (hnext : middle.KeepsLinks next later)
    (hlater : later = changed ∨ tree.size ≤ later) : tree.KeepsLinks next changed where
  size := Nat.le_trans h.size hnext.size
  entry index hindex := (hnext.entry index (Nat.lt_of_lt_of_le hindex h.size)).trans (h.entry index hindex)
  children index hindex hne := by
    refine (hnext.children index (Nat.lt_of_lt_of_le hindex h.size) ?_).trans (h.children index hindex hne)
    rintro rfl
    rcases hlater with hsame | hnew
    · exact hne hsame
    · omega

private theorem Adds.keepsLinks {entry : NavEntry} (hadds : tree.Adds next parent entry) :
    tree.KeepsLinks next parent where
  size := by rw [hadds.size]; omega
  entry _ hindex := hadds.entry_of_lt hindex
  children index _ hne := by rw [hadds.children, if_neg hne]

theorem Adds.children_new {entry : NavEntry} (hparent : parent < tree.size) (hadds : tree.Adds next parent entry) :
    (next.node tree.size).children = [] := by
  rw [hadds.children, if_neg (Nat.ne_of_gt hparent), node_of_size_le (Nat.le_refl _)]
  rfl

/-! ### What the reference shows -/

/-- A node is the leaf of a declaration, with nothing below it. -/
structure ShowsLeaf (tree : PageTree) (kind : Kind) (index : Nat) (declared : Entry) : Prop where
  lt : index < tree.size
  entry : (tree.node index).toNavEntry = leafEntry kind declared
  children : (tree.node index).children = []

/-- A node is the group of a kind, with the leaves of its declarations below it. -/
structure ShowsGroup (tree : PageTree) (registry : Registry) (index : Nat) (position : Nat × Kind) : Prop where
  lt : index < tree.size
  entry : (tree.node index).toNavEntry = groupEntry position
  leaves : List.Forall₂ (tree.ShowsLeaf position.2) (tree.node index).children (registry.ofKind position.2)

private theorem ShowsLeaf.of_keepsLinks (h : tree.ShowsLeaf kind index declared) (hkeeps : tree.KeepsLinks next changed)
    (hchanged : index ≠ changed) : next.ShowsLeaf kind index declared :=
  ⟨Nat.lt_of_lt_of_le h.lt hkeeps.size, (hkeeps.entry index h.lt).trans h.entry,
    (hkeeps.children index h.lt hchanged).trans h.children⟩

private theorem ShowsGroup.of_keepsLinks (h : tree.ShowsGroup registry index position)
    (hkeeps : tree.KeepsLinks next changed)
    (hchanged : index ≠ changed) (hkind : (tree.node changed).kind ≠ .reference) :
    next.ShowsGroup registry index position where
  lt := Nat.lt_of_lt_of_le h.lt hkeeps.size
  entry := (hkeeps.entry index h.lt).trans h.entry
  leaves := by
    rw [hkeeps.children index h.lt hchanged]
    refine h.leaves.imp fun leaf declared hleaf => hleaf.of_keepsLinks hkeeps ?_
    rintro rfl
    exact hkind (congrArg NavEntry.kind hleaf.entry)

/-- The leaves of a group come one behind the other. -/
theorem showsLeaves_of_foldlM {entries : List Entry} (hgroup : group < tree.size)
    (hok : entries.foldlM (fun tree entry => do
      let (_, tree) ← tree.addChild group (leafEntry kind entry)
      return tree) tree = Except.ok next) :
    tree.KeepsLinks next group ∧ ∃ added, (next.node group).children = (tree.node group).children ++ added ∧
      List.Forall₂ (next.ShowsLeaf kind) added entries := by
  induction entries generalizing tree with
  | nil =>
    obtain rfl := Except.ok.inj hok
    exact ⟨.refl tree, [], (List.append_nil _).symm, .nil⟩
  | cons declared entries ih =>
    rw [List.foldlM_cons] at hok
    obtain ⟨grown, hgrown, hok⟩ := bind_eq_ok_iff.mp hok
    obtain ⟨⟨leaf, added⟩, hadd, hgrown⟩ := bind_eq_ok_iff.mp hgrown
    obtain rfl := Except.ok.inj hgrown
    obtain ⟨rfl, hadds⟩ := adds_of_addChild hgroup hadd
    have hsize := hadds.size
    obtain ⟨hkeeps, leaves, hchildren, hleaves⟩ := ih (show group < added.size by omega) hok
    have hleaf : added.ShowsLeaf kind tree.size declared :=
      ⟨by omega, by rw [hadds.entries, if_pos rfl], hadds.children_new hgroup⟩
    refine ⟨hadds.keepsLinks.trans hkeeps (.inl rfl), tree.size :: leaves, ?_,
      .cons (hleaf.of_keepsLinks hkeeps (Nat.ne_of_gt hgroup)) hleaves⟩
    rw [hchildren, hadds.children, if_pos rfl, List.append_assoc, List.singleton_append]

private theorem showsGroup_of_addGroup (hreference : reference < tree.size)
    (hok : PageTree.addGroup registry reference tree position = .ok next) :
    tree.KeepsLinks next reference ∧ ∃ added, (next.node reference).children = (tree.node reference).children ++ added ∧
      List.Forall₂ (next.ShowsGroup registry) added
        ([position].filter fun position => !(registry.ofKind position.2).isEmpty) := by
  rcases addGroup_cases hreference hok with ⟨hempty, rfl⟩ | ⟨hempty, grown, hadds, hleaves⟩
  · refine ⟨.refl next, [], (List.append_nil _).symm, ?_⟩
    rw [List.filter_cons_of_neg (by simpa using hempty)]
    exact .nil
  · have hsize := hadds.size
    obtain ⟨hkeeps, leaves, hchildren, hshown⟩ := showsLeaves_of_foldlM (show tree.size < grown.size by omega) hleaves
    rw [hadds.children_new hreference, List.nil_append] at hchildren
    refine ⟨hadds.keepsLinks.trans hkeeps (.inr (Nat.le_refl _)), [tree.size], ?_, ?_⟩
    · rw [hkeeps.children reference (by omega) (Nat.ne_of_lt hreference), hadds.children, if_pos rfl]
    · rw [List.filter_cons_of_pos (by simpa using hempty), List.filter_nil]
      refine .cons ⟨Nat.lt_of_lt_of_le (by omega) hkeeps.size, ?_, hchildren ▸ hshown⟩ .nil
      rw [hkeeps.entry _ (by omega), hadds.entries, if_pos rfl]

private theorem showsGroups_of_foldlM {positions : List (Nat × Kind)} (hreference : reference < tree.size)
    (hkind : (tree.node reference).kind = .referenceRoot)
    (hok : positions.foldlM (PageTree.addGroup registry reference) tree = .ok next) :
    tree.KeepsLinks next reference ∧ ∃ added, (next.node reference).children = (tree.node reference).children ++ added ∧
      List.Forall₂ (next.ShowsGroup registry) added
        (positions.filter fun position => !(registry.ofKind position.2).isEmpty) := by
  induction positions generalizing tree with
  | nil =>
    obtain rfl := Except.ok.inj hok
    exact ⟨.refl tree, [], (List.append_nil _).symm, .nil⟩
  | cons position positions ih =>
    rw [List.foldlM_cons] at hok
    obtain ⟨grown, hgrown, hok⟩ := bind_eq_ok_iff.mp hok
    obtain ⟨hfirst, first, hfirstChildren, hfirstGroups⟩ := showsGroup_of_addGroup hreference hgrown
    have hgrownKind : (grown.node reference).kind = .referenceRoot := by rw [hfirst.entry reference hreference, hkind]
    obtain ⟨hrest, rest, hrestChildren, hrestGroups⟩ := ih (Nat.lt_of_lt_of_le hreference hfirst.size) hgrownKind hok
    refine ⟨hfirst.trans hrest (.inl rfl), first ++ rest, ?_, ?_⟩
    · rw [hrestChildren, hfirstChildren, List.append_assoc]
    · rw [← List.singleton_append, List.filter_append]
      refine List.rel_append (hfirstGroups.imp fun group position hgroup => ?_) hrestGroups
      refine hgroup.of_keepsLinks hrest ?_ (by rw [hgrownKind]; decide)
      rintro rfl
      have hentry := congrArg NavEntry.kind hgroup.entry
      rw [hgrownKind] at hentry
      cases hentry

/-! ### Links of the reference -/

/-- A linked tree stays linked when the reference of any registry is added. -/
theorem Linked.addReference (h : base.Linked) (hok : base.addReference registry = .ok tree) : tree.Linked :=
  addReference_keeps (fun hlinked hparent hadds _ => hlinked.of_adds hparent hadds) h h.nonempty hok

/-! ### Views of parts -/

/-- A node with all that is below it. -/
def subview (tree : PageTree) (index : Nat) : TreeView := tree.viewBelow tree.size index

theorem Linked.ne_root_of_child (h : tree.Linked) {child : Nat} (hchild : child ∈ (tree.node index).children) :
    child ≠ root :=
  h.ne_root_of_parent ((h.mem_children_iff index child).mp hchild)

theorem subview_eq (h : tree.Linked) (hindex : index < tree.size) :
    tree.subview index = .node (tree.node index).toNavEntry ((tree.node index).children.map tree.subview) := by
  obtain ⟨depth, hdepth⟩ := h.exists_depth hindex
  rw [subview, h.viewBelow_congr hdepth (by omega) (show tree.size ≤ depth + (tree.size + 1) + 1 by omega), viewBelow]
  rfl

private theorem subview_of_keepsLinks (hbase : base.Linked) (hkeeps : base.KeepsLinks tree root)
    (hindex : index < base.size) (hroot : index ≠ root) : tree.subview index = base.subview index := by
  have hbelow (fuel : Nat) : tree.viewBelow fuel index = base.viewBelow fuel index := by
    induction fuel generalizing index with
    | zero => rw [viewBelow, viewBelow, hkeeps.entry index hindex]
    | succ fuel ih =>
      rw [viewBelow, viewBelow, hkeeps.entry index hindex, hkeeps.children index hindex hroot]
      congr 1
      exact List.map_congr_left fun child hchild => ih (hbase.child_lt hchild) (hbase.ne_root_of_child hchild)
  obtain ⟨depth, hdepth⟩ := hbase.exists_depth hindex
  have hsize := hkeeps.size
  rw [subview, hbelow]
  exact hbase.viewBelow_congr hdepth (by omega) (by omega)

def groupView (registry : Registry) (position : Nat × Kind) : TreeView :=
  .node (groupEntry position) ((registry.ofKind position.2).map fun declared => .node (leafEntry position.2 declared) [])

/-- The reference as readers see it, before it is sorted. -/
def referenceView (registry : Registry) : TreeView :=
  .node referenceEntry ((groupsOf registry).map (groupView registry))

theorem ShowsGroup.subview_eq (h : tree.ShowsGroup registry index position) (htree : tree.Linked) :
    tree.subview index = groupView registry position := by
  rw [PageTree.subview_eq htree h.lt, h.entry, groupView]
  congr 1
  refine map_eq_map_of_forall₂ (fun leaf declared hleaf => ?_) h.leaves
  rw [PageTree.subview_eq htree hleaf.lt, hleaf.entry, hleaf.children, List.map_nil]

/-- A tree is another one with the reference of a registry behind the children of its root. -/
structure ShowsReference (base : PageTree) (registry : Registry) (tree : PageTree) : Prop where
  keeps : base.KeepsLinks tree root
  root : (tree.node root).children = (base.node root).children ++ [base.size]
  lt : base.size < tree.size
  entry : (tree.node base.size).toNavEntry = referenceEntry
  groups : List.Forall₂ (tree.ShowsGroup registry) (tree.node base.size).children (groupsOf registry)

theorem showsReference_of_addReference (hbase : base.Linked) (hok : base.addReference registry = .ok tree) :
    base.ShowsReference registry tree := by
  obtain ⟨⟨reference, grown⟩, hadd, hok⟩ := bind_eq_ok_iff.mp hok
  obtain ⟨rfl, hadds⟩ := adds_of_addChild hbase.nonempty hadd
  have hsize := hadds.size
  have hreference : (grown.node base.size).toNavEntry = referenceEntry := by rw [hadds.entries, if_pos rfl]; rfl
  obtain ⟨hlater, groups, hgroups, hshown⟩ := showsGroups_of_foldlM (show base.size < grown.size by omega)
    (congrArg NavEntry.kind hreference) hok
  rw [hadds.children_new hbase.nonempty, List.nil_append] at hgroups
  refine ⟨hadds.keepsLinks.trans hlater (.inr (Nat.le_refl _)), ?_, Nat.lt_of_lt_of_le (by omega) hlater.size, ?_,
    hgroups ▸ hshown⟩
  · rw [hlater.children PageTree.root (Nat.lt_of_lt_of_le hbase.nonempty (by omega)) (Nat.ne_of_lt hbase.nonempty),
      hadds.children, if_pos rfl]
  · rw [hlater.entry _ (by omega), hreference]

/-- The reference is seen behind everything else, as it would be below any other root. -/
theorem view_of_addReference (hbase : base.Linked) (htree : tree.Linked) (hok : base.addReference registry = .ok tree) :
    tree.view = base.view.hang (referenceView registry) := by
  have hshows := showsReference_of_addReference hbase hok
  have hview : tree.subview base.size = referenceView registry := by
    rw [subview_eq htree hshows.lt, hshows.entry, referenceView]
    congr 1
    exact map_eq_map_of_forall₂ (fun group position hgroup => hgroup.subview_eq htree) hshows.groups
  have hpages : (base.node root).children.map tree.subview = (base.node root).children.map base.subview :=
    List.map_congr_left fun child hchild =>
      subview_of_keepsLinks hbase hshows.keeps (hbase.child_lt hchild) (hbase.ne_root_of_child hchild)
  have hwhole : base.view = .node (base.node root).toNavEntry ((base.node root).children.map base.subview) :=
    subview_eq hbase hbase.nonempty
  have hmerged : tree.view = .node (tree.node root).toNavEntry ((tree.node root).children.map tree.subview) :=
    subview_eq htree htree.nonempty
  rw [hmerged, hwhole, hshows.keeps.entry root hbase.nonempty, hshows.root, List.map_append, hpages, List.map_singleton,
    hview]
  rfl

/-! ### Merging -/

variable {title : String} {sources : List SourcePage}

/-- The tree of the pages alone. -/
def arrange (title : String) (sources : List SourcePage) : Except Collision PageTree := do
  let placed ← (new title).placeAll [] sources
  let rehomed ← sources.foldlM rehome placed
  return rehomed.sort

/-- A view of pages and one of the reference; neither shows a node of the other. -/
structure AreParts (pages reference : TreeView) : Prop where
  pages : ∀ entry ∈ pages.entries, entry.origin = .page
  reference : ∀ entry ∈ reference.entries, entry.origin = .reference

/-- The reference shows itself, groups, and leaves of entries. -/
theorem cases_of_referenceView {entry : NavEntry} (h : entry ∈ (referenceView registry).entries) :
    entry = referenceEntry ∨ (∃ position, entry = groupEntry position) ∨
      ∃ declared ∈ registry.entries, ∃ kind, entry = leafEntry kind declared := by
  rw [referenceView, TreeView.entries, TreeView.listEntries_eq, List.flatMap_map, List.mem_cons, List.mem_flatMap] at h
  rcases h with rfl | ⟨position, -, h⟩
  · exact .inl rfl
  · rw [groupView, TreeView.entries, TreeView.listEntries_eq, List.flatMap_map, List.mem_cons, List.mem_flatMap] at h
    rcases h with rfl | ⟨declared, hdeclared, h⟩
    · exact .inr (.inl ⟨position, rfl⟩)
    · obtain rfl := List.mem_singleton.mp h
      exact .inr (.inr ⟨declared, (List.mem_filter.mp hdeclared).1, position.2, rfl⟩)

private theorem origin_of_referenceView : ∀ entry ∈ (referenceView registry).entries, entry.origin = .reference := by
  intro entry hentry
  rcases cases_of_referenceView hentry with rfl | ⟨position, rfl⟩ | ⟨declared, -, kind, rfl⟩ <;> rfl

/-- What readers see of pages and a registry are the pages as they are seen alone, with the reference of
the registry behind them. -/
theorem view_of_merge (hsources : ∀ source ∈ sources, source.IsNamed) (hnamed : WellNamed registry.entries)
    (hok : merge title sources registry = .ok tree) :
    ∃ pages, arrange title sources = .ok pages ∧ tree.view = pages.view.hang (referenceView registry).sorted ∧
      AreParts pages.view (referenceView registry).sorted := by
  obtain ⟨placed, rehomed, merged, hplaced, hrehomed, hmerged, rfl⟩ := merge_eq_ok_iff.mp hok
  obtain ⟨hfinal, -, -⟩ := arranged_of_rehomeAll hsources hplaced hrehomed
  have hreference := grafted_of_addReference hfinal hnamed hmerged
  have hpages : ∀ entry ∈ rehomed.view.entries, entry.origin = .page := by
    obtain ⟨order, horder, hentries⟩ := hfinal.linked.entries_view
    intro entry hentry
    rw [hentries] at hentry
    obtain ⟨index, hindex, rfl⟩ := List.mem_map.mp hentry
    exact hfinal.origin_eq (List.mem_range.mp (horder.mem_iff.mp hindex))
  refine ⟨rehomed.sort, bind_eq_ok_iff.mpr ⟨placed, hplaced, bind_eq_ok_iff.mpr ⟨rehomed, hrehomed, rfl⟩⟩, ?_, ?_, ?_⟩
  · rw [view_sort, view_sort, view_of_addReference hfinal.linked hreference.linked hmerged]
    refine TreeView.sorted_hang (fun child hchild => hpages _ ?_) rfl
    exact TreeView.mem_entries_of_child hchild
  · rw [view_sort]
    exact fun entry hentry => hpages entry ((TreeView.entries_sorted_perm _).mem_iff.mp hentry)
  · exact fun entry hentry => origin_of_referenceView entry ((TreeView.entries_sorted_perm _).mem_iff.mp hentry)

end PageTree

end SchemaDocs
