import SchemaDocs.Proofs.Navigation.Layout
import SchemaDocs.Proofs.Navigation.Runs
import SchemaDocs.Proofs.Sequence

/-!
# Trees that follow a layout

While pages are placed and moved, the tree holds the root, its folders and the pages of a layout, and
nothing else. `Arranged` says so, and there is one lemma for each thing that happens to such a tree:
a folder is added, a page is added, a folder is described, a page is moved. Since siblings in a tree
differ, the layout of an arranged tree is always sound.
-/

namespace SchemaDocs

namespace PageTree

variable {tree next : PageTree} {index parent newParent other left right : Nat} {entry : NavEntry} {way : List String}
  {isFolder : List String → Prop} {stands before after : List Stand} {stand : Stand} {kind : NodeKind}

/-! ### Nodes by their kinds -/

/-- The numbers of the nodes of a kind, in the order in which they were added. -/
def numbersOf (tree : PageTree) (kind : NodeKind) : List Nat :=
  (List.range tree.size).filter fun index => (tree.node index).kind = kind

theorem mem_numbersOf_iff : index ∈ tree.numbersOf kind ↔ index < tree.size ∧ (tree.node index).kind = kind := by
  simp [numbersOf]

theorem nodup_numbersOf (tree : PageTree) (kind : NodeKind) : (tree.numbersOf kind).Nodup :=
  List.nodup_range.filter _

theorem numbersOf_congr (hsize : next.size = tree.size)
    (hkinds : ∀ index < tree.size, (next.node index).kind = (tree.node index).kind) :
    next.numbersOf kind = tree.numbersOf kind := by
  rw [numbersOf, numbersOf, hsize]
  apply List.filter_congr
  intro index hindex
  rw [hkinds index (List.mem_range.mp hindex)]

theorem Adds.numbersOf (hadds : tree.Adds next parent entry) (kind : NodeKind) :
    next.numbersOf kind = tree.numbersOf kind ++ if entry.kind = kind then [tree.size] else [] := by
  rw [PageTree.numbersOf, hadds.size, List.range_succ, List.filter_append]
  have hold : (List.range tree.size).filter (fun index => decide ((next.node index).kind = kind)) = tree.numbersOf kind := by
    apply List.filter_congr
    intro index hindex
    rw [hadds.entries, if_neg (Nat.ne_of_lt (List.mem_range.mp hindex))]
  have hnew : (next.node tree.size).kind = entry.kind := by rw [hadds.entries, if_pos rfl]
  rw [hold, List.filter_singleton, hnew]
  split <;> simp_all

theorem exists_addChild (h : tree.collision? parent entry.origin entry.name = none) :
    ∃ result, tree.addChild parent entry = .ok result := by
  rw [addChild, h]
  exact ⟨_, rfl⟩

/-! ### Ways in the tree -/

/-- A way of directories leads from the root to a folder. -/
inductive Reaches (tree : PageTree) : List String → Nat → Prop where
  | root : Reaches tree [] root
  | folder {way : List String} {parent index : Nat} (habove : Reaches tree way parent)
      (hparent : (tree.node index).parent = some parent) (hkind : (tree.node index).kind = .folder) :
      Reaches tree (way ++ [(tree.node index).name]) index

namespace Reaches

theorem lt_size (h : tree.Reaches way index) (hlinked : tree.Linked) : index < tree.size := by
  cases h with
  | root => exact hlinked.nonempty
  | folder _ hparent _ => exact lt_size_of_parent hparent

theorem mono (hfolders : ∀ index < tree.size, (tree.node index).kind = .folder →
    (next.node index).parent = (tree.node index).parent ∧ (next.node index).kind = (tree.node index).kind ∧
      (next.node index).name = (tree.node index).name) (h : tree.Reaches way index) : next.Reaches way index := by
  induction h with
  | root => exact .root
  | folder _ hparent hkind ih =>
    obtain ⟨hsameParent, hsameKind, hsameName⟩ := hfolders _ (lt_size_of_parent hparent) hkind
    rw [← hsameName]
    exact .folder ih (hsameParent.trans hparent) (hsameKind.trans hkind)

/-- Ways lead where they led if nodes keep their kinds and names, and folders their places. -/
theorem iff_of_keeps (hkinds : ∀ index, (next.node index).kind = (tree.node index).kind)
    (hnames : ∀ index, (next.node index).name = (tree.node index).name)
    (hparents : ∀ index, (tree.node index).kind = .folder → (next.node index).parent = (tree.node index).parent) :
    next.Reaches way index ↔ tree.Reaches way index := by
  constructor
  · intro hway
    refine hway.mono fun other _ hfolder => ?_
    rw [hkinds] at hfolder
    exact ⟨(hparents other hfolder).symm, (hkinds other).symm, (hnames other).symm⟩
  · intro hway
    exact hway.mono fun other _ hfolder => ⟨hparents other hfolder, hkinds other, hnames other⟩

theorem unique (hlinked : tree.Linked) (hdiffer : tree.SiblingsDiffer) (hleft : tree.Reaches way left)
    (hright : tree.Reaches way right) : left = right := by
  generalize hway : way = whole at hright
  induction hleft generalizing right whole with
  | root =>
    cases hright with
    | root => rfl
    | folder => exact absurd hway.symm (List.append_ne_nil_of_right_ne_nil _ (List.cons_ne_nil _ _))
  | folder _ hparent hkind ih =>
    cases hright with
    | root => exact absurd hway (List.append_ne_nil_of_right_ne_nil _ (List.cons_ne_nil _ _))
    | folder hotherAbove hotherParent hotherKind =>
      obtain ⟨hways, hname⟩ := List.append_inj' hway rfl
      obtain rfl := ih _ hways hotherAbove
      refine hdiffer _ _ ((hlinked.mem_children_iff _ _).mpr hparent) _ ((hlinked.mem_children_iff _ _).mpr hotherParent) ?_
        (List.cons.inj hname).1
      rw [NavEntry.origin, NavEntry.origin, hkind, hotherKind]

/-- A folder lies at the end of one way. -/
theorem way_eq (hlinked : tree.Linked) {other : List String} (hleft : tree.Reaches way index)
    (hright : tree.Reaches other index) : way = other := by
  induction hleft generalizing other with
  | root =>
    cases hright with
    | root => rfl
    | folder _ hparent _ => exact absurd rfl (hlinked.ne_root_of_parent hparent)
  | folder _ hparent _ ih =>
    cases hright with
    | root => exact absurd rfl (hlinked.ne_root_of_parent hparent)
    | folder habove hotherParent _ =>
      obtain rfl := Option.some.inj (hparent.symm.trans hotherParent)
      rw [ih habove]

theorem exists_parent {name : String} (h : tree.Reaches (way ++ [name]) index) :
    ∃ parent, tree.Reaches way parent ∧ (tree.node index).parent = some parent ∧ (tree.node index).kind = .folder ∧
      (tree.node index).name = name := by
  generalize hwhole : way ++ [name] = whole at h
  cases h with
  | root => exact absurd hwhole (List.append_ne_nil_of_right_ne_nil _ (List.cons_ne_nil _ _))
  | folder habove hparent hkind =>
    obtain ⟨rfl, hname⟩ := List.append_inj' hwhole rfl
    exact ⟨_, habove, hparent, hkind, (List.cons.inj hname).1.symm⟩

private theorem of_atOrAbove (h : tree.Reaches way index) (hlinked : tree.Linked)
    (habove : tree.AtOrAbove other index) :
    ∃ upper, tree.Reaches upper other := by
  induction h with
  | root =>
    obtain rfl := hlinked.atOrAbove_root_iff.mp habove
    exact ⟨_, .root⟩
  | folder hway hparent hkind ih =>
    rcases (atOrAbove_iff_of_parent hparent).mp habove with rfl | habove
    · exact ⟨_, .folder hway hparent hkind⟩
    · exact ih habove

end Reaches

/-! ### Arranged trees -/

/-- A node is that of a page and stands in the folder of a layout. -/
structure Holds (tree : PageTree) (index : Nat) (stand : Stand) : Prop where
  entry : (tree.node index).toNavEntry = stand.page.navEntry
  below : ∃ parent, (tree.node index).parent = some parent ∧ tree.Reaches stand.way parent

/-- A tree consists of its root, of folders and of the pages of a layout. -/
structure Arranged (isFolder : List String → Prop) (stands : List Stand) (tree : PageTree) : Prop where
  linked : tree.Linked
  differ : tree.SiblingsDiffer
  root_kind : (tree.node root).kind = .root
  kinds : ∀ index < tree.size, index ≠ root → (tree.node index).kind = .folder ∨ (tree.node index).kind = .page
  folders : ∀ way, (∃ index, tree.Reaches way index) ↔ way = [] ∨ isFolder way
  reached : ∀ index, (tree.node index).kind = .folder → ∃ way, tree.Reaches way index
  ids : ∀ way index, tree.Reaches way index → (tree.node index).id = String.intercalate "/" way
  pages : List.Forall₂ tree.Holds (tree.numbersOf .page) stands

namespace Arranged

theorem new (title : String) : (PageTree.new title).Arranged (fun _ => False) [] := by
  have hparent (index : Nat) : ((PageTree.new title).node index).parent = none := by
    cases index <;> rfl
  have hway (way : List String) (index : Nat) (h : (PageTree.new title).Reaches way index) : way = [] ∧ index = root := by
    cases h with
    | root => exact ⟨rfl, rfl⟩
    | folder _ hlink _ =>
      rw [hparent] at hlink
      cases hlink
  refine ⟨.new title, .new title, rfl, fun index hindex hroot => ?_, fun way => ?_, fun index hkind => ?_,
    fun way index h => ?_, .nil⟩
  · exact absurd (Nat.lt_one_iff.mp hindex) hroot
  · constructor
    · intro ⟨index, h⟩
      exact .inl (hway way index h).1
    · intro h
      rcases h with rfl | h
      · exact ⟨root, .root⟩
      · exact h.elim
  · cases index <;> cases hkind
  · obtain ⟨rfl, rfl⟩ := hway way index h
    rfl

theorem congr {others : List String → Prop} (h : tree.Arranged isFolder stands)
    (hsame : ∀ way, isFolder way ↔ others way) : tree.Arranged others stands :=
  { h with folders := fun way => by rw [h.folders, hsame] }

theorem isFolder_of_reaches (h : tree.Arranged isFolder stands) (hreach : tree.Reaches way index)
    (hroot : index ≠ root) :
    isFolder way := by
  rcases (h.folders way).mp ⟨index, hreach⟩ with rfl | hfolder
  · exact absurd (hreach.unique h.linked h.differ .root) hroot
  · exact hfolder

/-! #### Adding a folder or a page -/

end Arranged

theorem Adds.entry_of_lt (hadds : tree.Adds next parent entry) (hindex : index < tree.size) :
    (next.node index).toNavEntry = (tree.node index).toNavEntry := by
  rw [hadds.entries, if_neg (Nat.ne_of_lt hindex)]

theorem Adds.parent_of_lt (hadds : tree.Adds next parent entry) (hindex : index < tree.size) :
    (next.node index).parent = (tree.node index).parent := by
  rw [hadds.parents, if_neg (Nat.ne_of_lt hindex)]

private theorem Reaches.of_adds (hadds : tree.Adds next parent entry) (h : tree.Reaches way index) :
    next.Reaches way index :=
  h.mono fun _ hindex _ =>
    ⟨hadds.parent_of_lt hindex, congrArg NavEntry.kind (hadds.entry_of_lt hindex),
      congrArg NavEntry.name (hadds.entry_of_lt hindex)⟩

/-- A new child of a folder is the end of a way if it is a folder, and no other way is new. -/
theorem reaches_of_adds_iff (hlinked : tree.Linked) {above : List String} (habove : tree.Reaches above parent)
    (hadds : tree.Adds next parent entry) :
    next.Reaches way index ↔
      tree.Reaches way index ∨ entry.kind = .folder ∧ index = tree.size ∧ way = above ++ [entry.name] := by
  have hnew : (next.node tree.size).toNavEntry = entry := by rw [hadds.entries, if_pos rfl]
  have hlink : (next.node tree.size).parent = some parent := by rw [hadds.parents, if_pos rfl]
  constructor
  · intro h
    induction h with
    | root => exact .inl .root
    | @folder way upper index _ hparent hkind ih =>
      by_cases hindex : index = tree.size
      · subst hindex
        obtain rfl := Option.some.inj (hlink.symm.trans hparent)
        rcases ih with hway | ⟨-, hupper, -⟩
        · rw [hnew] at hkind ⊢
          exact .inr ⟨hkind, rfl, by rw [hway.way_eq hlinked habove]⟩
        · exact absurd hupper (Nat.ne_of_lt (habove.lt_size hlinked))
      · have hlt : index < tree.size := by
          have := lt_size_of_parent hparent
          rw [hadds.size] at this
          omega
        rw [hadds.parent_of_lt hlt] at hparent
        rw [hadds.entry_of_lt hlt] at hkind ⊢
        rcases ih with hway | ⟨-, hupper, -⟩
        · exact .inl (.folder hway hparent hkind)
        · exact absurd hupper (Nat.ne_of_lt (hlinked.parent_lt hparent))
  · intro h
    rcases h with h | ⟨hkind, rfl, rfl⟩
    · exact h.of_adds hadds
    · rw [← congrArg NavEntry.name hnew]
      exact .folder (habove.of_adds hadds) hlink (by rw [hnew, hkind])

private theorem Holds.of_adds (hadds : tree.Adds next parent entry) (h : tree.Holds index stand) :
    next.Holds index stand := by
  obtain ⟨upper, hupper, hway⟩ := h.below
  have hindex := lt_size_of_parent hupper
  exact ⟨(hadds.entry_of_lt hindex).trans h.entry, upper, (hadds.parent_of_lt hindex).trans hupper, hway.of_adds hadds⟩

namespace Arranged

private theorem of_adds (h : tree.Arranged isFolder stands) (hway : tree.Reaches way parent)
    (hadds : tree.Adds next parent entry) (hkind : entry.kind = .folder ∨ entry.kind = .page)
    (hid : entry.kind = .folder → entry.id = String.intercalate "/" (way ++ [entry.name]))
    (added : List Stand) (hpages : List.Forall₂ next.Holds (if entry.kind = .page then [tree.size] else []) added) :
    next.Arranged (fun other => isFolder other ∨ entry.kind = .folder ∧ other = way ++ [entry.name]) (stands ++ added) := by
  have hnew : (next.node tree.size).toNavEntry = entry := by rw [hadds.entries, if_pos rfl]
  have hroot := h.linked.nonempty
  refine ⟨h.linked.of_adds (hway.lt_size h.linked) hadds, h.differ.of_adds h.linked hadds, ?_, fun index hindex hne => ?_,
    fun other => ?_, fun index hfolder => ?_, fun other index hreach => ?_, ?_⟩
  · rw [hadds.entry_of_lt hroot]
    exact h.root_kind
  · by_cases hsize : index = tree.size
    · rw [hsize, hnew]
      exact hkind
    · rw [hadds.size] at hindex
      have hlt : index < tree.size := by omega
      rw [hadds.entry_of_lt hlt]
      exact h.kinds index hlt hne
  · simp only [reaches_of_adds_iff h.linked hway hadds, exists_or, h.folders, ← or_assoc]
    apply or_congr_right
    constructor
    · intro ⟨_, hfolder, _, hother⟩
      exact ⟨hfolder, hother⟩
    · intro ⟨hfolder, hother⟩
      exact ⟨tree.size, hfolder, rfl, hother⟩
  · by_cases hsize : index = tree.size
    · rw [hsize, hnew] at hfolder
      exact ⟨_, (reaches_of_adds_iff h.linked hway hadds).mpr (.inr ⟨hfolder, hsize, rfl⟩)⟩
    · have hsame : (next.node index).toNavEntry = (tree.node index).toNavEntry := by rw [hadds.entries, if_neg hsize]
      rw [hsame] at hfolder
      obtain ⟨other, hother⟩ := h.reached index hfolder
      exact ⟨other, hother.of_adds hadds⟩
  · rcases (reaches_of_adds_iff h.linked hway hadds).mp hreach with hreach | ⟨hfolder, rfl, rfl⟩
    · rw [hadds.entry_of_lt (hreach.lt_size h.linked)]
      exact h.ids other index hreach
    · rw [hnew]
      exact hid hfolder
  · rw [hadds.numbersOf]
    exact List.rel_append (h.pages.imp fun _ _ hholds => hholds.of_adds hadds) hpages

theorem addFolder (h : tree.Arranged isFolder stands) (hway : tree.Reaches way parent)
    (hadds : tree.Adds next parent entry) (hkind : entry.kind = .folder)
    (hid : entry.id = String.intercalate "/" (way ++ [entry.name])) :
    next.Arranged (fun other => isFolder other ∨ other = way ++ [entry.name]) stands ∧
      next.Reaches (way ++ [entry.name]) tree.size := by
  constructor
  · have harranged := h.of_adds hway hadds (.inl hkind) (fun _ => hid) []
      (by rw [if_neg (by rw [hkind]; decide)]; exact .nil)
    rw [List.append_nil] at harranged
    exact harranged.congr fun other => by rw [hkind, eq_self, true_and]
  · exact (reaches_of_adds_iff h.linked hway hadds).mpr (.inr ⟨hkind, rfl, rfl⟩)

theorem addPage (h : tree.Arranged isFolder stands) (hway : tree.Reaches stand.way parent)
    (hadds : tree.Adds next parent stand.page.navEntry) : next.Arranged isFolder (stands ++ [stand]) := by
  have hholds : next.Holds tree.size stand :=
    ⟨by rw [hadds.entries, if_pos rfl], parent, by rw [hadds.parents, if_pos rfl], hway.of_adds hadds⟩
  have harranged := h.of_adds hway hadds (.inr rfl) (by rintro ⟨⟩) [stand]
    (by rw [if_pos (by rfl)]; exact .cons hholds .nil)
  exact harranged.congr fun other => by simp [SourcePage.navEntry]

/-! #### What stands where -/

/-- Every node but the root stands in a folder or below the root. -/
theorem exists_way (h : tree.Arranged isFolder stands) (hindex : index < tree.size) (hroot : index ≠ root) :
    ∃ way parent, tree.Reaches way parent ∧ (tree.node index).parent = some parent ∧
      ((tree.node index).kind = .folder ∧ isFolder (way ++ [(tree.node index).name]) ∨
        (tree.node index).kind = .page ∧ ∃ stand ∈ stands, tree.Holds index stand ∧ stand.way = way) := by
  rcases h.kinds index hindex hroot with hkind | hkind
  · obtain ⟨whole, hwhole⟩ := h.reached index hkind
    have hfolder := h.isFolder_of_reaches hwhole hroot
    cases hwhole with
    | root => exact absurd rfl hroot
    | folder habove hparent hkind => exact ⟨_, _, habove, hparent, .inl ⟨hkind, hfolder⟩⟩
  · obtain ⟨stand, hstand, hholds⟩ := (exists_of_mem_forall₂ h.pages).2 index (mem_numbersOf_iff.mpr ⟨hindex, hkind⟩)
    obtain ⟨parent, hparent, hway⟩ := hholds.below
    exact ⟨stand.way, parent, hway, hparent, .inr ⟨hkind, stand, hstand, hholds, rfl⟩⟩

/-- Every node is a folder, or the root, or a page of the layout. -/
theorem reaches_or_holds (h : tree.Arranged isFolder stands) (hindex : index < tree.size) :
    (∃ way, tree.Reaches way index) ∨ ∃ stand ∈ stands, tree.Holds index stand := by
  by_cases hroot : index = root
  · exact .inl ⟨[], hroot ▸ .root⟩
  · obtain ⟨way, parent, habove, hparent, ⟨hkind, -⟩ | ⟨-, stand, hstand, hholds, -⟩⟩ := h.exists_way hindex hroot
    · exact .inl ⟨_, .folder habove hparent hkind⟩
    · exact .inr ⟨stand, hstand, hholds⟩

theorem origin_eq (h : tree.Arranged isFolder stands) (hindex : index < tree.size) :
    (tree.node index).origin = .page := by
  rw [NavEntry.origin]
  by_cases hroot : index = root
  · rw [hroot, h.root_kind]
    rfl
  · rcases h.kinds index hindex hroot with hkind | hkind <;> rw [hkind] <;> rfl

theorem eq_of_place (h : tree.Arranged isFolder stands) {leftParent rightParent : Nat}
    (hleft : tree.Reaches way leftParent) (hleftParent : (tree.node left).parent = some leftParent)
    (hright : tree.Reaches way rightParent) (hrightParent : (tree.node right).parent = some rightParent)
    (hname : (tree.node left).name = (tree.node right).name) : left = right := by
  obtain rfl := hleft.unique h.linked h.differ hright
  refine h.differ leftParent left ((h.linked.mem_children_iff _ _).mpr hleftParent) right
    ((h.linked.mem_children_iff _ _).mpr hrightParent) ?_ hname
  rw [h.origin_eq (lt_size_of_parent hleftParent), h.origin_eq (lt_size_of_parent hrightParent)]

/-- The layout of an arranged tree is sound. -/
theorem apart (h : tree.Arranged isFolder stands) : Apart isFolder stands := by
  have hname {index : Nat} {stand : Stand} (hholds : tree.Holds index stand) : (tree.node index).name = stand.page.name := by
    rw [hholds.entry]
    rfl
  constructor
  · refine nodup_map_of_forall₂ h.pages (nodup_numbersOf ..) fun left _ right _ a b hleft hright hplace => ?_
    obtain ⟨hways, hnames⟩ := List.append_inj' hplace rfl
    obtain ⟨leftParent, hleftParent, hleftWay⟩ := hleft.below
    obtain ⟨rightParent, hrightParent, hrightWay⟩ := hright.below
    refine h.eq_of_place hleftWay hleftParent (hways ▸ hrightWay) hrightParent ?_
    rw [hname hleft, hname hright, (List.cons.inj hnames).1]
  · intro stand hstand hfolder
    obtain ⟨index, hindex, hholds⟩ := (exists_of_mem_forall₂ h.pages).1 stand hstand
    obtain ⟨parent, hparent, hway⟩ := hholds.below
    obtain ⟨other, hother⟩ := (h.folders stand.place).mpr (.inr hfolder)
    obtain ⟨upper, hupper, hotherParent, hotherKind, hotherName⟩ := hother.exists_parent
    obtain rfl := h.eq_of_place hway hparent hupper hotherParent (by rw [hname hholds, hotherName])
    rw [(mem_numbersOf_iff.mp hindex).2] at hotherKind
    cases hotherKind

theorem childNamed?_cases (h : tree.Arranged isFolder stands) (hway : tree.Reaches way parent) {origin : Origin}
    {name : String} (hchild : tree.childNamed? parent origin name = some index) :
    (tree.node index).kind = .folder ∧ tree.Reaches (way ++ [name]) index ∨
      (tree.node index).kind = .page ∧ ∃ stand ∈ stands, tree.Holds index stand ∧ stand.place = way ++ [name] := by
  have hparent := (h.linked.mem_children_iff parent index).mp (List.mem_of_find?_eq_some hchild)
  have hname : (tree.node index).name = name := by
    have hfound := List.find?_some hchild
    rw [Bool.and_eq_true, decide_eq_true_eq, decide_eq_true_eq] at hfound
    exact hfound.2
  obtain ⟨other, upper, hupper, hlink, hcases⟩ :=
    h.exists_way (lt_size_of_parent hparent) (h.linked.ne_root_of_parent hparent)
  obtain rfl := Option.some.inj (hparent.symm.trans hlink)
  obtain rfl := hway.way_eq h.linked hupper
  rcases hcases with ⟨hkind, -⟩ | ⟨hkind, stand, hstand, hholds, hstandWay⟩
  · rw [← hname]
    exact .inl ⟨hkind, .folder hway hparent hkind⟩
  · refine .inr ⟨hkind, stand, hstand, hholds, ?_⟩
    rw [Stand.place, hstandWay, ← hname, hholds.entry]
    rfl

theorem collision?_cases (h : tree.Arranged isFolder stands) (hway : tree.Reaches way parent) {origin : Origin}
    {name : String} (hcollision : tree.collision? parent origin name ≠ none) :
    isFolder (way ++ [name]) ∨ ∃ stand ∈ stands, stand.place = way ++ [name] := by
  rw [collision?, ne_eq, Option.map_eq_none_iff, ← ne_eq, Option.ne_none_iff_exists'] at hcollision
  obtain ⟨index, hindex⟩ := hcollision
  rcases h.childNamed?_cases hway hindex with ⟨-, hreach⟩ | ⟨-, stand, hstand, -, hplace⟩
  · refine .inl (h.isFolder_of_reaches hreach ?_)
    intro hroot
    subst hroot
    have hnil := hreach.way_eq h.linked .root
    exact List.append_ne_nil_of_right_ne_nil _ (List.cons_ne_nil _ _) hnil
  · exact .inr ⟨stand, hstand, hplace⟩

end Arranged

/-! #### Describing a folder -/

private theorem keeps_describe (hindex : index < tree.size) (source : SourcePage) (other : Nat) :
    ((tree.describe index source).node other).parent = (tree.node other).parent ∧
      ((tree.describe index source).node other).kind = (tree.node other).kind ∧
      ((tree.describe index source).node other).name = (tree.node other).name ∧
      ((tree.describe index source).node other).id = (tree.node other).id := by
  rw [PageTree.describe, parent_edit tree _ hindex, entry_edit tree _ hindex]
  split
  · dsimp only
    split <;> exact ⟨rfl, rfl, rfl, rfl⟩
  · exact ⟨rfl, rfl, rfl, rfl⟩

theorem reaches_describe_iff (hindex : index < tree.size) (source : SourcePage) {other : Nat} :
    (tree.describe index source).Reaches way other ↔ tree.Reaches way other :=
  Reaches.iff_of_keeps (fun other => (keeps_describe hindex source other).2.1)
    (fun other => (keeps_describe hindex source other).2.2.1) fun other _ => (keeps_describe hindex source other).1

namespace Arranged

theorem describe (h : tree.Arranged isFolder stands) (hway : tree.Reaches way index) (source : SourcePage) :
    (tree.describe index source).Arranged isFolder stands := by
  have hindex := hway.lt_size h.linked
  have hnodes := keeps_describe hindex source
  have hreach (way : List String) (other : Nat) :
      (tree.describe index source).Reaches way other ↔ tree.Reaches way other := reaches_describe_iff hindex source
  have hsize : (tree.describe index source).size = tree.size := size_edit ..
  refine ⟨h.linked.edit hindex _, ?_, (hnodes root).2.1.trans h.root_kind, fun other hother hroot => ?_, fun other => ?_,
    fun other hkind => ?_, fun other number hother => ?_, ?_⟩
  · refine h.differ.of_subset (fun other => ⟨?_, (hnodes other).2.2.1⟩) fun other => ?_
    · rw [NavEntry.origin, NavEntry.origin, (hnodes other).2.1]
    · rw [PageTree.describe, children_edit tree _ hindex]
      exact List.Subset.refl _
  · rw [(hnodes other).2.1]
    exact h.kinds other (hsize ▸ hother) hroot
  · simp only [hreach, h.folders]
  · rw [(hnodes other).2.1] at hkind
    obtain ⟨way, hother⟩ := h.reached other hkind
    exact ⟨way, (hreach way other).mpr hother⟩
  · rw [(hnodes number).2.2.2]
    exact h.ids other number ((hreach other number).mp hother)
  · rw [numbersOf_congr hsize fun other _ => (hnodes other).2.1]
    refine forall₂_imp_of_mem h.pages fun other hother stand hholds => ?_
    have hkind := (mem_numbersOf_iff.mp hother).2
    obtain ⟨hentry, parent, hparent, hbelow⟩ := hholds
    have hne : other ≠ index := by
      intro heq
      subst heq
      cases hway with
      | root => rw [h.root_kind] at hkind; cases hkind
      | folder _ _ hfolder => rw [hfolder] at hkind; cases hkind
    refine ⟨?_, parent, (hnodes other).1.trans hparent, (hreach _ _).mpr hbelow⟩
    rw [PageTree.describe, entry_edit tree _ hindex, if_neg hne, hentry]

end Arranged

/-! #### Moving a page -/

namespace Arranged

theorem ne_root_of_page (h : tree.Arranged isFolder stands)
    (hkind : (tree.node index).kind = .page) : index ≠ root := by
  intro hroot
  rw [hroot, h.root_kind] at hkind
  cases hkind

/-- A page lies above no folder. -/
theorem not_atOrAbove_of_page (h : tree.Arranged isFolder stands) (hkind : (tree.node index).kind = .page)
    (hway : tree.Reaches way newParent) : ¬ tree.AtOrAbove index newParent := by
  intro habove
  obtain ⟨upper, hupper⟩ := hway.of_atOrAbove h.linked habove
  cases hupper with
  | root => exact h.ne_root_of_page hkind rfl
  | folder _ _ hfolder => rw [hfolder] at hkind; cases hkind

private theorem reaches_of_moves_iff (hkind : (tree.node index).kind = .page)
    (hmoves : tree.Moves next index newParent) {other : Nat} :
    next.Reaches way other ↔ tree.Reaches way other := by
  refine Reaches.iff_of_keeps (fun other => by rw [hmoves.entries]) (fun other => by rw [hmoves.entries])
    fun other hfolder => ?_
  rw [hmoves.parents, if_neg]
  intro heq
  rw [heq, hkind] at hfolder
  cases hfolder

/-- The other pages stay where they stand. -/
theorem holds_of_moves (hkind : (tree.node index).kind = .page) (hmoves : tree.Moves next index newParent)
    {numbers : List Nat} {others : List Stand} (hne : index ∉ numbers) (hpages : List.Forall₂ tree.Holds numbers others) :
    List.Forall₂ next.Holds numbers others := by
  refine forall₂_imp_of_mem hpages fun other hother stand hstand => ?_
  obtain ⟨hentry, parent, hparent, hbelow⟩ := hstand
  have hstays : other ≠ index := fun heq => hne (heq ▸ hother)
  exact ⟨(hmoves.entries other).trans hentry, parent, by rw [hmoves.parents, if_neg hstays, hparent],
    (reaches_of_moves_iff hkind hmoves).mpr hbelow⟩

/-- A page is moved to the folder at the end of a way. -/
theorem of_moves (h : tree.Arranged isFolder (before ++ stand :: after)) (hholds : tree.Holds index stand)
    (hkind : (tree.node index).kind = .page) (hway : tree.Reaches way newParent)
    (hdiffers : (tree.node index).parent ≠ some newParent) (hmoves : tree.Moves next index newParent) :
    next.Arranged isFolder (before ++ ⟨stand.page, way⟩ :: after) where
  linked := hmoves.linked h.linked (h.ne_root_of_page hkind) (hway.lt_size h.linked) (h.not_atOrAbove_of_page hkind hway)
    hdiffers
  differ := h.differ.of_moves hmoves
  root_kind := by
    rw [hmoves.entries]
    exact h.root_kind
  kinds other hother hne := by
    rw [hmoves.entries]
    exact h.kinds other (hmoves.size ▸ hother) hne
  folders other := by
    simp only [reaches_of_moves_iff hkind hmoves, h.folders]
  reached other hfolder := by
    rw [hmoves.entries] at hfolder
    obtain ⟨other, hother⟩ := h.reached other hfolder
    exact ⟨other, (reaches_of_moves_iff hkind hmoves).mpr hother⟩
  ids other number hother := by
    rw [hmoves.entries]
    exact h.ids other number ((reaches_of_moves_iff hkind hmoves).mp hother)
  pages := by
    rw [numbersOf_congr hmoves.size fun other _ => by rw [hmoves.entries]]
    obtain ⟨front, number, back, hnumbers, hfront, hnumber, hback⟩ := forall₂_append_cons h.pages
    -- the page moved is the one at this position of the layout, since no other has its place
    have hsame : number = index := by
      obtain ⟨parent, hparent, hbelow⟩ := hholds.below
      obtain ⟨upper, hupper, habove⟩ := hnumber.below
      exact h.eq_of_place habove hupper hbelow hparent (by rw [hnumber.entry, hholds.entry])
    subst hsame
    have hnodup := nodup_numbersOf tree .page
    rw [hnumbers, List.nodup_middle, List.nodup_cons, List.mem_append, not_or] at hnodup
    have hmoved : next.Holds number ⟨stand.page, way⟩ :=
      ⟨(hmoves.entries number).trans hnumber.entry, newParent, by rw [hmoves.parents, if_pos rfl],
        (reaches_of_moves_iff hkind hmoves).mpr hway⟩
    rw [hnumbers]
    exact List.rel_append (holds_of_moves hkind hmoves hnodup.1.1 hfront)
      (.cons hmoved (holds_of_moves hkind hmoves hnodup.1.2 hback))

end Arranged

end PageTree

end SchemaDocs
