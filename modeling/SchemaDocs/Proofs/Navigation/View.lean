import SchemaDocs.Proofs.Navigation.Depth

/-!
# Reading a navigation tree

What readers see of a linked tree: a node with the views of its children below it, and in the whole
view each node of the tree once.
-/

namespace SchemaDocs

namespace TreeView

mutual

/-- What a view shows, each node before those below it. -/
def entries : TreeView → List NavEntry
  | .node entry children => entry :: listEntries children

def listEntries : List TreeView → List NavEntry
  | [] => []
  | view :: views => entries view ++ listEntries views

end

theorem listEntries_eq (views : List TreeView) : listEntries views = views.flatMap entries := by
  induction views with
  | nil => rw [listEntries, List.flatMap_nil]
  | cons view views ih => rw [listEntries, ih, List.flatMap_cons]

end TreeView

namespace PageTree

variable {tree : PageTree} {index other ancestor depth fuel : Nat}

/-- The numbers of a node and of those below it, in the order in which they are shown. -/
def numbersBelow (tree : PageTree) : (fuel : Nat) → (index : Nat) → List Nat
  | 0, index => [index]
  | fuel + 1, index => index :: (tree.node index).children.flatMap (numbersBelow tree fuel)

theorem entries_viewBelow (tree : PageTree) (fuel index : Nat) :
    (tree.viewBelow fuel index).entries = (tree.numbersBelow fuel index).map fun n => (tree.node n).toNavEntry := by
  induction fuel generalizing index with
  | zero => rfl
  | succ fuel ih =>
    rw [viewBelow, numbersBelow, TreeView.entries, TreeView.listEntries_eq, List.map_cons, List.flatMap_map,
      List.map_flatMap]
    simp only [ih]

private theorem AtOrAbove.eq_or_child (h : tree.AtOrAbove ancestor index) :
    ancestor = index ∨ ∃ child, (tree.node child).parent = some ancestor ∧ tree.AtOrAbove child index := by
  induction h with
  | self => exact .inl rfl
  | up hparent _ ih =>
    right
    rcases ih with rfl | ⟨child, hchild, habove⟩
    · exact ⟨_, hparent, .self⟩
    · exact ⟨child, hchild, .up hparent habove⟩

namespace Linked

private theorem children_eq_nil (h : tree.Linked) (hdepth : tree.HasDepth index depth) (hsize : tree.size ≤ depth + 1) :
    (tree.node index).children = [] := by
  rw [List.eq_nil_iff_forall_not_mem]
  intro child hchild
  have := h.depth_lt (.down ((h.mem_children_iff index child).mp hchild) hdepth)
  omega

theorem viewBelow_congr (h : tree.Linked) (hdepth : tree.HasDepth index depth) {more : Nat}
    (hfuel : tree.size ≤ depth + fuel + 1) (hmore : tree.size ≤ depth + more + 1) :
    tree.viewBelow fuel index = tree.viewBelow more index := by
  induction fuel generalizing index depth more with
  | zero =>
    have hleaf := h.children_eq_nil hdepth (by omega)
    cases more with
    | zero => rfl
    | succ more => rw [viewBelow, viewBelow, hleaf, List.map_nil]
  | succ fuel ih =>
    cases more with
    | zero =>
      rw [viewBelow, viewBelow, h.children_eq_nil hdepth (by omega), List.map_nil]
    | succ more =>
      rw [viewBelow, viewBelow]
      congr 1
      apply List.map_congr_left
      intro child hchild
      exact ih (.down ((h.mem_children_iff index child).mp hchild) hdepth) (by omega) (by omega)

/-! ### Each node once -/

theorem mem_numbersBelow_iff (h : tree.Linked) (hdepth : tree.HasDepth index depth)
    (hfuel : tree.size ≤ depth + fuel + 1) : other ∈ tree.numbersBelow fuel index ↔ tree.AtOrAbove index other := by
  induction fuel generalizing index depth with
  | zero =>
    rw [numbersBelow, List.mem_singleton]
    constructor
    · rintro rfl
      exact .self
    · intro habove
      rcases habove.eq_or_child with heq | ⟨child, hchild, -⟩
      · exact heq.symm
      · have hmem := (h.mem_children_iff index child).mpr hchild
        rw [h.children_eq_nil hdepth (by omega)] at hmem
        cases hmem
  | succ fuel ih =>
    rw [numbersBelow, List.mem_cons, List.mem_flatMap]
    constructor
    · rintro (rfl | ⟨child, hchild, hother⟩)
      · exact .self
      · have hparent := (h.mem_children_iff index child).mp hchild
        exact (AtOrAbove.up hparent .self).trans ((ih (.down hparent hdepth) (by omega)).mp hother)
    · intro habove
      rcases habove.eq_or_child with heq | ⟨child, hparent, hchild⟩
      · exact .inl heq.symm
      · exact .inr ⟨child, (h.mem_children_iff index child).mpr hparent,
          (ih (.down hparent hdepth) (by omega)).mpr hchild⟩

private theorem nodup_numbersBelow (h : tree.Linked) (hdepth : tree.HasDepth index depth)
    (hfuel : tree.size ≤ depth + fuel + 1) : (tree.numbersBelow fuel index).Nodup := by
  induction fuel generalizing index depth with
  | zero => exact List.nodup_singleton _
  | succ fuel ih =>
    have hchildDepth {child : Nat} (hchild : child ∈ (tree.node index).children) :
        tree.HasDepth child (depth + 1) :=
      .down ((h.mem_children_iff index child).mp hchild) hdepth
    have habove {child other : Nat} (hchild : child ∈ (tree.node index).children)
        (hother : other ∈ tree.numbersBelow fuel child) : tree.AtOrAbove child other :=
      (h.mem_numbersBelow_iff (hchildDepth hchild) (by omega)).mp hother
    rw [numbersBelow, List.nodup_cons, List.nodup_flatMap]
    refine ⟨fun hmem => ?_, fun child hchild => ih (hchildDepth hchild) (by omega), ?_⟩
    · obtain ⟨child, hchild, hindex⟩ := List.mem_flatMap.mp hmem
      rcases h.eq_or_depth_lt (habove hchild hindex) (hchildDepth hchild) hdepth with heq | hlt
      · have := h.depth_unique (heq ▸ hchildDepth hchild) hdepth
        omega
      · omega
    -- two children with a node in common below them would be one node, for they are equally deep
    · refine (h.nodup_children index).imp_of_mem fun {left right} hleft hright hne => ?_
      intro other hotherLeft hotherRight
      exact hne (h.eq_of_depth_eq (habove hleft hotherLeft) (habove hright hotherRight)
        (hchildDepth hleft) (hchildDepth hright))

/-- The view of a tree shows its nodes in some order, each of them once. -/
theorem entries_view (h : tree.Linked) :
    ∃ order : List Nat, order.Perm (List.range tree.size) ∧
      tree.view.entries = order.map fun n => (tree.node n).toNavEntry := by
  refine ⟨tree.numbersBelow tree.size root, ?_, entries_viewBelow ..⟩
  rw [List.perm_ext_iff_of_nodup (h.nodup_numbersBelow .root (by omega)) List.nodup_range]
  intro index
  rw [h.mem_numbersBelow_iff .root (by omega), List.mem_range]
  constructor
  · intro habove
    cases habove with
    | self => exact h.nonempty
    | up hparent _ => exact lt_size_of_parent hparent
  · exact h.rooted index

end Linked

end PageTree

end SchemaDocs
