import Mathlib.Data.List.TakeWhile
import SchemaDocs.Proofs.Navigation.View

/-!
# The order of siblings

Siblings are ordered by what they show alone. So the view of a sorted tree is the view of the tree, sorted
on every level, wherever its nodes lie among the numbers. Where something that comes behind all others is
appended to a list, the others are sorted as without it.
-/

namespace SchemaDocs

variable {α : Type} {le : α → α → Bool}

/-! ### A last item -/

private theorem takeWhile_of_seam {first rest : List α} {item : α} (hfirst : ∀ other ∈ first, !le item other)
    (hrest : ∀ other ∈ rest, le item other) : (first ++ rest).takeWhile (fun other => !le item other) = first := by
  rw [List.takeWhile_append_of_pos hfirst]
  cases rest with
  | nil => rw [List.takeWhile_nil, List.append_nil]
  | cons other rest =>
    rw [List.takeWhile_cons_of_neg (by simp [hrest other List.mem_cons_self]), List.append_nil]

theorem mergeSort_concat (htrans : ∀ a b c, le a b → le b c → le a c) (htotal : ∀ a b, le a b || le b a) {last : α}
    {items : List α} (hlast : ∀ item ∈ items, le item last) :
    (items ++ [last]).mergeSort le = items.mergeSort le ++ [last] := by
  induction items with
  | nil => rw [List.nil_append, List.mergeSort_singleton, List.mergeSort_nil, List.nil_append]
  | cons item items ih =>
    obtain ⟨hitem, hitems⟩ := List.forall_mem_cons.mp hlast
    obtain ⟨front, back, hsorted, hothers, hfront⟩ := List.mergeSort_cons htrans htotal item (items ++ [last])
    obtain ⟨first, rest, hsortedAlone, halone, hfirst⟩ := List.mergeSort_cons htrans htotal item items
    have hback : ∀ other ∈ back, le item other := by
      have hpairs := List.pairwise_mergeSort htrans htotal (item :: (items ++ [last]))
      rw [hsorted] at hpairs
      exact (List.pairwise_cons.mp (List.pairwise_append.mp hpairs).2.1).1
    have hrest : ∀ other ∈ rest ++ [last], le item other := by
      have hpairs := List.pairwise_mergeSort htrans htotal (item :: items)
      rw [hsortedAlone] at hpairs
      rw [List.forall_mem_append, List.forall_mem_singleton]
      exact ⟨(List.pairwise_cons.mp (List.pairwise_append.mp hpairs).2.1).1, hitem⟩
    -- in both lists the item stands behind those that may not stand behind it
    have hsame : front ++ back = first ++ (rest ++ [last]) := by
      rw [← hothers, ih hitems, halone, List.append_assoc]
    obtain rfl : front = first := by
      rw [← takeWhile_of_seam hfront hback, hsame, takeWhile_of_seam hfirst hrest]
    rw [List.cons_append, hsorted, hsortedAlone, List.append_cancel_left hsame, List.append_assoc, List.cons_append]

/-! ### Comparing siblings -/

namespace NavEntry

private theorem compareOrder_swap (a b : Option Int) : compareOrder a b = (compareOrder b a).swap := by
  cases a with
  | none => cases b <;> rfl
  | some a =>
    cases b with
    | none => rfl
    | some b =>
      have hswap : compare a b = (compare b a).swap := Std.OrientedCmp.eq_swap
      exact hswap

theorem compareOrder_trans {a b c : Option Int} (hab : (compareOrder a b).isLE) (hbc : (compareOrder b c).isLE) :
    (compareOrder a c).isLE := by
  cases c with
  | none => cases a <;> rfl
  | some c =>
    cases b with
    | none => cases hbc
    | some b =>
      cases a with
      | none => cases hab
      | some a =>
        have htrans : (compare a b).isLE → (compare b c).isLE → (compare a c).isLE := Std.TransCmp.isLE_trans
        exact htrans hab hbc

theorem compareSiblings_eq : compareSiblings =
    compareLex (compareOn fun entry => entry.origin.rank)
      (compareLex (fun a b => compareOrder a.order b.order) (compareOn NavEntry.id)) := rfl

instance : Std.TransCmp compareSiblings := by
  have horders : Std.TransCmp fun a b : NavEntry => compareOrder a.order b.order :=
    { eq_swap := compareOrder_swap .., isLE_trans := compareOrder_trans }
  rw [compareSiblings_eq]
  infer_instance

/-- Pages come before the reference. -/
theorem compareSiblings_of_origin {page reference : NavEntry} (hpage : page.origin = .page)
    (hreference : reference.origin = .reference) : compareSiblings page reference = .lt := by
  rw [compareSiblings, hpage, hreference]
  rfl

end NavEntry

/-! ### Views in order -/

namespace TreeView

def entry : TreeView → NavEntry
  | .node entry _ => entry

def children : TreeView → List TreeView
  | .node _ children => children

def mayPrecede (left right : TreeView) : Bool := NavEntry.compareSiblings left.entry right.entry ≠ .gt

private theorem mayPrecede_eq_isLE (left right : TreeView) :
    left.mayPrecede right = (NavEntry.compareSiblings left.entry right.entry).isLE := by
  rw [mayPrecede]
  cases NavEntry.compareSiblings left.entry right.entry <;> rfl

theorem mayPrecede_trans (a b c : TreeView) (hab : a.mayPrecede b) (hbc : b.mayPrecede c) : a.mayPrecede c := by
  rw [mayPrecede_eq_isLE] at *
  exact Std.TransCmp.isLE_trans hab hbc

theorem mayPrecede_total (a b : TreeView) : a.mayPrecede b || b.mayPrecede a := by
  have hswap : NavEntry.compareSiblings a.entry b.entry = (NavEntry.compareSiblings b.entry a.entry).swap :=
    Std.OrientedCmp.eq_swap
  rw [mayPrecede_eq_isLE, mayPrecede_eq_isLE, hswap]
  cases NavEntry.compareSiblings b.entry a.entry <;> rfl

mutual

/-- A view with siblings in order on every level. -/
def sorted : TreeView → TreeView
  | .node entry children => .node entry ((sortedEach children).mergeSort mayPrecede)

def sortedEach : List TreeView → List TreeView
  | [] => []
  | view :: views => view.sorted :: sortedEach views

end

theorem sortedEach_eq (views : List TreeView) : sortedEach views = views.map sorted := by
  induction views with
  | nil => rw [sortedEach, List.map_nil]
  | cons view views ih => rw [sortedEach, ih, List.map_cons]

theorem entry_sorted (view : TreeView) : view.sorted.entry = view.entry := by
  cases view
  rw [sorted]
  rfl

theorem mem_entries_of_child {view child : TreeView} (h : child ∈ view.children) : child.entry ∈ view.entries := by
  obtain ⟨entry, children⟩ := view
  rw [entries, listEntries_eq]
  refine List.mem_cons_of_mem _ (List.mem_flatMap.mpr ⟨child, h, ?_⟩)
  cases child
  rw [entries]
  exact List.mem_cons_self

/-- A view with another one behind all that is below it. -/
def hang (view part : TreeView) : TreeView := .node view.entry (view.children ++ [part])

theorem entries_hang (view part : TreeView) : (view.hang part).entries = view.entries ++ part.entries := by
  obtain ⟨entry, children⟩ := view
  rw [hang, entries, entries, listEntries_eq, listEntries_eq, List.flatMap_append, List.flatMap_singleton]
  rfl

/-- What hangs behind pages stays there when it belongs to the reference. -/
theorem sorted_hang {view part : TreeView} (hview : ∀ child ∈ view.children, child.entry.origin = .page)
    (hpart : part.entry.origin = .reference) : (view.hang part).sorted = view.sorted.hang part.sorted := by
  obtain ⟨entry, children⟩ := view
  rw [hang, sorted, sorted, hang, sortedEach_eq, sortedEach_eq, List.map_append, List.map_singleton]
  congr 1
  refine mergeSort_concat mayPrecede_trans mayPrecede_total fun child hchild => ?_
  obtain ⟨given, hgiven, rfl⟩ := List.mem_map.mp hchild
  rw [mayPrecede, entry_sorted, entry_sorted, NavEntry.compareSiblings_of_origin (hview given hgiven) hpart]
  rfl

mutual

theorem entries_sorted_perm : (view : TreeView) → view.sorted.entries.Perm view.entries
  | .node entry children => by
    rw [sorted, entries, entries, listEntries_eq]
    refine .cons entry (((List.mergeSort_perm _ _).flatMap_right entries).trans ?_)
    rw [← listEntries_eq]
    exact listEntries_sortedEach_perm children

theorem listEntries_sortedEach_perm :
    (views : List TreeView) → (listEntries (sortedEach views)).Perm (listEntries views)
  | [] => by rw [sortedEach]
  | view :: views => by
    rw [sortedEach, listEntries, listEntries]
    exact (entries_sorted_perm view).append (listEntries_sortedEach_perm views)

end

end TreeView

namespace PageTree

theorem entry_viewBelow (tree : PageTree) (fuel index : Nat) :
    (tree.viewBelow fuel index).entry = (tree.node index).toNavEntry := by
  cases fuel <;> rfl

private theorem viewBelow_sort (tree : PageTree) (fuel index : Nat) :
    tree.sort.viewBelow fuel index = (tree.viewBelow fuel index).sorted := by
  induction fuel generalizing index with
  | zero => rw [viewBelow, viewBelow, TreeView.sorted, TreeView.sortedEach, List.mergeSort_nil, node_sort]
  | succ fuel ih =>
    rw [viewBelow, viewBelow, TreeView.sorted, TreeView.sortedEach_eq, List.map_map, node_sort]
    congr 1
    rw [← List.map_mergeSort (fun left _ right _ => ?_)]
    · exact List.map_congr_left fun child _ => ih child
    · rw [Function.comp_apply, Function.comp_apply, TreeView.mayPrecede, TreeView.entry_sorted, TreeView.entry_sorted,
        entry_viewBelow, entry_viewBelow]
      rfl

theorem view_sort (tree : PageTree) : tree.sort.view = tree.view.sorted := by
  rw [view, view, size_sort, viewBelow_sort]

end PageTree

end SchemaDocs
