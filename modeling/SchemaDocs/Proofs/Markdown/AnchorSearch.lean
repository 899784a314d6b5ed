import SchemaDocs.Proofs.Markdown.Anchors

/-!
# The search for an anchor

An anchor is searched for without a bound on the attempts: a candidate is added to the anchors in use,
and where it was among them already, the base is tried with the next number. The search always ends,
and in one way only: at the first candidate that is free, with this one added and nothing else. In a
document it goes at each heading from the anchors of the headings before to those and its own.
-/

namespace SchemaDocs.Markdown

/-- A search under way: the anchors in use, the one that is tried next, and its number. -/
structure AnchorSearch where
  used : Finset String
  anchor : String
  number : Nat

namespace AnchorSearch

def start (used : Finset String) (base : String) : AnchorSearch := ⟨used, base, 1⟩

def next (base : String) (search : AnchorSearch) : AnchorSearch :=
  { search with anchor := base ++ "-" ++ toString (search.number + 1), number := search.number + 1 }

def add (search : AnchorSearch) : AnchorSearch := { search with used := insert search.anchor search.used }

/-- A search ends as soon as an anchor is free, and goes on as long as none is. -/
inductive Ends (base : String) : (search : AnchorSearch) → (attempts : Nat) → (last : AnchorSearch) → Prop where
  | free {search : AnchorSearch} (h : search.anchor ∉ search.used) : Ends base search 1 search.add
  | taken {search last : AnchorSearch} {attempts : Nat} (h : search.anchor ∈ search.used)
      (hnext : Ends base (search.next base) attempts last) : Ends base search (attempts + 1) last

variable {base : String} {search last other : AnchorSearch}

theorem Ends.unique {attempts others : Nat} (h : Ends base search attempts last)
    (hother : Ends base search others other) :
    attempts = others ∧ last = other := by
  induction h generalizing others with
  | free hfree =>
    cases hother with
    | free => exact ⟨rfl, rfl⟩
    | taken hused => exact absurd hused hfree
  | taken hused _ ih =>
    cases hother with
    | free hfree => exact absurd hused hfree
    | taken _ hnext =>
      obtain ⟨rfl, rfl⟩ := ih hnext
      exact ⟨rfl, rfl⟩

/-- The search before an attempt, if all candidates before it were in use. -/
def before (used : Finset String) (base : String) (attempt : Nat) : AnchorSearch :=
  ⟨used, anchorCandidate base attempt, attempt + 1⟩

private theorem next_before (used : Finset String) (base : String) (attempt : Nat) :
    (before used base attempt).next base = before used base (attempt + 1) := rfl

private theorem ends_before {used : Finset String} {attempt first : Nat}
    (h : IsLeast {free | anchorCandidate base free ∉ used} first) (hle : attempt ≤ first) :
    Ends base (before used base attempt) (first - attempt + 1) (before used base first).add := by
  induction hle using Nat.decreasingInduction with
  | self =>
    rw [Nat.sub_self]
    exact .free h.1
  | of_succ attempt hlt ih =>
    rw [show first - attempt = first - (attempt + 1) + 1 by omega]
    refine .taken (mem_of_lt_isLeast h hlt) ?_
    rw [next_before]
    exact ih

theorem ends_start_iff {used : Finset String} {first attempts : Nat}
    (h : IsLeast {free | anchorCandidate base free ∉ used} first) :
    Ends base (start used base) attempts last ↔ attempts = first + 1 ∧ last = (before used base first).add := by
  have hends : Ends base (start used base) (first + 1) (before used base first).add := ends_before h first.zero_le
  constructor
  · intro hlast
    exact hlast.unique hends
  · rintro ⟨rfl, rfl⟩
    exact hends

/-! ### Documents -/

/-- The anchors of so many headings of a document, from the first one on. -/
def anchorsOfFirst (events : List Event) (count : Nat) : Finset String :=
  (((headings events).take count).map (·.id)).toFinset

theorem card_anchorsOfFirst_le (events : List Event) (count : Nat) : (anchorsOfFirst events count).card ≤ count := by
  refine (List.toFinset_card_le _).trans ?_
  rw [List.length_map]
  exact List.length_take_le count _

theorem anchorsOfFirst_succ {events : List Event} {position : Nat} {entry : TocEntry}
    (h : (headings events)[position]? = some entry) :
    anchorsOfFirst events (position + 1) = insert entry.id (anchorsOfFirst events position) := by
  rw [anchorsOfFirst, List.take_add_one, h, Option.toList_some, List.map_append, List.toFinset_append, Finset.union_comm]
  rfl

/-- At a heading, the search goes from the anchors of the headings before it to those and its own. -/
theorem ends_heading {events : List Event} {position : Nat} {entry : TocEntry}
    (h : (headings events)[position]? = some entry) :
    ∃ attempts ≤ position + 1,
      Ends (anchorBase entry.title) (start (anchorsOfFirst events position) (anchorBase entry.title)) attempts
        ⟨anchorsOfFirst events (position + 1), entry.id, attempts⟩ := by
  obtain ⟨first, hle, hfirst⟩ := exists_isLeast_free (anchorsOfFirst events position) (anchorBase entry.title)
  have hid : entry.id = anchorCandidate (anchorBase entry.title) first := by
    rw [id_eq_uniqueAnchor h]
    refine uniqueAnchor_eq_of_isLeast ?_
    rwa [List.toFinset_reverse]
  refine ⟨first + 1, Nat.succ_le_succ (hle.trans (card_anchorsOfFirst_le events position)), (ends_start_iff hfirst).mpr ⟨rfl, ?_⟩⟩
  rw [anchorsOfFirst_succ h, hid]
  rfl

/-- For every set of anchors in use and every title, the search ends, and in one way only: after at most
one attempt more than there are anchors, at the first candidate that is free, with this one added and
nothing else. Numbers go as far as the attempts. The anchor of the title is this candidate, in whatever
order the anchors are listed. In a document, the search at each heading begins with the anchors of the
headings before it and ends with those and the anchor of the heading. -/
theorem ends_at_first_free :
    (∀ (used : Finset String) (title base : String),
      base = (if Text.slugify title = "" then "section" else Text.slugify title) →
      ∃ first ≤ used.card, IsLeast {attempt | anchorCandidate base attempt ∉ used} first ∧
        (∀ attempts last, Ends base (start used base) attempts last ↔ attempts = first + 1 ∧
          last = ⟨insert (anchorCandidate base first) used, anchorCandidate base first, first + 1⟩) ∧
        ∀ anchors : List String, anchors.toFinset = used → uniqueAnchor anchors title = anchorCandidate base first) ∧
    ∀ events position entry, (headings events)[position]? = some entry →
      ∃ attempts ≤ position + 1,
        Ends (anchorBase entry.title) (start (anchorsOfFirst events position) (anchorBase entry.title)) attempts
          ⟨anchorsOfFirst events (position + 1), entry.id, attempts⟩ := by
  refine ⟨fun used title base hbase => ?_, fun _ _ _ => ends_heading⟩
  rw [← anchorBase_eq] at hbase
  obtain ⟨first, hle, hfirst⟩ := exists_isLeast_free used base
  refine ⟨first, hle, hfirst, fun attempts last => ends_start_iff hfirst, fun anchors hused => ?_⟩
  rw [hbase] at hfirst ⊢
  refine uniqueAnchor_eq_of_isLeast ?_
  rwa [hused]

/-- A document with titles that come to the same anchors. -/
def sameTitles : List Event := events "# Usage\n\n## Usage\n\n## Usage 2\n\n## Usage\n\n## !!!\n"

theorem ends_at_first_free_sameTitles :
    Ends "usage" (start {"usage", "usage-2", "usage-4"} "usage") 3
        ⟨insert "usage-3" {"usage", "usage-2", "usage-4"}, "usage-3", 3⟩ ∧
      uniqueAnchor ["usage-4", "usage", "usage-2"] "Usage" = "usage-3" ∧
      ∃ attempts ≤ 4, Ends (anchorBase "Usage") (start (anchorsOfFirst sameTitles 3) (anchorBase "Usage")) attempts
        ⟨anchorsOfFirst sameTitles 4, "usage-3", attempts⟩ := by
  obtain ⟨hsearch, hdocuments⟩ := ends_at_first_free
  have hbase : "usage" = if Text.slugify "Usage" = "" then "section" else Text.slugify "Usage" := by decide +kernel
  obtain ⟨first, -, hfirst, hends, hanchor⟩ := hsearch {"usage", "usage-2", "usage-4"} "Usage" "usage" hbase
  have hused : ∀ attempt < 2, anchorCandidate "usage" attempt ∈ ({"usage", "usage-2", "usage-4"} : Finset String) := by
    decide +kernel
  have hfree : anchorCandidate "usage" 2 ∉ ({"usage", "usage-2", "usage-4"} : Finset String) := by decide +kernel
  obtain rfl : first = 2 :=
    hfirst.unique ⟨hfree, fun attempt hattempt => Nat.le_of_not_lt fun hlt => hattempt (hused attempt hlt)⟩
  have hcandidate : anchorCandidate "usage" 2 = "usage-3" := by decide +kernel
  rw [hcandidate] at hends hanchor
  have hentry : (headings sameTitles)[3]? = some ⟨"Usage", "usage-3", 2⟩ := by decide +kernel
  have hheading := hdocuments sameTitles 3 _ hentry
  exact ⟨(hends 3 _).mpr ⟨rfl, rfl⟩, hanchor ["usage-4", "usage", "usage-2"] (by decide +kernel), hheading⟩

end AnchorSearch

end SchemaDocs.Markdown
