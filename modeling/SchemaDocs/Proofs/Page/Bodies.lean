import SchemaDocs.Markdown.Renderer
import SchemaDocs.Page.Basic
import SchemaDocs.Proofs.Markdown.BlankLines
import SchemaDocs.Proofs.Markdown.Safety
import SchemaDocs.Proofs.Page.Division
import SchemaDocs.Proofs.Text.Lines

/-!
# Bodies behind front matter

Front matter can be put before any body. What is read of the body behind it is the body without the white space in
front, which is more than its leading blank lines where the line that follows them is indented. A body without such
an indentation means the same behind front matter as it does alone.
-/

namespace SchemaDocs

open Markdown (dropBlankLines events render?)
open Text (trim trimStart)

namespace Division

variable {text block rest : List Char}

private theorem IsClosed.append_right (h : IsClosed text block rest) (body : List Char) :
    IsClosed (text ++ body) block (rest ++ body) := by
  refine ⟨?_, fun front back htext => Nat.le_of_not_lt fun hlt => ?_⟩
  · rw [h.text_eq, List.append_assoc]
  · have hlength : (front ++ closing).length ≤ text.length := by
      rw [h.text_eq, List.length_append, List.length_append, List.length_append]
      omega
    obtain ⟨more, hmore⟩ := List.prefix_of_prefix_length_le ⟨back, htext.symm⟩ (List.prefix_append text body) hlength
    exact Nat.not_le_of_lt hlt (h.first front more hmore.symm)

end Division

namespace FrontMatter

open Division

/-- Source that is front matter and nothing else is front matter before any body. -/
theorem extract_append {block : String} {front : FrontMatter} (h : extract block = .ok (some front, ""))
    (body : String) :
    extract (block ++ body) = .ok (some front, String.ofList (trimStart body.toList)) := by
  have hdivides := divides_ofSource block.toList
  generalize hdivision : ofSource block.toList = division at hdivides
  cases hdivides with
  | bare _ =>
    rw [extract_of_bare hdivision] at h
    cases h
  | unclosed _ _ =>
    rw [extract_of_unclosed hdivision] at h
    cases h
  | @block inner behind hmark hclosed =>
    rw [extract_of_block hdivision] at h
    cases hread : ofBlock (trim inner) with
    | error fault =>
      rw [hread] at h
      cases h
    | ok found =>
      rw [hread] at h
      obtain ⟨hfront, hbehind⟩ := Prod.mk.inj (Except.ok.inj h)
      have hspace : trimStart behind = [] := String.ofList_eq_empty_iff.mp hbehind
      have hne : trimStart block.toList ≠ [] := fun hnil => by
        rw [hnil, List.prefix_nil] at hmark
        cases hmark
      have hsource : trimStart (block ++ body).toList = trimStart block.toList ++ body.toList := by
        rw [String.toList_append, Text.trimStart_append_of_ne_nil hne]
      have hmarked : mark <+: trimStart (block ++ body).toList := hsource ▸ hmark.trans (List.prefix_append _ _)
      have hlength : 3 ≤ (trimStart block.toList).length := hmark.length_le
      -- the body comes behind the place where the block was closed, so that this stays the first one
      have hclosedAll : IsClosed ((trimStart (block ++ body).toList).drop 3) inner (behind ++ body.toList) := by
        rw [hsource, List.drop_append_of_le_length hlength]
        exact hclosed.append_right body.toList
      rw [extract_of_block (ofSource_of_isClosed hmarked hclosedAll), hread,
        Text.trimStart_append_of_space (Text.trimStart_eq_nil_iff.mp hspace), ← hfront]
      rfl

end FrontMatter

/-! ### Blank lines and indentation -/

/-- The first line of a body that is not blank begins with white space. -/
def IsIndented (body : List Char) : Prop := ∃ c ∈ (dropBlankLines body).head?, Text.isWhiteSpace c

variable {body : List Char}

private theorem trimStart_dropBlankLines (body : List Char) : trimStart (dropBlankLines body) = trimStart body := by
  obtain ⟨front, hbody, hspace⟩ := Markdown.exists_blank_append body
  rw [hbody, Text.trimStart_append_of_space hspace, ← hbody]

theorem trimStart_eq_dropBlankLines_iff : trimStart body = dropBlankLines body ↔ ¬ IsIndented body := by
  rw [← trimStart_dropBlankLines, Text.trimStart_eq_self_iff, IsIndented]
  simp

private theorem dropBlankLines_of_trimStart (h : trimStart body = body) : dropBlankLines body = body := by
  obtain ⟨front, hbody, -⟩ := Markdown.exists_blank_append body
  have hsuffix : trimStart (dropBlankLines body) <:+ dropBlankLines body := Text.trimStart_suffix _
  rw [trimStart_dropBlankLines, h] at hsuffix
  exact List.IsSuffix.eq_of_length_le ⟨front, hbody.symm⟩ hsuffix.length_le

private theorem dropBlankLines_trimStart (body : List Char) : dropBlankLines (trimStart body) = trimStart body :=
  dropBlankLines_of_trimStart (Text.trimStart_trimStart body)

/-! ### Rendering -/

namespace Markdown

theorem refusedOffset?_eq_none_iff {offset : Nat} {text : List Char} :
    refusedOffset? offset text = none ↔ ∀ c ∈ text, isRefused c = false := by
  induction text generalizing offset with
  | nil => exact iff_of_true rfl nofun
  | cons c text ih =>
    rw [refusedOffset?, List.forall_mem_cons]
    split
    · rename_i hc
      exact iff_of_false (Option.some_ne_none _) fun h => absurd hc (by rw [h.1]; exact Bool.false_ne_true)
    · rename_i hc
      rw [ih, and_iff_right (Bool.not_eq_true _ ▸ hc)]

private theorem refusal?_of_suffix {limit : Nat} {text whole : String} (hsuffix : text.toList <:+ whole.toList)
    (h : refusal? limit whole = none) : refusal? limit text = none := by
  obtain ⟨front, hwhole⟩ := hsuffix
  have htext : whole = String.ofList front ++ text := by
    rw [← String.toList_inj, String.toList_append, String.toList_ofList, hwhole]
  rw [refusal?] at h ⊢
  split at h
  · cases h
  · rename_i hsize
    rw [htext, String.utf8ByteSize_append] at hsize
    rw [if_neg (by omega)]
    rw [Option.map_eq_none_iff, refusedOffset?_eq_none_iff] at h ⊢
    exact fun c hc => h c (hwhole ▸ List.mem_append_right front hc)

end Markdown

namespace Page

private theorem parse_of_extract {source content : String} {frontMatter : Option FrontMatter}
    (h : FrontMatter.extract source = .ok (frontMatter, content)) :
    parse source = .ok ⟨frontMatter, content, Markdown.headings (events content)⟩ := by
  rw [parse, h]
  rfl

/-- A body without front matter of its own, behind front matter. Its content is the body up to leading blank lines
exactly if the first line that is not blank is not indented. Then the page has the table of contents that the body
has alone, and it renders to the same HTML where the body can be rendered. -/
theorem parse_append {block body : String} {front : FrontMatter}
    (hblock : FrontMatter.extract block = .ok (some front, "")) (hbody : FrontMatter.extract body = .ok (none, body)) :
    ∃ page alone, parse (block ++ body) = .ok page ∧ parse body = .ok alone ∧
      page.frontMatter = some front ∧ page.content = String.ofList (trimStart body.toList) ∧ alone.content = body ∧
      (dropBlankLines page.content.toList = dropBlankLines alone.content.toList ↔ ¬ IsIndented body.toList) ∧
      (¬ IsIndented body.toList → page.toc = alone.toc ∧ ∀ limit html,
        render? limit alone.content = .ok html → render? limit page.content = .ok html) := by
  refine ⟨_, _, parse_of_extract (FrontMatter.extract_append hblock body), parse_of_extract hbody, rfl, rfl, rfl, ?_, ?_⟩
  · rw [String.toList_ofList, dropBlankLines_trimStart]
    exact trimStart_eq_dropBlankLines_iff
  · intro hindented
    have hevents : events (String.ofList (trimStart body.toList)) = events body := by
      rw [trimStart_eq_dropBlankLines_iff.mpr hindented, Markdown.events_dropBlankLines]
    -- the fields first, as comparing the two pages would unfold the headings
    dsimp only
    refine ⟨by rw [hevents], fun limit html hok => ?_⟩
    obtain ⟨haccepted, rfl⟩ := Markdown.render?_eq_ok_iff.mp hok
    have hsuffix : (String.ofList (trimStart body.toList)).toList <:+ body.toList := by
      rw [String.toList_ofList]
      exact Text.trimStart_suffix _
    exact Markdown.render?_eq_ok_iff.mpr ⟨Markdown.refusal?_of_suffix hsuffix haccepted, by rw [hevents]⟩

/-- Front matter before a body that begins with a blank line. -/
theorem parse_append_spaced :
    ∃ page alone, parse ("---\ntitle: A\n---\n" ++ "\n# B\n") = .ok page ∧ parse "\n# B\n" = .ok alone ∧
      page.content = "# B\n" ∧ page.toc = alone.toc ∧ render? 9 page.content = .ok "<h1 id=\"b\">B</h1>\n" := by
  have hblock : FrontMatter.extract "---\ntitle: A\n---\n" = .ok (some { title := some "A" }, "") := by decide +kernel
  have hbody : FrontMatter.extract "\n# B\n" = .ok (none, "\n# B\n") := by decide
  have hindented : ¬ IsIndented "\n# B\n".toList := by
    rw [← trimStart_eq_dropBlankLines_iff]
    decide
  obtain ⟨page, alone, hpage, halone, -, hcontent, hsource, -, hsame⟩ := parse_append hblock hbody
  obtain ⟨htoc, hrender⟩ := hsame hindented
  refine ⟨page, alone, hpage, halone, hcontent, htoc, hrender 9 _ ?_⟩
  rw [hsource]
  decide +kernel

/-- Indented code, which is a paragraph behind front matter. -/
theorem parse_append_code :
    FrontMatter.extract "    code\n" = .ok (none, "    code\n") ∧
      (∃ page, parse ("---\n---\n" ++ "    code\n") = .ok page ∧ page.content = "code\n" ∧
        dropBlankLines page.content.toList ≠ dropBlankLines "    code\n".toList ∧
        render? 100 page.content = .ok "<p>code</p>\n") ∧
      render? 100 "    code\n" = .ok "<pre><code>code\n</code></pre>\n" := by
  have hpage : parse ("---\n---\n" ++ "    code\n") = .ok ⟨some {}, "code\n", []⟩ := by decide +kernel
  have hcontent : dropBlankLines "code\n".toList ≠ dropBlankLines "    code\n".toList := by decide +kernel
  have hparagraph : render? 100 "code\n" = .ok "<p>code</p>\n" := by decide +kernel
  have hcode : render? 100 "    code\n" = .ok "<pre><code>code\n</code></pre>\n" := by decide +kernel
  exact ⟨by decide, ⟨_, hpage, rfl, hcontent, hparagraph⟩, hcode⟩

end Page

end SchemaDocs
