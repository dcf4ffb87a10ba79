import CanvasSync.Proofs.Edit.Pages

/-!
Changes that leave a module.

* `Change`: an edit asked of a source;
* `exists_page_of_change`: a change that fits a proper page gives a proper page, which is a module;
* `Reachable`: what runs of such changes make of a page, which is a module too
  (`isModule_of_reachable`);
* `change_not_module`: without its root a page is no module, nor is an element whose tag ends in a
  comment.
-/

namespace CanvasSync.Edit

open CanvasSync.Markup (Page Style)
open CanvasSync.Script (isAttributeName)

/-- Whether a source is a module. -/
def isModule (source : Text) : Bool := (document source).isOk

lemma isModule_text {p : Page} (hp : p.IsProper) : isModule p.text := by
  obtain ⟨s, hs, -⟩ := Page.document_text hp
  rw [isModule, hs]
  rfl

/-- An edit asked of a source. -/
inductive Change where
  | insert (c : Component) (path : Option (List Nat))
  | setProps (id : String) (props : Json.Fields)
  | remove (id : String)

/-- What a change makes of a source. -/
def Change.apply (source : Text) (style : Style) : Change → Except Fault Text
  | insert c path => Edit.insert source c path style
  | setProps id props => Edit.setProps source id props style
  | remove id => Edit.remove source id style

/-- What it takes for a change to leave a page: names are names, values have texts, the root of the
page stays, and no arrow function begins with it. -/
def Change.Fits (style : Style) (p : Page) : Change → Prop
  | insert c _ => c.isPrintable
  | setProps id props => (props.map Prod.fst).Nodup
      ∧ (∀ c ∈ props, isAttributeName c.1.toList ∧ c.2.isPlain)
      ∧ (p.shell.marker? style.marker = some id →
        (p.shell.updated (props.filter fun c => c.1 ≠ style.marker)).Opens)
  | remove id => p.shell.marker? style.marker ≠ some id

variable {style : Style} {p : Page} {change : Change} {out : Text}

/-- A change that fits a page gives a page. -/
lemma exists_page_of_fits (hstyle : style.IsProper) (hp : p.IsProper) (hfits : change.Fits style p)
    (h : change.apply p.text style = .ok out) : ∃ q : Page, q.IsProper ∧ q.text = out := by
  cases change with
  | insert c path =>
      obtain ⟨-, -, -, -, -, -, q, -, -, hq, htext, -⟩ :=
        exists_insert hp hstyle (Component.printable_of_isPrintable hfits) h
      exact ⟨q, hq, htext⟩
  | setProps id props =>
      obtain ⟨hkeys, hprops, hroot⟩ := hfits
      rw [Change.apply, setProps_filter] at h
      obtain ⟨-, -, -, -, -, q, -, -, hq, htext, -⟩ := exists_setProps hp
        (hkeys.sublist (List.filter_sublist.map _)) (fun c hc => by simpa using List.of_mem_filter hc)
        (fun c hc => hprops c (List.mem_of_mem_filter hc)) hroot h
      exact ⟨q, hq, htext⟩
  | remove id =>
      obtain ⟨-, -, -, -, -, -, q, -, -, hq, htext, -⟩ := exists_remove hp hfits h
      exact ⟨q, hq, htext⟩

/-- **A change that fits a proper page leaves a module**, and a proper page again. -/
theorem exists_page_of_change (hstyle : style.IsProper) (hp : p.IsProper)
    (hfits : change.Fits style p) (h : change.apply p.text style = .ok out) :
    isModule out ∧ ∃ q : Page, q.IsProper ∧ q.text = out := by
  obtain ⟨q, hq, rfl⟩ := exists_page_of_fits hstyle hp hfits h
  exact ⟨isModule_text hq, q, hq, rfl⟩

/-- What runs of changes make of a source, each of which fits the page that it meets. -/
inductive Reachable (style : Style) (source : Text) : Text → Prop
  | start : Reachable style source source
  | change {t : Text} {change : Change} {out : Text} (hrun : Reachable style source t)
    (hfits : ∀ q : Page, q.IsProper → q.text = t → change.Fits style q)
    (h : change.apply t style = .ok out) : Reachable style source out

/-- **No run of such changes leaves a file that is no module**, on which every later one would
fail. -/
theorem isModule_of_reachable (hstyle : style.IsProper) (hp : p.IsProper)
    (h : Reachable style p.text out) : isModule out := by
  have hpage : ∃ q : Page, q.IsProper ∧ q.text = out := by
    induction h with
    | start => exact ⟨p, hp, rfl⟩
    | change hrun hfits h ih =>
        obtain ⟨q, hq, rfl⟩ := ih
        exact exists_page_of_fits hstyle hq (hfits q hq rfl) h
  obtain ⟨q, hq, rfl⟩ := hpage
  exact isModule_text hq

/-! ### Changes of one page -/

theorem exists_page_of_change_headingPage :
    let image : Component := ⟨"logo", "img", "Logo", [("alt", .string "a logo")], [], .origin⟩
    let out := ("export default function Home() \x7b\n  return (\n    <main>\n"
      ++ "      <h1 data-component-id=\"title\">Hi\n"
      ++ "        <img data-component-id=\"logo\" alt=\"a logo\" />\n      </h1>\n"
      ++ "    </main>\n  );\n\x7d\n").toList
    Style.IsProper .standard ∧ headingPage.IsProper
      ∧ (Change.insert image (some [0])).Fits .standard headingPage
      ∧ (Change.insert image (some [0])).apply headingPage.text .standard = .ok out
      ∧ isModule out ∧ ∃ q : Page, q.IsProper ∧ q.text = out := by
  intro image out
  have hfits : (Change.insert image (some [0])).Fits .standard headingPage :=
    show image.isPrintable by decide +kernel
  have hout : (Change.insert image (some [0])).apply headingPage.text .standard = .ok out := by
    decide +kernel
  exact ⟨Markup.Style.isProper_standard, isProper_headingPage, hfits, hout,
    exists_page_of_change Markup.Style.isProper_standard isProper_headingPage hfits hout⟩

/-- A page is no module without the node that it gives back, nor is an element whose last attribute
is taken away together with the end of a comment. -/
theorem change_not_module :
    let rootOnly := "export default () => <a data-component-id=\"x\"/>;".toList
    let noted := "export default () => <a data-component-id=\"x\" // note\n b=\"1\"/>;".toList
    let empty := "export default () => ;".toList
    let swallowed := "export default () => <a data-component-id=\"x\" // note/>;".toList
    isModule rootOnly ∧ (Change.remove "x").apply rootOnly .standard = .ok empty ∧ ¬isModule empty
      ∧ isModule noted ∧ (Change.setProps "x" [("b", .null)]).apply noted .standard = .ok swallowed
      ∧ ¬isModule swallowed := by
  decide +kernel

end CanvasSync.Edit
